import DataMgr.Matrix.DeviceMatrix

/-! # Local changes stay until they are exchanged

A device is in at most one of `onLines_` and `offLines_`. `Online` and `Offline` move
its mask from the other map; a device that is not there gets the default mask, also
when it is in the map already. Only this rebuilding and an exchange take a bit away.
-/

namespace DataMgr.Matrix

open DataMgr.Foundation

def MatrixState.Apart (s : MatrixState) : Prop :=
  ∀ device, s.onLines device = none ∨ s.offLines device = none

/-- The device is in one of the maps with the bit set in its mask of the type. -/
def MatrixState.Owes (s : MatrixState) (device : String) (type : LevelType) (i : Nat) : Prop :=
  ∃ mask, (s.onLines device = some mask ∨ s.offLines device = some mask) ∧
    (mask.word type).getLsbD i = true

def DefaultBit (type : LevelType) (i : Nat) : Prop := (({} : Mask).word type).getLsbD i = true

/-- The step does not exchange the bit, as `CHANGE_LOCAL`, and does not forget all devices. -/
def KeepsLocal (device : String) (type : LevelType) (i : Nat) : MatrixAction → Prop
  | .onExchanged device' code type' change _ _ =>
      ¬ (device' = device ∧ type' = type ∧ code.getLsbD i = true ∧
        change &&& changeLocal = changeLocal)
  | .clear => False
  | _ => True

/-- A notification that the device is online comes when it is not online already, and so
for offline, unless the bit is a default bit. -/
def NotRepeated (device : String) (type : LevelType) (i : Nat) (s : MatrixState) :
    MatrixAction → Prop
  | .online device' => device' = device → s.onLines device ≠ none → DefaultBit type i
  | .offline device' => device' = device → s.offLines device ≠ none → DefaultBit type i
  | _ => True

/-- The calls that write `onLines_` or `offLines_`. -/
def MatrixAction.touchesLocal : MatrixAction → Bool
  | .online _ | .offline _ | .onChanged _ _ | .onExchanged _ _ _ _ _ _ | .clear => true
  | _ => false

open MatrixState

section

variable {cfg : MatrixConfig} {s : MatrixState}

theorem apart_online (h : s.Apart) (device : String) : (s.online cfg device).Apart := by
  intro d
  have hsame := s.updateMask_sameMasks cfg {}
  unfold online
  split
  · by_cases hd : d = device
    · subst hd
      simp
    · simpa [hd] using h d
  · rename_i hoff
    by_cases hd : d = device
    · subst hd
      simp [hsame.offLines, hoff]
    · simpa [hd, hsame.offLines] using h d

theorem apart_offline (h : s.Apart) (device : String) : (s.offline cfg device).Apart := by
  intro d
  have hsame := s.updateMask_sameMasks cfg {}
  unfold offline
  split
  · by_cases hd : d = device
    · subst hd
      simp
    · simpa [hd] using h d
  · rename_i hon
    by_cases hd : d = device
    · subst hd
      simp [hsame.onLines, hon]
    · simpa [hd, hsame.onLines] using h d

variable {type : LevelType} {a : MatrixAction} {device device' : String} {i : Nat}

theorem onChanged_local (cfg : MatrixConfig) (s : MatrixState) (code : Word) (h : type ≠ .butt)
    (device : String) :
    (s.onChanged cfg code type).onLines device =
        (s.onLines device).map (fun mask => mask.add code type) ∧
      (s.onChanged cfg code type).offLines device =
        (s.offLines device).map fun mask => mask.add code type := by
  unfold onChanged
  rw [if_neg h]
  split
  · exact ⟨rfl, rfl⟩
  · constructor
    · exact congrFun (updateMask_sameMasks _ cfg {}).onLines device
    · exact congrFun (updateMask_sameMasks _ cfg {}).offLines device

theorem onExchanged_local (cfg : MatrixConfig) (s : MatrixState) (device : String) (code : Word)
    (type : LevelType) (change : BitVec 32) (recvSaved consSaved : Bool) :
    let s' := s.onExchanged cfg device code type change recvSaved consSaved
    (s'.onLines = s.onLines ∧ s'.offLines = s.offLines) ∨
      change &&& changeLocal = changeLocal ∧
        s'.onLines = Function.update s.onLines device
          ((s.onLines device).map fun mask => mask.clear code type) ∧
        s'.offLines = Function.update s.offLines device
          ((s.offLines device).map fun mask => mask.clear code type) := by
  have hremote : ∀ t : MatrixState, ∀ mask : Mask,
      ((({ t with remotes := Function.update t.remotes device (some mask) } : MatrixState)
        ).updateConsistentMeta cfg device mask recvSaved consSaved).onLines = t.onLines ∧
      ((({ t with remotes := Function.update t.remotes device (some mask) } : MatrixState)
        ).updateConsistentMeta cfg device mask recvSaved consSaved).offLines = t.offLines := by
    intro t mask
    have hsame := updateConsistentMeta_sameMasks
      { t with remotes := Function.update t.remotes device (some mask) } cfg device mask
      recvSaved consSaved
    exact ⟨hsame.onLines, hsame.offLines⟩
  unfold onExchanged
  dsimp only
  split
  · exact .inl ⟨rfl, rfl⟩
  by_cases hlocal : change &&& changeLocal = changeLocal
  · refine .inr ⟨hlocal, ?_⟩
    split
    · split
      · exact ⟨rfl, rfl⟩
      · exact hremote _ _
    · exact ⟨rfl, rfl⟩
  · refine .inl ?_
    split
    · split
      · exact ⟨rfl, rfl⟩
      · exact hremote _ _
    · exact ⟨rfl, rfl⟩

/-- Every step but these five leaves both maps alone. -/
theorem apply_local_frame (cfg : MatrixConfig) (s : MatrixState) (h : a.touchesLocal = false) :
    (s.apply cfg a).onLines = s.onLines ∧ (s.apply cfg a).offLines = s.offLines := by
  cases a with
  | onBroadcast device networkId dataLevel switchesSaved saved =>
      have hsame := s.received_sameMasks cfg device networkId dataLevel switchesSaved saved
      simp only [MatrixState.apply, onBroadcast]
      split
      · exact ⟨rfl, rfl⟩
      · exact ⟨hsame.onLines, hsame.offLines⟩
  | updateLevel device level type isConsistent saved =>
      have hsame := s.updateLevel_sameMasks cfg device level type isConsistent saved
      exact ⟨hsame.onLines, hsame.offLines⟩
  | broadcast dataLevel =>
      simp only [apply, broadcast]
      split <;> exact ⟨rfl, rfl⟩
  | runResetTask =>
      simp only [apply]
      split <;> exact ⟨rfl, rfl⟩
  | observed matrixMeta =>
      simp only [apply, observed]
      split <;> exact ⟨rfl, rfl⟩
  | online | offline | onChanged | onExchanged | clear => cases h
  | evictMatrix | evictVersion | localMetaWritten | syncMetaWritten | switchesWritten =>
      exact ⟨rfl, rfl⟩

theorem apart_frame (h : s.Apart) (ha : a.touchesLocal = false) :
    (s.apply cfg a).Apart := by
  intro d
  obtain ⟨hon, hoff⟩ := apply_local_frame cfg s ha
  rw [hon, hoff]
  exact h d

theorem apart_apply (h : s.Apart) (a : MatrixAction) : (s.apply cfg a).Apart := by
  cases a with
  | online device => exact apart_online h device
  | offline device => exact apart_offline h device
  | onChanged code type =>
      intro d
      by_cases htype : type = .butt
      · simpa [apply, onChanged, htype] using h d
      · obtain ⟨hon, hoff⟩ := onChanged_local cfg s code htype d
        simpa [apply, hon, hoff] using h d
  | onExchanged device code type change recvSaved consSaved =>
      intro d
      rcases onExchanged_local cfg s device code type change recvSaved consSaved with
        ⟨hon, hoff⟩ | ⟨-, hon, hoff⟩
      · simpa [apply, hon, hoff] using h d
      · by_cases hd : d = device
        · subst hd
          simpa [apply, hon, hoff] using h d
        · simpa [apply, hon, hoff, hd] using h d
  | clear => exact fun _ => .inl rfl
  | _ => exact apart_frame h rfl

theorem MatrixState.Owes.of_masks {s' : MatrixState} (h : s.Owes device type i)
    (hon : ∀ mask, s.onLines device = some mask → (mask.word type).getLsbD i = true →
      ∃ mask', s'.onLines device = some mask' ∧ (mask'.word type).getLsbD i = true)
    (hoff : ∀ mask, s.offLines device = some mask → (mask.word type).getLsbD i = true →
      ∃ mask', s'.offLines device = some mask' ∧ (mask'.word type).getLsbD i = true) :
    s'.Owes device type i := by
  obtain ⟨mask, hmask | hmask, hbit⟩ := h
  · obtain ⟨mask', hmask', hbit'⟩ := hon mask hmask hbit
    exact ⟨mask', .inl hmask', hbit'⟩
  · obtain ⟨mask', hmask', hbit'⟩ := hoff mask hmask hbit
    exact ⟨mask', .inr hmask', hbit'⟩

theorem owes_online (hi : i < 4) (hapart : s.Apart) (h : s.Owes device type i)
    (hguard : NotRepeated device type i s (.online device')) :
    (s.online cfg device').Owes device type i := by
  have hsame := s.updateMask_sameMasks cfg {}
  obtain ⟨mask, hmask, hbit⟩ := h
  by_cases hd : device' = device
  · subst hd
    rcases hmask with hon | hoff
    · have hnone : s.offLines device' = none := (hapart device').resolve_left (by simp [hon])
      have hdefault : DefaultBit type i := hguard rfl (by simp [hon])
      refine ⟨(s.updateMask cfg {}).1, .inl ?_, ?_⟩
      · simp [online, hnone]
      · rw [s.updateMask_bit cfg {} type hi]
        exact hdefault
    · exact ⟨mask, .inl (by simp [online, hoff]), hbit⟩
  · refine ⟨mask, ?_, hbit⟩
    cases hoff : s.offLines device' with
    | some other => simpa [online, hoff, Ne.symm hd] using hmask
    | none => simpa [online, hoff, Ne.symm hd, hsame.offLines] using hmask

theorem owes_offline (hi : i < 4) (hapart : s.Apart) (h : s.Owes device type i)
    (hguard : NotRepeated device type i s (.offline device')) :
    (s.offline cfg device').Owes device type i := by
  have hsame := s.updateMask_sameMasks cfg {}
  obtain ⟨mask, hmask, hbit⟩ := h
  by_cases hd : device' = device
  · subst hd
    rcases hmask with hon | hoff
    · exact ⟨mask, .inr (by simp [offline, hon]), hbit⟩
    have hnone : s.onLines device' = none := (hapart device').resolve_right (by simp [hoff])
    have hdefault : DefaultBit type i := hguard rfl (by simp [hoff])
    refine ⟨(s.updateMask cfg {}).1, .inr ?_, ?_⟩
    · simp [offline, hnone]
    · rw [s.updateMask_bit cfg {} type hi]
      exact hdefault
  · refine ⟨mask, ?_, hbit⟩
    cases hon : s.onLines device' with
    | some other => simpa [offline, hon, Ne.symm hd] using hmask
    | none => simpa [offline, hon, Ne.symm hd, hsame.onLines] using hmask

theorem owes_onExchanged {type' : LevelType} {code : Word} {change : BitVec 32}
    {recvSaved consSaved : Bool} (h : s.Owes device type i) (hkeeps : KeepsLocal device type i
      (.onExchanged device' code type' change recvSaved consSaved)) :
    (s.onExchanged cfg device' code type' change recvSaved consSaved).Owes device type i := by
  rcases onExchanged_local cfg s device' code type' change recvSaved consSaved with
    ⟨hon, hoff⟩ | ⟨hlocal, hon, hoff⟩
  · simpa [MatrixState.Owes, hon, hoff] using h
  · by_cases hd : device = device'
    · subst hd
      have hnot : ¬ (type' = type ∧ code.getLsbD i = true) := fun hboth =>
        hkeeps ⟨rfl, hboth.1, hboth.2, hlocal⟩
      apply h.of_masks
      · intro mask hmask hbit
        exact ⟨mask.clear code type', by simp [hon, hmask], Mask.clear_bit hbit hnot⟩
      · intro mask hmask hbit
        exact ⟨mask.clear code type', by simp [hoff, hmask], Mask.clear_bit hbit hnot⟩
    · simpa [MatrixState.Owes, hon, hoff, hd] using h

theorem owes_onChanged (h : s.Owes device type i) (code : Word) (changed : LevelType) :
    (s.onChanged cfg code changed).Owes device type i := by
  by_cases htype : changed = .butt
  · simpa [onChanged, htype] using h
  obtain ⟨hon, hoff⟩ := onChanged_local cfg s code htype device
  apply h.of_masks
  · intro mask hmask hbit
    exact ⟨mask.add code changed, by simp [hon, hmask], Mask.add_bit code changed hbit⟩
  · intro mask hmask hbit
    exact ⟨mask.add code changed, by simp [hoff, hmask], Mask.add_bit code changed hbit⟩

theorem owes_frame (h : s.Owes device type i) (ha : a.touchesLocal = false) :
    (s.apply cfg a).Owes device type i := by
  obtain ⟨hon, hoff⟩ := apply_local_frame cfg s ha
  simpa [MatrixState.Owes, hon, hoff] using h

variable (hi : i < 4)

include hi

theorem owes_apply (hapart : s.Apart) (h : s.Owes device type i)
    (hkeeps : KeepsLocal device type i a) (hguard : NotRepeated device type i s a) :
    (s.apply cfg a).Owes device type i := by
  cases a with
  | online device' => exact owes_online hi hapart h hguard
  | offline device' => exact owes_offline hi hapart h hguard
  | onChanged code changed => exact owes_onChanged h code changed
  | onExchanged device' code type' change recvSaved consSaved => exact owes_onExchanged h hkeeps
  | clear => exact hkeeps.elim
  | _ => exact owes_frame h rfl

theorem owes_apply_iff (hapart : s.Apart) (h : s.Owes device type i)
    (hkeeps : KeepsLocal device type i a) :
    (s.apply cfg a).Owes device type i ↔ NotRepeated device type i s a := by
  constructor
  · intro howes
    cases a with
    | online device' =>
        rintro rfl hthere
        have hoff : s.offLines device' = none := (hapart device').resolve_left hthere
        obtain ⟨mask, hmask, hbit⟩ := howes
        simp only [MatrixState.apply, online, hoff, Function.update_self,
          (s.updateMask_sameMasks cfg {}).offLines, reduceCtorEq, or_false, Option.some.injEq]
          at hmask
        subst hmask
        rwa [s.updateMask_bit cfg {} type hi] at hbit
    | offline device' =>
        rintro rfl hthere
        have hon : s.onLines device' = none := (hapart device').resolve_right hthere
        obtain ⟨mask, hmask, hbit⟩ := howes
        simp only [MatrixState.apply, offline, hon, Function.update_self,
          (s.updateMask_sameMasks cfg {}).onLines, reduceCtorEq, false_or,
          Option.some.injEq] at hmask
        subst hmask
        rwa [s.updateMask_bit cfg {} type hi] at hbit
    | _ => trivial
  · exact owes_apply hi hapart h hkeeps

theorem owes_of_onChanged {code : Word} (htype : type ≠ .butt)
    (hknown : s.onLines device ≠ none ∨ s.offLines device ≠ none) (hbit : code.getLsbD i = true) :
    (s.onChanged cfg code type).Owes device type i := by
  obtain ⟨hon, hoff⟩ := onChanged_local cfg s code htype device
  have hadded : ∀ mask : Mask, ((mask.add code type).word type).getLsbD i = true := by
    intro mask
    simp [Mask.word_add mask code htype, getLsbD_codes, hbit, hi]
  rcases hknown with h | h
  · obtain ⟨mask, hmask⟩ := Option.ne_none_iff_exists'.mp h
    exact ⟨mask.add code type, .inl (by simp [hon, hmask]), hadded mask⟩
  · obtain ⟨mask, hmask⟩ := Option.ne_none_iff_exists'.mp h
    exact ⟨mask.add code type, .inr (by simp [hoff, hmask]), hadded mask⟩

end

/-- In every state reached the two maps are apart; a step that does not exchange an owed
bit keeps it owed exactly when it is no repeated notification for a device that owes it
beyond the defaults; and the bits of a change stay owed to every device known at the
time through every run without such a notification in which they are not exchanged. -/
theorem local_changes_kept (cfg : MatrixConfig)
    (localMeta syncMeta : String → Option MatrixMetaData)
    (switchesMeta : String → Option SwitchesMetaData) (schedule : List MatrixAction)
    (s : MatrixState)
    (hrun : (matrixMachine cfg).exec (.init localMeta syncMeta switchesMeta) schedule = some s) :
    s.Apart ∧
      (∀ (device : String) (type : LevelType) (i : Nat) (a : MatrixAction), i < 4 →
        s.Owes device type i → KeepsLocal device type i a →
        ((s.apply cfg a).Owes device type i ↔ NotRepeated device type i s a)) ∧
      ∀ (device : String) (code : Word) (type : LevelType) (i : Nat) (rest : List MatrixAction)
        (s' : MatrixState), type ≠ .butt →
        s.onLines device ≠ none ∨ s.offLines device ≠ none → (low code).getLsbD i = true →
        (∀ a ∈ rest, KeepsLocal device type i a) →
        (matrixMachine cfg).Guarded (NotRepeated device type i) (s.onChanged cfg code type) rest →
        (matrixMachine cfg).exec s (.onChanged code type :: rest) = some s' →
        s'.Owes device type i := by
  have hapart : s.Apart := by
    refine (matrixMachine cfg).exec_invariant ?_ (fun _ => .inl rfl) hrun
    intro t a t' ht hstep
    cases hstep
    exact apart_apply ht a
  refine ⟨hapart, fun device type i a hi => owes_apply_iff hi hapart, ?_⟩
  intro device code type i rest s' htype hknown hbit hkeeps hguard hexec
  rw [getLsbD_low, Bool.and_eq_true, decide_eq_true_eq] at hbit
  obtain ⟨t, hstep, hrest⟩ := (matrixMachine cfg).exec_cons_eq_some.mp hexec
  cases hstep
  have hstart : (s.onChanged cfg code type).Apart ∧
      (s.onChanged cfg code type).Owes device type i :=
    ⟨apart_apply hapart (.onChanged code type), owes_of_onChanged hbit.2 htype hknown hbit.1⟩
  have hkept := (matrixMachine cfg).guarded_of_mem hkeeps (s.onChanged cfg code type)
  have hpreserved : ∀ t a t', t.Apart ∧ t.Owes device type i →
      NotRepeated device type i t a ∧ KeepsLocal device type i a →
      (matrixMachine cfg).step t a = some t' → t'.Apart ∧ t'.Owes device type i := by
    intro t a t' ht hg hstep
    cases hstep
    exact ⟨apart_apply ht.1 a, owes_apply hbit.2 ht.1 ht.2 hg.2 hg.1⟩
  exact ((matrixMachine cfg).exec_guarded_invariant hpreserved hstart (hguard.and hkept) hrest).2

/-- A change of every dynamic store is still owed after the device went offline and came back. -/
theorem local_changes_kept_while_away :
    let cfg : MatrixConfig := ⟨"here", 1, "meta", ["distributeddata"], []⟩
    let fresh := init (fun _ => none) (fun _ => none) (fun _ => none)
    (fresh.online cfg "a").Apart ∧
      ((((fresh.online cfg "a").onChanged cfg 0x000F#16 .dynamic).offline cfg "a").online cfg
        "a").Owes "a" .dynamic 3 := by
  intro cfg fresh
  obtain ⟨hapart, -, hkept⟩ := local_changes_kept cfg (fun _ => none) (fun _ => none)
    (fun _ => none) [.online "a"] (fresh.online cfg "a") rfl
  refine ⟨hapart, hkept "a" 0x000F#16 .dynamic 3 [.offline "a", .online "a"] _ (by decide)
    (.inl (by simp [online, fresh, init])) (by decide) ?_ ?_ rfl⟩
  · intro a ha
    simp only [List.mem_cons, List.not_mem_nil, or_false] at ha
    rcases ha with rfl | rfl <;> trivial
  · refine ⟨fun _ hoff => absurd rfl hoff, fun t ht => ⟨fun _ hon => ?_, fun _ _ => trivial⟩⟩
    cases ht
    exact absurd rfl hon

/-- A second notification that the device is online drops the change of the fourth
dynamic store. -/
theorem repeated_online_drops_change :
    let cfg : MatrixConfig := ⟨"here", 1, "meta", ["distributeddata", "p", "q", "r"], []⟩
    let fresh := init (fun _ => none) (fun _ => none) (fun _ => none)
    let changed := (fresh.online cfg "a").onChanged cfg 0x0008#16 .dynamic
    changed.getMask "a" .dynamic = (true, 0x000F#16) ∧
      (matrixMachine cfg).exec fresh [.online "a", .onChanged 0x0008#16 .dynamic, .online "a"] =
        some (changed.online cfg "a") ∧
      (changed.online cfg "a").getMask "a" .dynamic = (true, 0x0007#16) ∧
      ¬ (changed.online cfg "a").Owes "a" .dynamic 3 := by
  intro cfg fresh changed
  refine ⟨by decide +kernel, rfl, by decide +kernel, ?_⟩
  rintro ⟨mask, hmask | hmask, hbit⟩
  · have hlow : (changed.online cfg "a").onLines "a" = some {} := by decide +kernel
    cases hmask
    exact absurd hbit (by decide)
  · have hnone : (changed.online cfg "a").offLines "a" = none := by decide +kernel
    cases hmask

end DataMgr.Matrix
