import DataMgr.Matrix.DeviceMatrix

/-! # Remote changes stay until they are exchanged

Each broadcast computes its mask afresh from the word, the version of the sender and
the levels received before. Whatever comes out, the low bits of the mask it replaces are
or-ed into it under the lock, so a pending bit goes only with an exchange.
-/

namespace DataMgr.Matrix

open DataMgr.Foundation

def MatrixState.Pending (s : MatrixState) (device : String) (type : LevelType) (i : Nat) : Prop :=
  ∃ mask, s.remotes device = some mask ∧ (mask.word type).getLsbD i = true

/-- The word of a type in what `OnBroadcast` returns. -/
def answeredWord (answer : Word × Word) : LevelType → Word
  | .statics => answer.2
  | .dynamic => answer.1
  | .butt => 0#16

/-- The step does not exchange the bit, as `CHANGE_REMOTE`, and does not forget all devices. -/
def KeepsRemote (device : String) (type : LevelType) (i : Nat) : MatrixAction → Prop
  | .onExchanged device' code type' change _ _ =>
      ¬ (device' = device ∧ type' = type ∧ code.getLsbD i = true ∧
        change &&& changeRemote = changeRemote)
  | .clear => False
  | _ => True

/-- The calls that write `remotes_`. -/
def MatrixAction.touchesRemote : MatrixAction → Bool
  | .onBroadcast _ _ _ _ _ | .onExchanged _ _ _ _ _ _ | .clear => true
  | _ => false

open MatrixState

variable (cfg : MatrixConfig) (s : MatrixState)

theorem onChanged_remotes (code : Word) (type : LevelType) :
    (s.onChanged cfg code type).remotes = s.remotes := by
  unfold onChanged
  split
  · rfl
  · split
    · rfl
    · exact (updateMask_sameMasks _ cfg {}).remotes

theorem apply_remote_frame {a : MatrixAction} (h : a.touchesRemote = false) :
    (s.apply cfg a).remotes = s.remotes := by
  cases a with
  | online device =>
      simp only [apply, online]
      split
      · rfl
      · exact (s.updateMask_sameMasks cfg {}).remotes
  | offline device =>
      simp only [apply, offline]
      split
      · rfl
      · exact (s.updateMask_sameMasks cfg {}).remotes
  | onChanged code type => exact onChanged_remotes cfg s code type
  | updateLevel device level type isConsistent saved =>
      exact (s.updateLevel_sameMasks cfg device level type isConsistent saved).remotes
  | broadcast dataLevel =>
      simp only [apply, broadcast]
      split <;> rfl
  | runResetTask =>
      simp only [apply]
      split <;> rfl
  | observed matrixMeta =>
      simp only [apply, observed]
      split <;> rfl
  | onBroadcast | onExchanged | clear => cases h
  | evictMatrix | evictVersion | localMetaWritten | syncMetaWritten | switchesWritten => rfl

theorem onExchanged_remotes (device : String) (code : Word) (type : LevelType)
    (change : BitVec 32) (recvSaved consSaved : Bool) :
    (s.onExchanged cfg device code type change recvSaved consSaved).remotes = s.remotes ∨
      ∃ mask, change &&& changeRemote = changeRemote ∧ s.remotes device = some mask ∧
        (s.onExchanged cfg device code type change recvSaved consSaved).remotes =
          Function.update s.remotes device (some (mask.clear code type)) := by
  unfold onExchanged
  dsimp only
  split
  · exact .inl rfl
  generalize ht : (if change &&& changeLocal = changeLocal then _ else s) = t
  have hremotes : t.remotes = s.remotes := by
    rw [← ht]
    split <;> rfl
  split
  · rename_i hremote
    cases hmask : t.remotes device with
    | none => exact .inl hremotes
    | some mask =>
        refine .inr ⟨mask, hremote, hremotes ▸ hmask, ?_⟩
        rw [← hremotes]
        exact (updateConsistentMeta_sameMasks _ cfg device _ recvSaved
          consSaved).remotes
  · exact .inl hremotes

section

variable {cfg : MatrixConfig} {s : MatrixState} {device : String} {type : LevelType} {i : Nat}

theorem pending_onBroadcast (hi : i < 4) (h : s.Pending device type i) (device' networkId : String)
    (dataLevel : DataLevel) (switchesSaved saved : Bool) :
    (s.onBroadcast cfg device' networkId dataLevel switchesSaved saved).2.Pending device type
      i := by
  have hsame := s.received_sameMasks cfg device' networkId dataLevel switchesSaved saved
  obtain ⟨mask, hmask, hbit⟩ := h
  unfold onBroadcast
  split
  · exact ⟨mask, hmask, hbit⟩
  dsimp only
  rw [hsame.remotes]
  by_cases hd : device = device'
  · subst hd
    refine ⟨_, Function.update_self _ _ _, ?_⟩
    rw [hmask]
    exact Mask.keep_bit _ mask type hi hbit
  · exact ⟨mask, (Function.update_of_ne hd _ _).trans hmask, hbit⟩

theorem pending_onExchanged {device' : String} {code : Word} {type' : LevelType}
    {change : BitVec 32} {recvSaved consSaved : Bool} (h : s.Pending device type i)
    (hkeeps : KeepsRemote device type i
      (.onExchanged device' code type' change recvSaved consSaved)) :
    (s.onExchanged cfg device' code type' change recvSaved consSaved).Pending device type i := by
  obtain ⟨mask, hmask, hbit⟩ := h
  rcases onExchanged_remotes cfg s device' code type' change recvSaved consSaved with
    hsame | ⟨old, hremote, hold, hnew⟩
  · exact ⟨mask, by rw [hsame, hmask], hbit⟩
  · by_cases hd : device = device'
    · subst hd
      rw [hmask] at hold
      cases hold
      have hnot : ¬ (type' = type ∧ code.getLsbD i = true) := fun hboth =>
        hkeeps ⟨rfl, hboth.1, hboth.2, hremote⟩
      exact ⟨mask.clear code type', by rw [hnew, Function.update_self], Mask.clear_bit hbit hnot⟩
    · exact ⟨mask, by rw [hnew, Function.update_of_ne hd, hmask], hbit⟩

theorem pending_apply (hi : i < 4) {a : MatrixAction} (h : s.Pending device type i)
    (hkeeps : KeepsRemote device type i a) : (s.apply cfg a).Pending device type i := by
  have hframe : ∀ {b : MatrixAction}, b.touchesRemote = false →
      (s.apply cfg b).Pending device type i := by
    intro b hb
    obtain ⟨mask, hmask, hbit⟩ := h
    exact ⟨mask, by rw [apply_remote_frame cfg s hb, hmask], hbit⟩
  cases a with
  | onBroadcast device' networkId dataLevel switchesSaved saved =>
      exact pending_onBroadcast hi h device' networkId dataLevel switchesSaved saved
  | onExchanged device' code type' change recvSaved consSaved =>
      exact pending_onExchanged h hkeeps
  | clear => exact hkeeps.elim
  | _ => exact hframe rfl

theorem pending_of_answered {networkId : String} {dataLevel : DataLevel}
    {switchesSaved saved : Bool} (hdevice : device ≠ "") (hnetwork : networkId ≠ "")
    (hvalid : dataLevel.isValid = true)
    (hbit : (answeredWord
      (s.onBroadcast cfg device networkId dataLevel switchesSaved saved).1 type).getLsbD i = true) :
    (s.onBroadcast cfg device networkId dataLevel switchesSaved saved).2.Pending device type i := by
  have hguard : ¬ (device = "" ∨ networkId = "" ∨ dataLevel.isValid = false) := by
    simp [hdevice, hnetwork, hvalid]
  simp only [onBroadcast, if_neg hguard] at hbit ⊢
  refine ⟨_, Function.update_self _ _ _, ?_⟩
  cases type with
  | statics => exact hbit
  | dynamic => exact hbit
  | butt => simp [answeredWord] at hbit

theorem MatrixState.Pending.getRemoteMask (h : s.Pending device type i) (hi : i < 4) :
    ∃ mask, s.getRemoteMask device type = (true, mask) ∧ mask.getLsbD i = true := by
  obtain ⟨mask, hmask, hbit⟩ := h
  have htype : type ≠ .butt := by
    rintro rfl
    simp [Mask.word] at hbit
  refine ⟨low (mask.word type), by simp [MatrixState.getRemoteMask, hmask, htype], ?_⟩
  rw [getLsbD_low, hbit]
  simpa using hi

end

/-- Every low bit that a valid broadcast returns is reported as pending in every later
state, as long as it is not exchanged and nothing clears the matrix. -/
theorem remote_changes_kept (cfg : MatrixConfig) (s s' : MatrixState) (device networkId : String)
    (dataLevel : DataLevel) (switchesSaved saved : Bool) (rest : List MatrixAction)
    (type : LevelType) (i : Nat) (hdevice : device ≠ "") (hnetwork : networkId ≠ "")
    (hvalid : dataLevel.isValid = true)
    (hbit : (low (answeredWord
      (s.onBroadcast cfg device networkId dataLevel switchesSaved saved).1 type)).getLsbD i = true)
    (hkeeps : ∀ a ∈ rest, KeepsRemote device type i a)
    (hrun : (matrixMachine cfg).exec s
      (.onBroadcast device networkId dataLevel switchesSaved saved :: rest) = some s') :
    ∃ mask, s'.getRemoteMask device type = (true, mask) ∧ mask.getLsbD i = true := by
  rw [getLsbD_low, Bool.and_eq_true, decide_eq_true_eq] at hbit
  obtain ⟨t, hstep, hrest⟩ := (matrixMachine cfg).exec_cons_eq_some.mp hrun
  cases hstep
  have hstart := pending_of_answered hdevice hnetwork hvalid hbit.1
  have hpreserved : ∀ t a t', t.Pending device type i → KeepsRemote device type i a →
      (matrixMachine cfg).step t a = some t' → t'.Pending device type i := by
    intro t a t' ht hkeep hstep
    cases hstep
    exact pending_apply hbit.2 ht hkeep
  have hend := (matrixMachine cfg).exec_guarded_invariant hpreserved hstart
    ((matrixMachine cfg).guarded_of_mem hkeeps _) hrest
  exact hend.getRemoteMask hbit.2

/-- The first broadcast of a device leaves its stores pending through a later broadcast
without changes and an exchange of the other type. -/
theorem remote_changes_kept_after_two_broadcasts :
    let cfg : MatrixConfig := ⟨"here", 1, "meta", ["distributeddata", "p"], []⟩
    let fresh := init (fun _ => none) (fun _ => none) (fun _ => none)
    let first : MatrixAction := .onBroadcast "a" "net" { dynamic := 0x0002#16 } true true
    let rest : List MatrixAction :=
      [.onBroadcast "a" "net" { dynamic := 0x0000#16 } true true,
        .onExchanged "a" 0x000F#16 .statics changeAll true true]
    ∃ s', (matrixMachine cfg).exec fresh (first :: rest) = some s' ∧
      ∃ mask, s'.getRemoteMask "a" .dynamic = (true, mask) ∧ mask.getLsbD 1 = true := by
  intro cfg fresh first rest
  refine ⟨_, rfl, remote_changes_kept cfg fresh _ "a" "net" { dynamic := 0x0002#16 } true true rest
    .dynamic 1 (by decide) (by decide) (by decide) (by decide +kernel) ?_ rfl⟩
  intro a ha
  simp only [rest, List.mem_cons, List.not_mem_nil, or_false] at ha
  rcases ha with rfl | rfl
  · trivial
  · exact fun h => absurd h.2.1 (by decide)

end DataMgr.Matrix
