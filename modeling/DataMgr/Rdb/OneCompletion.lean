import DataMgr.Rdb.CallbackCustody

/-! # Every accepted sync completes once

As long as no finish task looks its sync up before `DoCloudSync` has inserted it, an
accepted sync keeps its custody. Once the database has sent FINISHED, a finish task has
found the sync finished or `RemoveTasks` has swept the map, the callback is in no
entry and will never be again: it is with a party about to call it, or has been called.
-/

namespace DataMgr.Rdb

open DataMgr.Foundation Machine

variable (s : StoreState) (k : SyncId)

def StoreCall.phase : StoreCall → Nat
  | .insert syncId _ | .sync syncId _ | .reject syncId => if syncId = k then 1 else 0
  | _ => 0

/-- `DoCloudSync` may still see the sync accepted. -/
def StoreCall.Awaits : StoreCall → Prop
  | .insert syncId _ => syncId = k
  | .sync syncId isCompensation => syncId = k ∧ isCompensation = false
  | _ => False

open StoreCall

namespace StoreState

/-- How many calls of `DoCloudSync` the sync is in, its acceptance included. -/
def phase : Nat :=
  (s.calls.map (StoreCall.phase k)).sum + s.accepted.count k

def Live : Prop :=
  k ∈ s.accepted ∨ ∃ call ∈ s.calls, call.Awaits k

def Past : Prop :=
  k ≤ s.syncTaskId ∧ ∀ id, .insert k id ∉ s.calls

/-- The callback has left its entry for good. -/
def Settled : Prop := s.Past k ∧ held s.tasks k = 0

def Swept : Prop :=
  s.delegate = false ∧ ∀ k, k ≤ s.syncTaskId → s.Settled k

def CallOk : StoreCall → Prop
  | .find k _ => k ≤ s.syncTaskId
  | .check k _ | .rearm k _ | .take k _ => s.Past k
  | .erase k _ => s.Settled k
  | .removeTasks => s.delegate = false
  | .stopTimers .. | .finishAll _ => s.Swept
  | _ => True

structure LiveInv (s : StoreState) : Prop where
  custody : s.CustodyInv
  phase : ∀ k, s.phase k ≤ 1
  unused : ∀ k, s.syncTaskId < k → s.phase k = 0
  live : ∀ k, s.Live k → s.custody k = 1
  delegate : s.delegate = false → ∀ call ∈ s.calls, call.inDoCloudSync = false
  calls : ∀ call ∈ s.calls, s.CallOk call
  timers : ∀ timer ∈ s.timers, timer.2 ≤ s.syncTaskId
  started : ∀ k ∈ s.started, s.Past k
  sent : ∀ k ∈ s.sent, s.Settled k
  found : ∀ k ∈ s.found, s.Settled k ∨ ∃ id, .take k id ∈ s.calls
  removed : s.removed = true → s.Swept

variable {s s' : StoreState} {k : SyncId} {i : Nat} {answer : Bool}

structure Later (s s' : StoreState) : Prop where
  counter : s.syncTaskId ≤ s'.syncTaskId
  past : ∀ k, s.Past k → s'.Past k
  settled : ∀ k, s.Settled k → s'.Settled k
  closed : s.delegate = false → s'.delegate = false ∧ s'.syncTaskId = s.syncTaskId

theorem Swept.later (h : s.Swept) (hlater : s.Later s') : s'.Swept := by
  obtain ⟨hclosed, hcounter⟩ := hlater.closed h.1
  refine ⟨hclosed, ?_⟩
  rw [hcounter]
  exact fun k hk => hlater.settled k (h.2 k hk)

variable {c : StoreCall} {next : Option StoreCall} {syncId : SyncId} {taskId : TaskId}

theorem CallOk.later (h : s.CallOk c) (hlater : s.Later s') : s'.CallOk c := by
  cases c with
  | find k id => exact le_trans h hlater.counter
  | check k id => exact hlater.past k h
  | rearm k id => exact hlater.past k h
  | take k id => exact hlater.past k h
  | erase k id => exact hlater.settled k h
  | removeTasks => exact (hlater.closed h).1
  | stopTimers ids cbs => exact Swept.later h hlater
  | finishAll cbs => exact Swept.later h hlater
  | insert | sync | reject | deliver => trivial

theorem later_of_inserts (hcounter : s.syncTaskId ≤ s'.syncTaskId)
    (hinserts : ∀ k id, .insert k id ∈ s'.calls → .insert k id ∈ s.calls ∨ s.syncTaskId < k)
    (hheld : ∀ k, s.Past k → held s'.tasks k ≤ held s.tasks k)
    (hclosed : s.delegate = false → s'.delegate = false ∧ s'.syncTaskId = s.syncTaskId) :
    s.Later s' := by
  have hpast : ∀ k, s.Past k → s'.Past k := by
    intro k hk
    refine ⟨hk.1.trans hcounter, ?_⟩
    intro id hmem
    rcases hinserts k id hmem with hold | hnew
    · exact hk.2 id hold
    · exact absurd hk.1 (Nat.not_le_of_lt hnew)
  refine ⟨hcounter, hpast, ?_, hclosed⟩
  intro k hk
  exact ⟨hpast k hk.1, Nat.le_zero.mp (hk.2 ▸ hheld k hk.1)⟩

theorem Moved.inserts (h : s.Moved i c s' next) {id : TaskId} (hmem : .insert k id ∈ s'.calls) :
    .insert k id ∈ s.calls := by
  rw [h.calls] at hmem
  exact (mem_advance hmem).resolve_left (h.noInsert k id)

theorem Moved.later (hinv : s.CustodyInv) (hcall : s.calls[i]? = some c) (h : s.Moved i c s' next) :
    s.Later s' := by
  refine later_of_inserts (le_of_eq h.counter.symm) (fun k id hmem => .inl (h.inserts hmem)) ?_
    fun hclosed => ⟨h.delegate.trans hclosed, h.counter⟩
  intro k hk
  rcases h.tasks with hshrinks | ⟨j, id, rfl, htasks⟩
  · exact hshrinks.held_le k
  have hmem := List.mem_of_getElem? hcall
  have hne : k ≠ j := by
    rintro rfl
    exact hk.2 id hmem
  rw [htasks, held_insertIfNew (hinv.waiting j id hmem), if_neg hne]

theorem Joined.later {more : List StoreCall} (h : s.Joined s' more)
    (hdelegate : s.delegate = false → s'.delegate = false) : s.Later s' := by
  refine later_of_inserts (le_of_eq h.counter.symm) ?_ (fun k _ => h.tasks.held_le k)
    fun hclosed => ⟨hdelegate hclosed, h.counter⟩
  intro k id hmem
  rw [h.calls] at hmem
  exact .inl ((List.mem_append.mp hmem).resolve_right (h.noInsert k id))

theorem Entered.later (h : s.Entered s' c) : s.Later s' := by
  refine later_of_inserts (by rw [h.counter]; exact Nat.le_succ _) ?_
    (fun k _ => by rw [h.tasks]) fun hclosed => ?_
  · intro k id hmem
    rw [h.calls] at hmem
    rcases List.mem_append.mp hmem with hold | hnew
    · exact .inl hold
    rcases h.call with rfl | ⟨taskId, rfl⟩
    · cases List.mem_singleton.mp hnew
    · cases List.mem_singleton.mp hnew
      exact .inr (Nat.lt_succ_self _)
  · rw [h.delegate.1] at hclosed
    cases hclosed

theorem phase_moved (hcall : s.calls[i]? = some c) (h : s.Moved i c s' next)
    (hphase : next.elim 0 (StoreCall.phase k) + s'.accepted.count k ≤
      c.phase k + s.accepted.count k) : s'.phase k ≤ s.phase k := by
  have hsum := sum_advance (StoreCall.phase k) next hcall
  rw [← h.calls] at hsum
  rw [phase, phase]
  omega

/-- A sync that may still be accepted, or was, is not the one being refused. -/
theorem LiveInv.not_reject (h : s.LiveInv) (hcall : .reject k ∈ s.calls) : ¬ s.Live k := by
  have hone : StoreCall.phase k (.reject k) = 1 := if_pos rfl
  have hphase := h.phase k
  rw [StoreState.phase] at hphase
  rintro (haccepted | ⟨call, hmem, hawaits⟩)
  · have hreject := List.le_sum_of_mem (List.mem_map_of_mem (f := StoreCall.phase k) hcall)
    have hcount := List.count_pos_iff.mpr haccepted
    omega
  have hother : call.phase k = 1 ∧ call ≠ .reject k := by
    cases call with
    | insert j id => exact ⟨if_pos hawaits, nofun⟩
    | sync j isCompensation => exact ⟨if_pos hawaits.1, nofun⟩
    | reject | find | erase | check | rearm | take | deliver | removeTasks | stopTimers
    | finishAll => exact hawaits.elim
  have hboth := add_le_sum_of_mem (StoreCall.phase k) hcall hmem hother.2
  omega

theorem LiveInv.moved (h : s.LiveInv) (next : Option StoreCall) (hcall : s.calls[i]? = some c)
    (hmoved : s.Moved i c s' next)
    (hphase : ∀ k, next.elim 0 (StoreCall.phase k) + s'.accepted.count k ≤
      c.phase k + s.accepted.count k)
    (hlive : ∀ k, k ∈ s'.accepted ∨ (∃ call, next = some call ∧ call.Awaits k) →
      k ∈ s.accepted ∨ c.Awaits k)
    (hsync : ∀ call, next = some call → call.inDoCloudSync = true → c.inDoCloudSync = true)
    (hnext : s.Later s' → ∀ call, next = some call → s'.CallOk call)
    (htimers : ∀ timer ∈ s'.timers, timer.2 ≤ s.syncTaskId)
    (hstarted : ∀ k ∈ s'.started, k ∈ s.started ∨ s'.Past k) (hsent : s'.sent = s.sent)
    (hfound : ∀ k ∈ s'.found, k ∈ s.found ∨ ∃ id, next = some (.take k id))
    (htake : ∀ k id, c = .take k id → s'.Settled k)
    (hremoved : s'.removed = true → s.removed = true ∨ s'.Swept) : s'.LiveInv := by
  have hlater := hmoved.later h.custody hcall
  have hmem := List.mem_of_getElem? hcall
  have hcalls : ∀ call ∈ s'.calls, next = some call ∨ call ∈ s.calls := by
    intro call hin
    rw [hmoved.calls] at hin
    exact mem_advance hin
  refine ⟨h.custody.moved hcall hmoved,
    fun k => (phase_moved hcall hmoved (hphase k)).trans (h.phase k), ?_, ?_, ?_, ?_, ?_, ?_, ?_,
      ?_, ?_⟩
  · rw [hmoved.counter]
    exact fun k hk => Nat.le_zero.mp (h.unused k hk ▸ phase_moved hcall hmoved (hphase k))
  · intro k hk
    have hold : s.Live k := by
      rcases hk with haccepted | ⟨call, hin, hawaits⟩
      · exact (hlive k (.inl haccepted)).imp_right fun hc => ⟨c, hmem, hc⟩
      · rcases hcalls call hin with hnew | hin
        · exact (hlive k (.inr ⟨call, hnew, hawaits⟩)).imp_right fun hc => ⟨c, hmem, hc⟩
        · exact .inr ⟨call, hin, hawaits⟩
    rcases custody_moved hcall hmoved k with hsame | ⟨hlost, -⟩
    · rw [hsame]
      exact h.live k hold
    · rcases hlost with rfl | ⟨⟨id, rfl⟩, hheld⟩
      · exact absurd hold (h.not_reject hmem)
      · exact absurd (h.calls _ hmem).2 hheld
  · rw [hmoved.delegate]
    intro hclosed call hin
    rcases hcalls call hin with hnew | hin
    · by_contra hsyncing
      rw [Bool.not_eq_false] at hsyncing
      exact absurd (hsync call hnew hsyncing) (by rw [h.delegate hclosed c hmem]; exact nofun)
    · exact h.delegate hclosed call hin
  · intro call hin
    rcases hcalls call hin with hnew | hin
    · exact hnext hlater call hnew
    · exact (h.calls call hin).later hlater
  · rw [hmoved.counter]
    exact htimers
  · intro k hk
    exact (hstarted k hk).elim (fun hk => hlater.past k (h.started k hk)) id
  · rw [hsent]
    exact fun k hk => hlater.settled k (h.sent k hk)
  · intro k hk
    rcases hfound k hk with hk | ⟨id, rfl⟩
    · rcases h.found k hk with hsettled | ⟨id, htaking⟩
      · exact .inl (hlater.settled k hsettled)
      · by_cases hc : c = .take k id
        · exact .inl (htake k id hc)
        · refine .inr ⟨id, ?_⟩
          rw [hmoved.calls]
          exact mem_advance_of_ne hcall htaking (Ne.symm hc)
    · refine .inr ⟨id, ?_⟩
      rw [hmoved.calls]
      exact mem_advance_self hcall
  · intro hrem
    exact (hremoved hrem).elim (fun hrem => (h.removed hrem).later hlater) id

theorem phase_of_out (h : c.inDoCloudSync = false) (k : SyncId) :
    c.phase k = 0 ∧ ¬ c.Awaits k := by
  cases c with
  | insert | sync | reject => cases h
  | find | erase | check | rearm | take | deliver | removeTasks | stopTimers
  | finishAll => exact ⟨rfl, id⟩

theorem LiveInv.moved_aside (h : s.LiveInv) (next : Option StoreCall) (hcall : s.calls[i]? = some c)
    (hmoved : s.Moved i c s' next)
    (hnext : s.Later s' → ∀ call, next = some call → call.inDoCloudSync = false ∧ s'.CallOk call)
    (hsame : (s'.accepted, s'.started, s'.sent) = (s.accepted, s.started, s.sent))
    (htimers : ∀ timer ∈ s'.timers, timer.2 ≤ s.syncTaskId)
    (hfound : ∀ k ∈ s'.found, k ∈ s.found ∨ ∃ id, next = some (.take k id))
    (htake : ∀ k id, c = .take k id → s'.Settled k)
    (hremoved : s'.removed = true → s.removed = true ∨ s'.Swept) : s'.LiveInv := by
  simp only [Prod.mk.injEq] at hsame
  obtain ⟨haccepted, hstarted, hsent⟩ := hsame
  have hnext := hnext (hmoved.later h.custody hcall)
  refine h.moved next hcall hmoved ?_ ?_ ?_ (fun _ call heq => (hnext call heq).2) htimers ?_ hsent
    hfound htake hremoved
  · intro k
    have hzero : next.elim 0 (StoreCall.phase k) = 0 := by
      cases next with
      | none => rfl
      | some call => exact (phase_of_out (hnext call rfl).1 k).1
    rw [hzero, haccepted]
    omega
  · rintro k (hk | ⟨call, rfl, hawaits⟩)
    · exact .inl (haccepted ▸ hk)
    · exact absurd hawaits (phase_of_out (hnext call rfl).1 k).2
  · intro call heq hsync
    rw [(hnext call heq).1] at hsync
    cases hsync
  · rw [hstarted]
    exact fun k hk => .inl hk

/-- A call that neither ends a sync nor finds one finished. -/
theorem LiveInv.moved_on (h : s.LiveInv) (next : Option StoreCall) (hcall : s.calls[i]? = some c)
    (hmoved : s.Moved i c s' next)
    (hsame : (s'.accepted, s'.started, s'.sent, s'.found, s'.removed) =
      (s.accepted, s.started, s.sent, s.found, s.removed)) (htimers : s'.timers ⊆ s.timers)
    (hnext : s.Later s' → ∀ call, next = some call → call.inDoCloudSync = false ∧ s'.CallOk call)
    (htake : ∀ k id, c ≠ .take k id := by simp) : s'.LiveInv := by
  simp only [Prod.mk.injEq] at hsame
  obtain ⟨haccepted, hstarted, hsent, hfound, hremoved⟩ := hsame
  refine h.moved_aside next hcall hmoved hnext (by rw [haccepted, hstarted, hsent])
    (fun timer hin => h.timers timer (htimers hin)) (fun k hk => .inl (hfound ▸ hk))
    (fun k id hc => absurd hc (htake k id)) ?_
  rw [hremoved]
  exact .inl

theorem CustodyInv.insert_le (h : s.CustodyInv) {id : TaskId} (hcall : .insert k id ∈ s.calls) :
    k ≤ s.syncTaskId := by
  by_contra hlt
  have hle := weight_le_custody hcall k
  rw [(h.fresh k (Nat.lt_of_not_le hlt)).2, weight, if_pos rfl] at hle
  omega

variable (h : s.LiveInv)

include h

theorem liveInv_insert (hcall : s.calls[i]? = some (.insert syncId taskId))
    (hstep : s.resumeCall i answer (.insert syncId taskId) = some s') : s'.LiveInv := by
  have hmem := List.mem_of_getElem? hcall
  have hmoved := moved_insert h.custody hmem hstep
  cases hstep
  refine h.moved _ hcall hmoved (fun k => le_refl _) ?_ (fun _ _ _ => rfl) ?_ h.timers ?_ rfl
    (fun _ => .inl) nofun .inl
  · rintro k (hk | ⟨call, hnext, hawaits⟩)
    · exact .inl hk
    · cases hnext
      exact .inr hawaits.1
  · intro _ call hnext
    cases hnext
    trivial
  · intro k hk
    rcases List.mem_cons.mp hk with rfl | hk
    · refine .inr ⟨h.custody.insert_le hmem, ?_⟩
      intro id hagain
      have hnone := (h.custody.moved hcall hmoved).waiting k id hagain
      have hheld : held (s.tasks.insertIfNew k ⟨taskId, some k⟩) k = 1 := by
        rw [held_insertIfNew (h.custody.waiting k taskId hmem), if_pos rfl]
      rw [held_of_cb_none (by rw [cbOf, hnone]; rfl)] at hheld
      cases hheld
    · exact .inl hk

theorem liveInv_sync {isCompensation : Bool}
    (hcall : s.calls[i]? = some (.sync syncId isCompensation))
    (hstep : s.resumeCall i answer (.sync syncId isCompensation) = some s') : s'.LiveInv := by
  simp only [resumeCall] at hstep
  split at hstep
  · cases hstep
    refine h.moved none hcall (moved_same rfl fun _ => rfl)
      ?_ ?_ (by simp) (by simp) h.timers (fun _ => .inl) rfl (fun _ => .inl) (by simp) .inl
    · cases isCompensation with
      | true => simp [StoreCall.phase]
      | false => simp [StoreCall.phase, List.count_cons, Nat.add_comm]
    · rintro k (hk | ⟨call, hnext, -⟩)
      · cases isCompensation with
        | true => exact .inl hk
        | false => exact (List.mem_cons.mp hk).symm.imp_right fun heq => ⟨heq.symm, rfl⟩
      · cases hnext
  · cases hstep
    refine h.moved (some (.reject syncId)) hcall
      (moved_same rfl fun _ => rfl) (fun k => le_refl _) ?_
      (fun _ _ _ => rfl) ?_ h.timers (fun _ => .inl) rfl (fun _ => .inl) (by simp) .inl
    · rintro k (hk | ⟨call, hnext, hawaits⟩)
      · exact .inl hk
      · cases hnext
        exact hawaits.elim
    · intro _ call hnext
      cases hnext
      trivial

theorem liveInv_find (hcall : s.calls[i]? = some (.find syncId taskId))
    (hlook : ∀ id, .insert syncId id ∉ s.calls)
    (hstep : s.resumeCall i answer (.find syncId taskId) = some s') : s'.LiveInv := by
  have hpast : s.Past syncId := ⟨h.calls _ (List.mem_of_getElem? hcall), hlook⟩
  simp only [resumeCall] at hstep
  split at hstep
  · rename_i hcb
    cases hstep
    refine h.moved_on (some (.erase syncId taskId)) hcall (moved_same rfl fun _ => rfl)
      rfl (fun _ ht => ht) ?_
    rintro hlater call ⟨⟩
    exact ⟨rfl, hlater.past syncId hpast, held_of_cb_none hcb⟩
  · cases hstep
    refine h.moved_on (some (.check syncId taskId)) hcall (moved_same rfl fun _ => rfl)
      rfl (fun _ ht => ht) ?_
    rintro hlater call ⟨⟩
    exact ⟨rfl, hlater.past syncId hpast⟩

theorem liveInv_check (hcall : s.calls[i]? = some (.check syncId taskId))
    (hstep : s.resumeCall i answer (.check syncId taskId) = some s') : s'.LiveInv := by
  have hpast : s.Past syncId := h.calls _ (List.mem_of_getElem? hcall)
  simp only [resumeCall] at hstep
  split at hstep
  · cases hstep
    refine h.moved_aside (some (.take syncId taskId)) hcall (moved_same rfl fun _ => rfl) ?_
      rfl h.timers ?_ (by simp) .inl
    · rintro hlater call ⟨⟩
      exact ⟨rfl, hlater.past syncId hpast⟩
    · intro k hk
      exact (List.mem_cons.mp hk).symm.imp_right fun heq => ⟨taskId, by rw [heq]⟩
  · cases hstep
    refine h.moved_on (some (.rearm syncId taskId)) hcall (moved_same rfl fun _ => rfl)
      rfl (fun _ ht => ht) ?_
    rintro hlater call ⟨⟩
    exact ⟨rfl, hlater.past syncId hpast⟩

theorem liveInv_rearm (hcall : s.calls[i]? = some (.rearm syncId taskId))
    (hstep : s.resumeCall i answer (.rearm syncId taskId) = some s') : s'.LiveInv := by
  have hpast : s.Past syncId := h.calls _ (List.mem_of_getElem? hcall)
  have hmoved := moved_rearm hstep
  simp only [resumeCall] at hstep
  split at hstep
  · cases hstep
    refine h.moved_aside none hcall hmoved (by simp) rfl ?_ (fun _ => .inl) (by simp) .inl
    intro timer hin
    rcases mem_concat.mp hin with hold | rfl
    · exact h.timers timer hold
    · exact hpast.1
  · cases hstep
    exact h.moved_on none hcall hmoved rfl (fun _ ht => ht) (by simp)

theorem liveInv_take (hcall : s.calls[i]? = some (.take syncId taskId))
    (hstep : s.resumeCall i answer (.take syncId taskId) = some s') : s'.LiveInv := by
  have hpast : s.Past syncId := h.calls _ (List.mem_of_getElem? hcall)
  have hmoved := moved_take h.custody hstep
  have hlater := hmoved.later h.custody hcall
  cases hstep
  refine h.moved_aside _ hcall hmoved ?_ rfl h.timers (fun _ => .inl) ?_ .inl
  · intro _ call hnext
    obtain ⟨cb, -, rfl⟩ := Option.map_eq_some_iff.mp hnext
    exact ⟨rfl, trivial⟩
  · rintro k id ⟨⟩
    refine ⟨hlater.past syncId hpast, ?_⟩
    rw [held_clear syncId fun _ => rfl, if_pos rfl]

theorem liveInv_removeTasks (hcall : s.calls[i]? = some .removeTasks)
    (hstep : s.resumeCall i answer .removeTasks = some s') : s'.LiveInv := by
  have hclosed : s.delegate = false := h.calls _ (List.mem_of_getElem? hcall)
  have hmoved := moved_removeTasks h.custody hstep
  have hlater := hmoved.later h.custody hcall
  cases hstep
  refine h.moved_on _ hcall hmoved rfl (fun _ ht => ht) ?_
  rintro - call ⟨⟩
  refine ⟨rfl, hclosed, fun k hk => ⟨hlater.past k ⟨hk, ?_⟩, held_of_cb_none (by simp [cbOf])⟩⟩
  intro id hin
  cases h.delegate hclosed _ hin

theorem liveInv_resume (hcall : s.calls[i]? = some c)
    (hlook : ∀ k id, c = .find k id → ∀ id', .insert k id' ∉ s.calls)
    (hstep : s.resumeCall i answer c = some s') : s'.LiveInv := by
  cases c with
  | insert syncId taskId => exact liveInv_insert h hcall hstep
  | sync syncId isCompensation => exact liveInv_sync h hcall hstep
  | reject syncId =>
      have hmoved := moved_reject hstep
      cases hstep
      exact h.moved_on none hcall hmoved rfl (List.filter_subset_self _) (by simp)
  | find syncId taskId => exact liveInv_find h hcall (hlook syncId taskId rfl) hstep
  | erase syncId taskId =>
      have hmoved := moved_erase hstep
      cases hstep
      exact h.moved_on none hcall hmoved rfl (fun _ ht => ht) (by simp)
  | check syncId taskId => exact liveInv_check h hcall hstep
  | rearm syncId taskId => exact liveInv_rearm h hcall hstep
  | take syncId taskId => exact liveInv_take h hcall hstep
  | deliver cb progress taskId =>
      have hmoved := moved_deliver hstep
      cases hstep
      exact h.moved_on none hcall hmoved rfl (fun _ ht => ht) (by simp)
  | removeTasks => exact liveInv_removeTasks h hcall hstep
  | stopTimers taskIds cbs =>
      have hswept : s.Swept := h.calls _ (List.mem_of_getElem? hcall)
      simp only [resumeCall] at hstep
      split at hstep
      · cases hstep
      cases hstep
      refine h.moved_on (some (.finishAll cbs)) hcall (moved_same rfl fun _ => rfl) rfl
        (List.filter_subset_self _) ?_
      rintro hlater call ⟨⟩
      exact ⟨rfl, hswept.later hlater⟩
  | finishAll cbs =>
      have hswept : s.Swept := h.calls _ (List.mem_of_getElem? hcall)
      cases cbs with
      | nil =>
          have hmoved : s.Moved i (.finishAll []) s' none := by
            cases hstep
            exact moved_same rfl fun _ => rfl
          have hlater := hmoved.later h.custody hcall
          cases hstep
          exact h.moved_aside none hcall hmoved (by simp) rfl h.timers (fun _ => .inl) (by simp)
            fun _ => .inr (hswept.later hlater)
      | cons cb cbs =>
          have hmoved := moved_finishAll hstep
          cases hstep
          refine h.moved_on _ hcall hmoved rfl (fun _ ht => ht) ?_
          rintro hlater call ⟨⟩
          exact ⟨rfl, hswept.later hlater⟩

theorem LiveInv.joined (more : List StoreCall) (hjoined : s.Joined s' more)
    (hdelegate : s.delegate = false → s'.delegate = false)
    (hclosing : s'.delegate = false → ∀ call ∈ s.calls, call.inDoCloudSync = false)
    (hsame : (s'.accepted, s'.started, s'.found, s'.removed) =
      (s.accepted, s.started, s.found, s.removed))
    (hmore : s.Later s' → ∀ call ∈ more, call.inDoCloudSync = false ∧ s'.CallOk call)
    (htimers : s'.timers ⊆ s.timers) (hsent : ∀ k ∈ s'.sent, k ∈ s.sent ∨ s'.Settled k) :
    s'.LiveInv := by
  simp only [Prod.mk.injEq] at hsame
  obtain ⟨haccepted, hstarted, hfound, hremoved⟩ := hsame
  have hlater := hjoined.later hdelegate
  have hmore := hmore hlater
  have hphase : ∀ k, s'.phase k = s.phase k := by
    intro k
    have hzero : (more.map (StoreCall.phase k)).sum = 0 := by
      rw [List.sum_eq_zero_iff]
      intro n hn
      obtain ⟨call, hin, rfl⟩ := List.mem_map.mp hn
      exact (phase_of_out (hmore call hin).1 k).1
    rw [StoreState.phase, StoreState.phase, hjoined.calls, haccepted, List.map_append,
      List.sum_append, hzero]
    rfl
  have hmem : ∀ call ∈ s'.calls, call ∈ s.calls ∨ call ∈ more := by
    intro call hin
    rw [hjoined.calls] at hin
    exact List.mem_append.mp hin
  refine ⟨h.custody.joined hjoined, fun k => hphase k ▸ h.phase k, ?_, ?_, ?_, ?_, ?_, ?_, ?_, ?_,
    ?_⟩
  · rw [hjoined.counter]
    exact fun k hk => (hphase k).trans (h.unused k hk)
  · intro k hk
    rw [hjoined.custody]
    refine h.live k (hk.imp (fun hin => haccepted ▸ hin) ?_)
    rintro ⟨call, hin, hawaits⟩
    rcases hmem call hin with hold | hnew
    · exact ⟨call, hold, hawaits⟩
    · exact absurd hawaits (phase_of_out (hmore call hnew).1 k).2
  · intro hclosed call hin
    exact (hmem call hin).elim (hclosing hclosed call) fun hnew => (hmore call hnew).1
  · intro call hin
    rcases hmem call hin with hold | hnew
    · exact (h.calls call hold).later hlater
    · exact (hmore call hnew).2
  · rw [hjoined.counter]
    exact fun timer hin => h.timers timer (htimers hin)
  · rw [hstarted]
    exact fun k hk => hlater.past k (h.started k hk)
  · intro k hk
    exact (hsent k hk).elim (fun hold => hlater.settled k (h.sent k hold)) id
  · rw [hfound]
    intro k hk
    refine (h.found k hk).imp (hlater.settled k) ?_
    rintro ⟨id, hin⟩
    exact ⟨id, by rw [hjoined.calls]; exact List.mem_append_left _ hin⟩
  · rw [hremoved]
    exact fun hrem => (h.removed hrem).later hlater

theorem liveInv_progress {progress : Progress} (hstep : s.progress syncId progress = some s') :
    s'.LiveInv := by
  have hjoined := joined_progress h.custody hstep
  have hlater : (s.delegate = false → s'.delegate = false) → s.Later s' := hjoined.later
  rw [StoreState.progress] at hstep
  split at hstep
  · rename_i hin
    cases hstep
    refine h.joined _ hjoined id h.delegate rfl ?_ (fun _ ht => ht) ?_
    · intro _ call hcall
      obtain ⟨cb, -, rfl⟩ := Option.map_eq_some_iff.mp (Option.mem_toList.mp hcall)
      exact ⟨rfl, trivial⟩
    · intro k hk
      cases hfin : isFinished progress with
      | false =>
          rw [hfin] at hk
          exact .inl hk
      | true =>
          rw [hfin] at hk
          rcases List.mem_cons.mp hk with rfl | hk
          · refine .inr ⟨(hlater id).past k (h.started k hin), ?_⟩
            rw [held_clear k fun _ => rfl, if_pos rfl]
          · exact .inl hk
  · cases hstep

theorem liveInv_fire {j : Nat} (hstep : s.fire j = some s') : s'.LiveInv := by
  obtain ⟨timer, htimer, rfl⟩ := Option.map_eq_some_iff.mp hstep
  have hmem := List.mem_of_getElem? htimer
  refine h.joined [.find timer.2 timer.1] (joined_same rfl rfl rfl rfl nofun fun _ => rfl)
    id h.delegate rfl ?_ (List.eraseIdx_subset) fun _ => .inl
  intro _ call hcall
  rw [List.mem_singleton.mp hcall]
  exact ⟨rfl, h.timers timer hmem⟩

theorem liveInv_destroy (hstep : s.destroy = some s') : s'.LiveInv := by
  have hjoined := joined_destroy hstep
  rw [destroy] at hstep
  split at hstep
  · cases hstep
  rename_i hfree
  cases hstep
  refine h.joined _ hjoined (fun _ => rfl) ?_ rfl ?_ (fun _ ht => ht) fun _ => .inl
  · intro _ call hin
    by_contra hsync
    exact hfree (List.any_eq_true.mpr ⟨call, hin, by simpa using hsync⟩)
  · intro _ call hcall
    rw [List.mem_singleton.mp hcall]
    exact ⟨rfl, rfl⟩

omit h

theorem phase_entered (h : s.Entered s' c) (k : SyncId) :
    s'.phase k = s.phase k + if k = s.syncTaskId + 1 then 1 else 0 := by
  have hc : c.phase k = if k = s.syncTaskId + 1 then 1 else 0 := by
    rcases h.call with rfl | ⟨id, rfl⟩
    · simp only [StoreCall.phase, eq_comm]
    · simp only [StoreCall.phase, eq_comm]
  rw [StoreState.phase, StoreState.phase, h.calls, h.accepted, List.map_append, List.sum_append,
    List.map_singleton, List.sum_singleton, hc]
  omega

theorem LiveInv.live_entered (h : s.LiveInv) (hentered : s.Entered s' c) (k : SyncId)
    (hk : s'.Live k) : s'.custody k = 1 := by
  have hold : s.Live k → s'.custody k = 1 := by
    intro hk
    have hone := h.live k hk
    have hne : k ≠ s.syncTaskId + 1 := by
      rintro rfl
      rw [(h.custody.fresh _ (Nat.lt_succ_self _)).2] at hone
      cases hone
    rw [custody_entered hentered, hentered.weight_of_ne hne, hone]
  rcases hk with haccepted | ⟨call, hin, hawaits⟩
  · exact hold (.inl (hentered.accepted ▸ haccepted))
  rw [hentered.calls] at hin
  rcases List.mem_append.mp hin with hin | hin
  · exact hold (.inr ⟨call, hin, hawaits⟩)
  rw [List.mem_singleton.mp hin] at hawaits
  rcases hentered.call with rfl | ⟨id, rfl⟩
  · cases hawaits.2
  · cases hawaits
    rw [custody_entered hentered, (h.custody.fresh _ (Nat.lt_succ_self _)).2, weight,
      if_pos rfl]

theorem liveInv_doCloudSync (h : s.LiveInv) {isCompensation : Bool}
    (hstep : s.doCloudSync isCompensation = some s') : s'.LiveInv := by
  obtain ⟨c, hentered⟩ := entered_doCloudSync hstep
  have hlater := hentered.later
  have hmem : ∀ call ∈ s'.calls, call ∈ s.calls ∨ call = c := by
    intro call hin
    rw [hentered.calls] at hin
    exact (List.mem_append.mp hin).imp_right List.mem_singleton.mp
  have hphase := phase_entered hentered
  refine ⟨h.custody.entered hentered, ?_, ?_, ?_, ?_, ?_, ?_, ?_, ?_, ?_, ?_⟩
  · intro k
    rw [hphase]
    split
    · rename_i hk
      rw [h.unused k (hk ▸ Nat.lt_succ_self _)]
    · exact h.phase k
  · rw [hentered.counter]
    intro k hk
    rw [hphase, h.unused k (Nat.lt_of_succ_lt hk), if_neg (Nat.ne_of_gt hk)]
  · exact h.live_entered hentered
  · rw [hentered.delegate.2]
    exact nofun
  · intro call hin
    rcases hmem call hin with hold | rfl
    · exact (h.calls call hold).later hlater
    · rcases hentered.call with rfl | ⟨id, rfl⟩
      · trivial
      · trivial
  · intro timer hin
    rcases hentered.timers timer hin with hold | hnew
    · exact (h.timers timer hold).trans hlater.counter
    · exact hnew.le
  · intro k hk
    rcases hentered.started k hk with hold | rfl
    · exact hlater.past k (h.started k hold)
    rcases hentered.call with hnew | ⟨id, hnew⟩
    · cases hnew
      refine ⟨hentered.counter.ge, ?_⟩
      intro id hin
      have hold := (hmem _ hin).resolve_right nofun
      exact absurd (h.custody.insert_le hold) (Nat.not_succ_le_self _)
    · cases hnew
  · rw [hentered.sent]
    exact fun k hk => hlater.settled k (h.sent k hk)
  · rw [hentered.found]
    intro k hk
    refine (h.found k hk).imp (hlater.settled k) ?_
    rintro ⟨id, hin⟩
    exact ⟨id, by rw [hentered.calls]; exact List.mem_append_left _ hin⟩
  · rw [hentered.removed]
    exact fun hrem => (h.removed hrem).later hlater

theorem liveInv_start : start.LiveInv where
  custody := custodyInv_start
  phase k := by simp [StoreState.phase, start]
  unused k _ := by simp [StoreState.phase, start]
  live k hk := by simp [Live, start] at hk
  delegate := nofun
  calls := nofun
  timers := nofun
  started := nofun
  sent := nofun
  found := nofun
  removed := nofun

/-- A finish task looks its sync up after `DoCloudSync` has inserted it. -/
def LooksAfterInsert (s : StoreState) : StoreAction → Prop
  | .resume i _ => ∀ k id, s.calls[i]? = some (.find k id) → ∀ id', .insert k id' ∉ s.calls
  | _ => True

theorem liveInv_step (h : s.LiveInv) {a : StoreAction} (hguard : s.LooksAfterInsert a)
    (hstep : storeMachine.step s a = some s') : s'.LiveInv := by
  cases a with
  | doCloudSync isCompensation => exact liveInv_doCloudSync h hstep
  | progress syncId progress => exact liveInv_progress h hstep
  | fire j => exact liveInv_fire h hstep
  | close isForce busy closed =>
      rcases close_cases hstep with rfl | hdestroy
      · exact h
      · exact liveInv_destroy h hdestroy
  | destroy => exact liveInv_destroy h hstep
  | resume i answer =>
      obtain ⟨c, hcall, hstep⟩ := Option.bind_eq_some_iff.mp hstep
      refine liveInv_resume h hcall ?_ hstep
      rintro k id rfl
      exact hguard k id hcall

/-- The sync has come to its end: the database has sent FINISHED, a finish task has
found it finished, or the executor task of `RemoveTasks` has been executed. -/
def Ended (s : StoreState) (k : SyncId) : Prop := k ∈ s.sent ∨ k ∈ s.found ∨ s.removed = true

end StoreState

def StoreCall.Completes : StoreCall → Prop
  | .take syncId _ => syncId = k
  | .deliver cb progress _ => cb = k ∧ isFinished progress = true
  | .stopTimers _ cbs | .finishAll cbs => k ∈ cbs
  | _ => False

variable {k : SyncId}

theorem StoreCall.weight_eq_zero {call : StoreCall} (hinsert : ∀ id, call ≠ .insert k id)
    (hquiet : ¬ call.Completes k) : call.weight k = 0 := by
  cases call with
  | insert j id => exact if_neg fun hj => hinsert id (by rw [hj])
  | deliver cb progress id => exact if_neg hquiet
  | stopTimers ids cbs => exact List.count_eq_zero.mpr hquiet
  | finishAll cbs => exact List.count_eq_zero.mpr hquiet
  | sync | reject | find | erase | check | rearm | take | removeTasks => rfl

/-- What has left its entry and is with no call has been delivered. -/
theorem StoreState.completions_eq_one {s : StoreState} (hcustody : s.custody k = 1)
    (hsettled : s.Settled k) (hquiet : ∀ call ∈ s.calls, ¬ call.Completes k) :
    s.completions k = 1 := by
  have hpending : (s.calls.map (weight k)).sum = 0 := by
    rw [List.sum_eq_zero_iff]
    intro n hn
    obtain ⟨call, hin, rfl⟩ := List.mem_map.mp hn
    refine weight_eq_zero ?_ (hquiet call hin)
    rintro id rfl
    exact hsettled.1.2 id hin
  rw [custody, hsettled.2, hpending] at hcustody
  omega

theorem StoreState.LiveInv.settled {s : StoreState} (h : s.LiveInv) (haccepted : k ∈ s.accepted)
    (hended : s.Ended k) (hquiet : ∀ call ∈ s.calls, ¬ call.Completes k) : s.Settled k := by
  rcases hended with hsent | hfound | hremoved
  · exact h.sent k hsent
  · refine (h.found k hfound).resolve_right ?_
    rintro ⟨id, htaking⟩
    exact hquiet _ htaking rfl
  refine (h.removed hremoved).2 k ?_
  by_contra hlt
  have hphase := h.unused k (Nat.lt_of_not_le hlt)
  have hcount := List.count_pos_iff.mpr haccepted
  rw [StoreState.phase] at hphase
  omega

open StoreState

/-- The callback never gets a second FINISHED; and once a sync that was accepted has
ended, and no call is about to complete it, its callback has got exactly one. -/
theorem one_completion (schedule : List StoreAction) (s : StoreState)
    (hrun : storeMachine.exec .start schedule = some s) :
    (∀ k, s.completions k ≤ 1) ∧
      (storeMachine.Guarded StoreState.LooksAfterInsert .start schedule →
        ∀ k ∈ s.accepted, s.Ended k → (∀ call ∈ s.calls, ¬ call.Completes k) →
          s.completions k = 1) := by
  constructor
  · intro k
    have hinv := storeMachine.exec_invariant (fun _ _ _ h hstep => custodyInv_step h hstep)
      custodyInv_start hrun
    exact le_trans (Nat.le_add_left _ _) (hinv.once k)
  · intro hguarded k haccepted hended hquiet
    have hinv := storeMachine.exec_guarded_invariant
      (fun _ _ _ h hguard hstep => liveInv_step h hguard hstep)
      liveInv_start hguarded hrun
    exact completions_eq_one (hinv.live k (.inl haccepted))
      (hinv.settled haccepted hended hquiet) hquiet

def finishedProgress : Progress := [("", ⟨.finished, .ok⟩)]

/-- A sync the database finishes after the finish task has looked once. -/
def finishedAfterCheck : List StoreAction :=
  [.doCloudSync false, .resume 0 false, .resume 0 true, .fire 0, .resume 0 false, .resume 0 false,
    .resume 0 false, .progress 1 finishedProgress, .resume 0 false]

theorem one_completion_when_sent :
    storeMachine.Guarded StoreState.LooksAfterInsert .start finishedAfterCheck ∧
      ∃ s, storeMachine.exec .start finishedAfterCheck = some s ∧ 1 ∈ s.accepted ∧ s.Ended 1 ∧
        s.completions 1 = 1 := by
  have hguard : storeMachine.Guarded StoreState.LooksAfterInsert .start finishedAfterCheck := by
    refine guarded_cons _ trivial rfl ?_
    refine guarded_cons _ nofun rfl ?_
    refine guarded_cons _ nofun rfl ?_
    refine guarded_cons _ trivial rfl ?_
    refine guarded_cons _ (fun _ _ _ _ => nofun) rfl ?_
    refine guarded_cons _ nofun rfl ?_
    refine guarded_cons _ nofun rfl ?_
    refine guarded_cons _ trivial rfl ?_
    exact guarded_cons _ nofun rfl trivial
  refine ⟨hguard, _, rfl, by decide, .inl (by decide), ?_⟩
  exact (one_completion finishedAfterCheck _ rfl).2 hguard 1 (by decide) (.inl (by decide)) nofun

/-- The minute is over before `DoCloudSync` inserts the entry: the finish task finds
nothing, the entry is inserted, and the task erases it. The database's FINISHED then
reaches nobody. -/
theorem completion_lost_before_insert :
    ∃ schedule s, storeMachine.exec .start schedule = some s ∧ 1 ∈ s.accepted ∧ s.Ended 1 ∧
      s.calls = [] ∧ s.timers = [] ∧ s.completions 1 = 0 := by
  refine ⟨[.doCloudSync false, .fire 0, .resume 1 false, .resume 0 false, .resume 1 false,
    .resume 0 true, .progress 1 finishedProgress], _, rfl, ?_⟩
  exact ⟨by decide, .inl (by decide), by decide, by decide, by decide⟩

end DataMgr.Rdb
