import DataMgr.Rdb.FinishTask

/-! # Custody of a callback

A callback is in one place at a time: with `DoCloudSync` before its insertion, in its
map entry, with a party that has taken it out in order to complete it, or done. Its
custody counts these places. No step raises the custody of a sync that exists, so a
second FINISHED is impossible. Custody is lost when the database refuses the sync, and
when a finish task erases an entry that still has its callback.
-/

namespace DataMgr.Rdb

open Std DataMgr.Foundation

variable (s : StoreState) (tasks : ExtTreeMap SyncId FinishTask) (k : SyncId)

def cbOf : Option Callback :=
  tasks[k]?.bind FinishTask.cb

def held : Nat :=
  if cbOf tasks k = some k then 1 else 0

/-- No entry appears and no callback is set again. -/
structure Shrinks (tasks tasks' : ExtTreeMap SyncId FinishTask) : Prop where
  keys : ∀ k : SyncId, tasks[k]? = none → tasks'[k]? = none
  cbs : ∀ k cb, cbOf tasks' k = some cb → cbOf tasks k = some cb

section

variable {tasks tasks' : ExtTreeMap SyncId FinishTask} {k : SyncId}

theorem Shrinks.refl (tasks : ExtTreeMap SyncId FinishTask) : Shrinks tasks tasks :=
  ⟨fun _ h => h, fun _ _ h => h⟩

theorem Shrinks.held_le (h : Shrinks tasks tasks') (k : SyncId) : held tasks' k ≤ held tasks k := by
  by_cases hk : cbOf tasks' k = some k
  · rw [held, held, if_pos hk, if_pos (h.cbs k k hk)]
  · rw [held, if_neg hk]
    exact Nat.zero_le _

theorem cbOf_computeIfPresent (j : SyncId) (action : FinishTask → FinishTask × Bool) :
    cbOf (computeIfPresent tasks j action) k =
      if k = j then tasks[k]?.bind fun task => if (action task).2 then (action task).1.cb else none
      else cbOf tasks k := by
  by_cases hkj : k = j
  · subst hkj
    rw [if_pos rfl, cbOf, getElem?_computeIfPresent_self]
    cases tasks[k]? with
    | none => rfl
    | some task =>
        show (if (action task).2 then some (action task).1 else none).bind FinishTask.cb = _
        split <;> simp_all
  · rw [if_neg hkj, cbOf, getElem?_computeIfPresent_of_ne tasks action hkj, cbOf]

variable {action : FinishTask → FinishTask × Bool}

theorem shrinks_computeIfPresent (tasks : ExtTreeMap SyncId FinishTask) (j : SyncId)
    (h : ∀ task cb, (action task).2 = true → (action task).1.cb = some cb → task.cb = some cb) :
    Shrinks tasks (computeIfPresent tasks j action) := by
  constructor
  · intro k hk
    by_cases hkj : k = j
    · subst hkj
      rw [getElem?_computeIfPresent_self, hk]
      rfl
    · rw [getElem?_computeIfPresent_of_ne tasks action hkj, hk]
  · intro k cb hcb
    rw [cbOf_computeIfPresent] at hcb
    split at hcb
    · obtain ⟨task, htask, hcb⟩ := Option.bind_eq_some_iff.mp hcb
      rw [cbOf, htask]
      split at hcb
      · rename_i hkeep
        exact h task cb hkeep hcb
      · cases hcb
    · exact hcb

theorem shrinks_erase (tasks : ExtTreeMap SyncId FinishTask) (k : SyncId) :
    Shrinks tasks (tasks.erase k) := by
  constructor
  · intro j hj
    rw [ExtTreeMap.getElem?_erase, hj, ite_self]
  · intro j cb hcb
    rw [cbOf, ExtTreeMap.getElem?_erase] at hcb
    split at hcb
    · cases hcb
    · exact hcb

theorem held_of_cb_none (h : cbOf tasks k = none) : held tasks k = 0 := by
  rw [held, h]
  rfl

theorem held_clear (j : SyncId)
    (h : ∀ task, (if (action task).2 then (action task).1.cb else none) = none) :
    held (computeIfPresent tasks j action) k = if k = j then 0 else held tasks k := by
  by_cases hkj : k = j
  · rw [if_pos hkj]
    refine held_of_cb_none ?_
    rw [cbOf_computeIfPresent, if_pos hkj]
    cases tasks[k]? with
    | none => rfl
    | some task => exact h task
  · rw [if_neg hkj, held, cbOf_computeIfPresent, if_neg hkj, held]

theorem held_erase (j : SyncId) :
    held (tasks.erase j) k = if k = j then 0 else held tasks k := by
  by_cases hkj : k = j
  · subst hkj
    rw [if_pos rfl]
    exact held_of_cb_none (by simp [cbOf])
  · rw [if_neg hkj, held, cbOf, ExtTreeMap.getElem?_erase,
      if_neg (fun h => hkj (Std.compare_eq_iff_eq.mp h).symm), held, cbOf]

theorem held_keep (j : SyncId) (h : ∀ task, (action task).2 = true ∧ (action task).1.cb = task.cb) :
    held (computeIfPresent tasks j action) k = held tasks k := by
  have hsame : cbOf (computeIfPresent tasks j action) k = cbOf tasks k := by
    rw [cbOf_computeIfPresent]
    split
    · congr 1
      funext task
      rw [if_pos (h task).1, (h task).2]
    · rfl
  rw [held, hsame, held]

theorem cbOf_insertIfNew {j : SyncId} {taskId : TaskId} (hnew : tasks[j]? = none) :
    cbOf (tasks.insertIfNew j ⟨taskId, some j⟩) k = if k = j then some j else cbOf tasks k := by
  have hmem : j ∉ tasks := by
    rw [← ExtTreeMap.isSome_getElem?_iff_mem, hnew]
    exact Bool.false_ne_true
  rw [cbOf, ExtTreeMap.getElem?_insertIfNew]
  by_cases hkj : k = j
  · rw [if_pos ⟨by rw [hkj, compare_self], hmem⟩, if_pos hkj]
    rfl
  · rw [if_neg (fun h => hkj (Std.compare_eq_iff_eq.mp h.1).symm), if_neg hkj, cbOf]

theorem held_insertIfNew {j : SyncId} {taskId : TaskId} (hnew : tasks[j]? = none) :
    held (tasks.insertIfNew j ⟨taskId, some j⟩) k = if k = j then 1 else held tasks k := by
  rw [held, cbOf_insertIfNew hnew]
  by_cases hkj : k = j
  · rw [if_pos hkj, if_pos hkj, if_pos (by rw [hkj])]
  · rw [if_neg hkj, if_neg hkj, held]

end

/-- How many completions of the sync a call is about to make; before the insertion
`DoCloudSync` has the callback itself. -/
def StoreCall.weight : StoreCall → Nat
  | .insert syncId _ => if syncId = k then 1 else 0
  | .deliver cb progress _ => if cb = k ∧ isFinished progress then 1 else 0
  | .stopTimers _ cbs | .finishAll cbs => cbs.count k
  | _ => 0

open StoreCall

namespace StoreState

def completions : Nat :=
  s.received.countP fun call => call.1 = k ∧ isFinished call.2

def custody : Nat :=
  held s.tasks k + (s.calls.map (weight k)).sum + s.completions k

structure CustodyInv (s : StoreState) : Prop where
  own : ∀ k cb, cbOf s.tasks k = some cb → cb = k
  fresh : ∀ k : SyncId, s.syncTaskId < k → s.tasks[k]? = none ∧ s.custody k = 0
  waiting : ∀ k id, .insert k id ∈ s.calls → s.tasks[k]? = none
  once : ∀ k, s.custody k ≤ 1

variable {s s' : StoreState} {k : SyncId}

variable {cb : Callback} {c : StoreCall} {next : Option StoreCall} {syncId : SyncId}
  {taskId : TaskId}

theorem CustodyInv.held_of_cb (h : s.CustodyInv) {j : SyncId} (hcb : cbOf s.tasks j = some cb) :
    held s.tasks j = 1 := by
  have hj := h.own j cb hcb
  subst hj
  rw [held, if_pos hcb]

theorem CustodyInv.count_cbs (h : s.CustodyInv) (k : SyncId) :
    ((s.tasks.toList.map Prod.snd).filterMap FinishTask.cb).count k = held s.tasks k := by
  rw [List.filterMap_map, List.count_filterMap,
    countP_toList s.tasks k (fun a => (FinishTask.cb ∘ Prod.snd) a == some k)]
  · rw [held, cbOf]
    cases s.tasks[k]? <;> simp
  · intro j task htask hcb
    rw [beq_iff_eq] at hcb
    refine (h.own j k ?_).symm
    rw [cbOf, htask]
    exact hcb

/-- Who takes the callback out of an entry has it. -/
theorem CustodyInv.held_taken (h : s.CustodyInv) {progress : Progress}
    (hfin : isFinished progress = true) (syncId k : SyncId) (taskId : Option TaskId) :
    (if k = syncId then 0 else held s.tasks k) +
        (cbOf s.tasks syncId).elim 0 (fun cb => weight k (.deliver cb progress taskId)) =
      held s.tasks k := by
  cases hcb : cbOf s.tasks syncId with
  | none =>
      split
      · rename_i hk
        rw [hk, held_of_cb_none hcb]
        rfl
      · rfl
  | some cb =>
      have hown := h.own syncId cb hcb
      subst hown
      by_cases hk : k = cb
      · subst hk
        simp [h.held_of_cb hcb, weight, hfin]
      · simp [hk, weight, Ne.symm hk]

/-- What one operation of a call does: the call moves on, entries and callbacks only
go away (the insertion apart), and the callback of every sync is accounted for. -/
structure Moved (s : StoreState) (i : Nat) (c : StoreCall) (s' : StoreState)
    (next : Option StoreCall) : Prop where
  calls : s'.calls = advance s.calls i next
  counter : s'.syncTaskId = s.syncTaskId
  delegate : s'.delegate = s.delegate
  noInsert : ∀ k id, next ≠ some (.insert k id)
  tasks : Shrinks s.tasks s'.tasks ∨
    ∃ k id, c = .insert k id ∧ s'.tasks = s.tasks.insertIfNew k ⟨id, some k⟩
  ledger : ∀ k, held s'.tasks k + next.elim 0 (weight k) + s'.completions k =
      held s.tasks k + c.weight k + s.completions k ∨
    (c = .reject k ∨ (∃ id, c = .erase k id) ∧ held s.tasks k ≠ 0) ∧
      held s'.tasks k + next.elim 0 (weight k) + s'.completions k ≤
        held s.tasks k + c.weight k + s.completions k

variable {i : Nat} {answer : Bool}

theorem moved_same
    (hsame : (s'.calls, s'.syncTaskId, s'.delegate, s'.tasks, s'.received) =
      (advance s.calls i next, s.syncTaskId, s.delegate, s.tasks, s.received))
    (hweight : ∀ k, next.elim 0 (weight k) = c.weight k)
    (hnext : ∀ k id, next ≠ some (.insert k id) := by simp) : s.Moved i c s' next := by
  simp only [Prod.mk.injEq] at hsame
  obtain ⟨hcalls, hcounter, hdelegate, htasks, hreceived⟩ := hsame
  refine ⟨hcalls, hcounter, hdelegate, hnext, .inl (htasks ▸ Shrinks.refl _), fun k => .inl ?_⟩
  rw [htasks, hweight, completions, completions, hreceived]

theorem completions_concat (received : List (Callback × Progress)) (cb : Callback)
    (progress : Progress) :
    ((received ++ [(cb, progress)]).countP fun call => call.1 = k ∧ isFinished call.2) =
      (received.countP fun call => call.1 = k ∧ isFinished call.2) +
        if cb = k ∧ isFinished progress then 1 else 0 := by
  simp [List.countP_append, List.countP_cons]

theorem moved_take (h : s.CustodyInv)
    (hstep : s.resumeCall i answer (.take syncId taskId) = some s') :
    s.Moved i (.take syncId taskId) s'
      ((cbOf s.tasks syncId).map fun cb => .deliver cb missFinished (some taskId)) := by
  cases hstep
  refine ⟨rfl, rfl, rfl, ?_, .inl (shrinks_computeIfPresent _ _ nofun), ?_⟩
  · cases cbOf s.tasks syncId <;> simp
  · intro k
    refine .inl ?_
    rw [held_clear syncId fun _ => rfl, Option.elim_map]
    exact congrArg (· + _) (h.held_taken rfl syncId k (some taskId))

theorem moved_removeTasks (h : s.CustodyInv)
    (hstep : s.resumeCall i answer .removeTasks = some s') :
    s.Moved i .removeTasks s' (some (.stopTimers
      ((s.tasks.toList.map Prod.snd).map FinishTask.taskId)
      ((s.tasks.toList.map Prod.snd).filterMap FinishTask.cb))) := by
  cases hstep
  refine ⟨rfl, rfl, rfl, nofun,
    .inl ⟨fun j hj => by simp [hj], fun j cb hcb => by simp [cbOf] at hcb⟩, ?_⟩
  intro k
  refine .inl ?_
  have hheld : held (eraseIf s.tasks fun _ task => (task, true)) k = 0 :=
    held_of_cb_none (by simp [cbOf])
  have hcount := h.count_cbs k
  simp only [Option.elim_some, weight, hcount]
  show held (eraseIf s.tasks fun _ task => (task, true)) k + held s.tasks k + s.completions k = _
  omega

theorem moved_insert (h : s.CustodyInv) (hcall : .insert syncId taskId ∈ s.calls)
    (hstep : s.resumeCall i answer (.insert syncId taskId) = some s') :
    s.Moved i (.insert syncId taskId) s' (some (.sync syncId false)) := by
  cases hstep
  refine ⟨rfl, rfl, rfl, nofun, .inr ⟨syncId, taskId, rfl, rfl⟩, ?_⟩
  intro k
  have hnew := h.waiting syncId taskId hcall
  refine .inl ?_
  show held (s.tasks.insertIfNew syncId ⟨taskId, some syncId⟩) k + 0 + s.completions k = _
  rw [held_insertIfNew hnew, weight]
  by_cases hk : k = syncId
  · subst hk
    have hzero : held s.tasks k = 0 := held_of_cb_none (by rw [cbOf, hnew]; rfl)
    rw [if_pos rfl, if_pos rfl, hzero]
  · rw [if_neg hk, if_neg (Ne.symm hk)]

theorem moved_reject (hstep : s.resumeCall i answer (.reject syncId) = some s') :
    s.Moved i (.reject syncId) s' none := by
  cases hstep
  refine ⟨rfl, rfl, rfl, nofun, .inl (shrinks_computeIfPresent _ _ nofun), ?_⟩
  intro k
  show held (computeIfPresent s.tasks syncId fun task => (task, false)) k + 0 + s.completions k =
      held s.tasks k + 0 + s.completions k ∨ _ ∧
    held (computeIfPresent s.tasks syncId fun task => (task, false)) k + 0 + s.completions k ≤ _
  rw [held_clear syncId fun _ => rfl]
  by_cases hk : k = syncId
  · rw [if_pos hk]
    exact .inr ⟨.inl (by rw [hk]), by simp [weight]⟩
  · rw [if_neg hk]
    exact .inl rfl

theorem moved_erase (hstep : s.resumeCall i answer (.erase syncId taskId) = some s') :
    s.Moved i (.erase syncId taskId) s' none := by
  cases hstep
  refine ⟨rfl, rfl, rfl, nofun, .inl (shrinks_erase _ _), ?_⟩
  intro k
  show held (s.tasks.erase syncId) k + 0 + s.completions k =
      held s.tasks k + 0 + s.completions k ∨ _ ∧
    held (s.tasks.erase syncId) k + 0 + s.completions k ≤ _
  rw [held_erase]
  by_cases hk : k = syncId
  · subst hk
    rw [if_pos rfl]
    by_cases hheld : held s.tasks k = 0
    · exact .inl (by rw [hheld])
    · exact .inr ⟨.inr ⟨⟨taskId, rfl⟩, hheld⟩, by simp [weight]⟩
  · rw [if_neg hk]
    exact .inl rfl

theorem moved_rearm (hstep : s.resumeCall i answer (.rearm syncId taskId) = some s') :
    s.Moved i (.rearm syncId taskId) s' none := by
  simp only [resumeCall] at hstep
  split at hstep
  · cases hstep
    refine ⟨rfl, rfl, rfl, (by simp), .inl (shrinks_computeIfPresent _ _ fun _ _ _ hcb => hcb), ?_⟩
    intro k
    refine .inl ?_
    rw [held_keep syncId fun task => ⟨rfl, rfl⟩]
    rfl
  · cases hstep
    exact moved_same rfl fun _ => rfl

theorem moved_deliver {progress : Progress} {taskId : Option TaskId}
    (hstep : s.resumeCall i answer (.deliver cb progress taskId) = some s') :
    s.Moved i (.deliver cb progress taskId) s' none := by
  cases hstep
  refine ⟨rfl, rfl, rfl, nofun, .inl (Shrinks.refl _), ?_⟩
  intro k
  simp only [Option.elim_none, completions, completions_concat, weight]
  omega

theorem moved_finishAll {cbs : List Callback}
    (hstep : s.resumeCall i answer (.finishAll (cb :: cbs)) = some s') :
    s.Moved i (.finishAll (cb :: cbs)) s' (some (.finishAll cbs)) := by
  cases hstep
  refine ⟨rfl, rfl, rfl, nofun, .inl (Shrinks.refl _), ?_⟩
  intro k
  have hmiss : isFinished missFinished = true := rfl
  simp only [Option.elim_some, completions, completions_concat, weight,
    List.count_cons, hmiss, and_true, beq_iff_eq]
  omega

theorem moved_resumeCall (h : s.CustodyInv) (hcall : s.calls[i]? = some c)
    (hstep : s.resumeCall i answer c = some s') : ∃ next, s.Moved i c s' next := by
  cases c with
  | insert syncId taskId => exact ⟨_, moved_insert h (List.mem_of_getElem? hcall) hstep⟩
  | sync syncId isCompensation =>
      simp only [resumeCall] at hstep
      split at hstep
      · cases hstep
        exact ⟨none, moved_same rfl fun _ => rfl⟩
      · cases hstep
        exact ⟨some (.reject syncId), moved_same rfl fun _ => rfl⟩
  | reject syncId => exact ⟨_, moved_reject hstep⟩
  | find syncId taskId =>
      simp only [resumeCall] at hstep
      split at hstep
      · cases hstep
        exact ⟨some (.erase syncId taskId), moved_same rfl fun _ => rfl⟩
      · cases hstep
        exact ⟨some (.check syncId taskId), moved_same rfl fun _ => rfl⟩
  | erase syncId taskId => exact ⟨_, moved_erase hstep⟩
  | check syncId taskId =>
      simp only [resumeCall] at hstep
      split at hstep
      · cases hstep
        exact ⟨some (.take syncId taskId), moved_same rfl fun _ => rfl⟩
      · cases hstep
        exact ⟨some (.rearm syncId taskId), moved_same rfl fun _ => rfl⟩
  | rearm syncId taskId => exact ⟨_, moved_rearm hstep⟩
  | take syncId taskId => exact ⟨_, moved_take h hstep⟩
  | deliver cb progress taskId => exact ⟨_, moved_deliver hstep⟩
  | removeTasks => exact ⟨_, moved_removeTasks h hstep⟩
  | stopTimers taskIds cbs =>
      simp only [resumeCall] at hstep
      split at hstep
      · cases hstep
      · cases hstep
        exact ⟨some (.finishAll cbs), moved_same rfl fun _ => rfl⟩
  | finishAll cbs =>
      cases cbs with
      | nil =>
          cases hstep
          exact ⟨none, moved_same rfl fun _ => rfl⟩
      | cons cb cbs => exact ⟨_, moved_finishAll hstep⟩

theorem custody_moved (hcall : s.calls[i]? = some c) (h : s.Moved i c s' next) (k : SyncId) :
    s'.custody k = s.custody k ∨
      (c = .reject k ∨ (∃ id, c = .erase k id) ∧ held s.tasks k ≠ 0) ∧
        s'.custody k ≤ s.custody k := by
  have hsum := sum_advance (weight k) next hcall
  rw [← h.calls] at hsum
  rw [custody, custody]
  rcases h.ledger k with heq | ⟨hlost, hle⟩
  · exact .inl (by omega)
  · exact .inr ⟨hlost, by omega⟩

theorem weight_le_custody (hcall : c ∈ s.calls) (k : SyncId) :
    c.weight k ≤ s.custody k := by
  have hle := List.le_sum_of_mem (List.mem_map_of_mem (f := weight k) hcall)
  rw [custody]
  omega

theorem CustodyInv.moved (h : s.CustodyInv) (hcall : s.calls[i]? = some c)
    (hmoved : s.Moved i c s' next) : s'.CustodyInv := by
  have hle := fun k => (custody_moved hcall hmoved k).elim Nat.le_of_eq And.right
  have hinserts : ∀ k id, .insert k id ∈ s'.calls → .insert k id ∈ s.calls := by
    intro k id hmem
    rw [hmoved.calls] at hmem
    exact (mem_advance hmem).resolve_left (hmoved.noInsert k id)
  have hzero : ∀ k, s.syncTaskId < k → s'.custody k = 0 := fun k hk =>
    Nat.le_zero.mp ((h.fresh k hk).2 ▸ hle k)
  have honce : ∀ k, s'.custody k ≤ 1 := fun k => (hle k).trans (h.once k)
  rcases hmoved.tasks with hshrinks | ⟨j, taskId, rfl, htasks⟩
  · refine ⟨fun k cb hcb => h.own k cb (hshrinks.cbs k cb hcb), ?_, ?_, honce⟩
    · rw [hmoved.counter]
      exact fun k hk => ⟨hshrinks.keys k (h.fresh k hk).1, hzero k hk⟩
    · exact fun k id hmem => hshrinks.keys k (h.waiting k id (hinserts k id hmem))
  · have hmem := List.mem_of_getElem? hcall
    have hnew := h.waiting j taskId hmem
    have hother : ∀ k, k ≠ j → s.tasks[k]? = none → s'.tasks[k]? = none := by
      intro k hkj hk
      rw [htasks, ExtTreeMap.getElem?_insertIfNew,
        if_neg (fun hcmp => hkj (Std.compare_eq_iff_eq.mp hcmp.1).symm), hk]
    have hweight : ∀ k id, weight k (.insert k id) = 1 := fun k id => if_pos rfl
    refine ⟨?_, ?_, ?_, honce⟩
    · intro k cb hcb
      rw [htasks, cbOf_insertIfNew hnew] at hcb
      split at hcb
      · rename_i hk
        rw [hk]
        exact (Option.some.inj hcb).symm
      · exact h.own k cb hcb
    · rw [hmoved.counter]
      intro k hk
      refine ⟨hother k ?_ (h.fresh k hk).1, hzero k hk⟩
      rintro rfl
      have hle := weight_le_custody hmem k
      rw [hweight, (h.fresh k hk).2] at hle
      omega
    · intro k id hk
      refine hother k ?_ (h.waiting k id (hinserts k id hk))
      rintro rfl
      have hheld : held s'.tasks k = 1 := by
        rw [htasks, held_insertIfNew hnew, if_pos rfl]
      have hle := List.le_sum_of_mem (List.mem_map_of_mem (f := weight k) hk)
      have := honce k
      rw [hweight] at hle
      rw [custody] at this
      omega

/-- A call joins the ones in progress without a callback of its own, other than one it
takes out of the map. -/
structure Joined (s s' : StoreState) (more : List StoreCall) : Prop where
  calls : s'.calls = s.calls ++ more
  counter : s'.syncTaskId = s.syncTaskId
  noInsert : ∀ k id, .insert k id ∉ more
  tasks : Shrinks s.tasks s'.tasks
  custody : ∀ k, s'.custody k = s.custody k

theorem joined_same (hcalls : s'.calls = s.calls ++ [c]) (hcounter : s'.syncTaskId = s.syncTaskId)
    (htasks : s'.tasks = s.tasks) (hreceived : s'.received = s.received)
    (hinsert : ∀ k id, .insert k id ≠ c) (hweight : ∀ k, c.weight k = 0) : s.Joined s' [c] where
  calls := hcalls
  counter := hcounter
  noInsert k id hmem := hinsert k id (List.mem_singleton.mp hmem)
  tasks := htasks ▸ Shrinks.refl _
  custody k := by
    simp [StoreState.custody, completions, hcalls, htasks, hreceived, hweight]

theorem held_progress (h : s.CustodyInv) (syncId : SyncId) (progress : Progress) (k : SyncId) :
    held (computeIfPresent s.tasks syncId fun finishTask =>
        (if isFinished progress then { finishTask with cb := none } else finishTask, true)) k +
      (((cbOf s.tasks syncId).map fun cb => deliver cb progress none).toList.map
        (weight k)).sum = held s.tasks k := by
  cases hfin : isFinished progress with
  | false =>
      rw [held_keep syncId fun task => ⟨rfl, rfl⟩]
      cases cbOf s.tasks syncId <;> simp [weight, hfin]
  | true =>
      refine Eq.trans ?_ (h.held_taken hfin syncId k none)
      rw [held_clear syncId fun _ => rfl]
      cases cbOf s.tasks syncId <;> rfl

theorem joined_progress (h : s.CustodyInv) {progress : Progress}
    (hstep : s.progress syncId progress = some s') :
    s.Joined s' ((cbOf s.tasks syncId).map fun cb => deliver cb progress none).toList := by
  rw [StoreState.progress] at hstep
  split at hstep
  · cases hstep
    refine ⟨rfl, rfl, ?_, shrinks_computeIfPresent _ _ ?_, ?_⟩
    · cases cbOf s.tasks syncId <;> simp
    · cases hfin : isFinished progress <;> simp_all
    · intro k
      have hmove := held_progress h syncId progress k
      simp only [cbOf] at hmove
      simp only [StoreState.custody, List.map_append, List.sum_append, completions]
      omega
  · cases hstep

theorem CustodyInv.joined (h : s.CustodyInv) {more : List StoreCall} (hjoined : s.Joined s' more) :
    s'.CustodyInv := by
  refine ⟨fun k cb hcb => h.own k cb (hjoined.tasks.cbs k cb hcb), ?_, ?_, ?_⟩
  · rw [hjoined.counter]
    intro k hk
    rw [hjoined.custody]
    exact ⟨hjoined.tasks.keys k (h.fresh k hk).1, (h.fresh k hk).2⟩
  · intro k id hmem
    rw [hjoined.calls] at hmem
    have hold := (List.mem_append.mp hmem).resolve_right (hjoined.noInsert k id)
    exact hjoined.tasks.keys k (h.waiting k id hold)
  · intro k
    rw [hjoined.custody]
    exact h.once k

/-- A new sync is numbered past every other one; unless it is a compensation, its
callback enters with it. -/
structure Entered (s s' : StoreState) (c : StoreCall) : Prop where
  calls : s'.calls = s.calls ++ [c]
  counter : s'.syncTaskId = s.syncTaskId + 1
  tasks : s'.tasks = s.tasks
  received : s'.received = s.received
  delegate : s.delegate = true ∧ s'.delegate = true
  call : c = .sync (s.syncTaskId + 1) true ∨ ∃ id, c = .insert (s.syncTaskId + 1) id
  accepted : s'.accepted = s.accepted
  sent : s'.sent = s.sent
  found : s'.found = s.found
  removed : s'.removed = s.removed
  started : ∀ k ∈ s'.started, k ∈ s.started ∨ c = .sync k true
  timers : ∀ timer ∈ s'.timers, timer ∈ s.timers ∨ timer.2 = s'.syncTaskId

theorem entered_doCloudSync {isCompensation : Bool}
    (hstep : s.doCloudSync isCompensation = some s') : ∃ c, s.Entered s' c := by
  rw [doCloudSync] at hstep
  split at hstep
  · rename_i hdelegate
    cases isCompensation with
    | true =>
        cases hstep
        refine ⟨_, rfl, rfl, rfl, rfl, ⟨hdelegate, hdelegate⟩, .inl rfl, rfl, rfl, rfl, rfl, ?_,
          fun timer hin => .inl hin⟩
        intro k hk
        exact (List.mem_cons.mp hk).symm.imp_right fun heq => by rw [heq]
    | false =>
        cases hstep
        refine ⟨_, rfl, rfl, rfl, rfl, ⟨hdelegate, hdelegate⟩, .inr ⟨_, rfl⟩, rfl, rfl, rfl, rfl,
          fun k hk => .inl hk, ?_⟩
        intro timer hin
        exact (List.mem_append.mp hin).imp_right fun hnew => by rw [List.mem_singleton.mp hnew]
  · cases hstep

theorem custody_entered (h : s.Entered s' c) (k : SyncId) :
    s'.custody k = s.custody k + c.weight k := by
  rw [custody, custody, completions, completions, h.calls, h.tasks, h.received, List.map_append,
    List.sum_append, List.map_singleton, List.sum_singleton]
  omega

theorem Entered.weight_of_ne (h : s.Entered s' c) (hk : k ≠ s.syncTaskId + 1) :
    c.weight k = 0 := by
  rcases h.call with rfl | ⟨id, rfl⟩
  · rfl
  · exact if_neg (Ne.symm hk)

theorem CustodyInv.entered (h : s.CustodyInv) (hentered : s.Entered s' c) :
    s'.CustodyInv := by
  have hcustody := custody_entered hentered
  refine ⟨by rw [hentered.tasks]; exact h.own, ?_, ?_, ?_⟩
  · rw [hentered.counter, hentered.tasks]
    intro k hk
    have hfresh := h.fresh k (Nat.lt_of_succ_lt hk)
    rw [hcustody, hentered.weight_of_ne (Nat.ne_of_gt hk)]
    exact hfresh
  · rw [hentered.tasks, hentered.calls]
    intro k id hmem
    rcases List.mem_append.mp hmem with hold | hnew
    · exact h.waiting k id hold
    rcases hentered.call with rfl | ⟨taskId, rfl⟩
    · cases List.mem_singleton.mp hnew
    · cases List.mem_singleton.mp hnew
      exact (h.fresh _ (Nat.lt_succ_self _)).1
  · intro k
    rw [hcustody]
    by_cases hk : k = s.syncTaskId + 1
    · have hzero := (h.fresh k (hk ▸ Nat.lt_succ_self _)).2
      have hone : c.weight k ≤ 1 := by
        rcases hentered.call with rfl | ⟨id, rfl⟩
        · exact Nat.zero_le _
        · rw [weight]
          split <;> omega
      omega
    · rw [hentered.weight_of_ne hk]
      exact h.once k

theorem close_cases {isForce busy closed : Bool} (hstep : s.close isForce busy closed = some s') :
    s' = s ∨ s.destroy = some s' := by
  simp only [close] at hstep
  split at hstep
  · cases hstep
  rename_i hfree
  split at hstep
  · cases hstep
    exact .inl rfl
  split at hstep
  · cases hstep
    exact .inl rfl
  split at hstep
  · cases hstep
    exact .inl rfl
  · rw [destroy, if_neg hfree]
    exact .inr hstep

theorem joined_destroy (hstep : s.destroy = some s') : s.Joined s' [.removeTasks] := by
  rw [destroy] at hstep
  split at hstep
  · cases hstep
  · cases hstep
    exact joined_same rfl rfl rfl rfl nofun fun _ => rfl

theorem custodyInv_start : start.CustodyInv where
  own k cb hcb := by simp [start, cbOf] at hcb
  fresh k _ := ⟨by simp [start], by simp [custody, start, held, cbOf, completions]⟩
  waiting := nofun
  once k := by simp [custody, start, held, cbOf, completions]

theorem custodyInv_step (h : s.CustodyInv) {a : StoreAction}
    (hstep : storeMachine.step s a = some s') : s'.CustodyInv := by
  cases a with
  | doCloudSync isCompensation =>
      obtain ⟨c, hentered⟩ := entered_doCloudSync hstep
      exact h.entered hentered
  | progress syncId progress => exact h.joined (joined_progress h hstep)
  | fire j =>
      obtain ⟨timer, -, rfl⟩ := Option.map_eq_some_iff.mp hstep
      exact h.joined (joined_same rfl rfl rfl rfl nofun fun _ => rfl)
  | close isForce busy closed =>
      rcases close_cases hstep with rfl | hdestroy
      · exact h
      · exact h.joined (joined_destroy hdestroy)
  | destroy => exact h.joined (joined_destroy hstep)
  | resume i answer =>
      obtain ⟨c, hcall, hstep⟩ := Option.bind_eq_some_iff.mp hstep
      obtain ⟨next, hmoved⟩ := moved_resumeCall h hcall hstep
      exact h.moved hcall hmoved

end StoreState

end DataMgr.Rdb
