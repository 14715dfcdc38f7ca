import DataMgr.Flow.RdbFlowControlStrategy

/-! # No task is lost or doubled, and no wake-up is lost

Every task that `Execute` queues is accounted for, and the duty to wake up for
the earliest of them is always held by someone: by the armed timer, by a timer
callback, or by a `Schedule` call that has not reached its second section.
-/

namespace DataMgr.Flow

open DataMgr.Foundation DataMgr.Store MinQueue

universe u v

/-- The manager under a clock that never goes back. -/
structure ClockedFlow (σ : Type u) (κ : Type v) where
  clock : Tp
  flow : FlowState σ κ

inductive ClockedAction (κ : Type v) where
  | tick (elapsed : Nat)
  | flow (action : FlowAction κ)

def flowMachine (σ : Type u) (κ : Type v) [Strategy σ κ] :
    Machine (ClockedFlow σ κ) (ClockedAction κ) where
  step
    | s, .tick elapsed => some { s with clock := s.clock + elapsed }
    | s, .flow action => (s.flow.step s.clock action).map fun flow => { s with flow }

/-- The calls that still reach the second section of `Schedule` if a task is queued. -/
def FlowCall.WillArm {κ : Type v} : FlowCall κ → Prop
  | .timer _ | .schedule _ | .arm _ => True
  | _ => False

namespace FlowState

variable {σ : Type u} {κ : Type v} {s s' : FlowState σ κ} {i : Nat} {now : Tp}

/-- Each queued task is still there, was selected by a filter, was handed over in
time, or was null. -/
structure Accounted (s : FlowState σ κ) : Prop where
  running : s.manager.isRunning = true
  ledger : s.accepted.Perm (s.manager.tasks.items ++ s.removed.map Prod.fst ++
    s.handed.map Prod.fst ++ s.discarded)
  selected : ∀ r ∈ s.removed, r.2.selects r.1.info = true
  inTime : ∀ h ∈ s.handed, h.1.time ≤ h.2
  callable : ∀ h ∈ s.handed, h.1.task.isSome = true
  null : ∀ task ∈ s.discarded, task.task = none
  jobs : s.pool.jobs.flatten.Perm ((s.handed.map Prod.fst).filterMap InnerTask.task)

theorem Accounted.frame (h : s.Accounted)
    (hrunning : s'.manager.isRunning = s.manager.isRunning)
    (htasks : s'.manager.tasks = s.manager.tasks) (hjobs : s'.pool.jobs = s.pool.jobs)
    (haccepted : s'.accepted = s.accepted) (hremoved : s'.removed = s.removed)
    (hhanded : s'.handed = s.handed) (hdiscarded : s'.discarded = s.discarded) :
    s'.Accounted := by
  constructor
  · rw [hrunning]; exact h.running
  · rw [haccepted, htasks, hremoved, hhanded, hdiscarded]; exact h.ledger
  · rw [hremoved]; exact h.selected
  · rw [hhanded]; exact h.inTime
  · rw [hhanded]; exact h.callable
  · rw [hdiscarded]; exact h.null
  · rw [hjobs, hhanded]; exact h.jobs

theorem Accounted.pushTask (h : s.Accounted) (innerTask : InnerTask κ) :
    (s.pushTask i innerTask).Accounted := by
  have hqueue := (s.manager.tasks.push_perm innerTask).append_right
    (s.removed.map Prod.fst ++ s.handed.map Prod.fst ++ s.discarded)
  refine ⟨h.running, ?_, h.selected, h.inTime, h.callable, h.null, h.jobs⟩
  have hledger := h.ledger.cons innerTask
  simp only [List.append_assoc, List.cons_append] at hledger hqueue ⊢
  exact hledger.trans hqueue.symm

theorem Accounted.remove (h : s.Accounted) (filter : TaskFilter) : (s.remove filter).Accounted := by
  have hsplit : s.manager.tasks.items.Perm
      ((s.manager.tasks.refill fun task => !filter.selects task.info).items ++
        s.manager.tasks.items.filter fun task => filter.selects task.info) := by
    have hkept := s.manager.tasks.refill_perm fun task => !filter.selects task.info
    exact (List.filter_append_perm _ _).symm.trans (List.perm_append_comm.trans
      (hkept.symm.append_right _))
  refine ⟨h.running, ?_, ?_, h.inTime, h.callable, h.null, h.jobs⟩
  · have hledger := h.ledger.trans (((hsplit.append_right _).append_right _).append_right _)
    simpa [FlowState.remove, Function.comp_def] using hledger
  · intro r hr
    rcases List.mem_append.mp hr with hr | hr
    · obtain ⟨task, htask, rfl⟩ := List.mem_map.mp hr
      exact (List.mem_filter.mp htask).2
    · exact h.selected r hr

theorem Accounted.executeTask (h : s.Accounted) (id : TaskId) :
    (s.executeTask now i id).Accounted := by
  have hdrain := drain_perm s.manager.isRunning now s.manager.tasks.items
  rw [FlowState.executeTask]
  split
  · exact h.frame rfl rfl rfl rfl rfl rfl rfl
  constructor
  case running => exact h.running
  case ledger =>
    have hledger := h.ledger.trans (((hdrain.append_right _).append_right _).append_right _)
    simp only [leave_items, List.map_append, List.map_map, Function.comp_def,
      List.map_id']
    apply hledger.trans
    simp only [← Multiset.coe_eq_coe, ← Multiset.coe_add]
    abel
  case selected => exact h.selected
  case inTime =>
    intro entry hentry
    rcases List.mem_append.mp hentry with hentry | hentry
    · obtain ⟨task, htask, rfl⟩ := List.mem_map.mp hentry
      exact (drain_due htask).1
    · exact h.inTime entry hentry
  case callable =>
    intro entry hentry
    rcases List.mem_append.mp hentry with hentry | hentry
    · obtain ⟨task, htask, rfl⟩ := List.mem_map.mp hentry
      exact (drain_due htask).2
    · exact h.callable entry hentry
  case null =>
    intro task htask
    rcases List.mem_append.mp htask with htask | htask
    · exact drain_discarded h.running htask
    · exact h.null task htask
  case jobs =>
    simp only [List.map_append, List.map_map, Function.comp_def, List.map_id',
      List.filterMap_append]
    split
    · rename_i hempty
      rw [List.isEmpty_iff.mp hempty, List.filterMap_nil, List.nil_append]
      exact h.jobs
    · rw [TimerPool.execute, List.flatten_append, List.flatten_singleton]
      exact (h.jobs.append_right _).trans List.perm_append_comm

theorem Accounted.step [Strategy σ κ] (h : s.Accounted) {action : FlowAction κ}
    (hstep : s.step now action = some s') : s'.Accounted := by
  cases action with
  | execute task info =>
      cases hstep
      rcases s.execute_cases now task info with heq | ⟨strategy, time, heq⟩
      · rw [heq]
        exact h
      · rw [heq]
        exact h.frame rfl rfl rfl rfl rfl rfl rfl
  | remove filter =>
      cases hstep
      exact h.remove filter
  | fire j =>
      rw [FlowState.step, fire] at hstep
      split at hstep
      · split at hstep
        · cases hstep
          exact h.frame rfl rfl rfl rfl rfl rfl rfl
        · cases hstep
      · cases hstep
  | resume j =>
      obtain ⟨call, -, hresume⟩ := Option.bind_eq_some_iff.mp hstep
      cases call with
      | genTaskId task info time =>
          cases hresume
          exact h.frame rfl rfl rfl rfl rfl rfl rfl
      | push innerTask =>
          cases hresume
          exact h.pushTask innerTask
      | timer id =>
          cases hresume
          exact h.executeTask id
      | schedule callback =>
          cases hresume
          rw [beginSchedule]
          split
          · exact h.frame rfl rfl rfl rfl rfl rfl rfl
          · split
            · split <;> exact h.frame rfl rfl rfl rfl rfl rfl rfl
            · exact h.frame rfl rfl rfl rfl rfl rfl rfl
      | cancel callback id =>
          rw [FlowState.resume] at hresume
          split at hresume
          · cases hresume
          · cases hresume
            exact h.frame rfl rfl rfl rfl rfl rfl rfl
      | arm callback =>
          cases hresume
          rw [armTimer]
          dsimp only
          split
          · exact h.frame rfl rfl rfl rfl rfl rfl rfl
          · split
            · exact h.frame rfl rfl rfl rfl rfl rfl rfl
            · split <;> exact h.frame rfl rfl rfl rfl rfl rfl rfl

/-- The timer of `taskId_` waits in the pool and is due by the earliest queued
time; for a time already past it was armed without delay. -/
def Armed (m : FlowControlManager σ κ) (pool : TimerPool κ) : Prop :=
  ∃ timer ∈ pool.timers, m.taskId = some timer.id ∧
    ∃ top, m.tasks.top? = some top ∧ (timer.due ≤ top.time ∨ timer.delay = 0)

/-- `known`: a valid `taskId_` waits in the pool, or its callback has yet to reset it.
`cancelled`: a timer on its way out is never the one in `taskId_`. -/
structure WakeUps (m : FlowControlManager σ κ) (pool : TimerPool κ) (calls : List (FlowCall κ)) :
    Prop where
  running : m.isRunning = true
  hasPool : m.hasPool = true
  issued : ∀ id, m.taskId = some id → id < pool.nextTask
  cancelled : ∀ callback id, .cancel callback id ∈ calls →
    id < pool.nextTask ∧ m.taskId ≠ some id
  known : ∀ id, m.taskId = some id → (∃ timer ∈ pool.timers, timer.id = id) ∨ .timer id ∈ calls
  owed : m.tasks.items ≠ [] → Armed m pool ∨ ∃ call ∈ calls, call.WillArm

section

variable {m m' : FlowControlManager σ κ} {pool : TimerPool κ} {calls calls' : List (FlowCall κ)}
  {call : FlowCall κ}

/-- Steps that touch neither the queue nor the timers, and retire no call that a
wake-up may rest on. -/
theorem WakeUps.frame (h : WakeUps m pool calls) (hrunning : m'.isRunning = m.isRunning)
    (hhasPool : m'.hasPool = m.hasPool) (htasks : m'.tasks = m.tasks)
    (htaskId : m'.taskId = m.taskId)
    (hcancel : ∀ callback id, .cancel callback id ∈ calls' → .cancel callback id ∈ calls)
    (hcalls : ∀ call ∈ calls, call.WillArm → call ∈ calls') : WakeUps m' pool calls' := by
  constructor
  · rw [hrunning]; exact h.running
  · rw [hhasPool]; exact h.hasPool
  · rw [htaskId]; exact h.issued
  · intro callback id hmem
    rw [htaskId]
    exact h.cancelled callback id (hcancel callback id hmem)
  · intro id hid
    rw [htaskId] at hid
    exact (h.known id hid).imp_right fun hmem => hcalls _ hmem trivial
  · intro hqueued
    rw [htasks] at hqueued
    rcases h.owed hqueued with harmed | ⟨call, hmem, hwill⟩
    · left
      rw [Armed, htaskId, htasks]
      exact harmed
    · exact .inr ⟨call, hcalls call hmem hwill, hwill⟩

theorem willArm_kept {next : Option (FlowCall κ)} (hcall : calls[i]? = some call)
    (hnot : ¬ call.WillArm) {other : FlowCall κ} (hmem : other ∈ calls) (hwill : other.WillArm) :
    other ∈ advance calls i next :=
  mem_advance_of_ne hcall hmem fun heq => hnot (heq ▸ hwill)

variable (h : WakeUps m pool calls)

include h

theorem WakeUps.genTaskId {task : Option κ} {info : TaskInfo} {time : Tp}
    (hcall : calls[i]? = some (.genTaskId task info time)) (innerTaskId : UInt64)
    (innerTask : InnerTask κ) :
    WakeUps { m with innerTaskId } pool (advance calls i (some (.push innerTask))) := by
  refine h.frame rfl rfl rfl rfl ?_ ?_
  · intro callback id hmem
    exact (mem_advance hmem).resolve_left (by simp)
  · intro other hmem hwill
    exact willArm_kept hcall not_false hmem hwill

theorem WakeUps.push {innerTask : InnerTask κ} {next : Option (FlowCall κ)}
    (hcall : calls[i]? = some (.push innerTask))
    (hnext : next = if (m.tasks.push innerTask).top?.map InnerTask.id = some innerTask.id
      then some (.schedule none) else none) :
    WakeUps { m with tasks := m.tasks.push innerTask } pool (advance calls i next) := by
  have hnot : ¬ (FlowCall.push innerTask).WillArm := not_false
  have hnotCancel : ∀ callback id, next ≠ some (.cancel callback id) := by
    rw [hnext]
    split <;> simp
  constructor
  case running => exact h.running
  case hasPool => exact h.hasPool
  case issued => exact h.issued
  case cancelled =>
    intro callback id hmem
    exact h.cancelled callback id ((mem_advance hmem).resolve_left (hnotCancel callback id))
  case known =>
    intro id hid
    exact (h.known id hid).imp_right fun hmem => willArm_kept hcall hnot hmem trivial
  case owed =>
    intro _
    by_cases htop : (m.tasks.push innerTask).top?.map InnerTask.id = some innerTask.id
    · rw [if_pos htop] at hnext
      subst hnext
      exact .inr ⟨.schedule none, mem_advance_self hcall, trivial⟩
    rcases m.tasks.top?_push innerTask with hnew | ⟨hqueued, hsame⟩
    · rw [hnew] at htop
      exact absurd rfl htop
    · rcases h.owed hqueued with ⟨timer, hmem, hid, top, hold, hdue⟩ | ⟨call, hmem, hwill⟩
      · exact .inl ⟨timer, hmem, hid, top, hsame.trans hold, hdue⟩
      · exact .inr ⟨call, willArm_kept hcall hnot hmem hwill, hwill⟩

/-- The callback has reset `taskId_` and goes on to `Schedule`, whatever is left. -/
theorem WakeUps.executed {id : TaskId} (hcall : calls[i]? = some (.timer id))
    (tasks : TaskQueue κ) {pool' : TimerPool κ} (hpool : pool'.nextTask = pool.nextTask) :
    WakeUps { m with tasks, taskId := none } pool'
      (advance calls i (some (.schedule (some id)))) := by
  constructor
  case running => exact h.running
  case hasPool => exact h.hasPool
  case issued => exact nofun
  case cancelled =>
    intro callback cancelled hmem
    rw [hpool]
    exact ⟨(h.cancelled callback cancelled ((mem_advance hmem).resolve_left (by simp))).1, nofun⟩
  case known => exact nofun
  case owed => exact fun _ => .inr ⟨.schedule (some id), mem_advance_self hcall, trivial⟩

theorem WakeUps.toArm {callback : Option TaskId} (hcall : calls[i]? = some (.schedule callback)) :
    WakeUps m pool (advance calls i (some (.arm callback))) := by
  refine ⟨h.running, h.hasPool, h.issued, ?_, ?_, ?_⟩
  · intro other id hmem
    exact h.cancelled other id ((mem_advance hmem).resolve_left (by simp))
  · intro id hid
    exact (h.known id hid).imp_right fun hmem => mem_advance_of_ne hcall hmem (by simp)
  · exact fun _ => .inr ⟨.arm callback, mem_advance_self hcall, trivial⟩

/-- With nothing queued the timer leaves `taskId_` before it leaves the pool. -/
theorem WakeUps.toCancel {callback : Option TaskId} {id : TaskId} (htaskId : m.taskId = some id)
    (hempty : m.tasks.items = []) :
    WakeUps { m with taskId := none } pool (advance calls i (some (.cancel callback id))) := by
  refine ⟨h.running, h.hasPool, nofun, ?_, nofun, fun hqueued => absurd hempty hqueued⟩
  intro other cancelled hmem
  rcases mem_advance hmem with heq | hmem
  · cases heq
    exact ⟨h.issued id htaskId, nofun⟩
  · exact ⟨(h.cancelled other cancelled hmem).1, nofun⟩

theorem WakeUps.cancel {callback : Option TaskId} {id : TaskId}
    (hcall : calls[i]? = some (.cancel callback id)) :
    WakeUps m (pool.remove id) (advance calls i none) := by
  have hnot : ¬ (FlowCall.cancel callback id : FlowCall κ).WillArm := not_false
  have hother := (h.cancelled callback id (List.mem_of_getElem? hcall)).2
  have hstays : ∀ timer ∈ pool.timers, m.taskId = some timer.id →
      timer ∈ (pool.remove id).timers := by
    intro timer hmem htaskId
    have hne : timer.id ≠ id := fun heq => hother (heq ▸ htaskId)
    exact List.mem_filter.mpr ⟨hmem, by simpa using hne⟩
  refine ⟨h.running, h.hasPool, h.issued, ?_, ?_, ?_⟩
  · intro other cancelled hmem
    exact h.cancelled other cancelled ((mem_advance hmem).resolve_left nofun)
  · intro known hknown
    rcases h.known known hknown with ⟨timer, hmem, rfl⟩ | hmem
    · exact .inl ⟨timer, hstays timer hmem hknown, rfl⟩
    · exact .inr (willArm_kept hcall hnot hmem trivial)
  · intro hqueued
    rcases h.owed hqueued with ⟨timer, hmem, htaskId, hdue⟩ | ⟨call, hmem, hwill⟩
    · exact .inl ⟨timer, hstays timer hmem htaskId, htaskId, hdue⟩
    · exact .inr ⟨call, willArm_kept hcall hnot hmem hwill, hwill⟩

omit h

theorem due_le_or_immediate (now time : Tp) (id : TaskId) :
    let timer : Timer := ⟨id, now, if time < now then 0 else time - now⟩
    timer.due ≤ time ∨ timer.delay = 0 := by
  by_cases hpast : time < now
  · exact .inr (if_pos hpast)
  left
  rw [if_neg hpast]
  exact le_of_eq (add_sub_cancel now time)

variable (h : WakeUps m pool calls)

include h

/-- `Reset` moves the timer of `taskId_` if it still waits; else its callback is to come. -/
theorem WakeUps.reset {callback : Option TaskId} (hcall : calls[i]? = some (.arm callback))
    {task : InnerTask κ} {id : TaskId} (htop : m.tasks.top? = some task)
    (htaskId : m.taskId = some id) :
    WakeUps m (pool.reset now id (if task.time < now then 0 else task.time - now))
      (advance calls i none) := by
  have hcovered : (∃ timer ∈ (pool.reset now id
      (if task.time < now then 0 else task.time - now)).timers, timer.id = id ∧
        (timer.due ≤ task.time ∨ timer.delay = 0)) ∨ .timer id ∈ advance calls i none := by
    rcases h.known id htaskId with ⟨timer, hmem, hid⟩ | hmem
    · exact .inl ⟨_, List.mem_map.mpr ⟨timer, hmem, if_pos hid⟩, rfl,
        due_le_or_immediate now task.time id⟩
    · exact .inr (mem_advance_of_ne hcall hmem (by simp))
  refine ⟨h.running, h.hasPool, h.issued, ?_, ?_, ?_⟩
  · intro other cancelled hmem
    exact h.cancelled other cancelled ((mem_advance hmem).resolve_left nofun)
  · intro known hknown
    have hsame : known = id := Option.some.inj (hknown.symm.trans htaskId)
    rw [hsame]
    exact hcovered.imp_left fun ⟨timer, hmem, hid, _⟩ => ⟨timer, hmem, hid⟩
  · intro _
    rcases hcovered with ⟨timer, hmem, hid, hdue⟩ | hmem
    · exact .inl ⟨timer, hmem, by rw [htaskId, hid], task, htop, hdue⟩
    · exact .inr ⟨.timer id, hmem, trivial⟩

theorem WakeUps.schedule {task : InnerTask κ} (htop : m.tasks.top? = some task) :
    WakeUps { m with taskId := some pool.nextTask }
      (pool.schedule now (if task.time < now then 0 else task.time - now)).2
      (advance calls i none) := by
  refine ⟨h.running, h.hasPool, ?_, ?_, ?_, ?_⟩
  · intro id hid
    cases hid
    exact Nat.lt_succ_self _
  · intro other id hmem
    have hold := (h.cancelled other id ((mem_advance hmem).resolve_left nofun)).1
    refine ⟨Nat.lt_succ_of_lt hold, ?_⟩
    intro heq
    exact absurd (Option.some.inj heq) (Nat.ne_of_gt hold)
  · intro id hid
    exact .inl ⟨_, List.mem_cons_self, Option.some.inj hid⟩
  · intro _
    exact .inl ⟨_, List.mem_cons_self, rfl, task, htop, due_le_or_immediate now _ _⟩

theorem WakeUps.armNothing {callback : Option TaskId} (hcall : calls[i]? = some (.arm callback))
    (hnone : m.tasks.top? = none) : WakeUps m pool (advance calls i none) := by
  refine ⟨h.running, h.hasPool, h.issued, ?_, ?_, ?_⟩
  · intro other id hmem
    exact h.cancelled other id ((mem_advance hmem).resolve_left nofun)
  · intro id hid
    exact (h.known id hid).imp_right fun hmem => mem_advance_of_ne hcall hmem (by simp)
  · intro hqueued
    obtain ⟨top, htop⟩ := exists_top hqueued
    rw [htop] at hnone
    cases hnone

theorem WakeUps.append {new : FlowCall κ} (hnew : ∀ callback id, new ≠ .cancel callback id) :
    WakeUps m pool (calls ++ [new]) := by
  refine h.frame rfl rfl rfl rfl ?_ ?_
  · intro callback id hmem
    rcases List.mem_append.mp hmem with hmem | hmem
    · exact hmem
    · exact absurd (List.mem_singleton.mp hmem).symm (hnew callback id)
  · intro call hmem _
    exact List.mem_append_left _ hmem

theorem WakeUps.removed (tasks : TaskQueue κ) :
    WakeUps { m with tasks } pool (calls ++ [.schedule none]) := by
  have hkept : WakeUps m pool (calls ++ [.schedule none]) := h.append (by simp)
  exact ⟨hkept.running, hkept.hasPool, hkept.issued, hkept.cancelled, hkept.known,
    fun _ => .inr ⟨.schedule none, by simp, trivial⟩⟩

theorem WakeUps.fired {timer : Timer} (htimer : pool.timers[i]? = some timer) :
    WakeUps m { pool with timers := pool.timers.eraseIdx i } (calls ++ [.timer timer.id]) := by
  have hkept : WakeUps m pool (calls ++ [.timer timer.id]) := h.append (by simp)
  refine ⟨h.running, h.hasPool, h.issued, hkept.cancelled, ?_,
    fun _ => .inr ⟨.timer timer.id, by simp, trivial⟩⟩
  intro id hid
  by_cases hsame : id = timer.id
  · exact .inr (by simp [hsame])
  rcases h.known id hid with ⟨other, hmem, hother⟩ | hmem
  · have hne : other ≠ timer := fun heq => hsame (hother.symm.trans (congrArg Timer.id heq))
    have hwaits : other ∈ advance pool.timers i none := mem_advance_of_ne htimer hmem hne
    exact .inl ⟨other, hwaits, hother⟩
  · exact .inr (List.mem_append_left _ hmem)

end

theorem WakeUps.step [Strategy σ κ] (h : WakeUps s.manager s.pool s.calls)
    {action : FlowAction κ} (hstep : s.step now action = some s') :
    WakeUps s'.manager s'.pool s'.calls := by
  have henabled : ¬ (!s.manager.isRunning || !s.manager.hasPool) = true := by
    simp [h.running, h.hasPool]
  cases action with
  | execute task info =>
      cases hstep
      rcases s.execute_cases now task info with heq | ⟨strategy, time, heq⟩
      · rw [heq]
        exact h
      rw [heq]
      have hkept : WakeUps s.manager s.pool (s.calls ++ [.genTaskId task info time]) :=
        h.append (by simp)
      exact ⟨hkept.running, hkept.hasPool, hkept.issued, hkept.cancelled, hkept.known, hkept.owed⟩
  | remove filter =>
      cases hstep
      exact h.removed _
  | fire j =>
      rw [FlowState.step, fire] at hstep
      split at hstep
      · rename_i timer htimer
        split at hstep
        · cases hstep
          exact h.fired htimer
        · cases hstep
      · cases hstep
  | resume j =>
      obtain ⟨call, hcall, hresume⟩ := Option.bind_eq_some_iff.mp hstep
      cases call with
      | genTaskId task info time =>
          cases hresume
          exact h.genTaskId hcall _ _
      | push innerTask =>
          cases hresume
          exact h.push hcall rfl
      | timer id =>
          cases hresume
          rw [FlowState.executeTask, if_neg henabled]
          refine h.executed hcall _ ?_
          dsimp only
          split <;> rfl
      | schedule callback =>
          cases hresume
          rw [beginSchedule, if_neg henabled]
          split
          · rename_i id htaskId
            split
            · rename_i hempty
              exact h.toCancel htaskId (isEmpty_eq_true.mp hempty)
            · exact h.toArm hcall
          · exact h.toArm hcall
      | cancel callback id =>
          rw [FlowState.resume] at hresume
          split at hresume
          · cases hresume
          · cases hresume
            exact h.cancel hcall
      | arm callback =>
          cases hresume
          rw [armTimer, if_neg (by simp [h.running])]
          dsimp only
          split
          · rename_i hnone
            exact h.armNothing hcall hnone
          rename_i task htop
          split
          · rename_i id htaskId
            exact h.reset hcall htop htaskId
          · exact h.schedule htop

/-- Nothing is ever queued or armed. -/
structure Idle (s : FlowState σ κ) : Prop where
  hasPool : s.manager.hasPool = false
  queue : s.manager.tasks.items = []
  timers : s.pool.timers = []
  calls : ∀ call ∈ s.calls, ∃ callback, call = .schedule callback

theorem Idle.step [Strategy σ κ] (h : s.Idle) {action : FlowAction κ}
    (hstep : s.step now action = some s') : s'.Idle := by
  have hdisabled : (!s.manager.isRunning || !s.manager.hasPool) = true := by simp [h.hasPool]
  cases action with
  | execute task info =>
      cases hstep
      rw [FlowState.execute, if_pos hdisabled]
      exact h
  | remove filter =>
      cases hstep
      refine ⟨h.hasPool, ?_, h.timers, ?_⟩
      · rw [FlowState.remove, refill, h.queue]
        rfl
      · intro call hmem
        rcases List.mem_append.mp hmem with hmem | hmem
        · exact h.calls call hmem
        · exact ⟨none, List.mem_singleton.mp hmem⟩
  | fire j =>
      rw [FlowState.step, fire, h.timers] at hstep
      cases hstep
  | resume j =>
      obtain ⟨call, hcall, hresume⟩ := Option.bind_eq_some_iff.mp hstep
      obtain ⟨callback, rfl⟩ := h.calls call (List.mem_of_getElem? hcall)
      cases hresume
      rw [beginSchedule, if_pos hdisabled]
      refine ⟨h.hasPool, h.queue, h.timers, ?_⟩
      intro call hmem
      have hmem' : call ∈ advance s.calls j none := hmem
      exact h.calls call ((mem_advance hmem').resolve_left (by simp))

/-- `owed`, in the words of the two parties: a timer due by every queued time (or at
the moment it was armed, if that is later), or a callback or `Schedule` in progress. -/
def Covered (s : FlowState σ κ) : Prop :=
  s.manager.isRunning = true → s.manager.tasks.items ≠ [] →
    (∃ timer ∈ s.pool.timers, ∀ task ∈ s.manager.tasks.items,
      timer.due ≤ max task.time timer.armed) ∨ ∃ call ∈ s.calls, call.InSchedule

theorem WakeUps.covered (h : WakeUps s.manager s.pool s.calls) : s.Covered := by
  intro _ hqueued
  rcases h.owed hqueued with ⟨timer, hmem, -, top, htop, hdue⟩ | ⟨call, hmem, hwill⟩
  · left
    refine ⟨timer, hmem, ?_⟩
    intro task htask
    rcases hdue with hdue | hnow
    · exact le_max_of_le_left (hdue.trans (top_le htop task htask))
    · rw [Timer.due, hnow, add_zero]
      exact le_max_right _ _
  · right
    refine ⟨call, hmem, ?_⟩
    cases call <;> trivial

theorem Idle.covered (h : s.Idle) : s.Covered := fun _ hqueued => absurd h.queue hqueued

end FlowState

open FlowState

variable {σ : Type u} {κ : Type v} [Strategy σ κ]

theorem flowMachine_invariant (inv : FlowState σ κ → Prop)
    (hstep : ∀ (s : FlowState σ κ) now action s', inv s → s.step now action = some s' → inv s')
    {s s' : ClockedFlow σ κ} {schedule : List (ClockedAction κ)} (hs : inv s.flow)
    (hrun : (flowMachine σ κ).exec s schedule = some s') : inv s'.flow := by
  refine @Machine.exec_invariant _ _ (flowMachine σ κ) (fun t => inv t.flow) ?_ _ _ _ hs hrun
  intro t action t' ht htstep
  cases action with
  | tick elapsed =>
      cases htstep
      exact ht
  | flow action =>
      obtain ⟨flow, hflow, rfl⟩ := Option.map_eq_some_iff.mp htstep
      exact hstep t.flow t.clock action flow ht hflow

/-- In every interleaving each accepted task is queued, removed by a filter that
selects it, handed over once and in time, or null and discarded; and the queue is
never left without a timer or a call that looks after it. -/
theorem flowControl_keeps_every_task (hasPool : Bool) (strategy : Option σ) (firstTask : TaskId)
    (clock : Tp) (schedule : List (ClockedAction κ)) (s : ClockedFlow σ κ)
    (hrun : (flowMachine σ κ).exec ⟨clock, start hasPool strategy firstTask⟩ schedule = some s) :
    s.flow.accepted.Perm (s.flow.manager.tasks.items ++ s.flow.removed.map Prod.fst ++
        s.flow.handed.map Prod.fst ++ s.flow.discarded) ∧
      (∀ r ∈ s.flow.removed, r.2.selects r.1.info = true) ∧
      (∀ h ∈ s.flow.handed, h.1.time ≤ h.2) ∧
      s.flow.pool.jobs.flatten.Perm ((s.flow.handed.map Prod.fst).filterMap InnerTask.task) ∧
      (∀ task ∈ s.flow.discarded, task.task = none) ∧
      s.flow.Covered := by
  have haccounted : s.flow.Accounted :=
    flowMachine_invariant Accounted (fun _ _ _ _ h hstep => h.step hstep)
      (by constructor <;> simp [start]) hrun
  have hcovered : s.flow.Covered := by
    cases hasPool with
    | false =>
        exact (flowMachine_invariant Idle (fun _ _ _ _ h hstep => h.step hstep)
          (by constructor <;> simp [start]) hrun).covered
    | true =>
        have hwake : WakeUps s.flow.manager s.flow.pool s.flow.calls :=
          flowMachine_invariant (fun t => WakeUps t.manager t.pool t.calls)
            (fun _ _ _ _ h hstep => h.step hstep) (by constructor <;> simp [start]) hrun
        exact hwake.covered
  exact ⟨haccounted.ledger, haccounted.selected, haccounted.inTime, haccounted.jobs,
    haccounted.null, hcovered⟩

def oneTask (task : Option Nat) : List (ClockedAction Nat) :=
  [.flow (.execute task ⟨0, ""⟩), .flow (.resume 0), .flow (.resume 0), .flow (.resume 0),
    .flow (.resume 0), .flow (.fire 0), .flow (.resume 0)]

theorem flowControl_keeps_one_task :
    ∃ s : ClockedFlow RdbFlowControlStrategy Nat,
      (flowMachine RdbFlowControlStrategy Nat).exec ⟨3, start true none 0⟩ (oneTask (some 7)) =
          some s ∧ s.flow.pool.jobs = [[7]] ∧ s.flow.Covered :=
  ⟨_, rfl, rfl, (flowControl_keeps_every_task true none 0 3 (oneTask (some 7)) _ rfl).2.2.2.2.2⟩

/-- A null task is accepted and then in none of the three places; and a timer armed
after the earliest time has passed is due later than it. -/
theorem flowControl_drops_null_and_arms_late :
    (∃ s : ClockedFlow RdbFlowControlStrategy Nat,
      (flowMachine RdbFlowControlStrategy Nat).exec ⟨3, start true none 0⟩ (oneTask none) = some s ∧
        ¬ s.flow.accepted.Perm (s.flow.manager.tasks.items ++ s.flow.removed.map Prod.fst ++
          s.flow.handed.map Prod.fst)) ∧
    (∃ s : ClockedFlow RdbFlowControlStrategy Nat,
      (flowMachine RdbFlowControlStrategy Nat).exec ⟨3, start true none 0⟩
        [.flow (.execute (some 7) ⟨0, ""⟩), .flow (.resume 0), .flow (.resume 0), .tick 5,
          .flow (.resume 0), .flow (.resume 0)] = some s ∧
        s.flow.manager.isRunning = true ∧ s.flow.calls = [] ∧
        ∃ task ∈ s.flow.manager.tasks.items,
          ∀ timer ∈ s.flow.pool.timers, task.time < timer.due) := by
  constructor
  · refine ⟨_, rfl, ?_⟩
    intro hperm
    exact absurd hperm.length_eq (by decide)
  · exact ⟨_, rfl, rfl, rfl, ⟨some 7, ⟨0, ""⟩, 3, 1⟩, by decide, by decide⟩

end DataMgr.Flow
