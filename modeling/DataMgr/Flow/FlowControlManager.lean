import DataMgr.Foundation.Machine
import DataMgr.Foundation.MinQueue
import DataMgr.Store.GeneralStore

/-! # The flow-control manager

Tasks wait in a queue ordered by the time a strategy gives them; one timer of the
executor pool is kept armed for the earliest of them. Every section under the
manager's mutex is one step, and so is every call of the pool made outside it.
-/

namespace DataMgr.Flow

open DataMgr.Foundation DataMgr.Store

universe u v

/-- `steady_clock::time_point`, in nanoseconds. -/
abbrev Tp := Int

structure TaskInfo where
  type : UInt32
  label : String
deriving DecidableEq, Repr

/-- `FlowControlManager::Strategy`. The answer depends on the clock, on the task
(a null function is `none`) and on what the strategy remembers. -/
class Strategy (σ : Type u) (κ : Type v) where
  getExecuteTime : σ → Tp → Option κ → TaskInfo → Tp × σ

/-- `FlowControlManager::Filter`; `none` is the null filter. -/
abbrev TaskFilter := Option (TaskInfo → Bool)

def TaskFilter.selects : TaskFilter → TaskInfo → Bool
  | none, _ => true
  | some test, info => test info

structure InnerTask (κ : Type v) where
  task : Option κ
  info : TaskInfo
  time : Tp
  id : UInt64
deriving DecidableEq, Repr

/-- `std::priority_queue<InnerTask>`: `operator<` puts the earliest time on top. -/
abbrev TaskQueue (κ : Type v) := MinQueue (InnerTask κ) InnerTask.time

/-- A delayed task of the pool: when it was armed, and its delay. -/
structure Timer where
  id : TaskId
  armed : Tp
  delay : Int
deriving DecidableEq, Repr

def Timer.due (timer : Timer) : Tp := timer.armed + timer.delay

/-- The pool as the manager uses it: delayed callbacks that wait, and the batches
handed over for execution. -/
structure TimerPool (κ : Type v) where
  nextTask : TaskId
  timers : List Timer
  jobs : List (List κ)
deriving Repr

namespace TimerPool

variable {κ : Type v}

variable (pool : TimerPool κ)

def schedule (now : Tp) (delay : Int) : TaskId × TimerPool κ :=
  (pool.nextTask, { pool with nextTask := pool.nextTask + 1,
                              timers := ⟨pool.nextTask, now, delay⟩ :: pool.timers })

/-- `ExecutorPool::Reset`; a task that has started is out of its reach. -/
def reset (now : Tp) (id : TaskId) (delay : Int) : TimerPool κ :=
  { pool with timers := pool.timers.map fun timer =>
      if timer.id = id then ⟨id, now, delay⟩ else timer }

def remove (id : TaskId) : TimerPool κ :=
  { pool with timers := pool.timers.filter (·.id ≠ id) }

def execute (job : List κ) : TimerPool κ :=
  { pool with jobs := pool.jobs ++ [job] }

end TimerPool

/-- The members of `FlowControlManager`. `INVALID_TASK_ID` is `none`. -/
structure FlowControlManager (σ : Type u) (κ : Type v) where
  hasPool : Bool
  strategy : Option σ
  isRunning : Bool
  tasks : TaskQueue κ
  taskId : Option TaskId
  innerTaskId : UInt64

/-- `GenTaskId`: the id, and the counter afterwards; zero is never issued. -/
def genTaskId (innerTaskId : UInt64) : UInt64 × UInt64 :=
  let taskId := innerTaskId + 1
  if taskId = 0 then (taskId + 1, taskId + 1) else (taskId, taskId)

/-- What the loop of `ExecuteTask` does to the queue: the tasks it takes over, the
ones it discards, and what stays. -/
structure Drained (κ : Type v) where
  due : List (InnerTask κ)
  discarded : List (InnerTask κ)
  left : List (InnerTask κ)

/-- The loop of `ExecuteTask`, from the top of the queue down. -/
def drain {κ : Type v} (isRunning : Bool) (now : Tp) : List (InnerTask κ) → Drained κ
  | [] => ⟨[], [], []⟩
  | task :: rest =>
      let d := drain isRunning now rest
      if task.task.isNone || !isRunning then { d with discarded := task :: d.discarded }
      else if task.time ≤ now then { d with due := task :: d.due }
      else ⟨[], [], task :: rest⟩

theorem drain_left_suffix {κ : Type v} (isRunning : Bool) (now : Tp) (items : List (InnerTask κ)) :
    (drain isRunning now items).left <:+ items := by
  induction items with
  | nil => exact List.suffix_refl _
  | cons task rest ih =>
      rw [drain]
      split
      · exact ih.trans (List.suffix_cons task rest)
      · split
        · exact ih.trans (List.suffix_cons task rest)
        · exact List.suffix_refl _

theorem drain_perm {κ : Type v} (isRunning : Bool) (now : Tp) (items : List (InnerTask κ)) :
    items.Perm ((drain isRunning now items).left ++ (drain isRunning now items).due ++
      (drain isRunning now items).discarded) := by
  induction items with
  | nil => exact List.Perm.refl _
  | cons task rest ih =>
      rw [drain]
      split
      · exact (ih.cons task).trans List.perm_middle.symm
      split
      · rw [List.append_assoc, List.cons_append]
        rw [List.append_assoc] at ih
        exact (ih.cons task).trans List.perm_middle.symm
      · simp

theorem drain_due {κ : Type v} {isRunning : Bool} {now : Tp} {items : List (InnerTask κ)}
    {task : InnerTask κ} (h : task ∈ (drain isRunning now items).due) :
    task.time ≤ now ∧ task.task.isSome = true := by
  induction items with
  | nil => simp [drain] at h
  | cons first rest ih =>
      rw [drain] at h
      split at h
      · exact ih h
      rename_i hkept
      split at h
      · rename_i htime
        rcases List.mem_cons.mp h with rfl | h
        · cases hbody : task.task with
          | none => simp [hbody] at hkept
          | some body => exact ⟨htime, rfl⟩
        · exact ih h
      · simp at h

theorem drain_discarded {κ : Type v} {isRunning : Bool} {now : Tp} {items : List (InnerTask κ)}
    {task : InnerTask κ} (hrunning : isRunning = true)
    (h : task ∈ (drain isRunning now items).discarded) : task.task = none := by
  subst hrunning
  induction items with
  | nil => simp [drain] at h
  | cons first rest ih =>
      rw [drain] at h
      split at h
      · rename_i hnull
        rcases List.mem_cons.mp h with rfl | h
        · simpa using hnull
        · exact ih h
      · split at h
        · exact ih h
        · simp at h

/-- A call in progress, by the section it takes next. `callback` names the timer
whose callback makes the `Schedule` call; it is `none` inside `Execute` and `Remove`. -/
inductive FlowCall (κ : Type v) where
  | genTaskId (task : Option κ) (info : TaskInfo) (time : Tp)
  | push (innerTask : InnerTask κ)
  | timer (id : TaskId)
  | schedule (callback : Option TaskId)
  | cancel (callback : Option TaskId) (id : TaskId)
  | arm (callback : Option TaskId)
deriving DecidableEq, Repr

def FlowCall.callback {κ : Type v} : FlowCall κ → Option TaskId
  | .genTaskId .. | .push _ => none
  | .timer id => some id
  | .schedule callback | .cancel callback _ | .arm callback => callback

/-- A timer callback or a `Schedule` call, as opposed to the first part of `Execute`. -/
def FlowCall.InSchedule {κ : Type v} : FlowCall κ → Prop
  | .genTaskId .. | .push _ => False
  | .timer _ | .schedule _ | .cancel _ _ | .arm _ => True

inductive FlowAction (κ : Type v) where
  | execute (task : Option κ) (info : TaskInfo)
  | remove (filter : TaskFilter)
  | fire (timer : Nat)
  | resume (call : Nat)

/-- The manager, its share of the pool, the calls in progress, and the record of
what became of every task `Execute` has put into the queue. -/
structure FlowState (σ : Type u) (κ : Type v) where
  manager : FlowControlManager σ κ
  pool : TimerPool κ
  calls : List (FlowCall κ)
  accepted : List (InnerTask κ)
  removed : List (InnerTask κ × TaskFilter)
  handed : List (InnerTask κ × Tp)
  discarded : List (InnerTask κ)

namespace FlowState

variable {σ : Type u} {κ : Type v}

def start (hasPool : Bool) (strategy : Option σ) (firstTask : TaskId) : FlowState σ κ where
  manager := { hasPool, strategy, isRunning := true, tasks := MinQueue.empty,
               taskId := none, innerTaskId := 0 }
  pool := ⟨firstTask, [], []⟩
  calls := []
  accepted := []
  removed := []
  handed := []
  discarded := []

variable (s : FlowState σ κ) (now : Tp) (i : Nat)

/-- The locked section of `Execute`; only a new top goes on to `Schedule`. -/
def pushTask (innerTask : InnerTask κ) : FlowState σ κ :=
  let tasks := s.manager.tasks.push innerTask
  let next :=
    if tasks.top?.map InnerTask.id = some innerTask.id then some (.schedule none) else none
  { s with manager := { s.manager with tasks }, calls := advance s.calls i next,
           accepted := innerTask :: s.accepted }

/-- `ExecuteTask`, at the start of the timer callback. -/
def executeTask (id : TaskId) : FlowState σ κ :=
  let calls := advance s.calls i (some (.schedule (some id)))
  if !s.manager.isRunning || !s.manager.hasPool then { s with calls }
  else
    let d := drain s.manager.isRunning now s.manager.tasks.items
    let tasks := s.manager.tasks.leave d.left (drain_left_suffix _ _ _)
    let pool := if d.due.isEmpty then s.pool else s.pool.execute (d.due.filterMap InnerTask.task)
    { s with manager := { s.manager with tasks, taskId := none }, pool, calls
             handed := d.due.map (·, now) ++ s.handed
             discarded := d.discarded ++ s.discarded }

/-- The first locked section of `Schedule`: with nothing queued, a timer is taken
back from `taskId_` to be cancelled. -/
def beginSchedule (callback : Option TaskId) : FlowState σ κ :=
  if !s.manager.isRunning || !s.manager.hasPool then { s with calls := advance s.calls i none }
  else
    match s.manager.taskId with
    | some id =>
        if s.manager.tasks.isEmpty then
          { s with manager := { s.manager with taskId := none },
                   calls := advance s.calls i (some (.cancel callback id)) }
        else { s with calls := advance s.calls i (some (.arm callback)) }
    | none => { s with calls := advance s.calls i (some (.arm callback)) }

/-- The second locked section of `Schedule`. -/
def armTimer : FlowState σ κ :=
  let calls := advance s.calls i none
  if !s.manager.isRunning then { s with calls }
  else
    match s.manager.tasks.top? with
    | none => { s with calls }
    | some task =>
        let duration := if task.time < now then 0 else task.time - now
        match s.manager.taskId with
        | some id => { s with pool := s.pool.reset now id duration, calls }
        | none =>
            let (id, pool) := s.pool.schedule now duration
            { s with manager := { s.manager with taskId := some id }, pool, calls }

def resume : FlowCall κ → Option (FlowState σ κ)
  | .genTaskId task info time =>
      let (id, innerTaskId) := genTaskId s.manager.innerTaskId
      some { s with manager := { s.manager with innerTaskId },
                    calls := advance s.calls i (some (.push ⟨task, info, time, id⟩)) }
  | .push innerTask => some (s.pushTask i innerTask)
  | .timer id => some (s.executeTask now i id)
  | .schedule callback => some (s.beginSchedule i callback)
  | .cancel _ id =>
      -- `Remove(taskId, true)` waits for a callback of that timer to end
      if s.calls.any (·.callback = some id) then none
      else some { s with pool := s.pool.remove id, calls := advance s.calls i none }
  | .arm _ => some (s.armTimer now i)

/-- `Execute` up to its strategy's answer; the call goes on with `GenTaskId`. -/
def execute [Strategy σ κ] (s : FlowState σ κ) (now : Tp) (task : Option κ) (info : TaskInfo) :
    FlowState σ κ :=
  if !s.manager.isRunning || !s.manager.hasPool then s
  else
    match s.manager.strategy with
    | none => { s with calls := s.calls ++ [.genTaskId task info now] }
    | some strategy =>
        let (time, strategy) := Strategy.getExecuteTime strategy now task info
        { s with manager := { s.manager with strategy := some strategy },
                 calls := s.calls ++ [.genTaskId task info time] }

theorem execute_cases [Strategy σ κ] (s : FlowState σ κ) (now : Tp) (task : Option κ)
    (info : TaskInfo) :
    s.execute now task info = s ∨ ∃ strategy time, s.execute now task info =
      { s with manager := { s.manager with strategy },
               calls := s.calls ++ [.genTaskId task info time] } := by
  rw [execute]
  split
  · exact .inl rfl
  split
  · rename_i hnone
    exact .inr ⟨none, now, by rw [← hnone]⟩
  · exact .inr ⟨_, _, rfl⟩

/-- The locked section of `Remove`; `Schedule` follows. -/
def remove (filter : TaskFilter) : FlowState σ κ :=
  { s with
    manager := { s.manager with
      tasks := s.manager.tasks.refill fun task => !filter.selects task.info }
    calls := s.calls ++ [.schedule none]
    removed := (s.manager.tasks.items.filter fun task => filter.selects task.info).map
      (·, filter) ++ s.removed }

def fire : Option (FlowState σ κ) :=
  match s.pool.timers[i]? with
  | some timer =>
      if timer.due ≤ now then
        some { s with pool := { s.pool with timers := s.pool.timers.eraseIdx i },
                      calls := s.calls ++ [.timer timer.id] }
      else none
  | none => none

def destroy : FlowState σ κ :=
  { s with
    manager := { s.manager with isRunning := false, taskId := none, tasks := MinQueue.empty }
    pool := match s.manager.taskId with
      | some id => s.pool.remove id
      | none => s.pool }

def step [Strategy σ κ] (s : FlowState σ κ) (now : Tp) : FlowAction κ → Option (FlowState σ κ)
  | .execute task info => some (s.execute now task info)
  | .remove filter => some (s.remove filter)
  | .fire i => s.fire now i
  | .resume i => (s.calls[i]?).bind (s.resume now i)

end FlowState

end DataMgr.Flow
