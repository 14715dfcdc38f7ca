import DataMgr.Flow.RdbFlowControlStrategy

/-! # Flow control by label

Every label has a manager of its own, whose tasks pass the caller's task on to
one global manager. `Remove` clears the global queue and then the queue of the
label. A task the pool has taken over is in neither queue, so `Remove` reaches
only the tasks that wait; the runs in which it finds all of them waiting are
those it clears completely.
-/

namespace DataMgr.Flow

open DataMgr.Foundation DataMgr.Store

universe u v

/-- The function the label's manager is given: it passes the task and its own copy of the
info on to the global manager. The function and the argument `std::move(taskInfo)` are made in
an order that is left open, so the copy may be of an info whose label has been moved out. The
ticket counts the calls of `Execute`. -/
structure Forwarded (κ : Type v) where
  task : Option κ
  info : TaskInfo
  captured : TaskInfo
  ticket : Nat
deriving DecidableEq, Repr

/-- What the global manager is given; a null task stays null. -/
def Forwarded.global {κ : Type v} (forwarded : Forwarded κ) : Option (Forwarded κ) :=
  forwarded.task.map fun _ => forwarded

/-- A manager created for a label; `attached` while `managers_` holds it. -/
structure LabelManager (κ : Type v) where
  label : String
  attached : Bool
  flow : FlowState RdbFlowControlStrategy (Forwarded κ)

inductive RdbFlowCall (κ : Type v) where
  | execute (manager : Nat) (forwarded : Forwarded κ)
  | remove (label : String) (stamp : Nat)
deriving DecidableEq, Repr

/-- A call of `Execute` that has its manager and has not called it yet. -/
def RdbFlowCall.holds {κ : Type v} (index : Nat) : RdbFlowCall κ → Bool
  | .execute manager _ => manager == index
  | .remove _ _ => false

/-- Steps a manager takes without a new call of its interface. -/
inductive FlowProgress where
  | fire (timer : Nat)
  | resume (call : Nat)
deriving DecidableEq, Repr

def FlowProgress.action {κ : Type v} : FlowProgress → FlowAction κ
  | .fire timer => .fire timer
  | .resume call => .resume call

inductive RdbFlowAction (κ : Type v) where
  | tick (elapsed : Nat)
  | execute (task : Option κ) (info captured : TaskInfo)
  | remove (label : String)
  | resume (call : Nat)
  | label (manager : Nat) (progress : FlowProgress)
  | global (progress : FlowProgress)
  | runLabel (manager job : Nat)
  | runGlobal (job : Nat)
  | destroy (manager : Nat)

/-- `RdbFlowControlManager` after `Init`, with the calls in progress. `returned`
lists the calls of `Remove` that have returned, each with the number of tasks
submitted before it began; `executed` the tasks run, each with the list at that time. -/
structure RdbFlowState (κ : Type v) where
  appLimit : UInt32
  duration : UInt32
  clock : Tp
  globalManager : FlowState RdbFlowControlStrategy (Forwarded κ)
  managers : List (LabelManager κ)
  calls : List (RdbFlowCall κ)
  nextTicket : Nat
  returned : List (String × Nat)
  executed : List (Forwarded κ × List (String × Nat))

/-- `FlowControlManager(pool, make_shared<RdbFlowControlStrategy>(limit, duration))`. -/
def createManager (κ : Type v) (limit duration : UInt32) :
    FlowState RdbFlowControlStrategy (Forwarded κ) :=
  FlowState.start true (some (RdbFlowControlStrategy.create limit duration)) 0

def takeTask {κ : Type v} (jobs : List (List κ)) (j : Nat) : Option (κ × List (List κ)) :=
  match jobs[j]? with
  | some (task :: rest) => some (task, jobs.set j rest)
  | _ => none

namespace RdbFlowState

variable {κ : Type v}

def start (appLimit globalLimit duration : UInt32) : RdbFlowState κ where
  appLimit := appLimit
  duration := duration
  clock := 0
  globalManager := createManager κ globalLimit duration
  managers := []
  calls := []
  nextTicket := 0
  returned := []
  executed := []

variable (s : RdbFlowState κ)

/-- `Execute` up to the end of `managers_.Compute`. -/
def execute (task : Option κ) (info captured : TaskInfo) : RdbFlowState κ :=
  let forwarded : Forwarded κ := ⟨task, info, captured, s.nextTicket⟩
  match s.managers.findIdx? fun m => m.attached && m.label == info.label with
  | some i => { s with calls := s.calls ++ [.execute i forwarded], nextTicket := s.nextTicket + 1 }
  | none =>
      { s with
        managers := s.managers ++ [⟨info.label, true, createManager κ s.appLimit s.duration⟩]
        calls := s.calls ++ [.execute s.managers.length forwarded]
        nextTicket := s.nextTicket + 1 }

def labelFilter (label : String) : TaskFilter := some fun info => info.label == label

def remove (label : String) : RdbFlowState κ :=
  { s with globalManager := s.globalManager.remove (labelFilter label)
           calls := s.calls ++ [.remove label s.nextTicket] }

/-- What `managers_.ComputeIfPresent` does to the entry of the label: clear it, erase it. -/
def LabelManager.clear (m : LabelManager κ) (label : String) : LabelManager κ :=
  if m.attached && m.label == label then
    { m with attached := false, flow := m.flow.remove (labelFilter label) }
  else m

def resume (i : Nat) : RdbFlowCall κ → Option (RdbFlowState κ)
  | .execute index forwarded =>
      (s.managers[index]?).map fun m =>
        { s with
          managers := s.managers.set index
            { m with flow := m.flow.execute s.clock (some forwarded) forwarded.info }
          calls := advance s.calls i none }
  | .remove label stamp =>
      some { s with managers := s.managers.map (LabelManager.clear · label)
                    calls := advance s.calls i none
                    returned := (label, stamp) :: s.returned }

def runLabel (index j : Nat) : Option (RdbFlowState κ) :=
  (s.managers[index]?).bind fun m =>
    (takeTask m.flow.pool.jobs j).map fun (forwarded, jobs) =>
      { s with
        managers := s.managers.set index
          { m with flow := { m.flow with pool := { m.flow.pool with jobs } } }
        globalManager := s.globalManager.execute s.clock forwarded.global forwarded.captured }

def runGlobal (j : Nat) : Option (RdbFlowState κ) :=
  (takeTask s.globalManager.pool.jobs j).map fun (forwarded, jobs) =>
    { s with
      globalManager := { s.globalManager with pool := { s.globalManager.pool with jobs } }
      executed := (forwarded, s.returned) :: s.executed }

/-- The last owner of a manager that `managers_` has erased lets go of it. -/
def destroy (index : Nat) : Option (RdbFlowState κ) :=
  (s.managers[index]?).bind fun m =>
    if m.attached || s.calls.any (RdbFlowCall.holds index) ||
        m.flow.calls.any (·.callback.isNone) then
      none
    else some { s with managers := s.managers.set index { m with flow := m.flow.destroy } }

def step : RdbFlowAction κ → Option (RdbFlowState κ)
  | .tick elapsed => some { s with clock := s.clock + elapsed }
  | .execute task info captured => some (s.execute task info captured)
  | .remove label => some (s.remove label)
  | .resume i => (s.calls[i]?).bind (s.resume i)
  | .label index progress =>
      (s.managers[index]?).bind fun m =>
        (m.flow.step s.clock progress.action).map fun flow =>
          { s with managers := s.managers.set index { m with flow } }
  | .global progress =>
      (s.globalManager.step s.clock progress.action).map fun globalManager =>
        { s with globalManager }
  | .runLabel index j => s.runLabel index j
  | .runGlobal j => s.runGlobal j
  | .destroy index => s.destroy index

end RdbFlowState

/-- Every section of the calls above is one step; the tasks of a batch and the
`Schedule` calls inside `Execute` and `Remove` may overlap with what follows them. -/
def rdbFlowMachine (κ : Type v) : Machine (RdbFlowState κ) (RdbFlowAction κ) where
  step := RdbFlowState.step

/-- The call carries the task towards the queue. -/
def FlowCall.Carries {κ : Type v} (x : κ) : FlowCall κ → Prop
  | .genTaskId task _ _ => task = some x
  | .push innerTask => innerTask.task = some x
  | _ => False

def FlowCall.TaggedBy {κ : Type v} (tag : κ → TaskInfo) : FlowCall κ → Prop
  | .genTaskId task info _ => ∀ x, task = some x → info = tag x
  | .push innerTask => ∀ x, innerTask.task = some x → innerTask.info = tag x
  | _ => True

namespace FlowState

variable {σ : Type u} {κ : Type v} {s s' : FlowState σ κ} {now : Tp} {tag : κ → TaskInfo}
  {new : κ → Prop} {hands : Prop}

def InCalls (s : FlowState σ κ) (x : κ) : Prop := ∃ call ∈ s.calls, call.Carries x

def InQueue (s : FlowState σ κ) (x : κ) : Prop :=
  ∃ task ∈ s.manager.tasks.items, task.task = some x

def InJobs (s : FlowState σ κ) (x : κ) : Prop := ∃ job ∈ s.pool.jobs, x ∈ job

structure Tagged (tag : κ → TaskInfo) (s : FlowState σ κ) : Prop where
  calls : ∀ call ∈ s.calls, call.TaggedBy tag
  queue : ∀ task ∈ s.manager.tasks.items, ∀ x, task.task = some x → task.info = tag x

def StartsBatch (s : FlowState σ κ) : FlowProgress → Prop
  | .fire _ => False
  | .resume i => ∃ id, s.calls[i]? = some (.timer id)

/-- What a step of the manager may do to the tasks it holds: `new` tasks enter
with a call, and the queue is handed over only when `hands`. -/
structure Moves (tag : κ → TaskInfo) (s s' : FlowState σ κ) (new : κ → Prop) (hands : Prop) :
    Prop where
  calls : ∀ x, s'.InCalls x → s.InCalls x ∨ new x
  queue : ∀ x, s'.InQueue x → s.InQueue x ∨ s.InCalls x
  jobs : ∀ x, s'.InJobs x → s.InJobs x ∨ hands ∧ s.InQueue x
  tagged : s.Tagged tag → s'.Tagged tag

theorem Moves.of_calls
    (hcalls : ∀ call ∈ s'.calls,
      (∃ old ∈ s.calls, (∀ x, call.Carries x → old.Carries x) ∧
        (old.TaggedBy tag → call.TaggedBy tag)) ∨
      (∀ x, call.Carries x → new x) ∧ call.TaggedBy tag)
    (hqueue : ∀ task ∈ s'.manager.tasks.items,
      task ∈ s.manager.tasks.items ∨ .push task ∈ s.calls)
    (hjobs : ∀ x, s'.InJobs x → s.InJobs x ∨ hands ∧ s.InQueue x) : Moves tag s s' new hands := by
  constructor
  · intro x ⟨call, hmem, hcarries⟩
    rcases hcalls call hmem with ⟨old, hold, hkeeps, -⟩ | ⟨hnew, -⟩
    · exact .inl ⟨old, hold, hkeeps x hcarries⟩
    · exact .inr (hnew x hcarries)
  · intro x ⟨task, htask, hx⟩
    rcases hqueue task htask with hold | hpush
    · exact .inl ⟨task, hold, hx⟩
    · exact .inr ⟨_, hpush, hx⟩
  · exact hjobs
  · intro h
    constructor
    · intro call hmem
      rcases hcalls call hmem with ⟨old, hold, -, htagged⟩ | ⟨-, htagged⟩
      · exact htagged (h.calls old hold)
      · exact htagged
    · intro task htask
      rcases hqueue task htask with hold | hpush
      · exact h.queue task hold
      · exact h.calls _ hpush

theorem goes_on_of_bare {call : FlowCall κ}
    (h : call ∈ s.calls ∨ (∀ x, ¬ call.Carries x) ∧ call.TaggedBy tag) :
    (∃ old ∈ s.calls, (∀ x, call.Carries x → old.Carries x) ∧
      (old.TaggedBy tag → call.TaggedBy tag)) ∨
    (∀ x, call.Carries x → new x) ∧ call.TaggedBy tag := by
  rcases h with hold | ⟨hnone, htagged⟩
  · exact .inl ⟨call, hold, fun _ hx => hx, fun ht => ht⟩
  · exact .inr ⟨fun x hx => absurd hx (hnone x), htagged⟩

theorem Moves.frame (htasks : s'.manager.tasks = s.manager.tasks)
    (hjobs : s'.pool.jobs = s.pool.jobs)
    (hcalls : ∀ call ∈ s'.calls, call ∈ s.calls ∨
      (∀ x, ¬ call.Carries x) ∧ call.TaggedBy tag) : Moves tag s s' new hands := by
  refine .of_calls (fun call hmem => goes_on_of_bare (hcalls call hmem)) ?_ ?_
  · intro task htask
    rw [htasks] at htask
    exact .inl htask
  · intro x hx
    rw [InJobs, hjobs] at hx
    exact .inl hx

variable {i j : Nat} {x : κ} {jobs : List (List κ)}

theorem mem_advance_bare {calls : List (FlowCall κ)} {next : Option (FlowCall κ)}
    (hnext : ∀ call, next = some call → (∀ x, ¬ call.Carries x) ∧ call.TaggedBy tag)
    {call : FlowCall κ} (hmem : call ∈ advance calls i next) :
    call ∈ calls ∨ (∀ x, ¬ call.Carries x) ∧ call.TaggedBy tag :=
  (mem_advance hmem).symm.imp_right (hnext call)

theorem Moves.genTaskId {task : Option κ} {info : TaskInfo} {time : Tp}
    (hcall : s.calls[i]? = some (.genTaskId task info time)) (innerTaskId id : UInt64) :
    Moves tag s { s with manager := { s.manager with innerTaskId },
                         calls := advance s.calls i (some (.push ⟨task, info, time, id⟩)) }
      new hands := by
  refine .of_calls ?_ (fun task htask => .inl htask) (fun x hx => .inl hx)
  intro call hcallmem
  have hafter : call ∈ advance s.calls i (some (.push ⟨task, info, time, id⟩)) := hcallmem
  rcases mem_advance hafter with heq | hold
  · cases heq
    exact .inl ⟨_, List.mem_of_getElem? hcall, fun _ hx => hx, fun ht => ht⟩
  · exact goes_on_of_bare (.inl hold)

theorem Moves.pushTask {innerTask : InnerTask κ} (hcall : s.calls[i]? = some (.push innerTask)) :
    Moves tag s (s.pushTask i innerTask) new hands := by
  refine .of_calls ?_ ?_ (fun x hx => .inl hx)
  · intro call hcallmem
    refine goes_on_of_bare (mem_advance_bare ?_ hcallmem)
    intro next hnext
    split at hnext
    · cases hnext
      exact ⟨fun _ => not_false, trivial⟩
    · cases hnext
  · intro task htask
    rcases List.mem_cons.mp ((s.manager.tasks.push_perm innerTask).mem_iff.mp htask) with rfl | hold
    · exact .inr (List.mem_of_getElem? hcall)
    · exact .inl hold

theorem Moves.executeTask {id : TaskId} :
    Moves tag s (s.executeTask now i id) new True := by
  have hcalls : ∀ call ∈ advance s.calls i (some (.schedule (some id))), call ∈ s.calls ∨
      (∀ x, ¬ call.Carries x) ∧ call.TaggedBy tag := by
    intro call hmem
    refine mem_advance_bare ?_ hmem
    intro next hnext
    cases hnext
    exact ⟨fun _ => not_false, trivial⟩
  rw [FlowState.executeTask]
  split
  · exact Moves.frame rfl rfl hcalls
  have hperm := drain_perm s.manager.isRunning now s.manager.tasks.items
  have hdue : ∀ task ∈ (drain s.manager.isRunning now s.manager.tasks.items).due,
      task ∈ s.manager.tasks.items := fun task htask =>
    hperm.mem_iff.mpr (List.mem_append_left _ (List.mem_append_right _ htask))
  refine .of_calls (fun call hmem => goes_on_of_bare (hcalls call hmem)) ?_ ?_
  · intro task htask
    exact .inl ((drain_left_suffix _ _ _).subset htask)
  · intro x ⟨job, hjob, hx⟩
    dsimp only at hjob
    split at hjob
    · exact .inl ⟨job, hjob, hx⟩
    rcases mem_concat.mp hjob with hold | rfl
    · exact .inl ⟨job, hold, hx⟩
    · obtain ⟨task, htask, hbody⟩ := List.mem_filterMap.mp hx
      exact .inr ⟨trivial, task, hdue task htask, hbody⟩

/-- Timers, callbacks and calls in progress hand a queued task over only in `ExecuteTask`. -/
theorem moves_of_step [Strategy σ κ] {progress : FlowProgress}
    (hstep : s.step now progress.action = some s') :
    Moves tag s s' new (s.StartsBatch progress) := by
  cases progress with
  | fire i =>
      rw [FlowProgress.action, FlowState.step, fire] at hstep
      split at hstep
      · split at hstep
        · cases hstep
          refine Moves.frame rfl rfl ?_
          intro call hmem
          rcases mem_concat.mp hmem with hmem | rfl
          · exact .inl hmem
          · exact .inr ⟨fun _ => not_false, trivial⟩
        · cases hstep
      · cases hstep
  | resume i =>
      obtain ⟨call, hcall, hresume⟩ := Option.bind_eq_some_iff.mp hstep
      have hbare : ∀ next : FlowCall κ, (∀ x, ¬ next.Carries x) ∧ next.TaggedBy tag →
          ∀ c ∈ advance s.calls i (some next),
            c ∈ s.calls ∨ (∀ x, ¬ c.Carries x) ∧ c.TaggedBy tag := by
        intro next hnext c hmem
        refine mem_advance_bare ?_ hmem
        intro c' heq
        cases heq
        exact hnext
      have hretire : ∀ c ∈ advance s.calls i none, c ∈ s.calls ∨
          (∀ x, ¬ c.Carries x) ∧ c.TaggedBy tag := by
        intro c hmem
        refine mem_advance_bare ?_ hmem
        intro c' heq
        cases heq
      cases call with
      | genTaskId task info time =>
          cases hresume
          exact Moves.genTaskId hcall _ _
      | push innerTask =>
          cases hresume
          exact Moves.pushTask hcall
      | timer id =>
          cases hresume
          have hmoves : Moves tag s (s.executeTask now i id) new True := Moves.executeTask
          exact ⟨hmoves.calls, hmoves.queue,
            fun x hx => (hmoves.jobs x hx).imp_right fun hq => ⟨⟨id, hcall⟩, hq.2⟩, hmoves.tagged⟩
      | schedule callback =>
          cases hresume
          rw [beginSchedule]
          split
          · exact Moves.frame rfl rfl hretire
          · split
            · split <;> exact Moves.frame rfl rfl (hbare _ ⟨fun _ => not_false, trivial⟩)
            · exact Moves.frame rfl rfl (hbare _ ⟨fun _ => not_false, trivial⟩)
      | cancel callback id =>
          rw [FlowState.resume] at hresume
          split at hresume
          · cases hresume
          · cases hresume
            exact Moves.frame rfl rfl hretire
      | arm callback =>
          cases hresume
          rw [armTimer]
          dsimp only
          split
          · exact Moves.frame rfl rfl hretire
          · split
            · exact Moves.frame rfl rfl hretire
            · split <;> exact Moves.frame rfl rfl hretire

theorem moves_execute [Strategy σ κ] {task : Option κ} {info : TaskInfo}
    (htag : ∀ x, task = some x → info = tag x) :
    Moves tag s (s.execute now task info) (fun x => task = some x) hands := by
  rcases s.execute_cases now task info with heq | ⟨strategy, time, heq⟩
  · rw [heq]
    exact Moves.frame rfl rfl fun call hmem => .inl hmem
  rw [heq]
  refine .of_calls ?_ (fun task htask => .inl htask) (fun x hx => .inl hx)
  intro call hmem
  rcases mem_concat.mp hmem with hold | rfl
  · exact goes_on_of_bare (.inl hold)
  · exact .inr ⟨fun _ hx => hx, htag⟩

theorem moves_remove (filter : TaskFilter) : Moves tag s (s.remove filter) new hands := by
  refine .of_calls ?_ ?_ (fun x hx => .inl hx)
  · intro call hmem
    rcases mem_concat.mp hmem with hold | rfl
    · exact goes_on_of_bare (.inl hold)
    · exact goes_on_of_bare (.inr ⟨fun _ => not_false, trivial⟩)
  · intro task htask
    exact .inl (MinQueue.mem_refill.mp htask).1

theorem not_selected_of_remove {filter : TaskFilter} (h : s.Tagged tag)
    (hx : (s.remove filter).InQueue x) : filter.selects (tag x) = false := by
  obtain ⟨task, htask, hbody⟩ := hx
  obtain ⟨hmem, hkept⟩ := MinQueue.mem_refill.mp htask
  rw [← h.queue task hmem x hbody]
  simpa using hkept

theorem moves_destroy : Moves tag s s.destroy new hands := by
  have hjobs : s.destroy.pool.jobs = s.pool.jobs := by
    rw [destroy]
    split <;> rfl
  constructor
  · exact fun x hx => .inl hx
  · intro x ⟨task, htask, _⟩
    cases htask
  · intro x hx
    rw [InJobs, hjobs] at hx
    exact .inl hx
  · exact fun h => ⟨h.calls, nofun⟩

theorem takeTask_cases {jobs' : List (List κ)} (h : takeTask jobs j = some (x, jobs')) :
    ∃ rest, x :: rest ∈ jobs ∧ jobs' = jobs.set j rest := by
  rw [takeTask] at h
  split at h
  · rename_i task rest hjob
    cases h
    exact ⟨rest, List.mem_of_getElem? hjob, rfl⟩
  · cases h

theorem inJobs_of_takeTask (h : takeTask s.pool.jobs j = some (x, jobs)) : s.InJobs x := by
  obtain ⟨rest, hmem, -⟩ := takeTask_cases h
  exact ⟨_, hmem, List.mem_cons_self⟩

theorem moves_takeTask (h : takeTask s.pool.jobs j = some (x, jobs)) :
    Moves tag s { s with pool := { s.pool with jobs } } new hands := by
  obtain ⟨rest, hmem, rfl⟩ := takeTask_cases h
  refine ⟨fun x hx => .inl hx, fun x hx => .inl hx, ?_, fun h => ⟨h.calls, h.queue⟩⟩
  intro y ⟨job, hin, hy⟩
  have hset : job ∈ s.pool.jobs.set j rest := hin
  rcases List.mem_or_eq_of_mem_set hset with hold | rfl
  · exact .inl ⟨job, hold, hy⟩
  · exact .inl ⟨_, hmem, List.mem_cons_of_mem _ hy⟩

end FlowState

end DataMgr.Flow
