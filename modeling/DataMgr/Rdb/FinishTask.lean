import DataMgr.Foundation.Machine
import DataMgr.Foundation.KeyedMap
import DataMgr.Rdb.RdbCloud

/-! # Completion of a cloud sync

`DoCloudSync` puts the caller's callback into `tasks_` before it hands the sync to
the database. Three parties may complete it: the database's progress callback,
which empties the entry's callback when the sync is finished, a timer that asks
the database every minute, and `RemoveTasks` when the store closes. Every operation on the
map is one step, and so is every call of a callback; anything may happen between
two of them.
-/

namespace DataMgr.Rdb

open Std DataMgr.Foundation

abbrev SyncId := Nat
abbrev TaskId := Nat

/-- The callback `GetDBProcessCB` made for the sync of this id. -/
abbrev Callback := SyncId

inductive ProcessStatus where
  | prepared
  | processing
  | finished
deriving DecidableEq, Repr

structure SyncProcess where
  process : ProcessStatus
  errCode : DBStatus
deriving DecidableEq, Repr

/-- `std::map<std::string, SyncProcess>`, in key order. -/
abbrev Progress := List (String × SyncProcess)

/-- The test of `GetCB`: the first entry decides. -/
def isFinished : Progress → Bool
  | [] => false
  | (_, process) :: _ => process.process == .finished

/-- What the timer and `RemoveTasks` report in the database's place. -/
def missFinished : Progress := [("", ⟨.finished, .dbError⟩)]

structure FinishTask where
  taskId : TaskId
  cb : Option Callback
deriving DecidableEq, Repr

inductive StoreCall where
  /-- `DoCloudSync`: the finish task is scheduled, the entry not yet inserted. -/
  | insert (syncId : SyncId) (taskId : TaskId)
  /-- `DoCloudSync`: inside `delegate_->Sync`. -/
  | sync (syncId : SyncId) (isCompensation : Bool)
  /-- `DoCloudSync`: the database refused the sync. -/
  | reject (syncId : SyncId)
  /-- Finish task: about to look its entry up. -/
  | find (syncId : SyncId) (taskId : TaskId)
  /-- Finish task: there was no callback to wait for. -/
  | erase (syncId : SyncId) (taskId : TaskId)
  /-- Finish task: there was a callback, `IsFinished` is next. -/
  | check (syncId : SyncId) (taskId : TaskId)
  | rearm (syncId : SyncId) (taskId : TaskId)
  | take (syncId : SyncId) (taskId : TaskId)
  /-- A party that has a callback and calls it next; a finish task also names its task. -/
  | deliver (cb : Callback) (progress : Progress) (taskId : Option TaskId)
  | removeTasks
  /-- `RemoveTasks`: the map is swept, the timers are stopped next. -/
  | stopTimers (taskIds : List TaskId) (cbs : List Callback)
  /-- The executor task of `RemoveTasks`. -/
  | finishAll (cbs : List Callback)
deriving DecidableEq, Repr

/-- `DoCloudSync` runs under the shared lock of `dbMutex_`. -/
def StoreCall.inDoCloudSync : StoreCall → Bool
  | .insert .. | .sync .. | .reject .. => true
  | _ => false

def StoreCall.runningTask : StoreCall → Option TaskId
  | .find _ id | .erase _ id | .check _ id | .rearm _ id | .take _ id => some id
  | .deliver _ _ id => id
  | _ => none

structure StoreState where
  syncTaskId : SyncId
  /-- `delegate_ != nullptr`. -/
  delegate : Bool
  tasks : ExtTreeMap SyncId FinishTask
  /-- The executor's next task id, and its waiting finish tasks with their sync. -/
  nextTask : TaskId
  timers : List (TaskId × SyncId)
  calls : List StoreCall
  /-- Every call of a callback so far. -/
  received : List (Callback × Progress)
  /-- The syncs handed to the database. -/
  started : List SyncId
  /-- The syncs it accepted, compensations left out. -/
  accepted : List SyncId
  /-- The syncs for which the database has sent FINISHED. -/
  sent : List SyncId
  /-- The syncs a finish task has found finished. -/
  found : List SyncId
  /-- An executor task of `RemoveTasks` has been executed. -/
  removed : Bool

open FinishTask

namespace StoreState

def start : StoreState where
  syncTaskId := 0
  delegate := true
  tasks := ∅
  nextTask := 0
  timers := []
  calls := []
  received := []
  started := []
  accepted := []
  sent := []
  found := []
  removed := false

variable (s : StoreState)

/-- `DoCloudSync` up to the insertion. A compensation has no finish task. -/
def doCloudSync (isCompensation : Bool) : Option StoreState :=
  if s.delegate then
    let syncId := s.syncTaskId + 1
    if isCompensation then
      some { s with
        syncTaskId := syncId
        started := syncId :: s.started
        calls := s.calls ++ [.sync syncId true] }
    else
      some { s with
        syncTaskId := syncId
        nextTask := s.nextTask + 1
        timers := s.timers ++ [(s.nextTask, syncId)]
        calls := s.calls ++ [.insert syncId s.nextTask] }
  else none

/-- The callback `GetCB` made for a sync, called by the database. -/
def progress (s : StoreState) (syncId : SyncId) (progress : Progress) : Option StoreState :=
  if syncId ∈ s.started then
    let cb := s.tasks[syncId]?.bind cb
    some { s with
      tasks := computeIfPresent s.tasks syncId fun finishTask =>
        (if isFinished progress then { finishTask with cb := none } else finishTask, true)
      calls := s.calls ++ (cb.map fun cb => .deliver cb progress none).toList
      sent := if isFinished progress then syncId :: s.sent else s.sent }
  else none

def fire (j : Nat) : Option StoreState :=
  s.timers[j]?.map fun timer => { s with
    timers := s.timers.eraseIdx j
    calls := s.calls ++ [.find timer.2 timer.1] }

/-- `Close` needs `dbMutex_` for itself; `busy` and `closed` are the database's answers. -/
def close (isForce busy closed : Bool) : Option StoreState :=
  if s.calls.any StoreCall.inDoCloudSync then none
  else if !s.delegate then some s
  else if !isForce && busy then some s
  else if !closed then some s
  else some { s with delegate := false, calls := s.calls ++ [.removeTasks] }

def destroy : Option StoreState :=
  if s.calls.any StoreCall.inDoCloudSync then none
  else some { s with delegate := false, calls := s.calls ++ [.removeTasks] }

/-- The next operation of a call. `answer` is the database's: whether it accepts the
sync, or whether `GetCloudTaskStatus` says FINISHED. -/
def resumeCall (i : Nat) (answer : Bool) : StoreCall → Option StoreState
  | .insert syncId taskId =>
      some { s with
        tasks := s.tasks.insertIfNew syncId ⟨taskId, some syncId⟩
        started := syncId :: s.started
        calls := advance s.calls i (some (.sync syncId false)) }
  | .sync syncId isCompensation =>
      if answer then
        some { s with
          accepted := if isCompensation then s.accepted else syncId :: s.accepted
          calls := advance s.calls i none }
      else some { s with calls := advance s.calls i (some (.reject syncId)) }
  | .reject syncId =>
      some { s with
        timers := s.timers.filter fun timer => s.tasks[syncId]?.map taskId ≠ some timer.1
        tasks := computeIfPresent s.tasks syncId fun task => (task, false)
        calls := advance s.calls i none }
  | .find syncId taskId =>
      match s.tasks[syncId]?.bind cb with
      | none => some { s with calls := advance s.calls i (some (.erase syncId taskId)) }
      | some _ => some { s with calls := advance s.calls i (some (.check syncId taskId)) }
  | .erase syncId _ =>
      some { s with tasks := s.tasks.erase syncId, calls := advance s.calls i none }
  | .check syncId taskId =>
      -- `IsFinished`: a closed database counts as finished
      if !s.delegate || answer then
        some { s with
          found := syncId :: s.found
          calls := advance s.calls i (some (.take syncId taskId)) }
      else some { s with calls := advance s.calls i (some (.rearm syncId taskId)) }
  | .rearm syncId _ =>
      if syncId ∈ s.tasks then
        some { s with
          nextTask := s.nextTask + 1
          timers := s.timers ++ [(s.nextTask, syncId)]
          tasks := computeIfPresent s.tasks syncId fun task =>
            ({ task with taskId := s.nextTask }, true)
          calls := advance s.calls i none }
      else some { s with calls := advance s.calls i none }
  | .take syncId taskId =>
      let cb := s.tasks[syncId]?.bind cb
      some { s with
        tasks := computeIfPresent s.tasks syncId fun task => (task, false)
        calls := advance s.calls i (cb.map fun cb => .deliver cb missFinished (some taskId)) }
  | .deliver cb progress _ =>
      some { s with received := s.received ++ [(cb, progress)], calls := advance s.calls i none }
  | .removeTasks =>
      let entries := s.tasks.toList.map Prod.snd
      some { s with
        tasks := eraseIf s.tasks fun _ task => (task, true)
        calls := advance s.calls i
          (some (.stopTimers (entries.map taskId) (entries.filterMap cb))) }
  | .stopTimers taskIds cbs =>
      -- `Remove(taskId, true)` waits for a finish task that is running
      if s.calls.any fun call => call.runningTask.any (taskIds.contains ·) then none
      else
        some { s with
          timers := s.timers.filter fun timer => !taskIds.contains timer.1
          calls := advance s.calls i (some (.finishAll cbs)) }
  | .finishAll [] => some { s with removed := true, calls := advance s.calls i none }
  | .finishAll (cb :: cbs) =>
      some { s with
        received := s.received ++ [(cb, missFinished)]
        calls := advance s.calls i (some (.finishAll cbs)) }

end StoreState

inductive StoreAction where
  | doCloudSync (isCompensation : Bool)
  | progress (syncId : SyncId) (progress : Progress)
  | fire (j : Nat)
  | close (isForce busy closed : Bool)
  | destroy
  | resume (i : Nat) (answer : Bool)
deriving DecidableEq, Repr

def storeMachine : Machine StoreState StoreAction where
  step s
    | .doCloudSync isCompensation => s.doCloudSync isCompensation
    | .progress syncId progress => s.progress syncId progress
    | .fire j => s.fire j
    | .close isForce busy closed => s.close isForce busy closed
    | .destroy => s.destroy
    | .resume i answer => s.calls[i]?.bind (s.resumeCall i answer)

end DataMgr.Rdb
