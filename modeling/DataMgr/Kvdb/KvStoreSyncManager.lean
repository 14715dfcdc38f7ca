import DataMgr.Foundation.Machine
import DataMgr.Foundation.MinQueue

/-! # Delayed synchronisations

A delayed operation waits in a queue by the time it is due. One timer is armed for the
queue as a whole, and `nextScheduleTime_` remembers its time. When it fires, `Schedule`
takes what is due under the lock, calls the functions without it, and takes the lock again
to arm the next timer. A realtime operation in progress defers the whole queue for a while.
Every section under the lock is one step, so a run is any interleaving of these sections.
-/

namespace DataMgr.Kvdb

open DataMgr.Foundation

def syncMinDelayMs : Nat := 100

def syncingTimeoutMs : Nat := 5000

def realtimePriorSyncingMs : Nat := 300

def delayTimeRangeDivisor : Nat := 4

/-- Points in time are counted in nanoseconds. -/
def milliseconds (count : Nat) : Nat := count * 1000000

def getExpireTimeRange (delayMs : Nat) : Nat :=
  max (delayMs / delayTimeRangeDivisor) (syncMinDelayMs >>> 1)

/-- An operation is known by the number of its call; functions are left out, since only
whether there is one matters. -/
structure KvSyncOperation where
  id : Nat
  syncId : Nat
  delayMs : Nat
  hasSyncEnd : Bool
  beginTime : Nat
deriving DecidableEq, Repr

namespace KvSyncOperation

variable (op : KvSyncOperation) (currentTime : Nat)

def opSeq : BitVec 32 := BitVec.ofNat 32 op.id

def latest : Nat :=
  op.beginTime + milliseconds (getExpireTimeRange op.delayMs)

def due : Bool :=
  ¬ currentTime + milliseconds (getExpireTimeRange op.delayMs) < op.beginTime

end KvSyncOperation

/-- A task of the executor that will call `Schedule` with this time. -/
structure Timer where
  time : Nat
  /-- Armed by a `Schedule` that was deferred. -/
  retry : Bool
deriving DecidableEq, Repr

inductive AddCall where
  /-- A delayed operation, before the lock is taken. -/
  | insert (op : KvSyncOperation)
  /-- A realtime operation with an end function, before the lock is taken. -/
  | push (op : KvSyncOperation)
  /-- A realtime operation whose function is about to be called. -/
  | sync (op : KvSyncOperation)
  /-- The function failed and `RemoveSyncingOp` is about to take the lock. -/
  | drop (opSeq : BitVec 32)
deriving DecidableEq, Repr

inductive ScheduleCall where
  /-- Before `GetTimeoutSyncOps`. -/
  | collect (time : Nat)
  /-- The functions of `syncOps` are still to be called; then the lock is taken again. -/
  | run (time : Nat) (delaySchedule : Bool) (syncOps : List KvSyncOperation)
deriving DecidableEq, Repr

structure KvStoreSyncManager where
  realtimeSyncingOps : List KvSyncOperation := []
  delaySyncingOps : List KvSyncOperation := []
  scheduleSyncOps : MinQueue KvSyncOperation KvSyncOperation.beginTime := .empty
  nextScheduleTime : Nat := 0
  /-- The calls of `AddSyncOperation` that passed the check of their arguments. -/
  calls : Nat := 0
  /-- The environment. -/
  now : Nat := 0
  timers : List Timer := []
  adding : List AddCall := []
  schedules : List ScheduleCall := []
  /-- What has happened to delayed operations. -/
  delayed : List Nat := []
  invoked : List (KvSyncOperation × Nat) := []
  removed : List KvSyncOperation := []

variable (s : KvStoreSyncManager) (op : KvSyncOperation) (currentTime : Nat)

namespace KvStoreSyncManager

def doRemoveSyncingOp (pred : KvSyncOperation → Bool) (syncingOps : List KvSyncOperation) :
    List KvSyncOperation :=
  syncingOps.filter fun op => !pred op

def removeSyncingOp (opSeq : BitVec 32) (syncingOps : List KvSyncOperation) :
    List KvSyncOperation :=
  doRemoveSyncingOp (fun op => opSeq == op.opSeq) syncingOps

def addTimer (expireTime : Nat) (retry : Bool) : KvStoreSyncManager :=
  { s with nextScheduleTime := expireTime, timers := s.timers ++ [⟨expireTime, retry⟩] }

/-- The start of `AddSyncOperation`, up to the first lock. -/
def addSyncOperation (syncId delayMs : Nat) (hasSyncFunc hasSyncEnd : Bool) : KvStoreSyncManager :=
  if syncId = 0 ∨ hasSyncFunc = false then s
  else
    let op : KvSyncOperation :=
      { id := s.calls + 1, syncId, delayMs, hasSyncEnd,
        beginTime := s.now + milliseconds delayMs }
    if delayMs = 0 then
      { s with
        calls := s.calls + 1
        adding := s.adding ++ [if hasSyncEnd then .push op else .sync op] }
    else
      { s with
        calls := s.calls + 1
        adding := s.adding ++ [.insert op]
        delayed := s.delayed ++ [op.id] }

/-- The locked section for a delayed operation. -/
def emplace : KvStoreSyncManager :=
  let s := { s with scheduleSyncOps := s.scheduleSyncOps.push op }
  if s.scheduleSyncOps.items.length = 1 ∨ s.nextScheduleTime > op.latest then
    s.addTimer op.beginTime false
  else s

/-- The next section of a call of `AddSyncOperation`; `success` is what the function of a
realtime operation returns. -/
def advanceAdd (i : Nat) (success : Bool) :
    AddCall → KvStoreSyncManager
  | .insert op => { s.emplace op with adding := advance s.adding i none }
  | .push op =>
      { s with
        realtimeSyncingOps := s.realtimeSyncingOps ++ [op]
        adding := advance s.adding i (some (.sync op)) }
  | .sync op =>
      { s with adding := advance s.adding i (if success then none else some (.drop op.opSeq)) }
  | .drop opSeq =>
      { s with
        realtimeSyncingOps := removeSyncingOp opSeq s.realtimeSyncingOps
        adding := advance s.adding i none }

def removeSyncOperation (syncId : Nat) : KvStoreSyncManager :=
  { s with
    realtimeSyncingOps := doRemoveSyncingOp (fun op => syncId == op.syncId) s.realtimeSyncingOps
    delaySyncingOps := doRemoveSyncingOp (fun op => syncId == op.syncId) s.delaySyncingOps
    scheduleSyncOps := s.scheduleSyncOps.filter fun op => !(syncId == op.syncId)
    removed := s.removed ++ s.scheduleSyncOps.items.filter fun op => syncId == op.syncId }

/-- The end function of an operation: realtime and delayed ones are kept apart. -/
def syncEnd (opSeq : BitVec 32) (realtime : Bool) : KvStoreSyncManager :=
  if realtime then
    { s with realtimeSyncingOps := removeSyncingOp opSeq s.realtimeSyncingOps }
  else
    { s with delaySyncingOps := removeSyncingOp opSeq s.delaySyncingOps }

/-- A realtime operation began so shortly before that the schedule waits for it. -/
def deferred : Bool :=
  !s.scheduleSyncOps.items.isEmpty &&
    s.realtimeSyncingOps.getLast?.any fun op =>
      currentTime < op.beginTime + milliseconds realtimePriorSyncingMs

/-- `GetTimeoutSyncOps`: whether the schedule is deferred, what it takes, and the rest. The
operations are in the order of their times, and the loop ends at the first that is not due. -/
def getTimeoutSyncOps : (Bool × List KvSyncOperation) × KvStoreSyncManager :=
  if s.deferred currentTime then ((true, []), s)
  else
    let due := fun op : KvSyncOperation => op.due currentTime
    let syncOps := s.scheduleSyncOps.items.takeWhile due
    ((false, syncOps),
      { s with
        scheduleSyncOps := s.scheduleSyncOps.leave (s.scheduleSyncOps.items.dropWhile due)
          (List.dropWhile_suffix due)
        delaySyncingOps := s.delaySyncingOps ++ syncOps.filter KvSyncOperation.hasSyncEnd })

def doCheckSyncingTimeout (syncingOps : List KvSyncOperation) : List KvSyncOperation :=
  doRemoveSyncingOp (fun op => op.beginTime + milliseconds syncingTimeoutMs < s.now) syncingOps

def rearm (delaySchedule : Bool) : KvStoreSyncManager :=
  let s :=
    { s with
      realtimeSyncingOps := s.doCheckSyncingTimeout s.realtimeSyncingOps
      delaySyncingOps := s.doCheckSyncingTimeout s.delaySyncingOps }
  match s.scheduleSyncOps.top? with
  | none => s
  | some op =>
      s.addTimer (if delaySchedule then s.now + milliseconds syncMinDelayMs else op.beginTime)
        delaySchedule

def advanceSchedule (i : Nat) : ScheduleCall → KvStoreSyncManager
  | .collect time =>
      let ((delaySchedule, syncOps), s') := s.getTimeoutSyncOps time
      { s' with schedules := advance s.schedules i (some (.run time delaySchedule syncOps)) }
  | .run time delaySchedule (op :: rest) =>
      { s with
        invoked := s.invoked ++ [(op, time)]
        schedules := advance s.schedules i (some (.run time delaySchedule rest)) }
  | .run _ delaySchedule [] =>
      { s.rearm delaySchedule with schedules := advance s.schedules i none }

inductive SyncAction where
  | tick (elapsed : Nat)
  | addSyncOperation (syncId delayMs : Nat) (hasSyncFunc hasSyncEnd : Bool)
  | advanceAdd (i : Nat) (success : Bool)
  | removeSyncOperation (syncId : Nat)
  | syncEnd (opSeq : BitVec 32) (realtime : Bool)
  | fire (i : Nat)
  | advanceSchedule (i : Nat)

/-- The executor calls `Schedule` for one of its timers, at whatever time. -/
def fire (i : Nat) (timer : Timer) : KvStoreSyncManager :=
  { s with timers := s.timers.eraseIdx i, schedules := s.schedules ++ [.collect timer.time] }

def step : SyncAction → Option KvStoreSyncManager
  | .tick elapsed => some { s with now := s.now + elapsed }
  | .addSyncOperation syncId delayMs hasSyncFunc hasSyncEnd =>
      some (s.addSyncOperation syncId delayMs hasSyncFunc hasSyncEnd)
  | .advanceAdd i success => s.adding[i]?.map (s.advanceAdd i success)
  | .removeSyncOperation syncId => some (s.removeSyncOperation syncId)
  | .syncEnd opSeq realtime => some (s.syncEnd opSeq realtime)
  | .fire i => s.timers[i]?.map (s.fire i)
  | .advanceSchedule i => s.schedules[i]?.map (s.advanceSchedule i)

end KvStoreSyncManager

def syncMachine : Machine KvStoreSyncManager KvStoreSyncManager.SyncAction :=
  ⟨KvStoreSyncManager.step⟩

end DataMgr.Kvdb
