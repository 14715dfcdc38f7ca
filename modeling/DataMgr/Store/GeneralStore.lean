import Mathlib

/-! # Status codes, areas and the task pool shared by the services -/

namespace DataMgr.Store

inductive GeneralError where
  | eOk
  | eError
  | eNetworkError
  | eCloudDisabled
  | eLockedByOthers
  | eRecodeLimitExceeded
  | eNoSpaceForAsset
  | eBlockedByNetworkStrategy
  | eStopCloudSync
  | eBusy
  | eInvalidArgs
  | eNotInit
  | eDkNotInit
  | eNotLogin
  | eNotSupport
  | eAlreadyConsumed
  | eAlreadyClosed
  | eUnopened
  | eRetryTimeout
  | ePartialError
  | eUserLocked
  | eVersionConflict
  | eRecordExistConflict
  | eWithInventoryData
  | eSyncTaskMerged
  | eRecordNotFound
  | eRecordAlreadyExisted
  | eDbError
  | eInvalidValueFields
  | eInvalidFieldType
  | eConstrainViolation
  | eInvalidFormat
  | eInvalidQueryFormat
  | eInvalidQueryField
  | eTimeOut
  | eOverMaxLimits
  | eSecurityLevelError
  | eFileNotExist
  | eScreenLocked
  | eUserDeactivating
  | eGetCloudUserInfo
  | eGetBriefInfo
  | eGetAppSchema
  | eConnectAssetLoader
  | eConnectCloudDb
  | eSkipAsset
  | eDbCorrupt
  | eMoveDone
  | eDbIsFull
  | eCloudAssetNotFound
  | eSkipWhenCloudSpaceInsufficient
  | eExpiredCursor
  | eTableNotFound
  | eButt
deriving DecidableEq, Repr

/-- `GeneralStore::Area`; the metadata carries the area as an `int32_t`. -/
inductive Area where
  | el0
  | el1
  | el2
  | el3
  | el4
  | el5
deriving DecidableEq, Repr

def Area.code : Area → Int
  | .el0 => 0
  | .el1 => 1
  | .el2 => 2
  | .el3 => 3
  | .el4 => 4
  | .el5 => 5

abbrev TaskId := Nat

/-- The executor pool as its clients see it: task ids are issued once, and a
task waits in the schedule until it starts or is removed. -/
structure ExecutorPool where
  nextTask : TaskId
  scheduled : List TaskId
deriving DecidableEq, Repr

/-- `ExecutorPool::Execute` and `ExecutorPool::Schedule`; the delay decides only
when the task may start. -/
def ExecutorPool.schedule (pool : ExecutorPool) : TaskId × ExecutorPool :=
  (pool.nextTask, { nextTask := pool.nextTask + 1, scheduled := pool.nextTask :: pool.scheduled })

/-- `ExecutorPool::Remove`; a task that starts leaves the schedule the same way. -/
def ExecutorPool.remove (pool : ExecutorPool) (task : TaskId) : ExecutorPool :=
  { pool with scheduled := pool.scheduled.filter (· ≠ task) }

end DataMgr.Store
