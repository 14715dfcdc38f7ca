import DataMgr.Store.GeneralStore

/-! # The cloud lock of a store

The sync engine and the application share one remote lock. `flag_` remembers who
holds it, one bit each, and the remote lock is given back when the last bit goes.
A lock sets its bit before the remote call is made, and keeps it when the call fails.
-/

namespace DataMgr.Rdb

open DataMgr.Store

/-- `DistributedDB::DBStatus`, as far as the store names its values. -/
inductive DBStatus where
  | ok
  | dbError
  | cloudError
  | cloudNetworkError
  | cloudLockError
  | cloudFullRecords
  | cloudAssetSpaceInsufficient
  | cloudVersionConflict
  | cloudRecordExistConflict
  | cloudRecordNotFound
  | cloudRecordAlreadyExisted
  | localAssetNotFound
  | timeOut
  | cloudDisabled
  | skipAsset
  | skipWhenCloudSpaceInsufficient
  | expiredCursor
  | other (code : Int)
deriving DecidableEq, Repr

def convertStatus : GeneralError → DBStatus
  | .eOk => .ok
  | .eNetworkError => .cloudNetworkError
  | .eLockedByOthers => .cloudLockError
  | .eRecodeLimitExceeded => .cloudFullRecords
  | .eNoSpaceForAsset => .cloudAssetSpaceInsufficient
  | .eVersionConflict => .cloudVersionConflict
  | .eRecordExistConflict => .cloudRecordExistConflict
  | .eRecordNotFound => .cloudRecordNotFound
  | .eRecordAlreadyExisted => .cloudRecordAlreadyExisted
  | .eFileNotExist => .localAssetNotFound
  | .eTimeOut => .timeOut
  | .eCloudDisabled => .cloudDisabled
  | .eSkipAsset => .skipAsset
  | .eSkipWhenCloudSpaceInsufficient => .skipWhenCloudSpaceInsufficient
  | .eExpiredCursor => .expiredCursor
  | _ => .cloudError

inductive Flag where
  | systemAbility
  | application
deriving DecidableEq, Repr

def Flag.mask : Flag → UInt8
  | .systemAbility => 1
  | .application => 2

def toMs : Int64 := 1000

/-- `flag_`, and how often `cloudDB_->Unlock` has been called. -/
structure RdbCloud where
  flag : UInt8
  unlocks : Nat
deriving DecidableEq, Repr

variable (c : RdbCloud)

namespace RdbCloud

def create : RdbCloud := ⟨0, 0⟩

/-! ## Operations

`error` and `aliveTime` are what `cloudDB_` answers.
-/

def innerLock (flag : Flag) (error : GeneralError) (aliveTime : Int64) :
    (GeneralError × UInt32) × RdbCloud :=
  ((error, (aliveTime * toMs).toUInt64.toUInt32), { c with flag := c.flag ||| flag.mask })

def innerUnLock (flag : Flag) (error : GeneralError) : GeneralError × RdbCloud :=
  let c := { c with flag := c.flag &&& ~~~flag.mask }
  if c.flag = 0 then (error, { c with unlocks := c.unlocks + 1 }) else (.eOk, c)

def lock (error : GeneralError) (aliveTime : Int64) : (DBStatus × UInt32) × RdbCloud :=
  let (result, c) := c.innerLock .systemAbility error aliveTime
  ((convertStatus result.1, result.2), c)

def unLock (error : GeneralError) : DBStatus × RdbCloud :=
  let (result, c) := c.innerUnLock .systemAbility error
  (convertStatus result, c)

def lockCloudDB (flag : Flag) (error : GeneralError) (aliveTime : Int64) :
    (GeneralError × UInt32) × RdbCloud :=
  c.innerLock flag error aliveTime

def unLockCloudDB (flag : Flag) (error : GeneralError) : GeneralError × RdbCloud :=
  c.innerUnLock flag error

end RdbCloud

/-- A call on the lock with the answers of `cloudDB_`; the store passes `APPLICATION`
to the two that take a flag. -/
inductive LockOp where
  | lock (error : GeneralError) (aliveTime : Int64)
  | unLock (error : GeneralError)
  | lockCloudDB (error : GeneralError) (aliveTime : Int64)
  | unLockCloudDB (error : GeneralError)
deriving DecidableEq

namespace LockOp

def flag : LockOp → Flag
  | .lock .. | .unLock _ => .systemAbility
  | .lockCloudDB .. | .unLockCloudDB _ => .application

def isLock : LockOp → Bool
  | .lock .. | .lockCloudDB .. => true
  | .unLock _ | .unLockCloudDB _ => false

def failed : LockOp → Bool
  | .lock error _ | .lockCloudDB error _ => error ≠ .eOk
  | .unLock _ | .unLockCloudDB _ => false

def run : LockOp → RdbCloud
  | .lock error aliveTime => (c.lock error aliveTime).2
  | .unLock error => (c.unLock error).2
  | .lockCloudDB error aliveTime => (c.lockCloudDB .application error aliveTime).2
  | .unLockCloudDB error => (c.unLockCloudDB .application error).2

end LockOp

open LockOp

def runLockOps (ops : List LockOp) : RdbCloud := ops.foldl run .create

def flagBits (systemAbility application : Bool) : UInt8 :=
  (if systemAbility then Flag.systemAbility.mask else 0) |||
    (if application then Flag.application.mask else 0)

/-- The bit set of a set of holders. -/
def flagsOf (holds : Flag → Bool) : UInt8 := flagBits (holds .systemAbility) (holds .application)

theorem flagBits_injective : ∀ s a s' a', flagBits s a = flagBits s' a' → s = s' ∧ a = a' := by
  decide

theorem flagsOf_injective {holds holds' : Flag → Bool} (h : flagsOf holds = flagsOf holds')
    (flag : Flag) : holds flag = holds' flag := by
  obtain ⟨hs, ha⟩ := flagBits_injective _ _ _ _ h
  cases flag with
  | systemAbility => exact hs
  | application => exact ha

/-- The most recent call of a holder, failed or not. -/
def mostRecent (ops : List LockOp) (flag : Flag) : Option LockOp :=
  (ops.filter fun op => op.flag = flag).getLast?

variable (ops : List LockOp) (op : LockOp)

theorem mostRecent_concat (flag : Flag) :
    mostRecent (ops ++ [op]) flag = if op.flag = flag then some op else mostRecent ops flag := by
  rw [mostRecent, List.filter_append]
  by_cases h : op.flag = flag
  · rw [if_pos h, List.filter_cons_of_pos (by simpa using h)]
    simp
  · rw [if_neg h, List.filter_cons_of_neg (by simpa using h), List.filter_nil, List.append_nil,
      mostRecent]

/-- The bits of the code: whose most recent call was a lock. -/
def lastWasLock (flag : Flag) : Bool := (mostRecent ops flag).any isLock

theorem lastWasLock_concat (flag : Flag) :
    lastWasLock (ops ++ [op]) flag =
      if op.flag = flag then op.isLock else lastWasLock ops flag := by
  rw [lastWasLock, mostRecent_concat]
  split
  · rfl
  · rfl

theorem runLockOps_concat : runLockOps (ops ++ [op]) = op.run (runLockOps ops) := by
  rw [runLockOps, List.foldl_append]
  rfl

theorem flag_run :
    (op.run c).flag =
      if op.isLock then c.flag ||| op.flag.mask else c.flag &&& ~~~op.flag.mask := by
  cases op with
  | lock | lockCloudDB => rfl
  | unLock error =>
      simp only [run, RdbCloud.unLock, RdbCloud.innerUnLock]
      split <;> rfl
  | unLockCloudDB error =>
      simp only [run, RdbCloud.unLockCloudDB, RdbCloud.innerUnLock]
      split <;> rfl

theorem flagBits_update_systemAbility : ∀ value s a : Bool,
    (if value then flagBits s a ||| Flag.systemAbility.mask
      else flagBits s a &&& ~~~Flag.systemAbility.mask) = flagBits value a := by
  decide

theorem flagBits_update_application : ∀ value s a : Bool,
    (if value then flagBits s a ||| Flag.application.mask
      else flagBits s a &&& ~~~Flag.application.mask) = flagBits s value := by
  decide

theorem flagsOf_update (holds : Flag → Bool) (flag : Flag) (value : Bool) :
    (if value then flagsOf holds ||| flag.mask else flagsOf holds &&& ~~~flag.mask) =
      flagsOf fun f => if flag = f then value else holds f := by
  cases flag with
  | systemAbility => exact flagBits_update_systemAbility value _ _
  | application => exact flagBits_update_application value _ _

theorem flag_runLockOps : (runLockOps ops).flag = flagsOf (lastWasLock ops) := by
  induction ops using List.reverseRecOn with
  | nil => rfl
  | append_singleton ops op ih =>
      rw [runLockOps_concat, flag_run, ih, flagsOf_update]
      congr 1
      funext flag
      rw [lastWasLock_concat]

/-- Whose most recent call was a lock that succeeded. -/
def holdsLast (ops : List LockOp) (flag : Flag) : Bool :=
  (mostRecent ops flag).any fun op => op.isLock && !op.failed

/-- The same with refused locks left out: they change nothing. -/
def holdsEffect (ops : List LockOp) (flag : Flag) : Bool :=
  (mostRecent (ops.filter fun op => !op.failed) flag).any isLock

/-- After every call of the sequence `flag_` is the set of holders; the remote lock is
given back by the unlocks that leave it empty and by nothing else; a refused lock
leaves `flag_` alone. -/
def Owned (holds : List LockOp → Flag → Bool) (ops : List LockOp) : Prop :=
  ∀ before op after, ops = before ++ op :: after →
    (op.run (runLockOps before)).flag = flagsOf (holds (before ++ [op])) ∧
    (op.run (runLockOps before)).unlocks = (runLockOps before).unlocks +
      (if op.isLock = false ∧ (op.run (runLockOps before)).flag = 0 then 1 else 0) ∧
    (op.failed = true → (op.run (runLockOps before)).flag = (runLockOps before).flag)

theorem unlocks_run :
    (op.run c).unlocks = c.unlocks + if op.isLock = false ∧ (op.run c).flag = 0 then 1 else 0 := by
  cases op with
  | lock | lockCloudDB => simp [run, isLock, RdbCloud.lock, RdbCloud.lockCloudDB,
      RdbCloud.innerLock]
  | unLock error =>
      simp only [run, RdbCloud.unLock, RdbCloud.innerUnLock]
      split <;> simp_all [isLock]
  | unLockCloudDB error =>
      simp only [run, RdbCloud.unLockCloudDB, RdbCloud.innerUnLock]
      split <;> simp_all [isLock]

theorem LockOp.isLock_of_failed {op : LockOp} (h : op.failed = true) : op.isLock = true := by
  cases op with
  | lock | lockCloudDB => rfl
  | unLock | unLockCloudDB => cases h

theorem holdsLast_concat_self : holdsLast (ops ++ [op]) op.flag = (op.isLock && !op.failed) := by
  rw [holdsLast, mostRecent_concat, if_pos rfl]
  rfl

theorem holdsLast_of_no_failure {ops : List LockOp} (h : ∀ op ∈ ops, op.failed = false) :
    holdsLast ops = lastWasLock ops := by
  funext flag
  rw [holdsLast, lastWasLock]
  cases hop : mostRecent ops flag with
  | none => rfl
  | some op =>
      have hmem := List.mem_of_mem_filter (List.mem_of_getLast? hop)
      simp [h op hmem]

theorem holdsEffect_concat (flag : Flag) :
    holdsEffect (ops ++ [op]) flag =
      if op.failed = false ∧ op.flag = flag then op.isLock else holdsEffect ops flag := by
  rw [holdsEffect, List.filter_append]
  cases hfailed : op.failed with
  | true => simp [hfailed, holdsEffect]
  | false =>
      rw [List.filter_cons_of_pos (by simp [hfailed]), List.filter_nil, mostRecent_concat]
      by_cases hflag : op.flag = flag
      · rw [if_pos hflag, if_pos ⟨rfl, hflag⟩]
        rfl
      · rw [if_neg hflag, if_neg (fun hand => hflag hand.2), holdsEffect]

/-- A holder that already has the lock may fail to take it again. -/
def FailsOnlyWhenHeld (ops : List LockOp) : Prop :=
  ∀ before op after, ops = before ++ op :: after → op.failed = true →
    holdsEffect before op.flag = true

theorem FailsOnlyWhenHeld.left {ops more : List LockOp} (h : FailsOnlyWhenHeld (ops ++ more)) :
    FailsOnlyWhenHeld ops := by
  rintro before op after rfl hfailed
  exact h before op (after ++ more) (by simp) hfailed

theorem lastWasLock_eq_holdsEffect {ops : List LockOp} (h : FailsOnlyWhenHeld ops) :
    lastWasLock ops = holdsEffect ops := by
  induction ops using List.reverseRecOn with
  | nil => rfl
  | append_singleton ops op ih =>
      funext flag
      rw [lastWasLock_concat, holdsEffect_concat, ih h.left]
      by_cases hflag : op.flag = flag
      · cases hfailed : op.failed with
        | false => simp [hflag]
        | true =>
            have hheld := h ops op [] rfl hfailed
            rw [hflag] at hheld
            simp [hflag, hheld, isLock_of_failed hfailed]
      · simp [hflag]

/-- `flag_` is right in the sense of each holder's most recent call exactly as long as no
lock is refused, and in the sense of the calls that took effect exactly as long as a
lock is only refused to a holder that has it. -/
theorem cloudLock_owned_iff (ops : List LockOp) :
    (Owned holdsLast ops ↔ ∀ op ∈ ops, op.failed = false) ∧
      (Owned holdsEffect ops ↔ FailsOnlyWhenHeld ops) := by
  have hflag : ∀ before op, (op.run (runLockOps before)).flag =
      flagsOf (lastWasLock (before ++ [op])) := by
    intro before op
    rw [← runLockOps_concat, flag_runLockOps]
  refine ⟨⟨?_, ?_⟩, ⟨?_, ?_⟩⟩
  · intro howned op hmem
    obtain ⟨before, after, rfl⟩ := List.append_of_mem hmem
    have heq := (howned before op after rfl).1
    rw [hflag] at heq
    have hbit := flagsOf_injective heq op.flag
    rw [lastWasLock_concat, if_pos rfl, holdsLast_concat_self] at hbit
    by_contra hfailed
    rw [Bool.not_eq_false] at hfailed
    rw [hfailed, isLock_of_failed hfailed] at hbit
    cases hbit
  · rintro hnone before op after rfl
    refine ⟨?_, unlocks_run _ _, ?_⟩
    · rw [hflag, holdsLast_of_no_failure]
      intro other hmem
      exact hnone other (by simp at hmem ⊢; tauto)
    · intro hfailed
      rw [hnone op (by simp)] at hfailed
      cases hfailed
  · rintro howned before op after rfl hfailed
    have heq := (howned before op after rfl).1
    rw [hflag] at heq
    have hbit := flagsOf_injective heq op.flag
    rw [lastWasLock_concat, if_pos rfl, holdsEffect_concat, hfailed, if_neg (fun h => nomatch h.1),
      isLock_of_failed hfailed] at hbit
    exact hbit.symm
  · rintro hheld before op after rfl
    have hall : FailsOnlyWhenHeld ((before ++ [op]) ++ after) := by simpa using hheld
    have hbefore := hall.left
    have hafter := lastWasLock_eq_holdsEffect hbefore
    refine ⟨by rw [hflag, hafter], unlocks_run _ _, ?_⟩
    intro hfailed
    rw [hflag, flag_runLockOps, hafter, lastWasLock_eq_holdsEffect hbefore.left]
    congr 1
    funext flag
    rw [holdsEffect_concat, hfailed, if_neg (fun h => nomatch h.1)]

/-- The application's lock is refused while the sync engine holds it: its bit stays, the
engine's unlock does not reach the cloud, and nobody is left to give the lock back. -/
theorem refused_lock_keeps_flag :
    let ops : List LockOp := [.lock .eOk 60, .lockCloudDB .eLockedByOthers 60, .unLock .eOk]
    runLockOps ops = ⟨2, 0⟩ ∧ holdsLast ops .application = false ∧
      holdsEffect ops .application = false ∧ ¬ Owned holdsLast ops ∧ ¬ Owned holdsEffect ops := by
  refine ⟨by decide, by decide, by decide, ?_, ?_⟩
  all_goals
    intro howned
    exact absurd (howned [.lock .eOk 60] (.lockCloudDB .eLockedByOthers 60) [.unLock .eOk] rfl).1
      (by decide)

end DataMgr.Rdb
