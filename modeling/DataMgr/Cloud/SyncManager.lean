import DataMgr.Foundation.Machine
import DataMgr.Foundation.KeyedMap
import DataMgr.Store.GeneralStore

/-! # Active cloud sync tasks

`actives_` maps a sync id to the pool task that runs it. The id packs the user
in its high 32 bits over a wrapping counter, and `StopCloudSync` recovers the
user by `Compare`. Tasks enter through `DoCloudSync` or a retry, leave the
pool's schedule when they start, and leave `actives_` when the last reference
of their run is dropped.
-/

namespace DataMgr.Cloud

open Std DataMgr.Foundation DataMgr.Store

def mvBit : UInt64 := 32
def userMark : UInt64 := 0xFFFFFFFF00000000

/-- `static_cast<uint64_t>(user) & 0xFFFFFFFF`: the cast sign-extends, the mask
keeps the user's own 32 bits. -/
def userWord (user : Int32) : UInt64 := user.toInt64.toUInt64 &&& 0xFFFFFFFF

/-- The id `GenerateId` forms once the counter has been advanced to `gen`. -/
def packId (user : Int32) (gen : UInt32) : UInt64 := (userWord user <<< mvBit) ||| gen.toUInt64

def generateId (genId : UInt32) (user : Int32) : UInt64 × UInt32 :=
  (packId user (genId + 1), genId + 1)

/-- `SyncManager::Compare`: the comparison's truth value as an `int32_t`. -/
def compareUser (syncId : UInt64) (user : Int32) : Int32 :=
  if syncId &&& userMark = userWord user <<< mvBit then 1 else 0

/-- The id was formed by `GenerateId(user)` at some counter value. -/
def GeneratedFor (syncId : UInt64) (user : Int32) : Prop := ∃ gen, syncId = packId user gen

variable {i : Nat}

theorem userMark_bit (hi : i < 64) :
    userMark.toBitVec.getLsbD i = decide (32 ≤ i) := by
  have h : ∀ j : Fin 64, userMark.toBitVec.getLsbD j = decide (32 ≤ (j : Nat)) := by decide
  exact h ⟨i, hi⟩

variable (user : Int32)

theorem userWord_bit (hi : i < 64) :
    (userWord user).toBitVec.getLsbD i = (decide (i < 32) && user.toBitVec.getLsbD i) := by
  have hmask : ∀ j : Fin 64,
      (0xFFFFFFFF : UInt64).toBitVec.getLsbD j = decide ((j : Nat) < 32) := by decide
  have hm := hmask ⟨i, hi⟩
  simp only [userWord, UInt64.toBitVec_and, BitVec.getLsbD_and]
  rw [hm]
  by_cases h32 : i < 32
  · simp [h32, BitVec.getElem_signExtend, hi]
  · simp [h32]

theorem userWord_shift_bit (hi : i < 64) :
    (userWord user <<< mvBit).toBitVec.getLsbD i =
      (decide (32 ≤ i) && user.toBitVec.getLsbD (i - 32)) := by
  have hs : (userWord user <<< mvBit).toBitVec = (userWord user).toBitVec <<< 32 := rfl
  rw [hs, BitVec.getLsbD_shiftLeft, userWord_bit user (by omega)]
  by_cases h : i < 32
  · simp [h]
  · have h' : i - 32 < 32 := by omega
    have hle : 32 ≤ i := by omega
    simp [h, h', hi, hle]

theorem uint64_eq_of_bits {a b : UInt64}
    (h : ∀ i, i < 64 → a.toBitVec.getLsbD i = b.toBitVec.getLsbD i) : a = b :=
  UInt64.toBitVec_inj.mp (BitVec.eq_of_getLsbD_eq h)

theorem and_userMark_packId (gen : UInt32) :
    packId user gen &&& userMark = userWord user <<< mvBit := by
  refine uint64_eq_of_bits fun i hi => ?_
  simp only [packId, UInt64.toBitVec_and, UInt64.toBitVec_or, BitVec.getLsbD_and,
    BitVec.getLsbD_or, userWord_shift_bit user hi, userMark_bit hi]
  by_cases h : 32 ≤ i
  · simp [h]
  · simp [h]

theorem lowWord_bit (syncId : UInt64) (hi : i < 64) :
    syncId.toUInt32.toUInt64.toBitVec.getLsbD i =
      (decide (i < 32) && syncId.toBitVec.getLsbD i) := by
  have hw : syncId.toUInt32.toUInt64.toBitVec = (syncId.toBitVec.setWidth 32).setWidth 64 := rfl
  rw [hw, BitVec.getLsbD_setWidth, BitVec.getLsbD_setWidth]
  simp [hi]

theorem eq_packId_of_and_userMark {syncId : UInt64} {user : Int32}
    (h : syncId &&& userMark = userWord user <<< mvBit) :
    syncId = packId user syncId.toUInt32 := by
  refine uint64_eq_of_bits fun i hi => ?_
  have hb := congrArg (fun w : UInt64 => w.toBitVec.getLsbD i) h
  simp only [UInt64.toBitVec_and, BitVec.getLsbD_and, userWord_shift_bit user hi,
    userMark_bit hi] at hb
  simp only [packId, UInt64.toBitVec_or, BitVec.getLsbD_or, userWord_shift_bit user hi,
    lowWord_bit syncId hi]
  by_cases h32 : 32 ≤ i
  · simpa [h32, Nat.not_lt.mpr h32] using hb
  · simp [h32, Nat.not_le.mp h32]

theorem compareUser_eq_zero_iff (syncId : UInt64) (user : Int32) :
    compareUser syncId user = 0 ↔ ¬ GeneratedFor syncId user := by
  have hgen : GeneratedFor syncId user ↔ syncId &&& userMark = userWord user <<< mvBit := by
    constructor
    · rintro ⟨gen, rfl⟩
      exact and_userMark_packId user gen
    · intro h
      exact ⟨_, eq_packId_of_and_userMark h⟩
  rw [hgen, compareUser]
  split
  · rename_i h
    simp [h]
  · rename_i h
    simp [h]

structure SyncManager where
  genId : UInt32
  executor : Option ExecutorPool
  actives : ExtTreeMap UInt64 TaskId
  activeInfos : ExtTreeMap UInt64 UInt64

variable (entries : List (UInt64 × TaskId)) (m : SyncManager) (pool : ExecutorPool)
  (syncId : UInt64)

namespace SyncManager

def scheduledTasks : List TaskId :=
  match m.executor with
  | none => []
  | some pool => pool.scheduled

/-- The body shared by `DoCloudSync` and a retry: a fresh id for the user, whose
entry becomes the task handed to the pool. -/
def addActive (user : Int32) : UInt64 × SyncManager :=
  let (syncId, genId) := generateId m.genId user
  let (task, pool) := pool.schedule
  (syncId, { m with
    genId := genId
    executor := some pool
    actives := compute m.actives syncId 0 fun _ => (task, true) })

def doCloudSync (user : Int32) : GeneralError × SyncManager :=
  match m.executor with
  | none => (.eNotInit, m)
  | some pool => (.eOk, (m.addActive pool user).2)

/-- `StopCloudSync`: the walk is over a copy of `actives_` in key order. -/
def stopCloudSync (user : Int32) : GeneralError × SyncManager :=
  match m.executor with
  | none => (.eNotInit, m)
  | some pool =>
      let swept := m.actives.toList.foldl
        (fun pool entry =>
          if compareUser entry.1 user = 0 then pool.remove entry.2 else pool) pool
      (.eOk, { m with executor := some swept })

def retryTimes : Int := 6

inductive CloudErrorAction where
  | actionDefault
  | actionRetrySyncTask
deriving DecidableEq, Repr

/-- The function `GetRetryer(times, info, user)` returns, run on a sync result;
`infoId` is `info.syncId_`. At most one retry is outstanding for an `infoId`. -/
def retry (times : Int) (infoId : UInt64) (user : Int32) (code : GeneralError)
    (cloudAction : CloudErrorAction) : Bool × SyncManager :=
  if retryTimes ≤ times then (true, m)
  else if code = .eOk ∨ code = .eSyncTaskMerged then (true, m)
  else if code ≠ .eNetworkError ∧ cloudAction ≠ .actionRetrySyncTask then (true, m)
  else
    match m.executor with
    | none => (false, m)
    | some pool =>
        if m.activeInfos.contains infoId then (true, m)
        else
          let (syncId, m) := m.addActive pool user
          (true, { m with activeInfos := m.activeInfos.insert infoId syncId })

/-- `SyncInfo`'s constructor draws an id of its own. -/
def newSyncInfo (user : Int32) : SyncManager :=
  { m with genId := (generateId m.genId user).2 }

/-- The local-change handler runs a task that `actives_` does not record. -/
def clientChange (user : Int32) : SyncManager :=
  match m.executor with
  | none => m
  | some pool => { m.newSyncInfo user with executor := some pool.schedule.2 }

/-- The pool starts a waiting task, whose body first erases `info.syncId_` from
`activeInfos_`. -/
def startTask (task : TaskId) (infoId : UInt64) : Option SyncManager :=
  match m.executor with
  | none => none
  | some pool =>
      if task ∈ pool.scheduled then
        some { m with
          executor := some (pool.remove task), activeInfos := m.activeInfos.erase infoId }
      else none

/-- The action of `GenSyncRef(syncId)`, run when its last holder goes away. -/
def releaseRef : SyncManager :=
  { m with actives := m.actives.erase syncId }

inductive Action where
  | newSyncInfo (user : Int32)
  | doCloudSync (user : Int32)
  | retry (times : Int) (infoId : UInt64) (user : Int32) (code : GeneralError)
      (cloudAction : CloudErrorAction)
  | clientChange (user : Int32)
  | startTask (task : TaskId) (infoId : UInt64)
  | releaseRef (syncId : UInt64)
  | stopCloudSync (user : Int32)

def machine : Machine SyncManager Action where
  step m
    | .newSyncInfo user => some (m.newSyncInfo user)
    | .doCloudSync user => some (m.doCloudSync user).2
    | .retry times infoId user code cloudAction =>
        some (m.retry times infoId user code cloudAction).2
    | .clientChange user => some (m.clientChange user)
    | .startTask task infoId => m.startTask task infoId
    | .releaseRef syncId => some (m.releaseRef syncId)
    | .stopCloudSync user => some (m.stopCloudSync user).2

/-- A manager before its first sync, bound to `executor`. -/
def start (genId : UInt32) (executor : Option ExecutorPool) : SyncManager :=
  { genId := genId, executor := executor, actives := ∅, activeInfos := ∅ }

/-- Every recorded task was issued by the bound pool, and no two ids record the
same task. -/
structure TasksOwned (m : SyncManager) : Prop where
  issued : ∀ {pool : ExecutorPool} {syncId : UInt64} {task : TaskId},
    m.executor = some pool → m.actives[syncId]? = some task → task < pool.nextTask
  single : ∀ {id₁ id₂ : UInt64} {task : TaskId},
    m.actives[id₁]? = some task → m.actives[id₂]? = some task → id₁ = id₂

variable {m : SyncManager}

/-- Whatever only drops entries and never takes ids back keeps ownership. -/
theorem TasksOwned.shrink {m' : SyncManager} (h : m.TasksOwned)
    (hpool : ∀ pool', m'.executor = some pool' →
      ∃ pool, m.executor = some pool ∧ pool.nextTask ≤ pool'.nextTask)
    (hactives : ∀ (syncId : UInt64) (task : TaskId), m'.actives[syncId]? = some task →
      m.actives[syncId]? = some task) : m'.TasksOwned where
  issued {pool' syncId task} hp ht := by
    obtain ⟨pool, hpool, hle⟩ := hpool pool' hp
    exact (h.issued hpool (hactives syncId task ht)).trans_le hle
  single h₁ h₂ := h.single (hactives _ _ h₁) (hactives _ _ h₂)

theorem addActive_entry {pool : ExecutorPool} {user : Int32} {syncId : UInt64} {task : TaskId}
    (h : (m.addActive pool user).2.actives[syncId]? = some task) :
    (syncId = (m.addActive pool user).1 ∧ task = pool.nextTask) ∨
      m.actives[syncId]? = some task := by
  by_cases hid : syncId = (m.addActive pool user).1
  · subst hid
    refine .inl ⟨rfl, ?_⟩
    simpa [addActive, ExecutorPool.schedule, eq_comm] using h
  · have hne : syncId ≠ (generateId m.genId user).1 := hid
    exact .inr (by simpa [addActive, getElem?_compute_of_ne _ _ _ hne] using h)

theorem TasksOwned.addActive (h : m.TasksOwned) {pool : ExecutorPool}
    (hpool : m.executor = some pool) (user : Int32) : (m.addActive pool user).2.TasksOwned := by
  constructor
  · intro pool' syncId task hp ht
    have hnext : pool'.nextTask = pool.nextTask + 1 := by
      have hp' : some pool.schedule.2 = some pool' := hp
      rw [← Option.some.inj hp', ExecutorPool.schedule]
    rw [hnext]
    rcases addActive_entry ht with ⟨-, rfl⟩ | ht
    · exact Nat.lt_succ_self _
    · exact Nat.lt_succ_of_lt (h.issued hpool ht)
  · intro id₁ id₂ task h₁ h₂
    rcases addActive_entry h₁ with ⟨rfl, rfl⟩ | h₁ <;> rcases addActive_entry h₂ with ⟨rfl, ht⟩ | h₂
    · rfl
    · exact absurd (h.issued hpool h₂) (Nat.lt_irrefl _)
    · subst ht
      exact absurd (h.issued hpool h₁) (Nat.lt_irrefl _)
    · exact h.single h₁ h₂

theorem mem_foldl_remove (task : TaskId) :
    task ∈ (entries.foldl (fun pool entry =>
        if compareUser entry.1 user = 0 then pool.remove entry.2 else pool) pool).scheduled ↔
      task ∈ pool.scheduled ∧ ∀ e ∈ entries, compareUser e.1 user = 0 → task ≠ e.2 := by
  induction entries generalizing pool with
  | nil => simp
  | cons e entries ih =>
      rw [List.foldl_cons, ih]
      by_cases he : compareUser e.1 user = 0
      · simp [he, ExecutorPool.remove, and_assoc]
      · simp [he]

/-- What the sweep leaves in the pool: every waiting task except the recorded
ones whose id was not generated for `user`. -/
theorem mem_scheduledTasks_stopCloudSync (m : SyncManager) (user : Int32) (task : TaskId) :
    task ∈ (m.stopCloudSync user).2.scheduledTasks ↔
      task ∈ m.scheduledTasks ∧
        ∀ syncId : UInt64, m.actives[syncId]? = some task → GeneratedFor syncId user := by
  cases hex : m.executor with
  | none => simp [stopCloudSync, scheduledTasks, hex]
  | some pool =>
      have hsched : m.scheduledTasks = pool.scheduled := by simp [scheduledTasks, hex]
      simp only [stopCloudSync, hex, scheduledTasks, mem_foldl_remove]
      refine and_congr_right fun _ => ⟨fun h syncId hid => ?_, fun h e he hcmp ht => ?_⟩
      · by_contra hgen
        exact h (syncId, task) (ExtTreeMap.mem_toList_iff_getElem?_eq_some.mpr hid)
          ((compareUser_eq_zero_iff syncId user).mpr hgen) rfl
      · refine (compareUser_eq_zero_iff e.1 user).mp hcmp (h e.1 ?_)
        rw [ht]
        exact ExtTreeMap.mem_toList_iff_getElem?_eq_some.mp he

theorem stopCloudSync_actives (m : SyncManager) (user : Int32) :
    (m.stopCloudSync user).2.actives = m.actives := by
  unfold stopCloudSync
  split <;> rfl

theorem foldl_remove_nextTask :
    (entries.foldl (fun pool entry =>
      if compareUser entry.1 user = 0 then pool.remove entry.2 else pool) pool).nextTask =
      pool.nextTask := by
  induction entries generalizing pool with
  | nil => rfl
  | cons e entries ih =>
      rw [List.foldl_cons, ih]
      split <;> rfl

theorem step_tasksOwned (m : SyncManager) (a : Action) (m' : SyncManager)
    (h : m.TasksOwned) (hstep : machine.step m a = some m') : m'.TasksOwned := by
  cases a with
  | newSyncInfo user =>
      cases hstep
      exact h.shrink (fun pool' hp => ⟨pool', hp, le_rfl⟩) fun _ _ ht => ht
  | doCloudSync user =>
      cases hstep
      cases hex : m.executor with
      | none => simpa [doCloudSync, hex] using h
      | some pool => simpa [doCloudSync, hex] using h.addActive hex user
  | retry times infoId user code cloudAction =>
      cases hstep
      cases hex : m.executor with
      | none =>
          simp only [SyncManager.retry, hex]
          split_ifs <;> exact h
      | some pool =>
          simp only [SyncManager.retry, hex]
          split_ifs with htimes hdone hstop hactive
          · exact h
          · exact h
          · exact h
          · exact h
          · exact (h.addActive hex user).shrink (fun pool' hp => ⟨pool', hp, le_rfl⟩)
              fun _ _ ht => ht
  | clientChange user =>
      cases hstep
      cases hex : m.executor with
      | none => simpa [clientChange, hex] using h
      | some pool =>
          simp only [clientChange, hex]
          refine h.shrink (fun pool' hp => ⟨pool, hex, ?_⟩) fun _ _ ht => ht
          rw [← Option.some.inj hp]
          exact Nat.le_succ _
  | startTask task infoId =>
      simp only [machine, startTask] at hstep
      split at hstep
      · cases hstep
      rename_i pool hex
      split at hstep
      · cases hstep
        refine h.shrink (fun pool' hp => ⟨pool, hex, ?_⟩) fun _ _ ht => ht
        rw [← Option.some.inj hp]
        exact le_rfl
      · cases hstep
  | releaseRef syncId =>
      cases hstep
      refine h.shrink (fun pool' hp => ⟨pool', hp, le_rfl⟩) fun id task ht => ?_
      simp only [releaseRef, ExtTreeMap.getElem?_erase] at ht
      split at ht
      · cases ht
      · exact ht
  | stopCloudSync user =>
      cases hstep
      refine h.shrink (fun pool' hp => ?_) fun _ _ ht => by rwa [stopCloudSync_actives] at ht
      cases hex : m.executor with
      | none => simp [stopCloudSync, hex] at hp
      | some pool =>
          simp only [stopCloudSync, hex, Option.some.injEq] at hp
          exact ⟨pool, rfl, by rw [← hp, foldl_remove_nextTask]⟩

/-- `StopCloudSync(user)` cancels exactly the recorded tasks of `user`: a recorded
task waits afterwards if and only if it waited before and its id is not the user's. -/
def CancelsExactly (m : SyncManager) (user : Int32) : Prop :=
  ∀ (syncId : UInt64) (task : TaskId), m.actives[syncId]? = some task →
    (task ∈ (m.stopCloudSync user).2.scheduledTasks ↔
      task ∈ m.scheduledTasks ∧ ¬ GeneratedFor syncId user)

/-- The sweep's test has the opposite polarity: in any reachable manager it is
exact only when no recorded task waits, that is, when there is nothing to cancel. -/
theorem stopCloudSync_cancelsExactly_iff (genId : UInt32) (executor : Option ExecutorPool)
    (schedule : List Action) (m : SyncManager) (user : Int32)
    (hrun : machine.exec (start genId executor) schedule = some m) :
    m.CancelsExactly user ↔
      ∀ (syncId : UInt64) (task : TaskId), m.actives[syncId]? = some task →
        task ∉ m.scheduledTasks := by
  have howned := machine.exec_invariant step_tasksOwned
    ⟨fun _ ht => by simp [start] at ht, fun h₁ _ => by simp [start] at h₁⟩ hrun
  have hself : ∀ (syncId : UInt64) (task : TaskId), m.actives[syncId]? = some task →
      (task ∈ (m.stopCloudSync user).2.scheduledTasks ↔
        task ∈ m.scheduledTasks ∧ GeneratedFor syncId user) := by
    intro syncId task hid
    rw [mem_scheduledTasks_stopCloudSync]
    refine and_congr_right fun _ => ⟨fun h => h syncId hid, fun h id hid' => ?_⟩
    rwa [howned.single hid' hid]
  constructor
  · intro h syncId task hid hwait
    have hexact := h syncId task hid
    rw [hself syncId task hid] at hexact
    by_cases hgen : GeneratedFor syncId user
    · exact (hexact.mp ⟨hwait, hgen⟩).2 hgen
    · exact hgen (hexact.mpr ⟨hwait, hgen⟩).2
  · intro h syncId task hid
    rw [hself syncId task hid]
    simp [h syncId task hid]

/-- Witness: users 100 and 101 have both synced and both tasks have started. -/
theorem stopCloudSync_cancelsExactly_started :
    ∃ m, machine.exec (start 0 (some ⟨1, []⟩))
        [.doCloudSync 100, .doCloudSync 101, .startTask 1 0, .startTask 2 0] = some m ∧
      m.CancelsExactly 100 := by
  refine ⟨_, rfl, (stopCloudSync_cancelsExactly_iff 0 (some ⟨1, []⟩)
    [.doCloudSync 100, .doCloudSync 101, .startTask 1 0, .startTask 2 0] _ 100 rfl).mpr ?_⟩
  intro syncId task _ hwait
  have hnone : task ∈ ([] : List TaskId) := hwait
  cases hnone

/-- Users 100 and 101 have one waiting sync each; stopping user 100 removes the
other user's task and keeps its own. -/
theorem stopCloudSync_cancels_other_user :
    ∃ m, machine.exec (start 0 (some ⟨1, []⟩)) [.doCloudSync 100, .doCloudSync 101] = some m ∧
      ¬ m.CancelsExactly 100 := by
  refine ⟨_, rfl, fun h => ?_⟩
  have hown := (h (packId 100 1) 1 (by decide +kernel)).mp (by decide +kernel)
  exact hown.2 ⟨1, rfl⟩

end SyncManager

end DataMgr.Cloud
