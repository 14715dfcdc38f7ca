import DataMgr.Cloud.SyncManager

/-! # Retries of a sync request

`GetSyncTask` raises the attempt number it is given and builds the task; the task
hands a copy of its retryer to the callback of every store it syncs, and a callback
may run the retryer at any later time, before or after another copy has scheduled
the next attempt. `activeInfos_` is the only thing that keeps two copies apart.
-/

namespace DataMgr.Cloud

open DataMgr.Foundation DataMgr.Store
open SyncManager (CloudErrorAction retryTimes)

def clientRetryTimes : Int := 3

/-- `SyncManager::InitDefaultUser`: the user to sync for, and whether the request
named the default user 0; `users` is what `QueryUsers` answers. -/
def initDefaultUser (users : List Int32) (user : Int32) : Int32 × Bool :=
  if user ≠ 0 then (user, false) else (users.headD user, true)

/-- What a task of `GetSyncTask` captures. `origin` is the attempt whose retryer
scheduled it, and `none` for the first task of a request. -/
structure SyncTask where
  times : Int
  retry : Bool
  infoId : UInt64
  user : Int32
  origin : Option Int
deriving DecidableEq, Repr

/-- `GetSyncTask(times, retry, ..)`: the attempt number is raised on entry. -/
def getSyncTask (times : Int) (retry : Bool) (infoId : UInt64) (user : Int32)
    (origin : Option Int) : SyncTask :=
  { times := times + 1, retry := retry, infoId := infoId, user := user, origin := origin }

/-- The retryer of one execution; `left` is how often the callbacks that hold a
copy of it will still run it. -/
structure Retryer where
  times : Int
  infoId : UInt64
  user : Int32
  left : Nat
deriving DecidableEq, Repr

variable (m : SyncManager)

/-- The path through a retryer that reaches `Schedule`. -/
def SyncManager.schedulesRetry (times : Int) (infoId : UInt64) (code : GeneralError)
    (cloudAction : CloudErrorAction) : Bool :=
  times < retryTimes && (code ≠ .eOk && code ≠ .eSyncTaskMerged) &&
    (code = .eNetworkError || cloudAction = .actionRetrySyncTask) &&
    m.executor.isSome && !m.activeInfos.contains infoId

structure RetryState where
  manager : SyncManager
  /-- Tasks handed to the pool and not started, with the pool's id of each. -/
  tasks : List (TaskId × SyncTask)
  retryers : List Retryer
  executed : List SyncTask
  /-- The `syncId_` of every request that was submitted. -/
  used : List UInt64

variable (s : RetryState) (user : Int32)

/-- A task enters the pool only when a pool is bound. -/
def handed (executor : Option ExecutorPool) (task : SyncTask) : List (TaskId × SyncTask) :=
  match executor with
  | none => []
  | some pool => [(pool.nextTask, task)]

inductive RetryAction where
  | doCloudSync (user : Int32)
  | clientChange (user : Int32) (autoRetry : Bool)
  | start (j : Nat) (users : List Int32) (calls : Nat)
  | callback (i : Nat) (code : GeneralError) (cloudAction : CloudErrorAction)
  | stopCloudSync (user : Int32)
  | releaseRef (syncId : UInt64)

namespace RetryState

/-- A request enters with an id of its own: the first task waits in the pool. -/
def submit (manager : SyncManager) (task : SyncTask) : RetryState :=
  { s with
    manager := manager
    tasks := s.tasks ++ handed s.manager.executor task
    used := (handed s.manager.executor task).map (·.2.infoId) ++ s.used }

def nextInfoId : UInt64 := (generateId s.manager.genId user).1

def doCloudSync : RetryState :=
  s.submit ((s.manager.newSyncInfo user).doCloudSync user).2
    (getSyncTask 0 true (s.nextInfoId user) user none)

/-- The handler of `GetClientChangeHandler`; without auto retry the attempts start
at their limit. -/
def clientChange (autoRetry : Bool) : RetryState :=
  let times := if autoRetry then retryTimes - clientRetryTimes
    else retryTimes
  s.submit (s.manager.clientChange user)
    (getSyncTask times autoRetry (s.nextInfoId user) user none)

/-- The pool starts the task at `j`: the attempt runs, and its retryer is run
`calls` times by the callbacks it leaves behind. -/
def startTask (j : Nat) (users : List Int32) (calls : Nat) : Option RetryState :=
  match s.tasks[j]? with
  | none => none
  | some entry =>
      match s.manager.startTask entry.1 entry.2.infoId with
      | none => none
      | some manager =>
          some { s with
            manager := manager
            tasks := s.tasks.eraseIdx j
            executed := entry.2 :: s.executed
            retryers :=
              { times := entry.2.times
                infoId := entry.2.infoId
                user := (initDefaultUser users entry.2.user).1
                left := calls } :: s.retryers }

def callback (i : Nat) (code : GeneralError) (cloudAction : CloudErrorAction) : Option RetryState :=
  match s.retryers[i]? with
  | none => none
  | some r =>
      match r.left with
      | 0 => none
      | left + 1 =>
          some { s with
            manager := (s.manager.retry r.times r.infoId r.user code cloudAction).2
            retryers := s.retryers.set i { r with left := left }
            tasks :=
              if s.manager.schedulesRetry r.times r.infoId code cloudAction then
                s.tasks ++ handed s.manager.executor
                  (getSyncTask r.times true r.infoId r.user (some r.times))
              else s.tasks }

/-- The tasks that wait in the pool as a retry of the request `infoId`. -/
def waitingRetries (infoId : UInt64) : List (TaskId × SyncTask) :=
  s.tasks.filter fun entry =>
    entry.2.infoId = infoId && entry.2.origin.isSome && entry.1 ∈ s.manager.scheduledTasks

def executions (infoId : UInt64) : Nat :=
  s.executed.countP (·.infoId = infoId)

end RetryState

def retryMachine : Machine RetryState RetryAction where
  step s
    | .doCloudSync user => some (s.doCloudSync user)
    | .clientChange user autoRetry => some (s.clientChange user autoRetry)
    | .start j users calls => s.startTask j users calls
    | .callback i code cloudAction => s.callback i code cloudAction
    | .stopCloudSync user => some { s with manager := (s.manager.stopCloudSync user).2 }
    | .releaseRef syncId => some { s with manager := s.manager.releaseRef syncId }

def RetryState.start (genId : UInt32) (executor : Option ExecutorPool) : RetryState :=
  { manager := SyncManager.start genId executor
    tasks := []
    retryers := []
    executed := []
    used := [] }

/-- `GenerateId` has not come round to the id of an earlier request. -/
def FreshIds : RetryAction → Prop
  | .doCloudSync user => s.nextInfoId user ∉ s.used
  | .clientChange user _ => s.nextInfoId user ∉ s.used
  | _ => True

/-- The callbacks of one execution run its retryer at most `bound` times in all. -/
def CallsWithin (bound : Nat) (_ : RetryState) : RetryAction → Prop
  | .start _ _ calls => calls ≤ bound
  | _ => True

namespace SyncManager

variable {m : SyncManager} {infoId : UInt64}

theorem startTask_tables {m' : SyncManager} {task : TaskId}
    (h : m.startTask task infoId = some m'):
    m'.activeInfos = m.activeInfos.erase infoId ∧ m'.actives = m.actives := by
  unfold startTask at h
  split at h
  · cases h
  split at h
  · cases h
    exact ⟨rfl, rfl⟩
  · cases h

theorem retry_of_not_schedules {times : Int} {code : GeneralError} {cloudAction : CloudErrorAction}
    (user : Int32) (h : m.schedulesRetry times infoId code cloudAction = false) :
    (m.retry times infoId user code cloudAction).2 = m := by
  unfold retry
  split_ifs with htimes hdone hstop hactive
  · rfl
  · rfl
  · rfl
  · split <;> rfl
  · split
    · rfl
    · rename_i pool hex
      simp only [schedulesRetry, hex, Option.isSome_some, Bool.and_true] at h
      grind

theorem retry_eq_of_schedules {times : Int} {code : GeneralError} {cloudAction : CloudErrorAction}
    (user : Int32) (h : m.schedulesRetry times infoId code cloudAction = true) :
    ∃ pool, m.executor = some pool ∧ times < retryTimes ∧ infoId ∉ m.activeInfos ∧
      (m.retry times infoId user code cloudAction).2 =
        { (m.addActive pool user).2 with
          activeInfos := m.activeInfos.insert infoId (m.addActive pool user).1 } := by
  simp only [schedulesRetry, Bool.and_eq_true, decide_eq_true_eq, Bool.or_eq_true,
    Bool.not_eq_true', Option.isSome_iff_exists] at h
  obtain ⟨⟨⟨⟨htimes, hok, hmerged⟩, haction⟩, pool, hex⟩, hfree⟩ := h
  have hfree' : infoId ∉ m.activeInfos := by
    rw [← Std.ExtTreeMap.contains_iff_mem, hfree]
    exact Bool.false_ne_true
  have hdone : ¬ (code = .eOk ∨ code = .eSyncTaskMerged) := by tauto
  have hstop : ¬ (code ≠ .eNetworkError ∧ cloudAction ≠ .actionRetrySyncTask) := by tauto
  refine ⟨pool, hex, htimes, hfree', ?_⟩
  simp only [retry, if_neg (not_le.mpr htimes), if_neg hdone, if_neg hstop, hex, hfree]
  rfl

end SyncManager

/-! ## One step

What a started task and a run retryer leave, for the invariant and for the charge below.
-/

open SyncManager

namespace RetryState

theorem startTask_spec {s s' : RetryState} {j : Nat} {users : List Int32} {calls : Nat}
    (h : s.startTask j users calls = some s') :
    ∃ entry m, s.tasks[j]? = some entry ∧
      m.activeInfos = s.manager.activeInfos.erase entry.2.infoId ∧
      s' = { s with
        manager := m
        tasks := s.tasks.eraseIdx j
        executed := entry.2 :: s.executed
        retryers :=
          { times := entry.2.times
            infoId := entry.2.infoId
            user := (initDefaultUser users entry.2.user).1
            left := calls } :: s.retryers } := by
  unfold startTask at h
  split at h
  · cases h
  rename_i entry hentry
  split at h
  · cases h
  rename_i m hm
  cases h
  exact ⟨entry, m, hentry, (startTask_tables hm).1, rfl⟩

theorem callback_spec {s s' : RetryState} {i : Nat} {code : GeneralError}
    {cloudAction : CloudErrorAction} (h : s.callback i code cloudAction = some s') :
    ∃ r left, s.retryers[i]? = some r ∧ r.left = left + 1 ∧
      (s' = { s with retryers := s.retryers.set i { r with left := left } } ∨
        r.times < retryTimes ∧ r.infoId ∉ s.manager.activeInfos ∧
        ∃ m : SyncManager, (∀ k, k ∈ m.activeInfos ↔ r.infoId = k ∨ k ∈ s.manager.activeInfos) ∧
          s' = { s with
            manager := m
            tasks := s.tasks ++ handed s.manager.executor
              (getSyncTask r.times true r.infoId r.user (some r.times))
            retryers := s.retryers.set i { r with left := left } }) := by
  unfold callback at h
  split at h
  · cases h
  rename_i r hr
  split at h
  · cases h
  rename_i left hleft
  cases h
  refine ⟨r, left, hr, hleft, ?_⟩
  by_cases hsched : s.manager.schedulesRetry r.times r.infoId code cloudAction = true
  · obtain ⟨pool, -, hlt, hfree, heq⟩ := retry_eq_of_schedules r.user hsched
    rw [if_pos hsched]
    refine .inr ⟨hlt, hfree, _, fun k => ?_, rfl⟩
    rw [heq]
    simp [Std.ExtTreeMap.mem_insert]
  · rw [if_neg hsched, retry_of_not_schedules r.user (Bool.not_eq_true _ ▸ hsched)]
    exact .inl rfl

end RetryState

/-! ## One retry at a time

The first task of a request waits while no retryer of the request exists yet. From
its start on, a waiting task of the request is a retry, and `activeInfos_` holds
the request's id until that retry starts.
-/

/-- The attempt number of a task: a retry is numbered above the attempt that
scheduled it, and a first task without auto retry is the one case past the limit. -/
structure SyncTask.Numbered (t : SyncTask) : Prop where
  pos : 1 ≤ t.times
  above : ∀ o, t.origin = some o → o < t.times
  limit : t.times ≤ retryTimes ∨
    t.origin = none ∧ t.retry = false ∧ t.times = retryTimes + 1

variable {times : Int} {executor : Option ExecutorPool} {task : SyncTask} {calls bound : Nat}
  {s s' : RetryState}

theorem SyncTask.Numbered.first {retry : Bool} (infoId : UInt64) (user : Int32) (hpos : 0 ≤ times)
    (hlimit : times < retryTimes ∨ retry = false ∧ times = retryTimes) :
    (getSyncTask times retry infoId user none).Numbered := by
  constructor
  · simp only [getSyncTask]
    omega
  · intro o ho
    cases ho
  · rcases hlimit with hlt | ⟨hretry, heq⟩
    · exact .inl hlt
    · exact .inr ⟨rfl, hretry, congrArg (· + 1) heq⟩

theorem SyncTask.Numbered.retried (infoId : UInt64) (user : Int32) (hpos : 1 ≤ times)
    (hlt : times < retryTimes) :
    (getSyncTask times true infoId user (some times)).Numbered := by
  constructor
  · simp only [getSyncTask]
    omega
  · intro o ho
    cases ho
    exact Int.lt_succ_self times
  · exact .inl hlt

theorem SyncTask.Numbered.client (autoRetry : Bool) (infoId : UInt64) (user : Int32) :
    (getSyncTask (if autoRetry then retryTimes - clientRetryTimes
      else retryTimes) autoRetry infoId user none).Numbered := by
  cases autoRetry with
  | false => exact .first infoId user (by decide) (.inr ⟨rfl, rfl⟩)
  | true => exact .first infoId user (by decide) (.inl (by decide))

structure RetryInv (s : RetryState) : Prop where
  single : (s.tasks.map (·.2.infoId)).Nodup
  armed : ∀ e ∈ s.tasks, e.2.origin ≠ none → e.2.infoId ∈ s.manager.activeInfos
  first : ∀ e ∈ s.tasks, e.2.origin = none → ∀ r ∈ s.retryers, r.infoId ≠ e.2.infoId
  known : ∀ e ∈ s.tasks, e.2.infoId ∈ s.used
  ran : ∀ t ∈ s.executed, t.infoId ∈ s.used
  waiting : ∀ e ∈ s.tasks, e.2.Numbered
  numbered : ∀ t ∈ s.executed, t.Numbered
  /-- A retryer belongs to an attempt that has run. -/
  left : ∀ r ∈ s.retryers, ∃ t ∈ s.executed, t.infoId = r.infoId ∧ t.times = r.times
  /-- A retry was scheduled by an attempt that has run. -/
  caused : ∀ e ∈ s.tasks, ∀ o, e.2.origin = some o →
    ∃ t ∈ s.executed, t.infoId = e.2.infoId ∧ t.times = o
  causedRun : ∀ u ∈ s.executed, ∀ o, u.origin = some o →
    ∃ t ∈ s.executed, t.infoId = u.infoId ∧ t.times = o

theorem mem_handed {e : TaskId × SyncTask} (h : e ∈ handed executor task) : e.2 = task := by
  unfold handed at h
  split at h
  · cases h
  · rw [List.mem_singleton.mp h]

theorem nodup_append_handed {tasks : List (TaskId × SyncTask)} (h : (tasks.map (·.2.infoId)).Nodup)
    (hnew : ∀ e ∈ tasks, e.2.infoId ≠ task.infoId) :
    ((tasks ++ handed executor task).map (·.2.infoId)).Nodup := by
  rw [List.map_append, List.nodup_append]
  refine ⟨h, ?_, ?_⟩
  · unfold handed
    split
    · exact List.nodup_nil
    · exact List.nodup_singleton _
  · intro a ha b hb
    obtain ⟨e, he, rfl⟩ := List.mem_map.mp ha
    obtain ⟨e', he', rfl⟩ := List.mem_map.mp hb
    rw [mem_handed he']
    exact hnew e he

open RetryState

namespace RetryInv

variable {s s' : RetryState} {m : SyncManager} (h : RetryInv s)

include h

theorem of_manager (hinfos : m.activeInfos = s.manager.activeInfos) :
    RetryInv { s with manager := m } :=
  { h with armed := fun e he ho => hinfos ▸ h.armed e he ho }

theorem of_submit {task : SyncTask} (hinfos : m.activeInfos = s.manager.activeInfos)
    (hfresh : task.infoId ∉ s.used) (horigin : task.origin = none) (hnum : task.Numbered) :
    RetryInv (s.submit m task) := by
  have hold : ∀ e ∈ s.tasks ++ handed s.manager.executor task, e ∈ s.tasks ∨ e.2 = task :=
    fun e he => (List.mem_append.mp he).imp_right mem_handed
  constructor
  · refine nodup_append_handed h.single fun e he heq => hfresh ?_
    exact heq ▸ h.known e he
  · intro e he ho
    rcases hold e he with he | he
    · exact (congrArg (e.2.infoId ∈ ·) hinfos).mpr (h.armed e he ho)
    · exact absurd (he ▸ horigin) ho
  · intro e he ho r hr
    rcases hold e he with he | he
    · exact h.first e he ho r hr
    obtain ⟨t, ht, hid, -⟩ := h.left r hr
    intro heq
    refine hfresh ?_
    rw [← he, ← heq, ← hid]
    exact h.ran t ht
  · intro e he
    rcases List.mem_append.mp he with he | he
    · exact List.mem_append_right _ (h.known e he)
    · exact List.mem_append_left _ (List.mem_map_of_mem he)
  · exact fun t ht => List.mem_append_right _ (h.ran t ht)
  · intro e he
    rcases hold e he with he | he
    · exact h.waiting e he
    · exact he ▸ hnum
  · exact h.numbered
  · exact h.left
  · intro e he o ho
    rcases hold e he with he | he
    · exact h.caused e he o ho
    · rw [he, horigin] at ho
      cases ho
  · exact h.causedRun

/-- The ids of the waiting tasks differ: the others are of other requests. -/
theorem others_of_erased {j : Nat} {entry : TaskId × SyncTask} (hentry : s.tasks[j]? = some entry) :
    ∀ e ∈ s.tasks.eraseIdx j, e.2.infoId ≠ entry.2.infoId := by
  intro e he heq
  obtain ⟨i, hne, hi⟩ := List.mem_eraseIdx_iff_getElem?.mp he
  have hlt : i < (s.tasks.map (·.2.infoId)).length := by
    rw [List.length_map]
    exact (List.getElem?_eq_some_iff.mp hi).1
  refine hne ((List.getElem?_inj hlt h.single).mp ?_)
  rw [List.getElem?_map, List.getElem?_map, hi, hentry, Option.map_some, Option.map_some, heq]

theorem of_startTask {j : Nat} {users : List Int32} {calls : Nat}
    (hstart : s.startTask j users calls = some s') : RetryInv s' := by
  obtain ⟨entry, m, hentry, hinfos, rfl⟩ := startTask_spec hstart
  have hmem : entry ∈ s.tasks := List.mem_of_getElem? hentry
  have hsub : ∀ e ∈ s.tasks.eraseIdx j, e ∈ s.tasks := fun e he => List.mem_of_mem_eraseIdx he
  have hother := h.others_of_erased hentry
  constructor
  · exact h.single.sublist ((List.eraseIdx_sublist s.tasks j).map _)
  · intro e he ho
    rw [hinfos, Std.ExtTreeMap.mem_erase]
    refine ⟨?_, h.armed e (hsub e he) ho⟩
    intro hcmp
    exact hother e he (Std.compare_eq_iff_eq.mp hcmp).symm
  · intro e he ho r hr
    rcases List.mem_cons.mp hr with rfl | hr
    · exact (hother e he).symm
    · exact h.first e (hsub e he) ho r hr
  · exact fun e he => h.known e (hsub e he)
  · intro t ht
    rcases List.mem_cons.mp ht with rfl | ht
    · exact h.known entry hmem
    · exact h.ran t ht
  · exact fun e he => h.waiting e (hsub e he)
  · intro t ht
    rcases List.mem_cons.mp ht with rfl | ht
    · exact h.waiting entry hmem
    · exact h.numbered t ht
  · intro r hr
    rcases List.mem_cons.mp hr with rfl | hr
    · exact ⟨entry.2, List.mem_cons_self, rfl, rfl⟩
    · obtain ⟨t, ht, hid⟩ := h.left r hr
      exact ⟨t, List.mem_cons_of_mem _ ht, hid⟩
  · intro e he o ho
    obtain ⟨t, ht, hid⟩ := h.caused e (hsub e he) o ho
    exact ⟨t, List.mem_cons_of_mem _ ht, hid⟩
  · intro u hu o ho
    rcases List.mem_cons.mp hu with rfl | hu
    · obtain ⟨t, ht, hid⟩ := h.caused entry hmem o ho
      exact ⟨t, List.mem_cons_of_mem _ ht, hid⟩
    · obtain ⟨t, ht, hid⟩ := h.causedRun u hu o ho
      exact ⟨t, List.mem_cons_of_mem _ ht, hid⟩

theorem of_spent {i left : Nat} {r : Retryer} (hr : s.retryers[i]? = some r) :
    RetryInv { s with retryers := s.retryers.set i { r with left := left } } := by
  have hset : ∀ q ∈ s.retryers.set i { r with left := left },
      ∃ p ∈ s.retryers, q.infoId = p.infoId ∧ q.times = p.times := by
    intro q hq
    rcases List.mem_or_eq_of_mem_set hq with hq | rfl
    · exact ⟨q, hq, rfl, rfl⟩
    · exact ⟨r, List.mem_of_getElem? hr, rfl, rfl⟩
  refine { h with first := ?_, left := ?_ }
  · intro e he ho q hq
    obtain ⟨p, hp, hpid, -⟩ := hset q hq
    rw [hpid]
    exact h.first e he ho p hp
  · intro q hq
    obtain ⟨p, hp, hpid, hptimes⟩ := hset q hq
    rw [hpid, hptimes]
    exact h.left p hp

theorem of_scheduled {r : Retryer} {task : SyncTask} (hr : r ∈ s.retryers)
    (hlt : r.times < retryTimes) (hfree : r.infoId ∉ s.manager.activeInfos)
    (hinfos : ∀ k, k ∈ m.activeInfos ↔ r.infoId = k ∨ k ∈ s.manager.activeInfos)
    (htask : task = getSyncTask r.times true r.infoId r.user (some r.times)) :
    RetryInv { s with manager := m, tasks := s.tasks ++ handed s.manager.executor task } := by
  obtain ⟨t, ht, hid, htimes⟩ := h.left r hr
  have htid : task.infoId = r.infoId := by rw [htask, getSyncTask]
  have horigin : task.origin = some r.times := by rw [htask, getSyncTask]
  have hold : ∀ e ∈ s.tasks ++ handed s.manager.executor task, e ∈ s.tasks ∨ e.2 = task :=
    fun e he => (List.mem_append.mp he).imp_right mem_handed
  have hothers : ∀ e ∈ s.tasks, e.2.infoId ≠ task.infoId := by
    intro e he heq
    rw [htid] at heq
    by_cases ho : e.2.origin = none
    · exact h.first e he ho r hr heq.symm
    · exact hfree (heq ▸ h.armed e he ho)
  constructor
  · exact nodup_append_handed h.single hothers
  · intro e he ho
    rw [hinfos]
    rcases hold e he with he | he
    · exact .inr (h.armed e he ho)
    · exact .inl (by rw [he, htid])
  · intro e he ho q hq
    rcases hold e he with he | he
    · exact h.first e he ho q hq
    · rw [he, horigin] at ho
      cases ho
  · intro e he
    rcases hold e he with he | he
    · exact h.known e he
    · rw [he, htid, ← hid]
      exact h.ran t ht
  · exact h.ran
  · intro e he
    rcases hold e he with he | he
    · exact h.waiting e he
    · rw [he, htask]
      exact .retried r.infoId r.user (htimes ▸ (h.numbered t ht).pos) hlt
  · exact h.numbered
  · exact h.left
  · intro e he o ho
    rcases hold e he with he | he
    · exact h.caused e he o ho
    rw [he, horigin] at ho
    cases ho
    rw [he, htid]
    exact ⟨t, ht, hid, htimes⟩
  · exact h.causedRun

theorem of_callback {i : Nat} {code : GeneralError} {cloudAction : CloudErrorAction}
    (hcall : s.callback i code cloudAction = some s') : RetryInv s' := by
  obtain ⟨r, left, hr, -, rfl | ⟨hlt, hfree, m, hinfos, rfl⟩⟩ := callback_spec hcall
  · exact h.of_spent hr
  · exact (h.of_scheduled (List.mem_of_getElem? hr) hlt hfree hinfos rfl).of_spent hr

theorem step {a : RetryAction} (hfresh : FreshIds s a) (hstep : retryMachine.step s a = some s') :
    RetryInv s' := by
  cases a with
  | doCloudSync user =>
      cases hstep
      refine h.of_submit ?_ hfresh rfl ?_
      · unfold SyncManager.doCloudSync
        split <;> rfl
      · exact .first _ user le_rfl (.inl (by decide))
  | clientChange user autoRetry =>
      cases hstep
      refine h.of_submit ?_ hfresh rfl ?_
      · unfold SyncManager.clientChange
        split <;> rfl
      · exact .client autoRetry _ user
  | start j users calls => exact h.of_startTask hstep
  | callback i code cloudAction => exact h.of_callback hstep
  | stopCloudSync user =>
      cases hstep
      refine h.of_manager ?_
      unfold SyncManager.stopCloudSync
      split <;> rfl
  | releaseRef syncId =>
      cases hstep
      exact h.of_manager rfl

omit h

theorem start (genId : UInt32) (executor : Option ExecutorPool) :
    RetryInv (start genId executor) := by
  constructor
  · exact List.nodup_nil
  all_goals
    intro x hx
    cases hx

end RetryInv

/-! ## How often a request runs

A request is charged for the attempts it may still take: a waiting task for itself
and for everything its callbacks can schedule, a retryer for each call it has left.
No step raises the charge, and running an attempt moves one unit of it to the count
of executions.
-/

/-- Executions that `depth` further attempts can add up to when each execution runs
its retryer at most `calls` times. -/
def runBound (calls : Nat) : Nat → Nat
  | 0 => 1
  | depth + 1 => 1 + calls * runBound calls depth

theorem runBound_pos (calls depth : Nat) : 1 ≤ runBound calls depth := by
  cases depth with
  | zero => exact le_rfl
  | succ depth => exact Nat.le_add_right 1 _

theorem runBound_mono {d e : Nat} (h : d ≤ e) : runBound calls d ≤ runBound calls e := by
  induction e generalizing d with
  | zero => rw [Nat.le_zero.mp h]
  | succ e ih =>
      cases d with
      | zero => exact runBound_pos calls (e + 1)
      | succ d =>
          exact Nat.add_le_add_left (Nat.mul_le_mul_left calls (ih (Nat.le_of_succ_le_succ h))) 1

def taskCost (calls : Nat) (times : Int) : Nat :=
  runBound calls (retryTimes - times).toNat

def callCost (calls : Nat) (times : Int) : Nat :=
  if times < retryTimes then taskCost calls (times + 1) else 0

theorem taskCost_eq (calls : Nat) (times : Int) :
    taskCost calls times = 1 + calls * callCost calls times := by
  unfold callCost taskCost
  split
  · have hdepth : (retryTimes - times).toNat =
        (retryTimes - (times + 1)).toNat + 1 := by omega
    rw [hdepth, runBound]
  · have hdepth : (retryTimes - times).toNat = 0 := by omega
    rw [hdepth, runBound, Nat.mul_zero]

theorem taskCost_le (calls : Nat) (h : 1 ≤ times) :
    taskCost calls times ≤ runBound calls 5 := by
  refine runBound_mono ?_
  have hr : retryTimes = 6 := rfl
  omega

def taskCharge (calls : Nat) (infoId : UInt64) (e : TaskId × SyncTask) : Nat :=
  if e.2.infoId = infoId then taskCost calls e.2.times else 0

def callCharge (calls : Nat) (infoId : UInt64) (r : Retryer) : Nat :=
  if r.infoId = infoId then r.left * callCost calls r.times else 0

/-- What the request has run and what it may still run. -/
def RetryState.charge (calls : Nat) (infoId : UInt64) (s : RetryState) : Nat :=
  s.executions infoId + (s.tasks.map (taskCharge calls infoId)).sum +
    (s.retryers.map (callCharge calls infoId)).sum

theorem sum_append_handed (calls : Nat) (infoId : UInt64) (tasks : List (TaskId × SyncTask))
    (executor : Option ExecutorPool) (task : SyncTask) :
    ((tasks ++ handed executor task).map (taskCharge calls infoId)).sum ≤
      (tasks.map (taskCharge calls infoId)).sum +
        if task.infoId = infoId then taskCost calls task.times else 0 := by
  rw [List.map_append, List.sum_append]
  refine Nat.add_le_add_left ?_ _
  unfold handed
  split
  · exact Nat.zero_le _
  · rw [List.map_singleton, List.sum_singleton, taskCharge]

theorem RetryInv.charge_eq_zero (h : RetryInv s) (calls : Nat) {infoId : UInt64}
    (hnew : infoId ∉ s.used) : s.charge calls infoId = 0 := by
  have hran : s.executions infoId = 0 := by
    refine List.countP_eq_zero.mpr fun t ht => ?_
    rw [decide_eq_true_eq]
    exact fun heq => hnew (heq ▸ h.ran t ht)
  have htasks : (s.tasks.map (taskCharge calls infoId)).sum = 0 := by
    refine List.sum_eq_zero fun n hn => ?_
    obtain ⟨e, he, rfl⟩ := List.mem_map.mp hn
    refine if_neg fun heq => hnew ?_
    rw [← heq]
    exact h.known e he
  have hcalls : (s.retryers.map (callCharge calls infoId)).sum = 0 := by
    refine List.sum_eq_zero fun n hn => ?_
    obtain ⟨r, hr, rfl⟩ := List.mem_map.mp hn
    obtain ⟨t, ht, hid, -⟩ := h.left r hr
    refine if_neg fun heq => hnew ?_
    rw [← heq, ← hid]
    exact h.ran t ht
  rw [charge, hran, htasks, hcalls]

theorem charge_submit_le {m : SyncManager} (h : RetryInv s) (hfresh : task.infoId ∉ s.used)
    (hnum : task.Numbered) {infoId : UInt64} (hcharge : s.charge calls infoId ≤ runBound calls 5) :
    (s.submit m task).charge calls infoId ≤ runBound calls 5 := by
  have hsum := sum_append_handed calls infoId s.tasks s.manager.executor task
  by_cases hid : task.infoId = infoId
  · have hzero := h.charge_eq_zero calls (hid ▸ hfresh)
    have hcost := taskCost_le calls hnum.pos
    rw [if_pos hid] at hsum
    simp only [charge, submit, executions] at hzero ⊢
    omega
  · rw [if_neg hid] at hsum
    simp only [charge, submit, executions] at hcharge ⊢
    omega

theorem charge_startTask_le {j : Nat} {users : List Int32} (hcalls : calls ≤ bound)
    (hstart : s.startTask j users calls = some s') (infoId : UInt64) :
    s'.charge bound infoId ≤ s.charge bound infoId := by
  obtain ⟨entry, m, hentry, -, rfl⟩ := startTask_spec hstart
  have hsum := sum_advance (taskCharge bound infoId) none hentry
  simp only [advance, Option.elim_none, Nat.add_zero] at hsum
  simp only [charge, executions, List.countP_cons, List.map_cons,
    List.sum_cons, callCharge]
  have hcharge : taskCharge bound infoId entry =
      if entry.2.infoId = infoId then taskCost bound entry.2.times else 0 := rfl
  by_cases hid : entry.2.infoId = infoId
  · have hmul := Nat.mul_le_mul_right (callCost bound entry.2.times) hcalls
    rw [hcharge, if_pos hid, taskCost_eq] at hsum
    simp only [hid, decide_true, if_true]
    omega
  · simp only [hid, decide_false, Bool.false_eq_true, if_false]
    omega

theorem charge_callback_le {i : Nat} {code : GeneralError} {cloudAction : CloudErrorAction}
    (hcall : s.callback i code cloudAction = some s') (infoId : UInt64) :
    s'.charge bound infoId ≤ s.charge bound infoId := by
  obtain ⟨r, left, hr, hleft, hcases⟩ := callback_spec hcall
  have hsum := sum_advance (callCharge bound infoId) (some { r with left := left }) hr
  simp only [advance, Option.elim_some, callCharge, hleft, Nat.succ_mul] at hsum
  rcases hcases with rfl | ⟨hlt, -, m, -, rfl⟩
  · simp only [charge, executions]
    split at hsum <;> omega
  generalize htask : getSyncTask r.times true r.infoId r.user (some r.times) = task
  have hid : task.infoId = r.infoId := by rw [← htask, getSyncTask]
  have hcost : callCost bound r.times = taskCost bound task.times := by
    rw [← htask]
    exact if_pos hlt
  have hnew := sum_append_handed bound infoId s.tasks s.manager.executor task
  rw [hid] at hnew
  simp only [charge, executions]
  by_cases hreq : r.infoId = infoId
  · simp only [if_pos hreq] at hsum hnew
    omega
  · simp only [if_neg hreq] at hsum hnew
    omega

theorem charge_step {a : RetryAction} (h : RetryInv s) (hfresh : FreshIds s a)
    (hcalls : CallsWithin bound s a) (hcharge : ∀ infoId, s.charge bound infoId ≤ runBound bound 5)
    (hstep : retryMachine.step s a = some s') (infoId : UInt64) :
    s'.charge bound infoId ≤ runBound bound 5 := by
  cases a with
  | doCloudSync user =>
      cases hstep
      refine charge_submit_le h ?_ (.first _ user le_rfl (.inl (by decide))) (hcharge infoId)
      exact hfresh
  | clientChange user autoRetry =>
      cases hstep
      refine charge_submit_le h ?_ (.client autoRetry _ user) (hcharge infoId)
      exact hfresh
  | start j users calls => exact (charge_startTask_le hcalls hstep infoId).trans (hcharge infoId)
  | callback i code cloudAction => exact (charge_callback_le hstep infoId).trans (hcharge infoId)
  | stopCloudSync user =>
      cases hstep
      exact hcharge infoId
  | releaseRef syncId =>
      cases hstep
      exact hcharge infoId

/-- A guarded run under both conditions: the charge bounds the executions. -/
theorem executions_le {genId : UInt32} {schedule : List RetryAction}
    (hfresh : retryMachine.Guarded FreshIds (.start genId executor) schedule)
    (hcalls : retryMachine.Guarded (CallsWithin bound) (.start genId executor) schedule)
    (hrun : retryMachine.exec (.start genId executor) schedule = some s) (infoId : UInt64) :
    s.executions infoId ≤ runBound bound 5 := by
  have hstep : ∀ t a t', (RetryInv t ∧ ∀ k, t.charge bound k ≤ runBound bound 5) →
      FreshIds t a ∧ CallsWithin bound t a → retryMachine.step t a = some t' →
      RetryInv t' ∧ ∀ k, t'.charge bound k ≤ runBound bound 5 := by
    intro t a t' ht hg hta
    exact ⟨ht.1.step hg.1 hta, charge_step ht.1 hg.1 hg.2 ht.2 hta⟩
  have hinv := retryMachine.exec_guarded_invariant hstep
    ⟨RetryInv.start genId executor, fun _ => Nat.zero_le _⟩ (hfresh.and hcalls) hrun
  refine Nat.le_trans ?_ (hinv.2 infoId)
  rw [charge, Nat.add_assoc]
  exact Nat.le_add_right _ _

/-- In every run in which request ids are not reused, a request has at most one retry
waiting; every retry is numbered above the executed attempt that scheduled it; no
attempt is numbered above `RETRY_TIMES`, the single attempt of a client request without
auto retry apart; and a request whose executions run their retryers at most `bound`
times each is executed at most `runBound bound 5` times. -/
theorem retries_bounded (genId : UInt32) (executor : Option ExecutorPool)
    (schedule : List RetryAction) (s : RetryState)
    (hfresh : retryMachine.Guarded FreshIds (.start genId executor) schedule)
    (hrun : retryMachine.exec (.start genId executor) schedule = some s) :
    (∀ infoId, (s.waitingRetries infoId).length ≤ 1) ∧
    (∀ t, (t ∈ s.executed ∨ ∃ id, (id, t) ∈ s.tasks) →
      (∀ o, t.origin = some o →
        o < t.times ∧ ∃ u ∈ s.executed, u.infoId = t.infoId ∧ u.times = o) ∧
      (t.times ≤ retryTimes ∨
        t.origin = none ∧ t.retry = false ∧ t.times = retryTimes + 1)) ∧
    ∀ bound, retryMachine.Guarded (CallsWithin bound) (.start genId executor) schedule →
      ∀ infoId, s.executions infoId ≤ runBound bound 5 := by
  have hinv : RetryInv s :=
    retryMachine.exec_guarded_invariant (fun _ _ _ h hg hstep => h.step hg hstep)
      (RetryInv.start genId executor) hfresh hrun
  refine ⟨?_, ?_, ?_⟩
  · intro infoId
    have hcount := List.nodup_iff_count_le_one.mp hinv.single infoId
    rw [List.count_eq_countP, List.countP_map] at hcount
    refine Nat.le_trans ?_ hcount
    rw [waitingRetries, ← List.countP_eq_length_filter]
    refine List.countP_mono_left fun e _ he => ?_
    simp only [Bool.and_eq_true, decide_eq_true_eq] at he
    exact beq_iff_eq.mpr he.1.1
  · intro t ht
    rcases ht with ht | ⟨id, ht⟩
    · have hnum := hinv.numbered t ht
      exact ⟨fun o ho => ⟨hnum.above o ho, hinv.causedRun t ht o ho⟩, hnum.limit⟩
    · have hnum := hinv.waiting _ ht
      exact ⟨fun o ho => ⟨hnum.above o ho, hinv.caused _ ht o ho⟩, hnum.limit⟩
  · intro bound hcalls infoId
    exact executions_le hfresh hcalls hrun infoId

/-- Witness: a server request fails on two stores, one retry is scheduled, runs as the
second attempt and fails again. -/
theorem retries_bounded_two_failures :
    ∃ s, retryMachine.exec (.start 0 (some ⟨1, []⟩))
        [.doCloudSync 100, .start 0 [100] 2, .callback 0 .eNetworkError .actionDefault,
          .callback 0 .eNetworkError .actionDefault, .start 0 [100] 2,
          .callback 0 .eError .actionRetrySyncTask] = some s ∧
      s.executions (packId 100 1) = 2 ∧ (s.waitingRetries (packId 100 1)).length = 1 ∧
      ∀ infoId, s.executions infoId ≤ runBound 2 5 := by
  refine ⟨_, rfl, by decide +kernel, by decide +kernel, ?_⟩
  refine (retries_bounded 0 (some ⟨1, []⟩)
    [.doCloudSync 100, .start 0 [100] 2, .callback 0 .eNetworkError .actionDefault,
      .callback 0 .eNetworkError .actionDefault, .start 0 [100] 2,
      .callback 0 .eError .actionRetrySyncTask] _ ?_ rfl).2.2 2 ?_
  · refine retryMachine.guarded_cons List.not_mem_nil rfl ?_
    iterate 5 refine retryMachine.guarded_cons trivial rfl ?_
    trivial
  · refine retryMachine.guarded_cons trivial rfl ?_
    refine retryMachine.guarded_cons le_rfl rfl ?_
    iterate 2 refine retryMachine.guarded_cons trivial rfl ?_
    refine retryMachine.guarded_cons le_rfl rfl ?_
    refine retryMachine.guarded_cons trivial rfl ?_
    trivial

/-- A client change without auto retry runs as attempt `RETRY_TIMES + 1`. -/
theorem client_attempt_above_limit :
    ∃ s, retryMachine.exec (.start 0 (some ⟨1, []⟩))
        [.clientChange 100 false, .start 0 [100] 1] = some s ∧
      ∃ t ∈ s.executed, retryTimes < t.times :=
  ⟨_, rfl, _, List.mem_cons_self, by decide⟩

end DataMgr.Cloud
