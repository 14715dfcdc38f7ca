import DataMgr.Utils.Constant

/-! # The task chain of the cloud service

`GenTask` makes a task of a list of works. A run of the task does the first work for the users
it is for and submits a task for the rest, at once or, when the work has not finished, after a
while with the work again. What a run finds can differ from run to run, so a chain is taken over
a sequence of environments, one for each run.
-/

namespace DataMgr.Cloud

open DataMgr.Utils (atoi)

inductive Handle where
  | updateCloudInfo
  | updateSchema
  | doSubscribe
  | releaseUserInfo
  | doCloudSync
  | stopCloudSync
deriving DecidableEq, Repr

/-- What a run finds. `queryUsers` is the answer of the account with the users it lists, and
`answer` what a work returns for a user. -/
structure RunEnv where
  executor : Bool := true
  network : Bool := true
  queryUsers : Bool × List Int := (true, [])
  verified : Int → Bool := fun _ => true
  answer : Handle → Int → Bool := fun _ _ => true

variable (env : RunEnv)

def Handle.finishes (user : Int) : Handle → Bool
  | .stopCloudSync | .releaseUserInfo => true
  | .updateCloudInfo => env.answer .updateCloudInfo user
  | .updateSchema => env.answer .updateSchema user
  | .doSubscribe => env.answer .doSubscribe user
  | .doCloudSync => env.answer .doCloudSync user

structure ServiceTask where
  retry : Nat
  user : Int
  works : List Handle
deriving DecidableEq, Repr

/-- How a run of a task ends: with nothing more, with the rest of the works, or with the same
works after `RETRY_INTERVAL`. -/
inductive NextTask where
  | over
  | execute (task : ServiceTask)
  | schedule (task : ServiceTask)
deriving DecidableEq, Repr

variable (task : ServiceTask) (runs : List (List (Handle × Int) × NextTask))

def chainRetryTimes : Nat := 3

/-- The loop over the users: whether all has finished, and the users the work was done for. -/
def callWork (env : RunEnv) (handle : Handle) : Bool → List Int → Bool × List Int
  | finished, [] => (finished, [])
  | finished, user :: users =>
      if user = 0 ∨ env.verified user = false then callWork env handle finished users
      else
        let rest := callWork env handle (handle.finishes env user && finished) users
        (rest.1, user :: rest.2)

/-- The users of a task: user 0 stands for all of them. -/
def ServiceTask.users : Bool × List Int :=
  if task.user = 0 then env.queryUsers else (true, [task.user])

/-- One run of the task that `GenTask` makes: the works it does, each with its user, and what it
submits. -/
def genTask : List (Handle × Int) × NextTask :=
  match task.works with
  | [] => ([], .over)
  | handle :: rest =>
      if task.retry ≥ chainRetryTimes ∨ env.executor = false then ([], .over)
      else if env.network = false then ([], .over)
      else
        let found := task.users env
        let called := callWork env handle found.1 found.2
        let calls := called.2.map fun user => (handle, user)
        if called.1 = false ∨ found.2 = [] then
          (calls, .schedule { task with retry := task.retry + 1 })
        else if rest = [] then (calls, .over)
        else (calls, .execute { task with works := rest })

/-- The runs of a chain, each with what it did; `envs` is what they find. -/
def chainRuns (envs : Nat → RunEnv) : Nat → ServiceTask → List (List (Handle × Int) × NextTask)
  | 0, _ => []
  | fuel + 1, task =>
      let run := genTask (envs 0) task
      run :: match run.2 with
        | .over => []
        | .execute next | .schedule next => chainRuns (fun i => envs (i + 1)) fuel next

def ServiceTask.runsLeft : Nat :=
  task.works.length + (chainRetryTimes - task.retry) + 1

def runChain (envs : Nat → RunEnv) (task : ServiceTask) : List (List (Handle × Int) × NextTask) :=
  chainRuns envs task.runsLeft task

def worksDone : List (Handle × Int) :=
  runs.flatMap Prod.fst

def reschedules : Nat :=
  runs.countP fun run => match run.2 with
    | .schedule _ => true
    | .over | .execute _ => false

/-- `AccountStatus`, the events the cloud service knows. -/
inductive AccountStatus where
  | harmonyAccountLogin
  | harmonyAccountLogout
  | harmonyAccountDelete
  | deviceAccountDelete
  | deviceAccountSwitched
  | deviceAccountUnlocked
  | deviceAccountStopping
  | deviceAccountStopped
deriving DecidableEq, Repr

def AccountStatus.endsUser : AccountStatus → Bool
  | .deviceAccountDelete | .deviceAccountStopping | .deviceAccountStopped => true
  | .harmonyAccountLogin | .harmonyAccountLogout | .harmonyAccountDelete
  | .deviceAccountSwitched | .deviceAccountUnlocked => false

/-- The task that `OnUserChange` submits; without an executor none is. -/
def onUserChange (executor : Bool) (code : AccountStatus) (user : String) : Option ServiceTask :=
  let works := match code with
    | .deviceAccountSwitched | .deviceAccountUnlocked =>
        [.updateCloudInfo, .updateSchema, .doCloudSync, .doSubscribe]
    | .deviceAccountDelete | .deviceAccountStopping | .deviceAccountStopped =>
        [Handle.stopCloudSync, .releaseUserInfo]
    | .harmonyAccountLogin | .harmonyAccountLogout | .harmonyAccountDelete => []
  if works = [] ∨ executor = false then none else some ⟨0, atoi user, works⟩

open ServiceTask

/-- What a run submits leaves fewer runs, and only a rescheduled one counts as a retry. -/
theorem genTask_next :
    (genTask env task).2 = .over ∨
      (∃ next, (genTask env task).2 = .execute next ∧ next.runsLeft + 1 = task.runsLeft ∧
        next.retry = task.retry) ∨
      ∃ next, (genTask env task).2 = .schedule next ∧ next.runsLeft + 1 = task.runsLeft ∧
        task.retry < chainRetryTimes ∧ next.retry = task.retry + 1 := by
  unfold genTask
  split
  · exact .inl rfl
  rename_i handle rest hworks
  split
  · exact .inl rfl
  split
  · exact .inl rfl
  simp only
  split
  · refine .inr (.inr ⟨_, rfl, ?_, ?_, rfl⟩)
    · simp only [runsLeft]
      omega
    · omega
  · split
    · exact .inl rfl
    · refine .inr (.inl ⟨_, rfl, ?_, rfl⟩)
      simp only [runsLeft, hworks, List.length_cons]
      omega

variable {task : ServiceTask} {user : Int}

variable (envs : Nat → RunEnv)

theorem chainRuns_of_le {fuel : Nat} (h : task.runsLeft ≤ fuel) :
    chainRuns envs fuel task = runChain envs task := by
  unfold runChain
  induction fuel generalizing envs task with
  | zero => simp [runsLeft] at h
  | succ fuel ih =>
      have hleft : task.runsLeft = (task.runsLeft - 1) + 1 := by
        simp [runsLeft]
      rw [hleft]
      simp only [chainRuns]
      rcases genTask_next (envs 0) task with hover | ⟨next, hnext, hless, -⟩ |
        ⟨next, hnext, hless, -⟩
      · rw [hover]
      all_goals
        rw [hnext]
        simp only
        rw [ih _ (by omega), ← hless, Nat.add_sub_cancel]

theorem runChain_eq (task : ServiceTask) :
    runChain envs task = genTask (envs 0) task :: match (genTask (envs 0) task).2 with
      | .over => []
      | .execute next | .schedule next => runChain (fun i => envs (i + 1)) next := by
  conv_lhs => rw [runChain, runsLeft, chainRuns]
  rcases genTask_next (envs 0) task with hover | ⟨next, hnext, hless, -⟩ |
    ⟨next, hnext, hless, -⟩
  · rw [hover]
  all_goals
    rw [hnext]
    simp only
    rw [chainRuns_of_le]
    simp only [runsLeft] at hless ⊢
    omega

theorem reschedules_chainRuns_le (fuel : Nat) (task : ServiceTask) :
    reschedules (chainRuns envs fuel task) ≤ chainRetryTimes - task.retry := by
  induction fuel generalizing envs task with
  | zero => exact Nat.zero_le _
  | succ fuel ih =>
      simp only [chainRuns, reschedules, List.countP_cons]
      rcases genTask_next (envs 0) task with hover | ⟨next, hnext, -, hretry⟩ |
        ⟨next, hnext, -, hlt, hretry⟩
      · simp [hover]
      · have hrest := ih (fun i => envs (i + 1)) next
        simp only [reschedules] at hrest
        simp only [hnext]
        rw [hretry] at hrest
        simpa using hrest
      · have hrest := ih (fun i => envs (i + 1)) next
        simp only [reschedules] at hrest
        simp only [hnext]
        simp only [if_true]
        omega

/-- The works that end a user's syncs and release the user's info were done, in that order. -/
def TornDown (user : Int) : Prop :=
  [(.stopCloudSync, user), (.releaseUserInfo, user)].Sublist (worksDone runs)

instance (runs : List (List (Handle × Int) × NextTask)) (user : Int) :
    Decidable (TornDown runs user) :=
  inferInstanceAs (Decidable (List.Sublist _ _))

def RunEnv.Reaches (user : Int) : Prop :=
  env.executor = true ∧ env.network = true ∧ env.verified user = true

instance (env : RunEnv) (user : Int) : Decidable (env.Reaches user) :=
  inferInstanceAs (Decidable (_ ∧ _))

theorem ne_zero_of_mem_callWork {env : RunEnv} {handle : Handle} {finished : Bool}
    {users : List Int} (h : user ∈ (callWork env handle finished users).2) :
    user ≠ 0 := by
  induction users generalizing finished with
  | nil => cases h
  | cons first rest ih =>
      rw [callWork] at h
      split at h
      · exact ih h
      rename_i hreached
      rcases List.mem_cons.mp h with rfl | hrest
      · exact fun hzero => hreached (.inl hzero)
      · exact ih hrest

theorem ne_zero_of_mem_genTask {env : RunEnv} {call : Handle × Int}
    (h : call ∈ (genTask env task).1) : call.2 ≠ 0 := by
  unfold genTask at h
  split at h
  · cases h
  rename_i handle rest hworks
  split at h
  · cases h
  split at h
  · cases h
  simp only at h
  have hcalled : call ∈ (callWork env handle (task.users env).1 (task.users env).2).2.map
      fun user => (handle, user) := by
    split at h
    · exact h
    · split at h <;> exact h
  obtain ⟨user, huser, rfl⟩ := List.mem_map.mp hcalled
  exact ne_zero_of_mem_callWork huser

theorem ne_zero_of_mem_worksDone {envs : Nat → RunEnv} {fuel : Nat} {call : Handle × Int}
    (h : call ∈ worksDone (chainRuns envs fuel task)) : call.2 ≠ 0 := by
  induction fuel generalizing envs task with
  | zero => cases h
  | succ fuel ih =>
      rcases List.mem_append.mp h with hfirst | hrest
      · exact ne_zero_of_mem_genTask hfirst
      split at hrest
      · cases hrest
      · exact ih hrest
      · exact ih hrest

/-- A work that always finishes, for one user: it is done if the user is verified, and the next
one follows if there is a network. -/
theorem genTask_of_finishes (env : RunEnv) (huser : user ≠ 0) {handle : Handle}
    (hfinishes : handle.finishes env user = true) (rest : List Handle) :
    genTask env ⟨0, user, handle :: rest⟩ =
      if env.executor = true ∧ env.network = true then
        (if env.verified user = true then [(handle, user)] else [],
          if rest = [] then .over else .execute ⟨0, user, rest⟩)
      else ([], .over) := by
  cases hexecutor : env.executor with
  | false => simp [genTask, hexecutor]
  | true =>
      cases hnetwork : env.network with
      | false => simp [genTask, hnetwork]
      | true =>
          cases hverified : env.verified user with
          | false =>
              by_cases hrest : rest = [] <;>
                simp [genTask, hexecutor, hnetwork, hverified, chainRetryTimes, callWork,
                  users, huser, hrest]
          | true =>
              by_cases hrest : rest = [] <;>
                simp [genTask, hexecutor, hnetwork, hverified, hfinishes, chainRetryTimes,
                  callWork, users, huser, hrest]

theorem worksDone_teardown (huser : user ≠ 0) :
    worksDone (runChain envs ⟨0, user, [.stopCloudSync, .releaseUserInfo]⟩) =
      if (envs 0).executor = true ∧ (envs 0).network = true then
        (if (envs 0).verified user = true then [(.stopCloudSync, user)] else []) ++
          if (envs 1).Reaches user then [(.releaseUserInfo, user)] else []
      else [] := by
  rw [runChain_eq, genTask_of_finishes _ huser rfl]
  split
  · simp only [List.cons_ne_nil, if_false]
    rw [runChain_eq, genTask_of_finishes _ huser rfl]
    by_cases hruns : (envs 1).executor = true ∧ (envs 1).network = true
    · simp [worksDone, RunEnv.Reaches, hruns]
    · have hreaches : ¬ (envs 1).Reaches user := fun h => hruns ⟨h.1, h.2.1⟩
      simp [worksDone, hruns, hreaches]
  · rfl

/-- A user is torn down exactly if both runs of the chain have a network and find the user
verified. Whatever the works, a chain is rescheduled at most `RETRY_TIMES` times. -/
theorem user_torn_down_iff (executor : Bool) (code : AccountStatus) (hcode : code.endsUser = true)
    (user : String) (envs : Nat → RunEnv) :
    (TornDown ((onUserChange executor code user).elim [] (runChain envs)) (atoi user) ↔
      executor = true ∧ atoi user ≠ 0 ∧ (envs 0).Reaches (atoi user) ∧
        (envs 1).Reaches (atoi user)) ∧
    ∀ (user : Int) (works : List Handle) (envs : Nat → RunEnv),
      reschedules (runChain envs ⟨0, user, works⟩) ≤ chainRetryTimes := by
  refine ⟨?_, fun user works envs => reschedules_chainRuns_le envs _ _⟩
  have hsubmits : onUserChange executor code user =
      if executor = false then none
      else some ⟨0, atoi user, [.stopCloudSync, .releaseUserInfo]⟩ := by
    cases code <;> simp_all [onUserChange, AccountStatus.endsUser]
  cases executor with
  | false => simp [hsubmits, TornDown, worksDone]
  | true =>
      rw [hsubmits]
      simp only [Bool.true_eq_false, if_false, Option.elim_some, true_and]
      by_cases hzero : atoi user = 0
      · simp only [hzero, ne_eq, not_true, false_and, iff_false]
        intro htorn
        have hmem := htorn.subset (List.mem_cons_self)
        exact ne_zero_of_mem_worksDone hmem rfl
      · unfold TornDown
        rw [worksDone_teardown envs hzero]
        by_cases hruns : (envs 0).executor = true ∧ (envs 0).network = true
        · have hfirst : (envs 0).Reaches (atoi user) ↔ (envs 0).verified (atoi user) = true := by
            simp [RunEnv.Reaches, hruns]
          rw [if_pos hruns, hfirst]
          by_cases hverified : (envs 0).verified (atoi user) = true <;>
            by_cases hsecond : (envs 1).Reaches (atoi user) <;>
              simp [hverified, hsecond, hzero]
        · have hfirst : ¬ (envs 0).Reaches (atoi user) := fun h => hruns ⟨h.1, h.2.1⟩
          simp [hruns, hfirst]

/-- Every run finds the network and a verified user. -/
theorem user_torn_down_online :
    TornDown ((onUserChange true .deviceAccountStopping "100").elim [] (runChain fun _ => {}))
      100 := by
  have hcondition : atoi "100" ≠ 0 ∧ ({} : RunEnv).Reaches (atoi "100") ∧
      ({} : RunEnv).Reaches (atoi "100") := by
    decide +kernel
  have huser : atoi "100" = 100 := by decide +kernel
  have htorn := (user_torn_down_iff true .deviceAccountStopping rfl "100" fun _ => {}).1.mpr
    ⟨rfl, hcondition⟩
  rw [huser] at htorn
  exact htorn

/-- The user has stopped and is not verified any more, or there is no network. -/
theorem user_not_torn_down :
    ¬ TornDown ((onUserChange true .deviceAccountStopped "100").elim []
        (runChain fun _ => { verified := fun _ => false })) 100 ∧
    ¬ TornDown ((onUserChange true .deviceAccountDelete "100").elim []
        (runChain fun _ => { network := false })) 100 := by
  constructor <;> decide +kernel

end DataMgr.Cloud
