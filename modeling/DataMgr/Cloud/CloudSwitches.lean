import DataMgr.Cloud.CloudInfo
import DataMgr.Foundation.Machine

/-! # Switching the cloud on and off

`EnableCloud`, `DisableCloud` and `ChangeAppSwitch` each read the whole cloud info of the user,
change a part of it and write the whole back. Two of them do so under a lock, `EnableCloud`
does not. Every read and every write of the metadata is one step. What the calls did is kept in
the order in which they were settled, each with the calls that had returned when it began.
-/

namespace DataMgr.Cloud

open DataMgr.Foundation

inductive CloudStatus where
  | success
  | error
  | invalidArgument
  /-- Network errors and what the server answers. -/
  | other (code : Int)
deriving DecidableEq, Repr

inductive AppSwitch where
  | off
  | on
  | invalid (code : Int)
deriving DecidableEq, Repr

inductive SwitchCall where
  | enableCloud (id : String) (switches : List (String × AppSwitch))
  | disableCloud (id : String)
  | changeAppSwitch (id bundleName : String) (appSwitch : AppSwitch)
deriving DecidableEq, Repr

/-- The call runs under `rwMetaMutex_`. -/
def SwitchCall.locks : SwitchCall → Bool
  | .enableCloud _ _ => false
  | .disableCloud _ | .changeAppSwitch _ _ _ => true

/-- What a call finds: whether the user is verified, what asking the server comes to, and
whether the metadata can be saved. -/
structure SwitchEnv where
  verified : Bool := true
  server : CloudStatus := .success
  saves : Bool := true
deriving DecidableEq, Repr

/-- `apps[bundleName].cloudSwitch = on`, for an application that is there. -/
def CloudInfo.setSwitch (info : CloudInfo) (bundleName : String) (on : Bool) : CloudInfo :=
  { info with apps := info.apps.map fun entry =>
      if entry.1 = bundleName then (entry.1, { entry.2 with cloudSwitch := on }) else entry }

/-- What a call makes of the info it has read: it returns, or it has an info to be saved. -/
inductive SwitchDecision where
  | returns (status : CloudStatus)
  | writes (info : CloudInfo)
deriving DecidableEq, Repr

section

variable (server : CloudInfo)

/-- The server's info counts only if it has an id. -/
def getCloudInfoFromServer (env : SwitchEnv) : CloudStatus :=
  if env.server ≠ .success then env.server
  else if server.id = "" then .error
  else .success

def SwitchCall.decide (env : SwitchEnv) (info : CloudInfo) : SwitchCall → SwitchDecision
  | .enableCloud id switches =>
      .writes (switches.foldl (fun cloudInfo entry =>
        if cloudInfo.exist entry.1 then cloudInfo.setSwitch entry.1 (entry.2 = .on) else cloudInfo)
        { info with enableCloud := true, id })
  | .disableCloud id =>
      if info.id ≠ id then .returns .invalidArgument
      else .writes { info with enableCloud := false }
  | .changeAppSwitch id bundleName appSwitch =>
      -- a disabled cloud is no error
      if info.enableCloud = false then .returns .success
      else if info.id ≠ id then .returns .invalidArgument
      else if info.exist bundleName then .writes (info.setSwitch bundleName (appSwitch = .on))
      else if getCloudInfoFromServer server env ≠ .success ∨ server.enableCloud = false ∨
          server.id ≠ id ∨ server.exist bundleName = false then
        .returns .invalidArgument
      else .writes (server.setSwitch bundleName (appSwitch = .on))

/-- Where a call stands. `fetched` says that it found no info and has saved the server's. -/
inductive SwitchStage where
  | load
  | fetch
  | compare (info : CloudInfo) (fetched : Bool)
  | save (info : CloudInfo) (fetched : Bool)
  | leave (status : CloudStatus)
deriving DecidableEq, Repr

/-- The call goes by an info that it has read and not written back. -/
def SwitchStage.holds : SwitchStage → Bool
  | .fetch | .compare _ _ | .save _ _ => true
  | .load | .leave _ => false

def SwitchStage.fetched : SwitchStage → Bool
  | .compare _ fetched | .save _ fetched => fetched
  | .load | .fetch | .leave _ => false

/-- `rwMetaMutex_` is taken before the info is read and held to the end. -/
def SwitchStage.inside : SwitchStage → Bool
  | .load => false
  | _ => true

def SwitchDecision.stage (fetched : Bool) : SwitchDecision → SwitchStage
  | .returns status => .leave status
  | .writes info => .compare info fetched

def switchStep (call : SwitchCall) (env : SwitchEnv) (stored : Option CloudInfo) :
    SwitchStage → Option CloudInfo × SwitchStage
  | .load =>
      match stored with
      | some info => (stored, (call.decide server env info).stage false)
      | none => (stored, .fetch)
  | .fetch =>
      if env.verified = false then (stored, .leave .error)
      else if getCloudInfoFromServer server env ≠ .success then
        (stored, .leave (getCloudInfoFromServer server env))
      else
        (if env.saves then some server else stored, (call.decide server env server).stage true)
  | .compare info fetched =>
      match stored with
      | some oldInfo =>
          if oldInfo.same info then (stored, .leave .success) else (stored, .save info fetched)
      | none => (stored, .save info fetched)
  | .save info _ =>
      if env.saves then (some info, .leave .success) else (stored, .leave .error)
  | .leave status => (stored, .leave status)

/-- A call from a stage on, with nothing in between; four steps are enough. -/
def finishAlone (call : SwitchCall) (env : SwitchEnv) (stored : Option CloudInfo)
    (stage : SwitchStage) : Option CloudInfo × SwitchStage :=
  (fun p => switchStep server call env p.1 p.2)^[4] (stored, stage)

end

def SwitchStage.rank : SwitchStage → Nat
  | .load => 4
  | .fetch => 3
  | .compare _ _ => 2
  | .save _ _ => 1
  | .leave _ => 0

theorem SwitchStage.rank_le (stage : SwitchStage) : stage.rank ≤ 4 := by
  cases stage <;> simp [SwitchStage.rank]

theorem rank_stage_le (decision : SwitchDecision) (fetched : Bool) :
    (decision.stage fetched).rank ≤ 2 := by
  cases decision <;> simp [SwitchDecision.stage, SwitchStage.rank]

section

variable (server : CloudInfo) (call : SwitchCall) (env : SwitchEnv)

variable (stored : Option CloudInfo)

theorem rank_switchStep (stage : SwitchStage) :
    (switchStep server call env stored stage).2.rank ≤ stage.rank - 1 := by
  cases stage with
  | load =>
      cases stored with
      | none => exact Nat.le_refl _
      | some info => exact (rank_stage_le _ _).trans (by decide)
  | fetch =>
      simp only [switchStep]
      split
      · exact Nat.zero_le _
      · split
        · exact Nat.zero_le _
        · exact rank_stage_le _ _
  | compare info fetched =>
      cases stored with
      | none => exact Nat.le_refl _
      | some oldInfo =>
          simp only [switchStep]
          split
          · exact Nat.zero_le _
          · exact Nat.le_refl _
  | save info fetched =>
      simp only [switchStep]
      split <;> exact Nat.le_refl _
  | leave status => exact Nat.le_refl _

theorem switchStep_of_rank_eq_zero {stored : Option CloudInfo} {stage : SwitchStage}
    (h : stage.rank = 0) : switchStep server call env stored stage = (stored, stage) := by
  cases stage with
  | leave status => rfl
  | load | fetch | compare _ _ | save _ _ => cases h

theorem rank_iterate (n : Nat) (p : Option CloudInfo × SwitchStage) :
    ((fun p => switchStep server call env p.1 p.2)^[n] p).2.rank ≤ p.2.rank - n := by
  induction n generalizing p with
  | zero => exact Nat.le_refl _
  | succ n ih =>
      rw [Function.iterate_succ_apply]
      have hstep := rank_switchStep server call env p.1 p.2
      have hrest := ih (switchStep server call env p.1 p.2)
      omega

/-- A step more at the front changes nothing: the call is over after four. -/
theorem finishAlone_step (stage : SwitchStage) :
    finishAlone server call env (switchStep server call env stored stage).1
        (switchStep server call env stored stage).2 =
      finishAlone server call env stored stage := by
  have hrank : (finishAlone server call env stored stage).2.rank = 0 := by
    have hle := rank_iterate server call env 4 (stored, stage)
    have hfour := stage.rank_le
    unfold finishAlone
    simp only at hle
    omega
  have hover : switchStep server call env (finishAlone server call env stored stage).1
      (finishAlone server call env stored stage).2 = finishAlone server call env stored stage :=
    switchStep_of_rank_eq_zero server call env hrank
  unfold finishAlone at hover ⊢
  rw [← Function.iterate_succ_apply (fun p => switchStep server call env p.1 p.2) 4 (stored, stage),
    Function.iterate_succ_apply', hover]

theorem switchStep_compare (info : CloudInfo) (fetched : Bool) :
    switchStep server call env stored (.compare info fetched) = (stored, .leave .success) ∨
      switchStep server call env stored (.compare info fetched) =
        (stored, .save info fetched) := by
  cases stored with
  | none => exact .inr rfl
  | some oldInfo =>
      simp only [switchStep]
      split
      · exact .inl rfl
      · exact .inr rfl

end

structure SwitchJob where
  id : Nat
  call : SwitchCall
  env : SwitchEnv
  /-- The calls that had returned when this one began. -/
  before : List Nat
  stage : SwitchStage
deriving DecidableEq, Repr

structure SettledCall where
  id : Nat
  call : SwitchCall
  env : SwitchEnv
  before : List Nat
  status : CloudStatus
deriving DecidableEq, Repr

inductive UpdateStage where
  | load
  | save
deriving DecidableEq, Repr

structure SwitchService where
  stored : Option CloudInfo := none
  jobs : List SwitchJob := []
  /-- Runs of `UpdateCloudInfo`, in the background. -/
  updates : List UpdateStage := []
  next : Nat := 0
  settled : List SettledCall := []
  returned : List SettledCall := []
deriving DecidableEq, Repr

inductive SwitchAction where
  | call (call : SwitchCall) (env : SwitchEnv)
  | next (i : Nat)
  | updateCloudInfo
  | updateNext (i : Nat) (saves : Bool)
deriving DecidableEq, Repr

variable (server : CloudInfo) (s : SwitchService) (job : SwitchJob)

def SwitchJob.settle (status : CloudStatus) : SettledCall :=
  ⟨job.id, job.call, job.env, job.before, status⟩

/-- The call has been settled and has not returned. -/
def SwitchJob.leaving : Option SettledCall :=
  match job.stage with
  | .leave status => some (job.settle status)
  | .load | .fetch | .compare _ _ | .save _ _ => none

namespace SwitchService

/-- A call returns, or it makes its next step; it is settled by the step with which it leaves the
metadata. -/
def jobNext (i : Nat) (job : SwitchJob) : SwitchService :=
  match job.leaving with
  | some call =>
      { s with
        jobs := advance s.jobs i none
        returned := s.returned ++ [call] }
  | none =>
      let next := switchStep server job.call job.env s.stored job.stage
      let job' := { job with stage := next.2 }
      { s with
        stored := next.1
        jobs := advance s.jobs i (some job')
        settled := s.settled ++ job'.leaving.toList }

/-- The lock is free for a call that needs it and has not got it. -/
def admits : Bool :=
  job.call.locks = false || job.stage.inside ||
    s.jobs.all fun other => !(other.call.locks && other.stage.inside)

def step : SwitchAction → Option SwitchService
  | .call call env =>
      some { s with
        jobs := s.jobs ++ [⟨s.next, call, env, s.returned.map SettledCall.id, .load⟩]
        next := s.next + 1 }
  | .next i =>
      (s.jobs[i]?).bind fun job => if s.admits job then some (s.jobNext server i job) else none
  | .updateCloudInfo => some { s with updates := s.updates ++ [.load] }
  | .updateNext i saves =>
      (s.updates[i]?).map fun
        | .load =>
            if s.stored.any fun oldInfo => server.same oldInfo then
              { s with updates := advance s.updates i none }
            else { s with updates := advance s.updates i (some .save) }
        | .save =>
            { s with
              stored := if saves then some server else s.stored
              updates := advance s.updates i none }

end SwitchService

def switchMachine : Machine SwitchService SwitchAction :=
  ⟨SwitchService.step server⟩

end DataMgr.Cloud
