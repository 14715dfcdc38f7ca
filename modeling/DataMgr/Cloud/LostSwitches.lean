import Mathlib.Data.List.Permutation
import DataMgr.Cloud.SwitchOrder

/-! # Lost switches

Whether the saved info is the one that the calls would have made one after another depends on
what a call has read still being there when it writes. `DisableCloud` and `ChangeAppSwitch`
take a lock; `EnableCloud` and `UpdateCloudInfo` do not.
-/

namespace DataMgr.Cloud

open DataMgr.Foundation

/-- The info that the calls make when each runs by itself. -/
def replay (server : CloudInfo) (initial : Option CloudInfo) (calls : List SettledCall) :
    Option CloudInfo :=
  calls.foldl (fun stored call => (finishAlone server call.call call.env stored .load).1) initial

def switches (stored : Option CloudInfo) : Option (Bool × List (String × Bool)) :=
  stored.map fun info =>
    (info.enableCloud, info.apps.map fun entry => (entry.1, entry.2.cloudSwitch))

/-- A call that has not been settled has the info still to read, or goes by what it has read. -/
theorem holds_of_leaving {job : SwitchJob} (hleaving : job.leaving = none)
    (hload : job.stage ≠ .load) : job.stage.holds = true := by
  unfold SwitchJob.leaving at hleaving
  split at hleaving
  · cases hleaving
  all_goals simp_all [SwitchStage.holds]

namespace SwitchService

variable {server : CloudInfo} {initial : Option CloudInfo} {s s' : SwitchService} {a : SwitchAction}

/-- When all calls have returned successfully, the switches are those of the calls one after
another, in an order that agrees with real time. -/
def NoLostSwitch (server : CloudInfo) (initial : Option CloudInfo) (s : SwitchService) : Prop :=
  s.jobs = [] → (∀ call ∈ s.returned, call.status = .success) →
    ∃ order : List SettledCall, order.Perm s.returned ∧
      (order.Pairwise fun earlier later => later.id ∉ earlier.before) ∧
        switches s.stored = switches (replay server initial order)

/-- No call saves while another goes by what it has read, none reads what another has fetched
from the server and not yet changed, and `UpdateCloudInfo` saves nothing. -/
def Undisturbed (s : SwitchService) : SwitchAction → Prop
  | .next i => ∀ job ∈ s.jobs[i]?,
      match job.stage with
      | .load => ∀ other ∈ s.jobs, other.stage.fetched = false
      | .fetch | .save _ _ => ∀ other ∈ s.jobs, other.id ≠ job.id → other.stage.holds = false
      | .compare _ _ | .leave _ => True
  | .updateNext i saves => s.updates[i]? = some .save → saves = false
  | .call _ _ | .updateCloudInfo => True

/-- What a call is still going to do is what it would do by itself after the settled calls. -/
structure Serial (server : CloudInfo) (initial : Option CloudInfo) (s : SwitchService) : Prop where
  stored : (∀ job ∈ s.jobs, job.stage.fetched = false) →
    s.stored = replay server initial s.settled
  holders : ∀ job ∈ s.jobs, job.stage.holds = true →
    finishAlone server job.call job.env s.stored job.stage =
      finishAlone server job.call job.env (replay server initial s.settled) .load
  alone : ∀ job ∈ s.jobs, ∀ other ∈ s.jobs, other.id ≠ job.id → job.stage.fetched = true →
    other.stage.holds = false

variable {i : Nat} {job other : SwitchJob}

theorem mem_advance_job (hordered : s.Ordered) (hjob : s.jobs[i]? = some job)
    {next : Option SwitchJob} (hmem : other ∈ advance s.jobs i next) :
    next = some other ∨ (other ∈ s.jobs ∧ other.id ≠ job.id) := by
  obtain ⟨before, after, hjobs, hadvance⟩ := exists_advance hjob
  have hids := (List.nodup_append.mp hordered.ids).2.1
  rw [hjobs, List.map_append, List.map_cons, List.nodup_middle, List.nodup_cons,
    ← List.map_append] at hids
  rw [hadvance, List.mem_append, List.mem_append, Option.mem_toList] at hmem
  have hrest : other ∈ before ++ after → other ∈ s.jobs ∧ other.id ≠ job.id := by
    intro hother
    refine ⟨?_, fun heq => hids.1 (heq ▸ List.mem_map_of_mem hother)⟩
    rw [hjobs]
    rcases List.mem_append.mp hother with hleft | hright
    · exact List.mem_append_left _ hleft
    · exact List.mem_append_right _ (List.mem_cons_of_mem _ hright)
  rcases hmem with hleft | hnew | hright
  · exact .inr (hrest (List.mem_append_left _ hleft))
  · exact .inl hnew
  · exact .inr (hrest (List.mem_append_right _ hright))

theorem mem_moved_job (hordered : s.Ordered) (hjob : s.jobs[i]? = some job) {job' : SwitchJob}
    (hmem : other ∈ advance s.jobs i (some job')) :
    other = job' ∨ (other ∈ s.jobs ∧ other.id ≠ job.id) :=
  (mem_advance_job hordered hjob hmem).imp_left fun h => (Option.some.inj h).symm

theorem eq_of_id (hordered : s.Ordered) (hother : other ∈ s.jobs) (hjob : job ∈ s.jobs)
    (hid : other.id = job.id) : other = job :=
  List.inj_on_of_nodup_map (List.nodup_append.mp hordered.ids).2.1 hother hjob hid

/-- While two calls go by what they have read, nobody has fetched. -/
theorem stored_of_holders (h : s.Serial server initial) (hjob : job ∈ s.jobs)
    (hother : other ∈ s.jobs) (hne : other.id ≠ job.id) (hholds : job.stage.holds = true)
    (hotherHolds : other.stage.holds = true) :
    s.stored = replay server initial s.settled := by
  refine h.stored fun third hthird => ?_
  by_contra hfetched
  rw [Bool.not_eq_false] at hfetched
  by_cases hid : job.id = third.id
  · have hquiet := h.alone third hthird other hother (hid ▸ hne) hfetched
    rw [hotherHolds] at hquiet
    cases hquiet
  · have hquiet := h.alone third hthird job hjob hid hfetched
    rw [hholds] at hquiet
    cases hquiet

structure QuietStep (server : CloudInfo) (initial : Option CloudInfo) (s : SwitchService)
    (job : SwitchJob) (next : Option CloudInfo × SwitchStage) : Prop where
  /-- What others go by is still there. -/
  others : ∀ other ∈ s.jobs, other.id ≠ job.id → other.stage.holds = true →
    next.1 = s.stored ∧ s.stored = replay server initial s.settled
  /-- Nobody else goes by anything once this call has fetched, nor this call once another has. -/
  fetched : next.2.fetched = true → ∀ other ∈ s.jobs, other.id ≠ job.id →
    other.stage.holds = false
  holds : ∀ other ∈ s.jobs, other.id ≠ job.id → other.stage.fetched = true →
    next.2.holds = false
  /-- A call that has only read has changed nothing. -/
  reads : next.2.holds = true → next.2.fetched = false →
    (∀ other ∈ s.jobs, other.id ≠ job.id → other.stage.fetched = false) →
      next.1 = replay server initial s.settled

theorem quietStep_load (h : s.Serial server initial)
    (hnone : ∀ other ∈ s.jobs, other.stage.fetched = false) :
    QuietStep server initial s job (switchStep server job.call job.env s.stored .load) := by
  have hstored := h.stored hnone
  have hkept : (switchStep server job.call job.env s.stored .load).1 = s.stored := by
    cases hinfo : s.stored <;> rfl
  have hfetched : (switchStep server job.call job.env s.stored .load).2.fetched = false := by
    cases s.stored with
    | none => rfl
    | some info =>
        simp only [switchStep]
        cases job.call.decide server job.env info <;> rfl
  refine ⟨fun _ _ _ _ => ⟨hkept, hstored⟩, ?_, ?_, fun _ _ _ => hkept.trans hstored⟩
  · intro hnot
    rw [hfetched] at hnot
    cases hnot
  · intro other hother _ hnot
    rw [hnone other hother] at hnot
    cases hnot

theorem quietStep_of_alone (h : s.Serial server initial) (hjob : job ∈ s.jobs)
    (hholds : job.stage.holds = true)
    (halone : ∀ other ∈ s.jobs, other.id ≠ job.id → other.stage.holds = false)
    {next : Option CloudInfo × SwitchStage} (hnext : next.2.holds = true → next.2.fetched = true) :
    QuietStep server initial s job next := by
  refine ⟨?_, fun _ => halone, ?_, ?_⟩
  · intro other hother hne hnot
    rw [halone other hother hne] at hnot
    cases hnot
  · intro other hother hne hfetched
    have hquiet := h.alone other hother job hjob (Ne.symm hne) hfetched
    rw [hholds] at hquiet
    cases hquiet
  · intro hgoes hnot
    rw [hnext hgoes] at hnot
    cases hnot

theorem quietStep_compare (hordered : s.Ordered) (h : s.Serial server initial) (hjob : job ∈ s.jobs)
    {info : CloudInfo} {fetched : Bool} (hstage : job.stage = .compare info fetched) :
    QuietStep server initial s job
      (switchStep server job.call job.env s.stored (.compare info fetched)) := by
  have hholds : job.stage.holds = true := by
    rw [hstage]
    rfl
  have hfetched : job.stage.fetched = fetched := by
    rw [hstage]
    rfl
  have hothers : ∀ other ∈ s.jobs, other.id ≠ job.id → other.stage.holds = true →
      s.stored = s.stored ∧ s.stored = replay server initial s.settled :=
    fun other hother hne hgoes => ⟨rfl, stored_of_holders h hjob hother hne hholds hgoes⟩
  have hnobody : ∀ other ∈ s.jobs, other.id ≠ job.id → other.stage.fetched = true → False := by
    intro other hother hne hotherFetched
    have hquiet := h.alone other hother job hjob (Ne.symm hne) hotherFetched
    rw [hholds] at hquiet
    cases hquiet
  rcases switchStep_compare server job.call job.env s.stored info fetched with heq | heq <;>
    rw [heq]
  · exact ⟨hothers, nofun, fun _ _ _ _ => rfl, nofun⟩
  · refine ⟨hothers, ?_, fun other hother hne hgone => (hnobody other hother hne hgone).elim, ?_⟩
    · intro hnext other hother hne
      exact h.alone job hjob other hother hne (hfetched.trans hnext)
    · intro _ hnot hquiet
      refine h.stored fun other hother => ?_
      by_cases hid : other.id = job.id
      · rw [eq_of_id hordered hother hjob hid, hfetched]
        exact hnot
      · exact hquiet other hother hid

theorem quietStep_of_undisturbed (hordered : s.Ordered) (h : s.Serial server initial)
    (hjob : s.jobs[i]? = some job) (hleaving : job.leaving = none)
    (hguard : s.Undisturbed (.next i)) :
    QuietStep server initial s job
      (switchStep server job.call job.env s.stored job.stage) := by
  have hguard := hguard job hjob
  have hmem := List.mem_of_getElem? hjob
  cases hstage : job.stage with
  | load =>
      rw [hstage] at hguard
      exact quietStep_load h hguard
  | fetch =>
      rw [hstage] at hguard
      refine quietStep_of_alone h hmem (by rw [hstage]; rfl) hguard ?_
      simp only [switchStep]
      split
      · exact id
      · split
        · exact id
        · cases job.call.decide server job.env server <;> exact id
  | compare info fetched => exact quietStep_compare hordered h hmem hstage
  | save info fetched =>
      rw [hstage] at hguard
      refine quietStep_of_alone h hmem (by rw [hstage]; rfl) hguard ?_
      simp only [switchStep]
      split <;> exact id
  | leave status =>
      rw [SwitchJob.leaving, hstage] at hleaving
      cases hleaving

/-- What a call in its course comes to is what it would come to after the settled calls. -/
theorem finishAlone_eq_replay (h : s.Serial server initial) (hjob : s.jobs[i]? = some job)
    (hleaving : job.leaving = none) (hguard : s.Undisturbed (.next i)) :
    finishAlone server job.call job.env s.stored job.stage =
      finishAlone server job.call job.env (replay server initial s.settled) .load := by
  by_cases hload : job.stage = .load
  · have hguard := hguard job hjob
    rw [hload] at hguard
    rw [hload, h.stored hguard]
  · exact h.holders job (List.mem_of_getElem? hjob) (holds_of_leaving hleaving hload)

variable (hordered : s.Ordered) (h : s.Serial server initial) (hjob : s.jobs[i]? = some job)

include hordered h hjob

theorem serial_goes {next : Option CloudInfo × SwitchStage}
    (hquiet : QuietStep server initial s job next)
    (hfinish : finishAlone server job.call job.env next.1 next.2 =
      finishAlone server job.call job.env (replay server initial s.settled) .load)
    (hholds : next.2.holds = true) :
    ({ s with
        stored := next.1
        jobs := advance s.jobs i (some { job with stage := next.2 }) } :
      SwitchService).Serial server initial where
  stored := by
    intro hnone
    have hself : next.2.fetched = false := hnone _ (mem_advance_self hjob)
    refine hquiet.reads hholds hself fun other hother hne => ?_
    have hstays : other ∈ advance s.jobs i (some { job with stage := next.2 }) :=
      mem_advance_of_ne hjob hother fun heq => hne (congrArg SwitchJob.id heq)
    exact hnone other hstays
  holders := by
    intro other hother hgoes
    rcases mem_moved_job hordered hjob hother with hself | ⟨hold, hne⟩
    · subst hself
      exact hfinish
    · rw [(hquiet.others other hold hne hgoes).1]
      exact h.holders other hold hgoes
  alone := by
    intro one hone other hother hne hfetched
    rcases mem_moved_job hordered hjob hone with hself | ⟨holdOne, hneOne⟩
    · subst hself
      rcases mem_moved_job hordered hjob hother with hself | ⟨hold, hneJob⟩
      · subst hself
        exact absurd rfl hne
      · exact hquiet.fetched hfetched other hold hneJob
    · rcases mem_moved_job hordered hjob hother with hself | ⟨hold, hneJob⟩
      · subst hself
        exact hquiet.holds one holdOne hneOne hfetched
      · exact h.alone one holdOne other hold hne hfetched

theorem serial_settles {stored : Option CloudInfo} {status : CloudStatus}
    (hquiet : QuietStep server initial s job (stored, .leave status))
    (hfinish : finishAlone server job.call job.env stored (.leave status) =
      finishAlone server job.call job.env (replay server initial s.settled) .load) :
    ({ s with
        stored
        jobs := advance s.jobs i (some { job with stage := .leave status })
        settled := s.settled ++ [job.settle status] } : SwitchService).Serial server initial := by
  have hstored : stored = replay server initial (s.settled ++ [job.settle status]) := by
    rw [replay, List.foldl_append]
    exact congrArg Prod.fst hfinish
  refine ⟨fun _ => hstored, ?_, ?_⟩
  · intro other hother hgoes
    rcases mem_moved_job hordered hjob hother with hself | ⟨hold, hne⟩
    · subst hself
      cases hgoes
    obtain ⟨hkept, hreplay⟩ := hquiet.others other hold hne hgoes
    have hkept : stored = s.stored := hkept
    have hsame : replay server initial (s.settled ++ [job.settle status]) =
        replay server initial s.settled := by
      rw [← hstored, hkept, hreplay]
    simp only [hsame, hkept]
    exact h.holders other hold hgoes
  · intro one hone other hother hne hfetched
    rcases mem_moved_job hordered hjob hone with hself | ⟨holdOne, hneOne⟩
    · subst hself
      cases hfetched
    rcases mem_moved_job hordered hjob hother with hself | ⟨hold, hneJob⟩
    · subst hself
      rfl
    · exact h.alone one holdOne other hold hne hfetched

theorem serial_steps (hleaving : job.leaving = none) (hguard : s.Undisturbed (.next i)) :
    (s.jobNext server i job).Serial server initial := by
  have hquiet := quietStep_of_undisturbed hordered h hjob hleaving hguard
  have hfinish := finishAlone_eq_replay h hjob hleaving hguard
  rw [← finishAlone_step] at hfinish
  have hrank := rank_switchStep server job.call job.env s.stored job.stage
  simp only [jobNext, hleaving]
  generalize switchStep server job.call job.env s.stored job.stage = next at hquiet hfinish hrank ⊢
  obtain ⟨stored, stage⟩ := next
  cases stage with
  | leave status => exact serial_settles hordered h hjob hquiet hfinish
  | fetch | compare _ _ | save _ _ =>
      simp only [SwitchJob.leaving, Option.toList_none, List.append_nil]
      exact serial_goes hordered h hjob hquiet hfinish rfl
  | load =>
      have hfour := job.stage.rank_le
      have hload : 4 ≤ job.stage.rank - 1 := hrank
      omega

theorem serial_returns {call : SettledCall} (hleaving : job.leaving = some call) :
    (s.jobNext server i job).Serial server initial := by
  have hstage : job.stage.fetched = false := by
    unfold SwitchJob.leaving at hleaving
    split at hleaving
    · rename_i hstage
      rw [hstage]
      rfl
    all_goals cases hleaving
  have hmem : ∀ {other}, other ∈ advance s.jobs i none → other ∈ s.jobs := by
    intro other hother
    rcases mem_advance_job hordered hjob hother with hself | ⟨hold, -⟩
    · cases hself
    · exact hold
  simp only [jobNext, hleaving]
  refine ⟨?_, ?_, ?_⟩
  · intro hnone
    refine h.stored fun other hother => ?_
    by_cases heq : other = job
    · rw [heq]
      exact hstage
    · have hstays : other ∈ advance s.jobs i none := mem_advance_of_ne hjob hother heq
      exact hnone other hstays
  · exact fun other hother => h.holders other (hmem hother)
  · exact fun one hone other hother => h.alone one (hmem hone) other (hmem hother)

omit hordered h hjob

theorem mem_called {call : SwitchCall} {env : SwitchEnv} {id : Nat} {before : List Nat}
    {jobs : List SwitchJob} (hjob : job ∈ jobs ++ [⟨id, call, env, before, .load⟩]) :
    job ∈ jobs ∨ job.stage = .load := by
  refine (List.mem_append.mp hjob).imp_right fun hnew => ?_
  rw [List.mem_singleton.mp hnew]

theorem serial_step (hordered : s.Ordered) (h : s.Serial server initial)
    (hguard : s.Undisturbed a) (hstep : s.step server a = some s') :
    s'.Serial server initial := by
  cases a with
  | call call env =>
      cases hstep
      refine ⟨fun hnone => h.stored fun job hjob => hnone job (List.mem_append_left _ hjob),
        ?_, ?_⟩
      · intro job hjob hholds
        rcases mem_called hjob with hold | hnew
        · exact h.holders job hold hholds
        · rw [hnew] at hholds
          cases hholds
      · intro job hjob other hother hne hfetched
        rcases mem_called hjob with hold | hnew
        · rcases mem_called hother with hotherOld | hotherNew
          · exact h.alone job hold other hotherOld hne hfetched
          · rw [hotherNew]
            rfl
        · rw [hnew] at hfetched
          cases hfetched
  | next i =>
      obtain ⟨job, hjob, -, rfl⟩ := step_next hstep
      cases hleaving : job.leaving with
      | some call => exact serial_returns hordered h hjob hleaving
      | none => exact serial_steps hordered h hjob hleaving hguard
  | updateCloudInfo =>
      cases hstep
      exact ⟨h.stored, h.holders, h.alone⟩
  | updateNext i saves =>
      obtain ⟨stored, updates, rfl, hsaves⟩ := step_updateNext hstep
      have hkept : stored = s.stored := by
        by_contra hne
        obtain ⟨hstage, rfl⟩ := hsaves hne
        cases hguard hstage
      subst hkept
      exact ⟨h.stored, h.holders, h.alone⟩

instance (s : SwitchService) (a : SwitchAction) : Decidable (s.Undisturbed a) :=
  match a with
  | .next i =>
      have (job : SwitchJob) : Decidable (match job.stage with
          | .load => ∀ other ∈ s.jobs, other.stage.fetched = false
          | .fetch | .save _ _ => ∀ other ∈ s.jobs, other.id ≠ job.id → other.stage.holds = false
          | .compare _ _ | .leave _ => True) :=
        match job.stage with
        | .load => inferInstanceAs (Decidable (∀ _ ∈ _, _))
        | .fetch | .save _ _ => inferInstanceAs (Decidable (∀ _ ∈ _, _))
        | .compare _ _ | .leave _ => isTrue trivial
      inferInstanceAs (Decidable (∀ job ∈ s.jobs[i]?, _))
  | .updateNext _ _ => inferInstanceAs (Decidable (_ → _))
  | .call _ _ | .updateCloudInfo => isTrue trivial

theorem ordered_serial_init (server : CloudInfo) (initial : Option CloudInfo) :
    ({ stored := initial } : SwitchService).Ordered ∧
      ({ stored := initial } : SwitchService).Serial server initial := by
  refine ⟨⟨List.nodup_nil, ?_, ?_, ?_, List.Pairwise.nil, List.Perm.refl _⟩, fun _ => rfl, ?_, ?_⟩
  all_goals intro x hmem; exact absurd hmem List.not_mem_nil

/-- The order in which the calls were settled is the one that is asked for. -/
theorem noLostSwitch_of_serial (hordered : s.Ordered) (hserial : s.Serial server initial) :
    s.NoLostSwitch server initial := by
  intro hjobs _
  have hall := hordered.all
  rw [hjobs, List.filterMap_nil, List.append_nil] at hall
  refine ⟨s.settled, hall, hordered.order, ?_⟩
  rw [hserial.stored fun job hjob => absurd (hjobs ▸ hjob) List.not_mem_nil]

/-- While nothing disturbs a call between its reading and its saving, no switch is lost. -/
theorem no_switch_lost (server : CloudInfo) (initial : Option CloudInfo)
    {actions : List SwitchAction} {s : SwitchService}
    (hrun : (switchMachine server).exec { stored := initial } actions = some s)
    (hguard : (switchMachine server).Guarded Undisturbed { stored := initial } actions) :
    s.NoLostSwitch server initial := by
  have hkeeps : ∀ (s : SwitchService) (a : SwitchAction) (s' : SwitchService),
      s.Ordered ∧ s.Serial server initial → s.Undisturbed a →
        (switchMachine server).step s a = some s' → s'.Ordered ∧ s'.Serial server initial := by
    rintro s a s' ⟨hordered, hserial⟩ hquiet hstep
    exact ⟨ordered_step hordered hstep, serial_step hordered hserial hquiet hstep⟩
  obtain ⟨hordered, hserial⟩ := (switchMachine server).exec_guarded_invariant hkeeps
    (ordered_serial_init server initial) hguard hrun
  exact noLostSwitch_of_serial hordered hserial

def noteInfo : CloudInfo :=
  { user := 100, id := "account", enableCloud := true,
    apps := [("notes", { bundleName := "notes", cloudSwitch := true })] }

/-- Both calls have begun when the first one reads. -/
def overlappingCalls : List SwitchAction :=
  [.call (.enableCloud "account" []) {}, .call (.changeAppSwitch "account" "notes" .off) {},
    .next 0, .next 0, .next 1, .next 1, .next 1, .next 0, .next 0]

theorem no_switch_lost_overlappingCalls :
    ∃ s, (switchMachine noteInfo).exec { stored := some noteInfo } overlappingCalls = some s ∧
      s.jobs = [] ∧ s.returned.map SettledCall.status = [.success, .success] ∧
        s.NoLostSwitch noteInfo (some noteInfo) := by
  have hrun : ((switchMachine noteInfo).exec { stored := some noteInfo } overlappingCalls).map
      (fun s => (s.jobs, s.returned.map SettledCall.status)) =
        some ([], [.success, .success]) := by
    decide +kernel
  obtain ⟨s, hs, hfields⟩ := Option.map_eq_some_iff.mp hrun
  obtain ⟨hjobs, hstatus⟩ := Prod.mk.inj hfields
  exact ⟨s, hs, hjobs, hstatus, no_switch_lost _ _ hs (by decide +kernel)⟩

/-- `EnableCloud` reads, the application is switched off, and `EnableCloud` saves what it has
read. -/
def switchedOffBetween : List SwitchAction :=
  [.call (.enableCloud "account" []) {}, .next 0,
    .call (.changeAppSwitch "account" "notes" .off) {}, .next 1, .next 1, .next 1, .next 1,
    .next 0, .next 0, .next 0]

def enabled : SettledCall :=
  ⟨0, .enableCloud "account" [], {}, [], .success⟩

def switchedOff : SettledCall :=
  ⟨1, .changeAppSwitch "account" "notes" .off, {}, [], .success⟩

/-- The application is switched on again, although nobody has asked for it. -/
theorem switch_off_lost :
    ∃ s, (switchMachine noteInfo).exec { stored := some noteInfo } switchedOffBetween = some s ∧
      s.jobs = [] ∧ s.returned.map SettledCall.status = [.success, .success] ∧
        ¬ s.NoLostSwitch noteInfo (some noteInfo) := by
  have hrun : ((switchMachine noteInfo).exec { stored := some noteInfo } switchedOffBetween).map
      (fun s => (s.jobs, s.returned)) = some ([], [switchedOff, enabled]) := by
    decide +kernel
  have hswitches : ((switchMachine noteInfo).exec { stored := some noteInfo }
      switchedOffBetween).map (fun s => switches s.stored) =
        some (some (true, [("notes", true)])) := by
    decide +kernel
  obtain ⟨s, hs, hfields⟩ := Option.map_eq_some_iff.mp hrun
  obtain ⟨hjobs, hreturned⟩ := Prod.mk.inj hfields
  rw [hs] at hswitches
  have hstored : switches s.stored = some (true, [("notes", true)]) := Option.some.inj hswitches
  refine ⟨s, hs, hjobs, by rw [hreturned]; rfl, fun h => ?_⟩
  obtain ⟨order, hperm, -, hsame⟩ := h hjobs (by rw [hreturned]; decide)
  rw [hreturned, List.perm_pair] at hperm
  have hoff : switches (replay noteInfo (some noteInfo) order) =
      some (true, [("notes", false)]) := by
    rcases hperm with rfl | rfl <;> decide +kernel
  rw [hstored, hoff] at hsame
  cases hsame

end SwitchService

end DataMgr.Cloud
