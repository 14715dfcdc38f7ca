import DataMgr.Cloud.SyncBookkeeping

/-! # Every record is ended

A record that is still there has something that will end it under its own key: an
operation or a queued event of a task in progress, or the callback of a store. The
keys agree because a task that was not redirected forms all of them from one user,
and nothing is lost on the way where the queue is worked off to its end.
-/

namespace DataMgr.Cloud

open DataMgr.Foundation DataMgr.Store BookState

def SyncEvent.OwnedBy (event : SyncEvent) (syncId : UInt64) : Prop :=
  event.storeInfo.syncId = syncId ∧ event.user = event.storeInfo.user

def Running.Carries (e : Running) (event : SyncEvent) : Prop :=
  .post event ∈ e.ops ∨ .sync event ∈ e.queue

def Running.Owned (e : Running) : Prop := ∀ event, e.Carries event → event.OwnedBy e.syncId

/-- The loop over the queue does not stop before the queue is empty. -/
def Running.Drains (e : Running) : Prop :=
  e.starts = [] → e.ops = [] → e.queue ≠ [] → e.drained < maxCapability

/-- Something the task still does ends the record under `key`, or hands it to a store. -/
def Running.Covers (env : CloudEnv) (e : Running) (key : QueryKey) : Prop :=
  (∃ code, .finish key code ∈ e.ops) ∨ ∃ event, e.Carries event ∧ event.storeKey env = key

variable {env : CloudEnv} {event : SyncEvent} {info : SyncInfo} {answers : TaskAnswers}
  {key : QueryKey} {retry : Bool}

open SyncEvent

theorem callbackKey_of_needSave (huser : event.user = event.storeInfo.user)
    (h : needSaveSyncInfo env (event.storeKey env) = true) :
    event.callbackKey env = some (event.storeKey env) := by
  unfold callbackKey
  split
  · rfl
  · simp only [needSaveSyncInfo, Bool.and_eq_true, decide_eq_true_eq] at h
    rw [if_neg (show env.accountId _ ≠ "" from h.1), huser]
    rfl

theorem mem_getCloudSyncInfo {user : Int32} (h : key ∈ getCloudSyncInfo env user info answers) :
    key.user = user ∧ key.accountId = env.accountId user ∧ key.bundleName = info.bundleName := by
  unfold getCloudSyncInfo at h
  split at h
  · obtain ⟨storeId, -, rfl⟩ := List.mem_map.mp h
    exact ⟨rfl, rfl, rfl⟩
  · cases h

/-- Every outcome of the checks of a database ends it under the key of the cloud's user,
or posts an event, whose key is that of the user left in the request. -/
theorem postDatabase_covers (env : CloudEnv) (cloudUser : Int32) (info : SyncInfo) (retry : Bool)
    (bundleName : String) (database : DatabaseRead) (huser : key.user = cloudUser)
    (haccount : key.accountId = env.accountId cloudUser) (hbundle : key.bundleName = bundleName)
    (hstore : key.storeId = database.name) :
    (∃ code, postDatabase env cloudUser info retry bundleName database = .finish key code) ∨
      ∃ event, postDatabase env cloudUser info retry bundleName database = .post event ∧
        (info.user = cloudUser → event.storeKey env = key) := by
  obtain rfl : key = ⟨cloudUser, env.accountId cloudUser, bundleName, database.name⟩ := by
    cases key
    simp_all
  unfold postDatabase
  split_ifs
  · exact .inl ⟨_, rfl⟩
  · exact .inl ⟨_, rfl⟩
  · exact .inl ⟨_, rfl⟩
  · refine .inr ⟨_, rfl, fun hsame => ?_⟩
    simp only [storeKey, hsame]

theorem getPostEventTask_owned {cloudUser : Int32} {schemas : List SchemaRead}
    (h : .post event ∈ getPostEventTask env cloudUser info retry answers schemas) :
    event.OwnedBy info.syncId := by
  obtain ⟨schema, -, hop⟩ := List.mem_flatMap.mp h
  split at hop
  · obtain ⟨database, -, hdb⟩ := List.mem_map.mp hop
    unfold postDatabase at hdb
    split_ifs at hdb
    cases hdb
    exact ⟨rfl, rfl⟩
  · cases List.mem_singleton.mp hop

theorem runSyncTask_owned (env : CloudEnv) (now : Int) (info : SyncInfo) (retry : Bool)
    (answers : TaskAnswers) : (runSyncTask env now info retry answers).Owned := by
  intro event hevent
  rcases hevent with hop | hqueue
  · simp only [runSyncTask] at hop
    split at hop
    · cases hop
    split at hop
    · obtain ⟨key, -, hkey⟩ := List.mem_map.mp hop
      cases hkey
    split at hop
    · obtain ⟨key, -, hkey⟩ := List.mem_map.mp hop
      cases hkey
    · have howned := getPostEventTask_owned hop
      exact howned
  · cases hqueue

theorem isOn_of_isValid (h : isValid info answers = .eOk) (hbundle : info.bundleName ≠ "") :
    answers.isOn info.bundleName = true := by
  unfold isValid at h
  split_ifs at h with hloaded hoff
  simp only [Bool.or_eq_true, Bool.and_eq_true, decide_eq_true_eq, Bool.not_eq_true',
    not_or, not_and, Bool.not_eq_false] at hoff
  exact hoff.2 hbundle

theorem runSyncTask_ops (now : Int) (retry : Bool)
    (hkeys : getCloudSyncInfo env (initDefaultUser answers.users info.user).1 info answers ≠ [])
    (hvalid : isValid info answers = .eOk) (hschemas : visitedSchemas info answers ≠ []) :
    ∃ left : SyncInfo,
      ((initDefaultUser answers.users info.user).1 = info.user →
        left.user = (initDefaultUser answers.users info.user).1) ∧
      (runSyncTask env now info retry answers).ops =
        getPostEventTask env (initDefaultUser answers.users info.user).1 left retry answers
          (visitedSchemas info answers) := by
  refine ⟨{ info with user := if (initDefaultUser answers.users info.user).2 then 0
    else (initDefaultUser answers.users info.user).1 }, ?_, ?_⟩
  · intro hsame
    rw [hsame]
    by_cases hzero : info.user = 0
    · simp [initDefaultUser, hzero]
    · simp [initDefaultUser, hzero]
  · simp only [runSyncTask, List.isEmpty_iff, hkeys, hvalid, hschemas, ne_eq, not_true, if_false]

theorem runSyncTask_ends_all (now : Int) (retry : Bool)
    (hstop : isValid info answers ≠ .eOk ∨ visitedSchemas info answers = [])
    (hmem : key ∈ getCloudSyncInfo env (initDefaultUser answers.users info.user).1 info answers) :
    ∃ code, .finish key code ∈ (runSyncTask env now info retry answers).ops := by
  have hkeys := List.ne_nil_of_mem hmem
  by_cases hvalid : isValid info answers = .eOk
  · have hschemas := hstop.resolve_left (not_not.mpr hvalid)
    refine ⟨.eCloudDisabled, ?_⟩
    simp only [runSyncTask, List.isEmpty_iff, hkeys, hvalid, hschemas, ne_eq, not_true, if_false,
      if_true]
    exact List.mem_map_of_mem hmem
  · refine ⟨isValid info answers, ?_⟩
    simp only [runSyncTask, List.isEmpty_iff, hkeys, hvalid, ne_eq, not_false_eq_true, if_false,
      if_true]
    exact List.mem_map_of_mem hmem

/-- A task that posts nothing for another user and visits what it recorded ends every
record it makes. -/
theorem runSyncTask_covers {now : Int}
    (huser : (initDefaultUser answers.users info.user).1 = info.user ∨
      ∀ event, .post event ∉ (runSyncTask env now info retry answers).ops)
    (hvisits : isValid info answers = .eOk → visitedSchemas info answers ≠ [] →
      VisitsRecorded env info answers)
    (hkey : key ∈ (runSyncTask env now info retry answers).starts) :
    needSaveSyncInfo env key = true ∧ (runSyncTask env now info retry answers).Covers env key := by
  obtain ⟨hmem, hsave⟩ := List.mem_filter.mp hkey
  refine ⟨hsave, ?_⟩
  by_cases hstop : isValid info answers ≠ .eOk ∨ visitedSchemas info answers = []
  · exact .inl (runSyncTask_ends_all now retry hstop hmem)
  obtain ⟨hvalid, hschemas⟩ := not_or.mp hstop
  rw [not_not] at hvalid
  obtain ⟨hbundle, schema, hschema, hname, database, hdb, hstore⟩ :=
    hvisits hvalid hschemas key hmem hsave
  obtain ⟨hkuser, hkaccount, hkbundle⟩ := mem_getCloudSyncInfo hmem
  obtain ⟨left, hleft, hops⟩ :=
    runSyncTask_ops now retry (List.ne_nil_of_mem hmem) hvalid hschemas
  have hop : postDatabase env (initDefaultUser answers.users info.user).1 left retry
      schema.bundleName database ∈ (runSyncTask env now info retry answers).ops := by
    rw [hops]
    refine List.mem_flatMap.mpr ⟨schema, hschema, ?_⟩
    rw [hname, if_pos (isOn_of_isValid hvalid hbundle)]
    exact List.mem_map_of_mem hdb
  rcases postDatabase_covers env (initDefaultUser answers.users info.user).1 left retry
    schema.bundleName database hkuser hkaccount (hkbundle.trans hname.symm) hstore.symm with
    ⟨code, hcode⟩ | ⟨event, hpost, hevent⟩
  · exact .inl ⟨code, hcode ▸ hop⟩
  · rw [hpost] at hop
    rcases huser with hsame | hnone
    · exact .inr ⟨event, .inl hop, hevent (hleft hsame)⟩
    · exact absurd hop (hnone event)

open Running

section

variable {env : CloudEnv} {infos : LastSyncInfos} {e : Running}

theorem ended_syncId (key : QueryKey) (syncId : UInt64) (e : Running) :
    (ended env infos key syncId e).syncId = e.syncId := by
  unfold ended
  split <;> rfl

theorem ended_starts (key : QueryKey) (syncId : UInt64) (e : Running) :
    (ended env infos key syncId e).starts = e.starts := by
  unfold ended
  split <;> rfl

theorem ended_ops (key : QueryKey) (syncId : UInt64) (e : Running) :
    (ended env infos key syncId e).ops = e.ops := by
  unfold ended
  split <;> rfl

variable {key : QueryKey} {next : Effect × Option Running × List SyncEvent} {r : Running}

theorem ended_carries {syncId : UInt64} {e : Running} {event : SyncEvent} :
    (ended env infos key syncId e).Carries event ↔ e.Carries event := by
  unfold Running.Carries ended
  split
  · simp
  · rfl

theorem ended_covers {key' : QueryKey} {syncId : UInt64} {e : Running} :
    (ended env infos key syncId e).Covers env key' ↔ e.Covers env key' := by
  simp only [Running.Covers, ended_carries, ended_ops]

structure NextSpec (env : CloudEnv) (e : Running)
    (next : Effect × Option Running × List SyncEvent) : Prop where
  /-- The rest is the same request's, and carries nothing new. -/
  rest : ∀ r, next.2.1 = some r → r.syncId = e.syncId ∧ ∀ event, r.Carries event → e.Carries event
  left : ∀ event ∈ next.2.2, e.Carries event
  /-- What the task covered is still covered, or ended by this very step. -/
  covers : e.Owned → e.Drains → ∀ key, e.Covers env key →
    (∃ r, next.2.1 = some r ∧ r.Covers env key) ∨
      (∃ event ∈ next.2.2, event.storeKey env = key) ∨ ∃ code, next.1 = .finish key e.syncId code
  /-- While records are left to make, the task makes the next one. -/
  starting : ∀ key starts, e.starts = key :: starts →
    next = (.start key e.syncId e.startTime (key ∈ e.started),
      some { e with starts := starts, started := key :: e.started }, [])
  /-- Then it makes none, and ends records of its own request only. -/
  started : e.starts = [] → (∀ r, next.2.1 = some r → r.starts = []) ∧
    (e.Owned → next.1 = .nothing ∨ ∃ key code, next.1 = .finish key e.syncId code)

theorem spec_start {starts : List QueryKey} (hstarts : e.starts = key :: starts) :
    NextSpec env e (.start key e.syncId e.startTime (key ∈ e.started),
      some { e with starts := starts, started := key :: e.started }, []) := by
  constructor
  · intro r hr
    cases hr
    exact ⟨rfl, fun event hevent => hevent⟩
  · intro event hevent
    cases hevent
  · intro _ _ key' hcovers
    exact .inl ⟨_, rfl, hcovers⟩
  · intro key' starts' hstarts'
    cases hstarts.symm.trans hstarts'
    rfl
  · intro hnone
    cases hstarts.symm.trans hnone

variable (hstarts : e.starts = [])

include hstarts

theorem not_starting (key : QueryKey) (starts : List QueryKey) (h : e.starts = key :: starts) :
    next = (.start key e.syncId e.startTime (key ∈ e.started),
      some { e with starts := starts, started := key :: e.started }, []) := by
  cases hstarts.symm.trans h

theorem spec_finish {code : GeneralError} {ops : List SyncOp}
    (hops : e.ops = .finish key code :: ops) :
    NextSpec env e (.finish key e.syncId code,
      some (ended env infos key e.syncId { e with ops := ops }), []) := by
  refine ⟨?_, ?_, ?_, not_starting hstarts, fun _ => ⟨?_, fun _ => .inr ⟨key, code, rfl⟩⟩⟩
  · intro r hr
    cases hr
    rw [ended_syncId]
    refine ⟨rfl, fun event hevent => ?_⟩
    rw [ended_carries] at hevent
    refine hevent.imp_left fun hmem => ?_
    rw [hops]
    exact List.mem_cons_of_mem _ hmem
  · intro event hevent
    cases hevent
  · intro _ _ key' hcovers
    by_cases hkey : key' = key
    · exact .inr (.inr ⟨code, by rw [hkey]⟩)
    · refine .inl ⟨_, rfl, ended_covers.mpr ?_⟩
      simpa [Running.Covers, Running.Carries, hops, hkey] using hcovers
  · intro r hr
    cases hr
    rw [ended_starts]
    exact hstarts

theorem spec_post {event : SyncEvent} {ops : List SyncOp} (hops : e.ops = .post event :: ops) :
    NextSpec env e
      (.nothing, some { e with ops := ops, queue := e.queue ++ [.sync event] }, []) := by
  have hcarries : ∀ other, Running.Carries { e with ops := ops, queue := e.queue ++ [.sync event] }
      other ↔ e.Carries other := by
    simp only [Running.Carries, hops, List.mem_append, List.mem_cons, List.not_mem_nil, or_false,
      SyncOp.post.injEq, QueuedEvent.sync.injEq]
    tauto
  refine ⟨?_, ?_, ?_, not_starting hstarts, fun _ => ⟨?_, fun _ => .inl rfl⟩⟩
  · intro r hr
    cases hr
    exact ⟨rfl, fun other => (hcarries other).mp⟩
  · intro other hother
    cases hother
  · intro _ _ key hcovers
    refine .inl ⟨_, rfl, ?_⟩
    rcases hcovers with ⟨code, hcode⟩ | ⟨other, hother, hkey⟩
    · refine .inl ⟨code, ?_⟩
      simpa [hops] using hcode
    · exact .inr ⟨other, (hcarries other).mpr hother, hkey⟩
  · intro r hr
    cases hr
    exact hstarts

theorem spec_retire (hops : e.ops = []) (hqueue : e.queue = [] ∨ maxCapability ≤ e.drained) :
    NextSpec env e (.nothing, none, []) := by
  refine ⟨nofun, nofun, ?_, not_starting hstarts, fun _ => ⟨nofun, fun _ => .inl rfl⟩⟩
  · intro _ hdrains key hcovers
    have hempty : e.queue = [] := by
      by_contra hne
      have hlt := hdrains hstarts hops hne
      rcases hqueue with hqueue | hfull
      · exact hne hqueue
      · exact absurd hlt (Nat.not_lt.mpr hfull)
    simp [Running.Covers, Running.Carries, hops, hempty] at hcovers

theorem spec_drain {head : QueuedEvent} {queue : List QueuedEvent} (hops : e.ops = [])
    (hqueue : e.queue = head :: queue) {effect : Effect} {left : List SyncEvent}
    (hid : r.syncId = e.syncId) (hrstarts : r.starts = [])
    (hcarries : ∀ event, r.Carries event ↔ .sync event ∈ queue)
    (hleft : ∀ event ∈ left, head = .sync event)
    (heffect : effect = .nothing ∨ ∃ event code, head = .sync event ∧
      effect = .finish (event.storeKey env) event.storeInfo.syncId code)
    (hhead : ∀ event, head = .sync event → event ∈ left ∨
      ∃ code, effect = .finish (event.storeKey env) event.storeInfo.syncId code) :
    NextSpec env e (effect, some r, left) := by
  have hcarried : ∀ event, head = .sync event → e.Carries event := by
    intro event heq
    refine .inr ?_
    rw [hqueue, heq]
    exact List.mem_cons_self
  refine ⟨?_, ?_, ?_, not_starting hstarts, fun _ => ⟨?_, ?_⟩⟩
  · intro r' hr
    cases hr
    refine ⟨hid, fun event hevent => .inr ?_⟩
    rw [hqueue]
    exact List.mem_cons_of_mem _ ((hcarries event).mp hevent)
  · intro event hevent
    exact hcarried event (hleft event hevent)
  · intro howned _ key hcovers
    rcases hcovers with ⟨code, hcode⟩ | ⟨event, hevent, hkey⟩
    · rw [hops] at hcode
      cases hcode
    rcases hevent with hop | hmem
    · rw [hops] at hop
      cases hop
    rw [hqueue] at hmem
    rcases List.mem_cons.mp hmem with heq | hmem
    · rcases hhead event heq.symm with hin | ⟨code, hcode⟩
      · exact .inr (.inl ⟨event, hin, hkey⟩)
      · refine .inr (.inr ⟨code, ?_⟩)
        rw [hcode, hkey, (howned event (hcarried event heq.symm)).1]
    · exact .inl ⟨r, rfl, .inr ⟨event, (hcarries event).mpr hmem, hkey⟩⟩
  · intro r' hr
    cases hr
    exact hrstarts
  · intro howned
    rcases heffect with hnothing | ⟨event, code, hevent, hfinish⟩
    · exact .inl hnothing
    · rw [(howned event (hcarried event hevent)).1] at hfinish
      exact .inr ⟨_, code, hfinish⟩

omit hstarts

theorem next_spec (env : CloudEnv) (infos : LastSyncInfos) (answers : StoreAnswers)
    (e : Running) : NextSpec env e (e.next env infos answers) := by
  unfold next
  split
  · rename_i hstarts
    exact spec_start hstarts
  · rename_i hstarts hops
    exact spec_finish hstarts hops
  · rename_i hstarts hops
    exact spec_post hstarts hops
  · rename_i hstarts hops hqueue
    exact spec_retire hstarts hops (.inl hqueue)
  rename_i head queue hstarts hops hqueue
  split
  · rename_i hfull
    exact spec_retire hstarts hops (.inr hfull)
  have hrest : ∀ event, Running.Carries { e with queue := queue, drained := e.drained + 1 }
      event ↔ .sync event ∈ queue := by
    simp [Running.Carries, hops]
  cases head with
  | cloudSyncFinished =>
      refine spec_drain hstarts hops hqueue rfl hstarts hrest ?_ (.inl rfl) ?_
      · intro event hevent
        cases hevent
      · intro event hevent
        cases hevent
  | sync event =>
      cases hcode : getSyncHandler answers with
      | none =>
          refine spec_drain hstarts hops hqueue rfl hstarts hrest ?_ (.inl rfl) ?_
          · intro other hother
            rw [List.mem_singleton.mp hother]
          · intro other hother
            cases hother
            exact .inl List.mem_cons_self
      | some code =>
          refine spec_drain hstarts hops hqueue ?_ ?_ ?_ ?_ (.inr ⟨event, code, rfl, rfl⟩) ?_
          · exact ended_syncId _ _ _
          · exact (ended_starts _ _ _).trans hstarts
          · exact fun other => ended_carries.trans (hrest other)
          · intro other hother
            cases hother
          · intro other hother
            cases hother
            exact .inr ⟨code, rfl⟩

variable (h : NextSpec env e next)

include h

/-- A task with records left to make has just made one. -/
theorem NextSpec.busy (hr : next.2.1 = some r) (hstarts : r.starts ≠ []) :
    ∃ key, e.starts = key :: r.starts ∧
      r = { e with starts := r.starts, started := key :: e.started } ∧
      next = (.start key e.syncId e.startTime (key ∈ e.started), some r, []) := by
  cases hold : e.starts with
  | nil => exact absurd ((h.started hold).1 r hr) hstarts
  | cons key starts =>
      have hnext := h.starting key starts hold
      rw [hnext] at hr
      cases hr
      exact ⟨key, rfl, rfl, hnext⟩

theorem NextSpec.starts (howned : e.Owned) {syncId : UInt64} {time : Int} {again : Bool}
    (hstart : next.1 = .start key syncId time again) :
    syncId = e.syncId ∧ key ∈ e.starts ∧ (again = true ↔ key ∈ e.started) := by
  cases hold : e.starts with
  | nil =>
      rcases (h.started hold).2 howned with hnothing | ⟨_, _, hfinish⟩
      · cases hnothing.symm.trans hstart
      · cases hfinish.symm.trans hstart
  | cons key' starts =>
      rw [h.starting key' starts hold] at hstart
      cases hstart
      exact ⟨rfl, List.mem_cons_self, decide_eq_true_iff⟩

theorem NextSpec.finishes (howned : e.Owned) {syncId : UInt64} {code : GeneralError}
    (hfinish : next.1 = .finish key syncId code) : syncId = e.syncId := by
  cases hold : e.starts with
  | nil =>
      rcases (h.started hold).2 howned with hnothing | ⟨_, _, hown⟩
      · cases hnothing.symm.trans hfinish
      · cases hown.symm.trans hfinish
        rfl
  | cons key' starts =>
      rw [h.starting key' starts hold] at hfinish
      cases hfinish

/-- What a task covers and does not end now is covered by the rest of it or by the
callback it leaves. -/
theorem NextSpec.hands_on {running : List Running} {i : Nat} (hi : running[i]? = some e)
    (howned : e.Owned) (hdrains : e.Drains) (hcovers : e.Covers env key)
    (hkeep : ∀ code, next.1 ≠ .finish key e.syncId code) :
    (∃ f ∈ advance running i next.2.1, f.syncId = e.syncId ∧ f.Covers env key) ∨
      ∃ event ∈ next.2.2, event.storeInfo.syncId = e.syncId ∧ event.storeKey env = key := by
  rcases h.covers howned hdrains key hcovers with ⟨r, hr, hrest⟩ | ⟨event, hevent, hkey⟩ |
    ⟨code, hfinish⟩
  · refine .inl ⟨r, ?_, (h.rest r hr).1, hrest⟩
    rw [hr]
    exact mem_advance_self hi
  · exact .inr ⟨event, hevent, (howned event (h.left event hevent)).1, hkey⟩
  · exact absurd hfinish (hkeep code)

end

theorem BookState.resume_spec {s s' : BookState} {i : Nat} {answers : StoreAnswers}
    (h : s.resume env i answers = some s') :
    ∃ e next, s.running[i]? = some e ∧ NextSpec env e next ∧
      s.effect env (.resume i answers) = next.1 ∧
      s' = { s.apply env next.1 with
        running := advance s.running i next.2.1
        callbacks := s.callbacks ++ next.2.2 } := by
  unfold resume at h
  split at h
  · cases h
  rename_i e hi
  cases h
  refine ⟨e, _, hi, next_spec env s.infos answers e, ?_, rfl⟩
  simp [effect, hi]

section

variable {env : CloudEnv} {s : BookState}

variable {key : QueryKey} {syncId : UInt64}

theorem apply_infos_ne_none {effect : Effect} (h : (s.apply env effect).infos key syncId ≠ none) :
    s.infos key syncId ≠ none ∨ ∃ time again, effect = .start key syncId time again := by
  cases effect with
  | nothing => exact .inl h
  | start key' syncId' time again =>
      by_cases heq : key = key' ∧ syncId = syncId'
      · obtain ⟨rfl, rfl⟩ := heq
        exact .inr ⟨time, again, rfl⟩
      · refine .inl ?_
        simpa only [apply, updateStartSyncInfo, if_neg heq] using h
  | finish key' syncId' code =>
      refine .inl fun hnone => h ?_
      simp [apply, updateFinishSyncInfo, hnone]

theorem apply_finish_infos (code : GeneralError) (syncId : UInt64)
    (hsave : needSaveSyncInfo env key = true) :
    (s.apply env (.finish key syncId code)).infos key syncId = none := by
  simp [apply, updateFinishSyncInfo, hsave]

theorem apply_start_infos (env : CloudEnv) (key : QueryKey) (syncId : UInt64) (time : Int)
    (again : Bool) :
    (s.apply env (.start key syncId time again)).infos key syncId ≠ none := by
  simp [apply, updateStartSyncInfo]

theorem apply_start_infos_other {key' : QueryKey} {syncId' : UInt64} (time : Int) (again : Bool)
    (h : ¬ (key' = key ∧ syncId' = syncId)) :
    (s.apply env (.start key syncId time again)).infos key' syncId' = s.infos key' syncId' := by
  simp [apply, updateStartSyncInfo, h]

theorem apply_finish_infos_other {key' : QueryKey} {syncId' : UInt64} (code : GeneralError)
    (hexpire : ∀ other info, other ≠ syncId → s.infos key other = some info →
      s.now - info.startTime < expirationTime) (h : ¬ (key' = key ∧ syncId' = syncId)) :
    (s.apply env (.finish key syncId code)).infos key' syncId' = s.infos key' syncId' := by
  simp only [apply, updateFinishSyncInfo]
  split
  · rename_i hkey
    obtain ⟨-, rfl⟩ := hkey
    have hid : syncId' ≠ syncId := fun hid => h ⟨rfl, hid⟩
    rw [if_neg hid]
    cases hinfo : s.infos key' syncId' with
    | none => rfl
    | some info => simp [hexpire syncId' info hid hinfo]
  · rfl

end

structure BookInv (env : CloudEnv) (s : BookState) : Prop where
  kept : ∀ key syncId, s.infos key syncId ≠ none → needSaveSyncInfo env key = true
  owned : ∀ e ∈ s.running, e.Owned
  users : ∀ event ∈ s.callbacks, event.user = event.storeInfo.user
  planned : ∀ e ∈ s.running, ∀ key ∈ e.starts,
    needSaveSyncInfo env key = true ∧ e.Covers env key
  covered : ∀ key syncId, s.infos key syncId ≠ none →
    (∃ e ∈ s.running, e.syncId = syncId ∧ e.Covers env key) ∨
    ∃ event ∈ s.callbacks, event.storeInfo.syncId = syncId ∧ event.storeKey env = key

namespace BookInv

variable {env : CloudEnv} {s : BookState}

theorem of_run (h : BookInv env s) {info : SyncInfo} {retry : Bool} {answers : TaskAnswers}
    (hsteady : Steady env s (.run info retry answers)) :
    BookInv env { s with running := runSyncTask env s.now info retry answers :: s.running } := by
  constructor
  · exact h.kept
  · intro e he
    rcases List.mem_cons.mp he with rfl | he
    · exact runSyncTask_owned env s.now info retry answers
    · exact h.owned e he
  · exact h.users
  · intro e he key hkey
    rcases List.mem_cons.mp he with rfl | he
    · exact runSyncTask_covers hsteady.1 hsteady.2 hkey
    · exact h.planned e he key hkey
  · intro key syncId hne
    rcases h.covered key syncId hne with ⟨e, he, hcovers⟩ | hcallback
    · exact .inl ⟨e, List.mem_cons_of_mem _ he, hcovers⟩
    · exact .inr hcallback

variable {s' : BookState}

theorem of_resume (h : BookInv env s) {i : Nat} {answers : StoreAnswers}
    (hsteady : Steady env s (.resume i answers)) (hstep : s.resume env i answers = some s') :
    BookInv env s' := by
  obtain ⟨e, next, hi, hspec, -, rfl⟩ := resume_spec hstep
  have hmem : e ∈ s.running := List.mem_of_getElem? hi
  have howned : e.Owned := h.owned e hmem
  have hrun : ∀ f ∈ advance s.running i next.2.1, next.2.1 = some f ∨ f ∈ s.running :=
    fun f hf => mem_advance hf
  have hkept : ∀ key syncId, (s.apply env next.1).infos key syncId ≠ none →
      needSaveSyncInfo env key = true := by
    intro key syncId hne
    rcases apply_infos_ne_none hne with hold | ⟨time, again, hstart⟩
    · exact h.kept key syncId hold
    · exact (h.planned e hmem key (hspec.starts howned hstart).2.1).1
  constructor
  · exact hkept
  · intro f hf
    rcases hrun f hf with hrest | hf
    · obtain ⟨hid, hcarries⟩ := hspec.rest f hrest
      intro event hevent
      rw [hid]
      exact howned event (hcarries event hevent)
    · exact h.owned f hf
  · intro event hevent
    rcases List.mem_append.mp hevent with hevent | hevent
    · exact h.users event hevent
    · exact (howned event (hspec.left event hevent)).2
  · intro f hf key hkey
    rcases hrun f hf with hrest | hf
    · obtain ⟨made, hstarts, hf, -⟩ := hspec.busy hrest (List.ne_nil_of_mem hkey)
      have hplanned := h.planned e hmem key (hstarts ▸ List.mem_cons_of_mem made hkey)
      rw [hf]
      exact hplanned
    · exact h.planned f hf key hkey
  · intro key syncId hne
    have hself : e.syncId = syncId → e.Covers env key →
        (∃ f ∈ advance s.running i next.2.1, f.syncId = syncId ∧ f.Covers env key) ∨
        ∃ event ∈ s.callbacks ++ next.2.2,
          event.storeInfo.syncId = syncId ∧ event.storeKey env = key := by
      intro hid hcovers
      subst hid
      have hkeep : ∀ code, next.1 ≠ .finish key e.syncId code := by
        intro code hfinish
        refine hne ?_
        rw [hfinish]
        exact apply_finish_infos code e.syncId (hkept key e.syncId hne)
      rcases hspec.hands_on hi howned (hsteady e hi) hcovers hkeep with hrest |
        ⟨event, hevent, hkey⟩
      · exact .inl hrest
      · exact .inr ⟨event, List.mem_append_right _ hevent, hkey⟩
    rcases apply_infos_ne_none hne with hold | ⟨time, again, hstart⟩
    · rcases h.covered key syncId hold with ⟨f, hf, hid, hcovers⟩ | ⟨event, hevent, hkey⟩
      · by_cases heq : f = e
        · subst heq
          exact hself hid hcovers
        · exact .inl ⟨f, mem_advance_of_ne hi hf heq, hid, hcovers⟩
      · exact .inr ⟨event, List.mem_append_left _ hevent, hkey⟩
    · obtain ⟨hid, hin, -⟩ := hspec.starts howned hstart
      exact hself hid.symm (h.planned e hmem key hin).2

theorem of_callback (h : BookInv env s) {j : Nat} {code : GeneralError}
    (hstep : s.callback env j code = some s') : BookInv env s' := by
  unfold callback at hstep
  split at hstep
  · cases hstep
  rename_i event hj
  cases hstep
  have hmem : event ∈ s.callbacks := List.mem_of_getElem? hj
  have hold : ∀ key syncId, (s.apply env (event.finished env code)).infos key syncId ≠ none →
      s.infos key syncId ≠ none := by
    intro key syncId hne
    rcases apply_infos_ne_none hne with hold | ⟨time, again, hstart⟩
    · exact hold
    · unfold finished at hstart
      split at hstart <;> cases hstart
  have hframe : (s.apply env (event.finished env code)).running = s.running := by
    unfold finished
    split <;> rfl
  constructor
  · exact fun key syncId hne => h.kept key syncId (hold key syncId hne)
  · intro e he
    rw [hframe] at he
    exact h.owned e he
  · exact fun other hother => h.users other (List.mem_of_mem_eraseIdx hother)
  · intro e he
    rw [hframe] at he
    exact h.planned e he
  · intro key syncId hne
    have hkept := h.kept key syncId (hold key syncId hne)
    rw [hframe]
    rcases h.covered key syncId (hold key syncId hne) with he | ⟨other, hother, hid, hkey⟩
    · exact .inl he
    by_cases heq : other = event
    · subst heq
      rw [← hkey] at hkept hne
      refine absurd ?_ hne
      rw [finished, callbackKey_of_needSave (h.users other hmem) hkept, ← hid]
      exact apply_finish_infos code _ hkept
    · have hstays : other ∈ advance s.callbacks j none := mem_advance_of_ne hj hother heq
      exact .inr ⟨other, hstays, hid, hkey⟩

theorem step (h : BookInv env s) {a : BookAction} (hsteady : Steady env s a)
    (hstep : (bookMachine env).step s a = some s') : BookInv env s' := by
  cases a with
  | clock now =>
      cases hstep
      exact ⟨h.kept, h.owned, h.users, h.planned, h.covered⟩
  | run info retry answers =>
      cases hstep
      exact h.of_run hsteady
  | resume i answers => exact h.of_resume hsteady hstep
  | callback j code => exact h.of_callback hstep

theorem start (env : CloudEnv) (now : Int) : BookInv env (.start now) := by
  constructor
  · exact fun key syncId hne => absurd rfl hne
  · exact fun e he => absurd he List.not_mem_nil
  · exact fun event hevent => absurd hevent List.not_mem_nil
  · exact fun e he => absurd he List.not_mem_nil
  · exact fun key syncId hne => absurd rfl hne

/-- Once nothing of a request is in progress, none of its records is left. -/
theorem settled (h : BookInv env s) {syncId : UInt64} (hidle : s.Idle syncId) (key : QueryKey) :
    s.infos key syncId = none := by
  by_contra hne
  rcases h.covered key syncId hne with ⟨e, he, hid, -⟩ | ⟨event, hevent, hid, -⟩
  · exact hidle.1 e he hid
  · exact hidle.2 event hevent hid

end BookInv

end DataMgr.Cloud
