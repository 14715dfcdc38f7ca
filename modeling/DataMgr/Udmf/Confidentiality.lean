import DataMgr.Udmf.Service

/-! # What a caller without privilege learns

The reply to a read carries the output object on every status. It is filled while the
store is read, before completeness and privilege are looked at, so a caller without
privilege sees stored data exactly when its call gets as far as the properties or a record,
even if the reading fails at a later value.
-/

namespace DataMgr.Udmf

/-- The state with other data stored under a key of the drag store, if that is open. -/
def ServiceState.withStored (st : ServiceState) (key : String) (data : UnifiedData) :
    ServiceState :=
  match st.stores[dragIntention]? with
  | none => st
  | some store =>
      { st with
        stores := st.stores.insert dragIntention { store with data := store.data.insert key data } }

def IndependentOfStored {Reply : Type} (st : ServiceState) (key : String) (runtime : Runtime)
    (reply : ServiceState → Reply) : Prop :=
  ∀ data data' : UnifiedData, data.runtime = some runtime → data'.runtime = some runtime →
    reply (st.withStored key data) = reply (st.withStored key data')

/-- The caller's token is neither in the privileges of the runtime nor cached. -/
def Unprivileged (st : ServiceState) (runtime : Runtime) (tokenId : Token) (key : String) : Prop :=
  runtime.privileges.any (·.tokenId = tokenId) = false ∧
    isPermissionInCache st tokenId key = false

/-- A value that cannot be read comes after the properties or a record. -/
def RuntimeStore.Reveals (store : RuntimeStore) : Prop :=
  store.readStatus = .eOk ∧
    ∀ part ∈ store.unreadable, part.properties = true ∨ part.records ≠ 0

/-- A read of the key gets as far as the data: it is a drag key, and the drag store is
open and answers. -/
def ReadsStore (env : ServiceEnv) (st : ServiceState) (key : String) : Prop :=
  checkDragParams env key = true ∧
    ∃ store, st.stores[dragIntention]? = some store ∧ store.Reveals

def RuntimeStore.shown (store : RuntimeStore) (data : UnifiedData) : UnifiedData :=
  store.unreadable.elim data data.upTo

section

variable {env : ServiceEnv} {st : ServiceState} {tokenId : Token} {key : String}
  {data : UnifiedData} {runtime : Runtime}

theorem withStored_keeps (st : ServiceState) (key : String) (data : UnifiedData) :
    (st.withStored key data).privilegeCache = st.privilegeCache ∧
      (st.withStored key data).dataLoadCallback = st.dataLoadCallback ∧
      (st.withStored key data).blockDelayDataCache = st.blockDelayDataCache ∧
      (st.withStored key data).blocks = st.blocks := by
  unfold ServiceState.withStored
  split <;> exact ⟨rfl, rfl, rfl, rfl⟩

theorem stores_withStored {store : RuntimeStore} (h : st.stores[dragIntention]? = some store) :
    (st.withStored key data).stores[dragIntention]? =
      some { store with data := store.data.insert key data } := by
  unfold ServiceState.withStored
  rw [h]
  exact Std.ExtTreeMap.getElem?_insert_self

theorem get_stored {store : RuntimeStore} (h : store.readStatus = .eOk) :
    RuntimeStore.get { store with data := store.data.insert key data } key =
      (if store.unreadable.isNone then .eOk else .eReadParcelError, store.shown data) := by
  unfold RuntimeStore.get RuntimeStore.shown
  rw [if_neg (not_not.mpr h), Std.ExtTreeMap.getElem?_insert_self]
  cases store.unreadable <;> simp

theorem verifyDataAccessPermission_unprivileged (h : Unprivileged st runtime tokenId key) :
    verifyDataAccessPermission (st.withStored key data) runtime tokenId key = .eNoPermission := by
  have hcache : isPermissionInCache (st.withStored key data) tokenId key = false := by
    rw [← h.2]
    unfold isPermissionInCache
    rw [(withStored_keeps st key data).1]
  unfold verifyDataAccessPermission
  rw [h.1, hcache]
  rfl

/-- A read that gets as far as the store leaves what it has read in the output for a caller
without privilege. -/
theorem retrieveData_refused (hkey : checkDragParams env key = true) {store : RuntimeStore}
    (hstore : st.stores[dragIntention]? = some store) (hstatus : store.readStatus = .eOk)
    (hun : Unprivileged st runtime tokenId key) (hruntime : data.runtime = some runtime) :
    (retrieveData env (st.withStored key data) tokenId key).2.1 = store.shown data := by
  unfold retrieveData
  rw [hkey, stores_withStored hstore]
  simp only [Bool.not_true, Bool.false_eq_true, if_false]
  rw [get_stored hstatus]
  cases hpart : store.unreadable with
  | some part => rfl
  | none =>
      have hwhole : store.shown data = data := by rw [RuntimeStore.shown, hpart, Option.elim_none]
      rw [hwhole]
      simp only [Option.isNone_none, if_true]
      split
      · rfl
      rw [hruntime]
      dsimp only
      rw [verifyDataAccessPermission_unprivileged hun]

theorem retrieveData_failed (tokenId : Token) (hkey : checkDragParams env key = true)
    {store : RuntimeStore} (hstore : st.stores[dragIntention]? = some store) {status : Status}
    {output : UnifiedData} (hstatus : status ≠ .eOk)
    (hget : RuntimeStore.get { store with data := store.data.insert key data } key =
      (status, output)) :
    retrieveData env (st.withStored key data) tokenId key =
      (handleDbError status, output, st.withStored key data) := by
  unfold retrieveData
  rw [hkey, stores_withStored hstore]
  simp only [Bool.not_true, Bool.false_eq_true, if_false]
  rw [hget]
  split
  · rename_i hok
    exact absurd (congrArg Prod.fst hok) hstatus
  · rename_i hok
    cases hok
    rfl

/-- A read that does not get as far as the properties or a record has an output and a status
that depend on the runtime only. -/
theorem retrieveData_unread (tokenId : Token) (runtime : Runtime)
    (hread : ¬ ReadsStore env st key) :
    ∃ status output, (status = .eNotFound → output = .empty) ∧
      ∀ data : UnifiedData, data.runtime = some runtime →
        retrieveData env (st.withStored key data) tokenId key =
          (status, output, st.withStored key data) := by
  cases hkey : checkDragParams env key with
  | false => exact ⟨.eInvalidParameters, .empty, nofun, fun data _ => by simp [retrieveData, hkey]⟩
  | true =>
      cases hstore : st.stores[dragIntention]? with
      | none =>
          refine ⟨.eDbError, .empty, nofun, fun data _ => ?_⟩
          have hsame : st.withStored key data = st := by
            unfold ServiceState.withStored
            rw [hstore]
          rw [hsame]
          simp [retrieveData, hkey, hstore]
      | some store =>
          by_cases hstatus : store.readStatus = .eOk
          · have hhidden : ∃ part, store.unreadable = some part ∧ part.properties = false ∧
                part.records = 0 := by
              by_contra hnone
              refine hread ⟨hkey, store, hstore, hstatus, fun part hpart => ?_⟩
              by_contra hlittle
              rw [not_or, Bool.not_eq_true, not_not] at hlittle
              exact hnone ⟨part, hpart, hlittle⟩
            obtain ⟨part, hpart, hproperties, hrecords⟩ := hhidden
            refine ⟨handleDbError .eReadParcelError,
              ⟨if part.runtime then some runtime else none, none, []⟩, nofun,
              fun data hruntime => ?_⟩
            have hfailed : Status.eReadParcelError ≠ .eOk := nofun
            apply retrieveData_failed tokenId hkey hstore hfailed
            rw [get_stored hstatus]
            simp [RuntimeStore.shown, UnifiedData.upTo, hpart, hproperties, hrecords, hruntime]
          · refine ⟨handleDbError store.readStatus, .empty, fun _ => rfl, fun data _ => ?_⟩
            apply retrieveData_failed tokenId hkey hstore hstatus
            unfold RuntimeStore.get
            exact if_pos hstatus

variable (awaited : Option UnifiedData)

theorem onGetData_of_read {bundleName : String}
    (hbundle : env.hapBundleName tokenId = some bundleName)
    (hdelay : key.isEmpty = true ∨ key ∉ st.dataLoadCallback) :
    onGetData env (st.withStored key data) tokenId key awaited =
      ((retrieveData env (st.withStored key data) tokenId key).1,
        (retrieveData env (st.withStored key data) tokenId key).2.1) := by
  have hload : handleDelayLoad (st.withStored key data) tokenId key =
      (.notDelayData, st.withStored key data) := by
    unfold handleDelayLoad
    split
    · rfl
    rename_i hempty
    rw [(withStored_keeps st key data).2.1]
    have hnone : st.dataLoadCallback[key]? = none :=
      Std.ExtTreeMap.getElem?_eq_none (hdelay.resolve_left hempty)
    rw [hnone]
  unfold onGetData getData
  rw [hbundle, hload]

/-- The reply of a call that found delayed data, from what `HandleDelayLoad` decided. -/
def delayedReply (env : ServiceEnv) (load : DelayLoad) (awaited : Option UnifiedData) :
    Status × UnifiedData :=
  match load, awaited with
  | .noPermission, _ => (.eNoPermission, .empty)
  | _, none => (.eNotFound, .empty)
  | _, some data => (if env.isComplete data then .eOk else .eNotFound, data)

theorem onGetData_of_delayed {bundleName : String}
    (hbundle : env.hapBundleName tokenId = some bundleName)
    (hload : (handleDelayLoad st tokenId key).1 ≠ .notDelayData) :
    onGetData env st tokenId key awaited =
      delayedReply env (handleDelayLoad st tokenId key).1 awaited := by
  unfold onGetData getData
  rw [hbundle]
  dsimp only
  split
  · rename_i st' hresult
    rw [hresult] at hload
    exact absurd rfl hload
  · rename_i st' hresult
    rw [hresult]
    rfl
  · rename_i block st' hresult
    rw [hresult]
    cases awaited <;> rfl

theorem handleDelayLoad_withStored :
    (handleDelayLoad (st.withStored key data) tokenId key).1 =
      (handleDelayLoad st tokenId key).1 := by
  obtain ⟨-, hcallback, hblock, hblocks⟩ := withStored_keeps st key data
  unfold handleDelayLoad
  rw [hcallback, hblock, hblocks]
  split
  · rfl
  split
  · rfl
  split
  · split <;> rfl
  · rfl

theorem handleDelayLoad_of_callback (tokenId : Token) (hempty : key.isEmpty = false)
    (hmem : key ∈ st.dataLoadCallback) :
    (handleDelayLoad st tokenId key).1 ≠ .notDelayData := by
  unfold handleDelayLoad
  rw [hempty]
  simp only [Bool.false_eq_true, if_false]
  split
  · rename_i hnone
    rw [Std.ExtTreeMap.mem_iff_isSome_getElem?, hnone] at hmem
    cases hmem
  split
  · split <;> simp
  · simp

theorem onGetData_of_not_read
    (h : env.hapBundleName tokenId = none ∨ (key.isEmpty = false ∧ key ∈ st.dataLoadCallback)) :
    ∃ reply, ∀ data : UnifiedData,
      onGetData env (st.withStored key data) tokenId key awaited = reply := by
  cases hbundle : env.hapBundleName tokenId with
  | none =>
      refine ⟨(.eError, .empty), fun data => ?_⟩
      unfold onGetData getData
      rw [hbundle]
  | some bundleName =>
      rw [hbundle] at h
      obtain ⟨hempty, hmem⟩ := h.resolve_left (Option.some_ne_none _)
      refine ⟨delayedReply env (handleDelayLoad st tokenId key).1 awaited, fun data => ?_⟩
      have hload := handleDelayLoad_of_callback tokenId hempty hmem
      rw [← @handleDelayLoad_withStored st tokenId key data] at hload ⊢
      exact onGetData_of_delayed awaited hbundle hload

theorem execDataLoadCallback_registered (st : ServiceState) (key : String)
    (info : DelayGetDataInfo) :
    (execDataLoadCallback (registerDelayDataCallback st key info) key).1 =
      (st.dataLoadCallback[key]?).isSome := by
  have hkeeps : (registerDelayDataCallback st key info).dataLoadCallback =
      st.dataLoadCallback := by
    unfold registerDelayDataCallback
    split
    · rfl
    · split <;> rfl
  unfold execDataLoadCallback
  rw [hkeeps]
  cases st.dataLoadCallback[key]? <;> rfl

theorem getDataIfAvailable_data (st : ServiceState) (notifier : Notifier) :
    (getDataIfAvailable env st tokenId key notifier).2.1 =
      (retrieveData env st tokenId key).2.1 := by
  unfold getDataIfAvailable
  split
  · rename_i data' st' hretrieve
    rw [hretrieve]
    dsimp only
    split
    · rfl
    · split
      · split <;> rfl
      · rfl
  · rename_i hretrieve
    rw [hretrieve]

theorem getDataIfAvailable_status_of_empty {st' : ServiceState} {status : Status}
    {output : UnifiedData} (hempty : status = .eNotFound → output = .empty)
    (h : retrieveData env st tokenId key = (status, output, st')) (notifier : Notifier) :
    (getDataIfAvailable env st tokenId key notifier).1 =
      if status = .eNotFound then
        if (st'.dataLoadCallback[key]?).isSome then .eOk else .eError
      else status := by
  have hasked := execDataLoadCallback_registered st' key ⟨some notifier, tokenId⟩
  unfold getDataIfAvailable
  rw [h]
  split
  · rename_i heq
    cases heq
    rw [hempty rfl, if_pos rfl, ← hasked]
    dsimp only
    split <;> rfl
  · rename_i hne heq
    cases heq
    rw [if_neg]
    exact fun hnot => hne hnot

end

/-- Two data with one runtime that differ in their properties and in their first record. -/
def plainData (runtime : Runtime) : UnifiedData := ⟨some runtime, none, []⟩
def taggedData (runtime : Runtime) : UnifiedData := ⟨some runtime, some ⟨"", []⟩, [none]⟩

theorem shown_ne {store : RuntimeStore} (h : store.Reveals) (runtime : Runtime) :
    store.shown (plainData runtime) ≠ store.shown (taggedData runtime) := by
  unfold RuntimeStore.shown
  cases hpart : store.unreadable with
  | none => exact fun hsame => nomatch congrArg UnifiedData.properties hsame
  | some part =>
      intro hsame
      rcases h.2 part hpart with hproperties | hrecords
      · have := congrArg UnifiedData.properties hsame
        simp [UnifiedData.upTo, plainData, taggedData, hproperties] at this
      · have := congrArg UnifiedData.records hsame
        simp [UnifiedData.upTo, plainData, taggedData, hrecords] at this

theorem not_independent_of_output {st : ServiceState} {key : String} {runtime : Runtime}
    {store : RuntimeStore} (hreveals : store.Reveals) {Reply : Type} {reply : ServiceState → Reply}
    (output : Reply → UnifiedData) (h : ∀ data, data.runtime = some runtime →
      output (reply (st.withStored key data)) = store.shown data) :
    ¬ IndependentOfStored st key runtime reply := by
  intro hind
  have hsame := congrArg output (hind (plainData runtime) (taggedData runtime) rfl rfl)
  rw [h _ rfl, h _ rfl] at hsame
  exact shown_ne hreveals runtime hsame

section

variable {env : ServiceEnv} {st : ServiceState} {runtime : Runtime} {tokenId : Token} {key : String}

theorem onGetData_independent_iff (awaited : Option UnifiedData)
    (hun : Unprivileged st runtime tokenId key) :
    IndependentOfStored st key runtime (fun s => onGetData env s tokenId key awaited) ↔
      env.hapBundleName tokenId = none ∨ (key.isEmpty = false ∧ key ∈ st.dataLoadCallback) ∨
        ¬ ReadsStore env st key := by
  by_cases hearly : env.hapBundleName tokenId = none ∨
      (key.isEmpty = false ∧ key ∈ st.dataLoadCallback)
  · obtain ⟨reply, hreply⟩ := onGetData_of_not_read awaited hearly
    refine iff_of_true ?_ (or_assoc.mp (.inl hearly))
    intro data data' _ _
    dsimp only
    rw [hreply data, hreply data']
  · rw [← or_assoc, or_iff_right hearly]
    rw [not_or, not_and_or, Bool.not_eq_false] at hearly
    obtain ⟨bundleName, hbundle⟩ := Option.ne_none_iff_exists'.mp hearly.1
    constructor
    · rintro hind ⟨hkey, store, hstore, hreveals⟩
      have hleak : ∀ data, data.runtime = some runtime →
          (onGetData env (st.withStored key data) tokenId key awaited).2 = store.shown data := by
        intro data hruntime
        rw [onGetData_of_read awaited hbundle hearly.2]
        exact retrieveData_refused hkey hstore hreveals.1 hun hruntime
      exact not_independent_of_output hreveals Prod.snd hleak hind
    · intro hunread data data' hruntime hruntime'
      obtain ⟨status, output, -, hreply⟩ := retrieveData_unread tokenId runtime hunread
      dsimp only
      rw [onGetData_of_read awaited hbundle hearly.2, onGetData_of_read awaited hbundle hearly.2,
        hreply data hruntime, hreply data' hruntime']

theorem onGetDataIfAvailable_independent_iff (notifier : Option Notifier)
    (hun : Unprivileged st runtime tokenId key) :
    IndependentOfStored st key runtime
        (fun s => onGetDataIfAvailable env s tokenId key notifier) ↔
      notifier = none ∨ ¬ ReadsStore env st key := by
  unfold onGetDataIfAvailable
  cases notifier with
  | none =>
      refine iff_of_true ?_ (.inl rfl)
      intro data data' _ _
      simp only [Option.map_none]
  | some notifier =>
      rw [or_iff_right (Option.some_ne_none _)]
      simp only [Option.map_some]
      constructor
      · rintro hind ⟨hkey, store, hstore, hreveals⟩
        have hleak : ∀ data, data.runtime = some runtime →
            (Option.map Prod.snd (some
              ((getDataIfAvailable env (st.withStored key data) tokenId key notifier).1,
                (getDataIfAvailable env (st.withStored key data) tokenId key notifier).2.1))).getD
              .empty = store.shown data := by
          intro data hruntime
          rw [Option.map_some, Option.getD_some, getDataIfAvailable_data]
          exact retrieveData_refused hkey hstore hreveals.1 hun hruntime
        exact not_independent_of_output hreveals (fun reply => (reply.map Prod.snd).getD .empty)
          hleak hind
      · intro hunread data data' hruntime hruntime'
        obtain ⟨status, output, hempty, hreply⟩ := retrieveData_unread tokenId runtime hunread
        dsimp only
        rw [getDataIfAvailable_data, getDataIfAvailable_data,
          getDataIfAvailable_status_of_empty hempty (hreply data hruntime),
          getDataIfAvailable_status_of_empty hempty (hreply data' hruntime'), hreply data hruntime,
          hreply data' hruntime', (withStored_keeps st key data).2.1,
          (withStored_keeps st key data').2.1]

end

/-- For a caller without privilege, `OnGetData` keeps the stored data secret exactly when
the call fails before it has read the properties or a record or is answered from the delayed
data; and `OnGetDataIfAvailable` exactly when it is refused or has read neither. -/
theorem replies_independent_iff (env : ServiceEnv) (st : ServiceState) (runtime : Runtime)
    (tokenId : Token) (key : String) (awaited : Option UnifiedData) (notifier : Option Notifier)
    (hun : Unprivileged st runtime tokenId key) :
    (IndependentOfStored st key runtime (fun s => onGetData env s tokenId key awaited) ↔
      env.hapBundleName tokenId = none ∨ (key.isEmpty = false ∧ key ∈ st.dataLoadCallback) ∨
        ¬ ReadsStore env st key) ∧
    (IndependentOfStored st key runtime
        (fun s => onGetDataIfAvailable env s tokenId key notifier) ↔
      notifier = none ∨ ¬ ReadsStore env st key) :=
  ⟨onGetData_independent_iff awaited hun, onGetDataIfAvailable_independent_iff notifier hun⟩

/-- A runtime with a privilege for token 7 only. -/
def ownRuntime : Runtime :=
  ⟨"udmf://drag/notes/1", [⟨7, ""⟩], "com.example.notes", "local", 1, 7, .working,
    permissionPolicyModeMask⟩

theorem ownRuntime_unprivileged :
    Unprivileged .initial ownRuntime 9 "udmf://drag/notes/1" := by
  constructor <;> decide +kernel

theorem readsStore_initial : ReadsStore openService .initial "udmf://drag/notes/1" := by
  refine ⟨by decide +kernel, ⟨.eOk, .eOk, ∅, none⟩, ?_, rfl, nofun⟩
  exact Std.ExtTreeMap.getElem?_insert_self

theorem replies_independent_without_notifier :
    IndependentOfStored .initial "udmf://drag/notes/1" ownRuntime
      (fun s => onGetDataIfAvailable openService s 9 "udmf://drag/notes/1" none) :=
  (replies_independent_iff openService .initial ownRuntime 9 "udmf://drag/notes/1" none none
    ownRuntime_unprivileged).2.mpr (.inl rfl)

/-- Token 9 has no privilege, and both replies depend on the data that is stored. -/
theorem replies_leak_to_unprivileged :
    Unprivileged .initial ownRuntime 9 "udmf://drag/notes/1" ∧
      ¬ IndependentOfStored .initial "udmf://drag/notes/1" ownRuntime
        (fun s => onGetData openService s 9 "udmf://drag/notes/1" none) ∧
      ¬ IndependentOfStored .initial "udmf://drag/notes/1" ownRuntime
        (fun s => onGetDataIfAvailable openService s 9 "udmf://drag/notes/1" (some 0)) := by
  refine ⟨ownRuntime_unprivileged, ?_, ?_⟩
  · rw [onGetData_independent_iff none ownRuntime_unprivileged]
    rintro (hbundle | ⟨_, hmem⟩ | hunread)
    · cases hbundle
    · exact Std.ExtTreeMap.not_mem_empty hmem
    · exact hunread readsStore_initial
  · rw [onGetDataIfAvailable_independent_iff (some 0) ownRuntime_unprivileged]
    rintro (hnone | hunread)
    · cases hnone
    · exact hunread readsStore_initial

end DataMgr.Udmf
