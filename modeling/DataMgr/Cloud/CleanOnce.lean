import DataMgr.Cloud.CleanActions
import DataMgr.Foundation.Concat

/-! # Every table is cleaned at most once, with its own action

The removals of a whole clean are taken apart again: by application, by the databases in its
schema, and by the table. What can go wrong is what the requests do not say: a list of tables
none of which is there, and an application that is only in the configurations.
-/

namespace DataMgr.Cloud

open DataMgr.Foundation DataMgr.Store Removal OrderedMap

section

variable {actions : OrderedMap String CloudAction}
variable {configs : OrderedMap String (ClearConfig CloudAction)}
variable {app : String} {database : Database} {mode : CleanMode} {tables : List String}

theorem mem_requests :
    (mode, tables) ∈ requests actions configs app database ↔
      (mode = .cloudData ∨ mode = .cloudInfo) ∧
        request actions configs app database mode = some tables := by
  simp only [requests, List.mem_filterMap, Option.map_eq_some_iff, Prod.mk.injEq, List.mem_cons,
    List.not_mem_nil, or_false]
  constructor
  · rintro ⟨mode', hmode, tables', hrequest, rfl, rfl⟩
    exact ⟨hmode, hrequest⟩
  · rintro ⟨hmode, hrequest⟩
    exact ⟨mode, hmode, tables, hrequest, rfl, rfl⟩

theorem nodup_requests_modes : ((requests actions configs app database).map Prod.fst).Nodup := by
  simp only [requests, List.filterMap_cons, List.filterMap_nil]
  cases request actions configs app database .cloudData <;>
    cases request actions configs app database .cloudInfo <;> simp

theorem request_tables (hbyTables : byTables configs app database.name = true)
    (h : request actions configs app database mode = some tables) :
    tables = database.getTableNames.filter fun table =>
      resolvedAction actions configs app database.name table = mode := by
  simp only [request, hbyTables, if_true] at h
  split at h
  · cases h
    rfl
  · cases h

theorem request_whole (hbyTables : byTables configs app database.name = false)
    (h : request actions configs app database mode = some tables) :
    tables = [] ∧ databaseAction actions configs app database.name = mode ∧
      ∀ table, resolvedAction actions configs app database.name table = mode := by
  simp only [request, hbyTables, Bool.false_eq_true, if_false] at h
  split at h
  · rename_i haction
    cases h
    refine ⟨rfl, haction, fun table => ?_⟩
    rw [resolvedAction, ← haction]
    cases hinfo : configured configs app database.name with
    | none => rfl
    | some info =>
        have hentries : info.tableInfo.entries = [] := by
          simpa [byTables, hinfo] using hbyTables
        simp [find, hentries]
  · cases h

theorem mem_allBundles_of_request (hmode : mode = .cloudData ∨ mode = .cloudInfo)
    (h : request actions configs app database mode = some tables) :
    app ∈ allBundles (convertAction actions) (convertConfig configs) := by
  rw [mem_allBundles]
  by_cases hconfig : app ∈ configs.keys
  · right
    obtain ⟨config, hfind⟩ := configs.mem_keys_iff.mp hconfig
    rw [mem_keys_iff, convertConfig, find_mapValues, hfind]
    exact ⟨_, rfl⟩
  · left
    have hnone : ∀ storeId, configured configs app storeId = none := by
      intro storeId
      rw [configured, configs.find_eq_none_iff.mpr hconfig]
      rfl
    have haction := (request_whole (by simp [byTables, hnone]) h).2.1
    simp only [databaseAction, hnone] at haction
    rw [← appDefault_eq_iff actions app hmode] at haction
    rw [mem_keys_iff]
    cases hfind : (convertAction actions).find app with
    | some action => exact ⟨action, rfl⟩
    | none =>
        rw [hfind] at haction
        rcases hmode with rfl | rfl <;> cases haction

end

section

variable (env : CleanEnv) (cloudInfo : CloudInfo) (actions : OrderedMap String CloudAction)
variable (configs : OrderedMap String (ClearConfig CloudAction))

def cleaned : List Removal :=
  removalsOf (doClean env cloudInfo (convertAction actions) (convertConfig configs))

/-- The actions with which a table of a database of an application is cleaned, call by call. -/
def cleanings (app storeId table : String) : List CleanMode :=
  ((cleaned env cloudInfo actions configs).filter fun removal =>
    removal.Covers app storeId table).map mode

variable {env cloudInfo actions configs}

variable {app table : String} {schemaMeta : SchemaMeta} {database : Database} {store : CleanStore}
  {target : CleanTarget} {removal : Removal} {ι : Type} {items : List ι} {sharedCounts : Bool}

variable (env cloudInfo) in
/-- The cloud info has the application, its schema lists the database, and with the metadata that
is there a store is opened. -/
structure Reaches (schemaMeta : SchemaMeta) (database : Database) (target : CleanTarget)
    (store : CleanStore) : Prop where
  exist : cloudInfo.exist target.app = true
  schema : env.schema target.app = some schemaMeta
  listed : database ∈ schemaMeta.databases
  known : getStoreMetaData env target.app schemaMeta database = some target
  opened : openStore env target = some store

theorem getStoreMetaData_eq (h : getStoreMetaData env app schemaMeta database = some target) :
    target.app = app ∧ target.bundleName = schemaMeta.bundleName ∧
      target.storeId = database.name := by
  obtain ⟨user, -, rfl⟩ := Option.map_eq_some_iff.mp h
  exact ⟨rfl, rfl, rfl⟩

theorem mem_databaseRemovals (hschema : env.schema app = some schemaMeta)
    (hdatabase : database ∈ schemaMeta.databases) :
    removal ∈ databaseRemovals env cloudInfo actions configs app schemaMeta database ↔
      removal.target.app = app ∧
        ∃ store, Reaches env cloudInfo schemaMeta database removal.target store ∧
          ∃ tables, (removal.mode, tables) ∈ requests actions configs app database ∧
            removal.tables = getIntersection env.logTable tables store.tables := by
  unfold databaseRemovals
  constructor
  · intro h
    split at h
    · cases h
    rename_i hexist
    split at h
    · cases h
    rename_i target hknown
    unfold askedRemovals at h
    split at h
    · cases h
    rename_i store hopened
    obtain ⟨⟨mode, tables⟩, hrequest, rfl⟩ := List.mem_map.mp h
    obtain ⟨rfl, -, -⟩ := getStoreMetaData_eq hknown
    exact ⟨rfl, store, ⟨by simpa using hexist, hschema, hdatabase, hknown, hopened⟩, tables,
      hrequest, rfl⟩
  · rintro ⟨rfl, store, hreach, tables, hrequest, htables⟩
    simp only [hreach.exist, hreach.known, askedRemovals, hreach.opened, Bool.true_eq_false,
      if_false]
    rw [List.mem_map]
    exact ⟨_, hrequest, by rw [← htables]⟩

theorem nodup_databaseRemovals_modes :
    ((databaseRemovals env cloudInfo actions configs app schemaMeta database).map
      mode).Nodup := by
  unfold databaseRemovals askedRemovals
  split
  · exact List.nodup_nil
  split
  · exact List.nodup_nil
  split
  · exact List.nodup_nil
  · rw [List.map_map]
    exact nodup_requests_modes

theorem mem_appRemovals :
    removal ∈ appRemovals env cloudInfo actions configs app ↔
      removal.target.app = app ∧ ∃ schemaMeta database store,
        Reaches env cloudInfo schemaMeta database removal.target store ∧
          ∃ tables, (removal.mode, tables) ∈ requests actions configs app database ∧
            removal.tables = getIntersection env.logTable tables store.tables := by
  unfold appRemovals
  constructor
  · intro h
    split at h
    · cases h
    rename_i schemaMeta hschema
    obtain ⟨database, hdatabase, hremoval⟩ := List.mem_flatMap.mp h
    obtain ⟨happ, hreach⟩ := (mem_databaseRemovals hschema hdatabase).mp hremoval
    exact ⟨happ, schemaMeta, database, hreach⟩
  · rintro ⟨rfl, schemaMeta, database, store, hreach, hrest⟩
    rw [hreach.schema]
    refine List.mem_flatMap.mpr ⟨database, hreach.listed, ?_⟩
    exact (mem_databaseRemovals hreach.schema hreach.listed).mpr ⟨rfl, store, hreach, hrest⟩

theorem mem_allBundles_of_mem_appRemovals
    (h : removal ∈ appRemovals env cloudInfo actions configs app) :
    removal.target.app = app ∧
      app ∈ allBundles (convertAction actions) (convertConfig configs) := by
  obtain ⟨happ, -, database, -, -, tables, hrequest, -⟩ := mem_appRemovals.mp h
  obtain ⟨hmode, hsome⟩ := mem_requests.mp hrequest
  exact ⟨happ, mem_allBundles_of_request hmode hsome⟩

/-- What is removed is what is asked for, at the stores that are opened. -/
theorem mem_cleaned :
    removal ∈ cleaned env cloudInfo actions configs ↔
      ∃ schemaMeta database store, Reaches env cloudInfo schemaMeta database removal.target store ∧
        ∃ tables, (removal.mode, tables) ∈ requests actions configs removal.target.app database ∧
          removal.tables = getIntersection env.logTable tables store.tables := by
  rw [cleaned, removalsOf_doClean, List.mem_flatMap]
  constructor
  · rintro ⟨app, -, hremoval⟩
    obtain ⟨rfl, h⟩ := mem_appRemovals.mp hremoval
    exact h
  · intro h
    have happ := mem_appRemovals.mpr ⟨rfl, h⟩
    exact ⟨removal.target.app, (mem_allBundles_of_mem_appRemovals happ).2, happ⟩

theorem exists_cleaned (hreach : Reaches env cloudInfo schemaMeta database target store)
    (hasked : requests actions configs target.app database ≠ []) :
    ∃ removal ∈ cleaned env cloudInfo actions configs, removal.target = target := by
  obtain ⟨⟨mode, tables⟩, hrequest⟩ := List.exists_mem_of_ne_nil _ hasked
  refine ⟨⟨target, mode, getIntersection env.logTable tables store.tables⟩, ?_, rfl⟩
  exact mem_cleaned.mpr ⟨schemaMeta, database, store, hreach, tables, hrequest, rfl⟩

/-- The schemas of the applications have no two databases of one name. -/
def DistinctNames (env : CleanEnv) : Prop :=
  ∀ app, ∀ schemaMeta ∈ env.schema app, (schemaMeta.databases.map Database.name).Nodup

variable (hnames : DistinctNames env)

theorem filter_covers_databaseRemovals (hschema : env.schema app = some schemaMeta)
    (hdatabase : database ∈ schemaMeta.databases) (storeId table : String) :
    (databaseRemovals env cloudInfo actions configs app schemaMeta database).filter
        (fun removal => removal.Covers app storeId table) =
      if database.name = storeId then
        (databaseRemovals env cloudInfo actions configs app schemaMeta database).filter
          fun removal => removal.tables = [] ∨ table ∈ removal.tables
      else [] := by
  have htarget : ∀ removal ∈ databaseRemovals env cloudInfo actions configs app schemaMeta database,
      removal.target.app = app ∧ removal.target.storeId = database.name := by
    intro removal hremoval
    obtain ⟨happ, store, hreach, -⟩ := (mem_databaseRemovals hschema hdatabase).mp hremoval
    exact ⟨happ, (getStoreMetaData_eq hreach.known).2.2⟩
  split
  · rename_i hname
    refine List.filter_congr fun removal hremoval => ?_
    obtain ⟨happ, hstoreId⟩ := htarget removal hremoval
    simp [Removal.Covers, happ, hstoreId, hname]
  · rename_i hname
    rw [List.filter_eq_nil_iff]
    intro removal hremoval hcovers
    obtain ⟨-, hstoreId⟩ := htarget removal hremoval
    exact hname (hstoreId.symm.trans (of_decide_eq_true hcovers).2.1)

include hnames in
/-- A table is cleaned through one database only. -/
theorem cleanings_eq (hschema : env.schema app = some schemaMeta)
    (hdatabase : database ∈ schemaMeta.databases) (table : String) :
    cleanings env cloudInfo actions configs app database.name table =
      ((databaseRemovals env cloudInfo actions configs app schemaMeta database).filter
        fun removal => removal.tables = [] ∨ table ∈ removal.tables).map mode := by
  have hwhole : (cleaned env cloudInfo actions configs).filter
      (fun removal => removal.Covers app database.name table) =
        (appRemovals env cloudInfo actions configs app).filter
          fun removal => removal.Covers app database.name table := by
    rw [cleaned, removalsOf_doClean, List.filter_flatMap]
    refine flatMap_eq_of_nodup (nodup_allBundles _ _) ?_ ?_
    · intro other _ hne
      rw [List.filter_eq_nil_iff]
      intro removal hremoval hcovers
      have happ := (mem_allBundles_of_mem_appRemovals hremoval).1
      exact hne (happ.symm.trans (of_decide_eq_true hcovers).1)
    · intro hnot
      rw [List.filter_eq_nil_iff]
      intro removal hremoval
      exact absurd (mem_allBundles_of_mem_appRemovals hremoval).2 hnot
  have hdistinct := hnames app schemaMeta hschema
  rw [cleanings, hwhole, appRemovals, hschema]
  dsimp only
  rw [List.filter_flatMap, flatMap_eq_of_nodup hdistinct.of_map ?_ (absurd hdatabase),
    filter_covers_databaseRemovals hschema hdatabase, if_pos rfl]
  intro other hother hne
  rw [filter_covers_databaseRemovals hschema hother, if_neg]
  exact fun hname => hne (List.inj_on_of_nodup_map hdistinct hother hdatabase hname)

/-- The shared tables are cleared exactly where something else is removed. -/
def SharedBeside (effects : List CleanEffect) : Prop :=
  ∀ target, .clearSharedTable target ∈ effects ↔ ∃ removal ∈ removalsOf effects,
    removal.target = target

theorem sharedBeside_nil : SharedBeside [] := by
  intro target
  simp

theorem sharedBeside_flatMap {f : ι → List CleanEffect}
    (h : ∀ item ∈ items, SharedBeside (f item)) : SharedBeside (items.flatMap f) := by
  intro target
  rw [removalsOf_flatMap, List.mem_flatMap]
  constructor
  · rintro ⟨item, hitem, hshared⟩
    obtain ⟨removal, hremoval, htarget⟩ := (h item hitem target).mp hshared
    exact ⟨removal, List.mem_flatMap.mpr ⟨item, hitem, hremoval⟩, htarget⟩
  · rintro ⟨removal, hremoval, htarget⟩
    obtain ⟨item, hitem, hmem⟩ := List.mem_flatMap.mp hremoval
    exact ⟨item, hitem, (h item hitem target).mpr ⟨removal, hmem, htarget⟩⟩

theorem sharedBeside_executeDatabaseClean {target : CleanTarget} {action : CleanMode}
    {tableList : List String} :
    SharedBeside (executeDatabaseClean env target action tableList) := by
  intro target'
  unfold executeDatabaseClean
  cases env.store target.bundleName target.storeId with
  | none => exact sharedBeside_nil target'
  | some store =>
      cases hclean : (store.clean env.logTable action tableList).2 with
      | none =>
          simp only [hclean, List.append_nil]
          split <;> simp [removalsOf, CleanEffect.removal?]
      | some tables =>
          simp only [hclean]
          split <;> simp [removalsOf, CleanEffect.removal?, eq_comm]

theorem sharedBeside_cleanDatabase {target : CleanTarget} {config : ClearConfig CleanMode}
    {appDefaultAction : CleanMode} :
    SharedBeside (cleanDatabase env target database config appDefaultAction) := by
  unfold cleanDatabase
  split
  · split
    · exact sharedBeside_executeDatabaseClean
    · exact sharedBeside_nil
  split
  · refine sharedBeside_flatMap fun action _ => ?_
    split
    · exact sharedBeside_executeDatabaseClean
    · exact sharedBeside_nil
  · split
    · exact sharedBeside_executeDatabaseClean
    · split
      · exact sharedBeside_executeDatabaseClean
      · exact sharedBeside_nil

theorem sharedBeside_doClean {genActions : OrderedMap String CleanMode}
    {genConfigs : OrderedMap String (ClearConfig CleanMode)} :
    SharedBeside (doClean env cloudInfo genActions genConfigs) := by
  refine sharedBeside_flatMap fun app _ => ?_
  unfold cleanApp
  split
  · exact sharedBeside_nil
  split
  · exact sharedBeside_nil
  simp only
  split
  · refine sharedBeside_flatMap fun database _ => ?_
    split
    · exact sharedBeside_nil
    · exact sharedBeside_cleanDatabase
  · unfold doAppLevelClean
    split
    · exact sharedBeside_nil
    refine sharedBeside_flatMap fun database _ => ?_
    split
    · exact sharedBeside_nil
    · exact sharedBeside_executeDatabaseClean

variable (env cloudInfo actions configs)

/-- What is promised of a clean. With `sharedCounts` the clearing of shared tables, which goes
with every removal, is taken for a cleaning of them; it is not one of the actions. -/
structure CleansRight (sharedCounts : Bool) : Prop where
  own : ∀ removal ∈ cleaned env cloudInfo actions configs,
    removal.target.bundleName = removal.target.app
  named : ∀ removal ∈ cleaned env cloudInfo actions configs, removal.target.app ∈ actions.keys
  once : ∀ app ∈ actions.keys, ∀ schemaMeta ∈ env.schema app, ∀ database ∈ schemaMeta.databases,
    ∀ table ∈ database.getTableNames,
      cleanings env cloudInfo actions configs app database.name table = [] ∨
        (cleanings env cloudInfo actions configs app database.name table =
            [resolvedAction actions configs app database.name table] ∧
          (resolvedAction actions configs app database.name table = .cloudData ∨
            resolvedAction actions configs app database.name table = .cloudInfo))
  shared : sharedCounts = true → ∀ target,
    .clearSharedTable target ∈
        doClean env cloudInfo (convertAction actions) (convertConfig configs) →
      ∀ schemaMeta ∈ env.schema target.app, ∀ database ∈ schemaMeta.databases,
        database.name = target.storeId → ∀ table ∈ database.tables, table.sharedTableName = ""

/-- What a clean depends on, in the requests and the stores that are there. Whatever is asked for
belongs to an application that the actions name, with a schema of its own. Where single tables are
asked for, one of them is there with its log, or every table of the database has that action. With
`sharedCounts` the databases for which something is asked have no shared tables. -/
structure Unmixed (sharedCounts : Bool) : Prop where
  named : ∀ schemaMeta database target store,
    Reaches env cloudInfo schemaMeta database target store →
      requests actions configs target.app database ≠ [] →
        target.app ∈ actions.keys ∧ schemaMeta.bundleName = target.app
  found : ∀ schemaMeta database target store,
    Reaches env cloudInfo schemaMeta database target store →
      byTables configs target.app database.name = true →
        ∀ asked ∈ requests actions configs target.app database,
          (∃ table ∈ asked.2, table ∈ store.tables ∧ env.logTable table ∈ store.tables) ∨
            ∀ table ∈ database.getTableNames,
              resolvedAction actions configs target.app database.name table = asked.1
  shared : sharedCounts = true → ∀ schemaMeta database target store,
    Reaches env cloudInfo schemaMeta database target store →
      requests actions configs target.app database ≠ [] →
        ∀ table ∈ database.tables, table.sharedTableName = ""

variable {env cloudInfo actions configs}

theorem getIntersection_eq_nil {logTable : LogTableName} {tables localTables : List String} :
    getIntersection logTable tables localTables = [] ↔
      ¬ ∃ table ∈ tables, table ∈ localTables ∧ logTable table ∈ localTables := by
  simp [getIntersection, List.filter_eq_nil_iff]

theorem Unmixed.mode_of_covers (h : Unmixed env cloudInfo actions configs sharedCounts)
    (hschema : env.schema app = some schemaMeta) (hdatabase : database ∈ schemaMeta.databases)
    (htable : table ∈ database.getTableNames)
    (hremoval : removal ∈ databaseRemovals env cloudInfo actions configs app schemaMeta database)
    (hcovers : removal.tables = [] ∨ table ∈ removal.tables) :
    removal.mode = resolvedAction actions configs app database.name table := by
  obtain ⟨rfl, store, hreach, tables, hrequest, htables⟩ :=
    (mem_databaseRemovals hschema hdatabase).mp hremoval
  have hsome := (mem_requests.mp hrequest).2
  cases hbyTables : byTables configs removal.target.app database.name with
  | false => exact ((request_whole hbyTables hsome).2.2 table).symm
  | true =>
      rcases hcovers with hempty | hmem
      · rw [htables, getIntersection_eq_nil] at hempty
        exact ((h.found _ _ _ _ hreach hbyTables _ hrequest).resolve_left hempty table htable).symm
      · rw [htables, getIntersection, List.mem_filter, request_tables hbyTables hsome,
          List.mem_filter] at hmem
        exact (of_decide_eq_true hmem.1.2).symm

include hnames

theorem CleansRight.unmixed (h : CleansRight env cloudInfo actions configs sharedCounts) :
    Unmixed env cloudInfo actions configs sharedCounts := by
  refine ⟨?_, ?_, ?_⟩
  · intro schemaMeta database target store hreach hasked
    obtain ⟨removal, hremoval, rfl⟩ := exists_cleaned hreach hasked
    refine ⟨h.named removal hremoval, ?_⟩
    rw [← (getStoreMetaData_eq hreach.known).2.1, h.own removal hremoval]
  · intro schemaMeta database target store hreach _ ⟨mode, tables⟩ hrequest
    by_contra! hmixed
    obtain ⟨hnone, table, htable, hother⟩ := hmixed
    have hempty : getIntersection env.logTable tables store.tables = [] := by
      rw [getIntersection_eq_nil]
      rintro ⟨table, hmem, hlocal, hlog⟩
      exact hnone table hmem hlocal hlog
    have hremoval : ⟨target, mode, []⟩ ∈
        databaseRemovals env cloudInfo actions configs target.app schemaMeta database :=
      (mem_databaseRemovals hreach.schema hreach.listed).mpr
        ⟨rfl, store, hreach, tables, hrequest, hempty.symm⟩
    have hmem : mode ∈ cleanings env cloudInfo actions configs target.app database.name table := by
      rw [cleanings_eq hnames hreach.schema hreach.listed]
      exact List.mem_map.mpr ⟨_, List.mem_filter.mpr ⟨hremoval, by simp⟩, rfl⟩
    obtain ⟨removal, hcleaned, rfl⟩ := exists_cleaned hreach (List.ne_nil_of_mem hrequest)
    rcases h.once _ (h.named removal hcleaned) schemaMeta hreach.schema database hreach.listed table
      htable with hnil | ⟨hone, -⟩
    · rw [hnil] at hmem
      cases hmem
    · rw [hone] at hmem
      exact hother (List.mem_singleton.mp hmem).symm
  · intro hcounts schemaMeta database target store hreach hasked
    obtain ⟨removal, hremoval, rfl⟩ := exists_cleaned hreach hasked
    have hcleared := (sharedBeside_doClean removal.target).mpr ⟨removal, hremoval, rfl⟩
    exact h.shared hcounts removal.target hcleared schemaMeta hreach.schema database hreach.listed
      (getStoreMetaData_eq hreach.known).2.2.symm

theorem Unmixed.cleansRight (h : Unmixed env cloudInfo actions configs sharedCounts) :
    CleansRight env cloudInfo actions configs sharedCounts := by
  have hasked : ∀ removal ∈ cleaned env cloudInfo actions configs,
      ∃ schemaMeta database store, Reaches env cloudInfo schemaMeta database removal.target store ∧
        requests actions configs removal.target.app database ≠ [] := by
    intro removal hremoval
    obtain ⟨schemaMeta, database, store, hreach, tables, hrequest, -⟩ := mem_cleaned.mp hremoval
    exact ⟨schemaMeta, database, store, hreach, List.ne_nil_of_mem hrequest⟩
  refine ⟨?_, ?_, ?_, ?_⟩
  · intro removal hremoval
    obtain ⟨schemaMeta, database, store, hreach, hrequests⟩ := hasked removal hremoval
    rw [(getStoreMetaData_eq hreach.known).2.1]
    exact (h.named _ _ _ _ hreach hrequests).2
  · intro removal hremoval
    obtain ⟨schemaMeta, database, store, hreach, hrequests⟩ := hasked removal hremoval
    exact (h.named _ _ _ _ hreach hrequests).1
  · intro app happ schemaMeta hschema database hdatabase table htable
    rw [cleanings_eq hnames hschema hdatabase]
    have hmode : ∀ action ∈ ((databaseRemovals env cloudInfo actions configs app schemaMeta
        database).filter fun removal => removal.tables = [] ∨ table ∈ removal.tables).map mode,
        action = resolvedAction actions configs app database.name table ∧
          (action = .cloudData ∨ action = .cloudInfo) := by
      intro action hmode
      obtain ⟨removal, hfilter, rfl⟩ := List.mem_map.mp hmode
      obtain ⟨hremoval, hcovers⟩ := List.mem_filter.mp hfilter
      obtain ⟨-, store, -, tables, hrequest, -⟩ :=
        (mem_databaseRemovals hschema hdatabase).mp hremoval
      exact ⟨h.mode_of_covers hschema hdatabase htable hremoval (of_decide_eq_true hcovers),
        (mem_requests.mp hrequest).1⟩
    refine (eq_nil_or_singleton_of_nodup ?_ fun action hmem => (hmode action hmem).1).imp_right
      fun hone => ⟨hone, ?_⟩
    · exact nodup_databaseRemovals_modes.sublist (List.filter_sublist.map mode)
    · rw [hone] at hmode
      exact (hmode _ List.mem_cons_self).2
  · intro hcounts target hcleared schemaMeta hschema database hdatabase hname
    obtain ⟨removal, hremoval, rfl⟩ := (sharedBeside_doClean target).mp hcleared
    obtain ⟨schemaMeta', database', store, hreach, hrequests⟩ := hasked removal hremoval
    obtain rfl : schemaMeta' = schemaMeta := Option.some.inj (hreach.schema.symm.trans hschema)
    have hstoreId := (getStoreMetaData_eq hreach.known).2.2
    obtain rfl : database = database' := List.inj_on_of_nodup_map (hnames _ _ hschema) hdatabase
      hreach.listed (hname.trans hstoreId)
    exact h.shared hcounts _ _ _ _ hreach hrequests

end

/-- One application with one database of two tables; only the second table is there. -/
def notesEnv : CleanEnv where
  schema app :=
    if app = "notes" then some ⟨"notes", [⟨"pages", "", [⟨"a", ""⟩, ⟨"b", ""⟩]⟩]⟩ else none
  storeMeta _ _ := some "100"
  store _ _ := some { tables := ["b", "b_log"] }
  logTable table := table ++ "_log"

def notesInfo : CloudInfo :=
  { user := 100, id := "id", enableCloud := true
    apps := [("notes", ⟨"notes", "", 0, 0, true⟩)] }

theorem distinctNames_notesEnv : DistinctNames notesEnv := by
  intro app schemaMeta hschema
  simp only [notesEnv] at hschema
  split at hschema
  · cases hschema
    decide
  · cases hschema

def cleanTable (table : String) : OrderedMap String (ClearConfig CloudAction) :=
  ⟨[("notes", ⟨⟨[("pages", ⟨.clearCloudNone, ⟨[(table, .clearCloudDataAndInfo)], by simp⟩⟩)],
    by simp⟩⟩)], by simp⟩

theorem reaches_notesEnv {schemaMeta : SchemaMeta} {database : Database} {target : CleanTarget}
    {store : CleanStore} (h : Reaches notesEnv notesInfo schemaMeta database target store) :
    schemaMeta.bundleName = "notes" ∧ database = ⟨"pages", "", [⟨"a", ""⟩, ⟨"b", ""⟩]⟩ ∧
      target.app = "notes" ∧ store.tables = ["b", "b_log"] := by
  have hschema := h.schema
  have hopened := h.opened
  have hlisted := h.listed
  simp only [notesEnv] at hschema
  split at hschema
  · rename_i happ
    cases hschema
    cases hopened
    exact ⟨rfl, List.mem_singleton.mp hlisted, happ, rfl⟩
  · cases hschema

end DataMgr.Cloud
