import DataMgr.Cloud.CloudClean

/-! # Which action a table is cleaned with

The action of a table is its own if the configuration has one, else that of its database, else
that of its application. `DoClean` does not resolve it table by table: it asks a store to clean
its whole database, or the tables of one action at a time. Here what it asks is computed from
the resolved actions, and compared with what reaches the databases.
-/

namespace DataMgr.Cloud

open DataMgr.Foundation DataMgr.Store OrderedMap DBActionInfo

section

variable (actions : OrderedMap String CloudAction)
variable (configs : OrderedMap String (ClearConfig CloudAction))

variable (app storeId : String)

def configured : Option (DBActionInfo CloudAction) :=
  (configs.find app).bind fun config => config.dbInfo.find storeId

def databaseAction : CleanMode :=
  let appAction := ((actions.find app).map convertActionType).getD .cloudNone
  match configured configs app storeId with
  | none => appAction
  | some info =>
      if convertActionType info.action ≠ .cloudNone then convertActionType info.action
      else appAction

def resolvedAction (app storeId table : String) : CleanMode :=
  match (configured configs app storeId).bind fun info => info.tableInfo.find table with
  | some action => convertActionType action
  | none => databaseAction actions configs app storeId

def byTables : Bool :=
  (configured configs app storeId).any fun info => !info.tableInfo.entries.isEmpty

/-- What is asked of the store for one action: its tables, no table for the whole database. -/
def request (app : String) (database : Database) (mode : CleanMode) : Option (List String) :=
  if byTables configs app database.name then
    let tables := database.getTableNames.filter fun table =>
      resolvedAction actions configs app database.name table = mode
    if tables ≠ [] then some tables else none
  else if databaseAction actions configs app database.name = mode then some []
  else none

/-- Only two actions clean anything. -/
def requests (app : String) (database : Database) : List (CleanMode × List String) :=
  [CleanMode.cloudData, .cloudInfo].filterMap fun mode =>
    (request actions configs app database mode).map fun tables => (mode, tables)

end

structure Removal where
  target : CleanTarget
  mode : CleanMode
  tables : List String
deriving DecidableEq, Repr

def CleanEffect.removal? : CleanEffect → Option Removal
  | .removeDeviceData target mode tables => some ⟨target, mode, tables⟩
  | .notify _ | .clearSharedTable _ => none

def removalsOf (effects : List CleanEffect) : List Removal := effects.filterMap CleanEffect.removal?

/-- No table stands for the whole database. -/
def Removal.Covers (removal : Removal) (app storeId table : String) : Prop :=
  removal.target.app = app ∧ removal.target.storeId = storeId ∧
    (removal.tables = [] ∨ table ∈ removal.tables)

instance (removal : Removal) (app storeId table : String) :
    Decidable (removal.Covers app storeId table) :=
  inferInstanceAs (Decidable (_ ∧ _ ∧ (_ ∨ _)))

section

variable (env : CleanEnv)

def openStore (target : CleanTarget) : Option CleanStore :=
  (env.store target.bundleName target.storeId).filter fun store => !store.isClosed && store.delegate

@[simp] theorem removalsOf_nil : removalsOf [] = [] := rfl

theorem removalsOf_flatMap {ι : Type} (items : List ι) (f : ι → List CleanEffect) :
    removalsOf (items.flatMap f) = items.flatMap fun item => removalsOf (f item) :=
  List.filterMap_flatMap

theorem removalsOf_executeDatabaseClean (target : CleanTarget) (action : CleanMode)
    (tableList : List String) :
    removalsOf (executeDatabaseClean env target action tableList) =
      match openStore env target with
      | none => []
      | some store =>
          if action = .cloudData ∨ action = .cloudInfo then
            [⟨target, action, getIntersection env.logTable tableList store.tables⟩]
          else [] := by
  unfold executeDatabaseClean openStore
  cases env.store target.bundleName target.storeId with
  | none => rfl
  | some store =>
      have hnotify : removalsOf (if action ≠ .cleanWater then [.notify target] else []) = [] := by
        split <;> rfl
      rw [removalsOf, List.filterMap_append]
      change removalsOf _ ++ removalsOf _ = _
      rw [hnotify, List.nil_append]
      rw [store.clean_tables]
      cases hopen : (!store.isClosed && store.delegate) with
      | false =>
          have hnot : ¬ (store.isClosed = false ∧ store.delegate = true ∧
              (action = .cloudData ∨ action = .cloudInfo)) := by
            rintro ⟨hclosed, hdelegate, -⟩
            rw [hclosed, hdelegate] at hopen
            cases hopen
          rw [if_neg hnot, Option.filter_some, hopen]
          rfl
      | true =>
          simp only [Bool.and_eq_true, Bool.not_eq_true'] at hopen
          simp only [Option.filter_some, hopen, true_and, Bool.not_false, Bool.and_self, if_true]
          by_cases hmode : action = .cloudData ∨ action = .cloudInfo
          · rw [if_pos hmode, if_pos hmode]
            rfl
          · rw [if_neg hmode, if_neg hmode]
            rfl

end

variable (tableActions : OrderedMap String CleanMode) (dbDefaultAction appDefaultAction : CleanMode)

def tableAction (tableName : String) : CleanMode :=
  match tableActions.find tableName with
  | some action => action
  | none => if dbDefaultAction ≠ .cloudNone then dbDefaultAction else appDefaultAction

theorem sortTable_eq (actionToTablesMap : CleanMode → List String) (tableName : String) :
    sortTable tableActions dbDefaultAction appDefaultAction actionToTablesMap tableName =
      let action := tableAction tableActions dbDefaultAction appDefaultAction tableName
      if action ≠ .cloudNone then pushTable actionToTablesMap action tableName
      else actionToTablesMap := by
  unfold sortTable tableAction
  cases tableActions.find tableName with
  | some action => rfl
  | none =>
      by_cases hdb : dbDefaultAction = .cloudNone
      · simp [hdb]
      · simp [hdb]

theorem foldl_sortTable (tableNames : List String) (actionToTablesMap : CleanMode → List String)
    {mode : CleanMode} (hmode : mode ≠ .cloudNone) :
    tableNames.foldl (sortTable tableActions dbDefaultAction appDefaultAction)
        actionToTablesMap mode =
      actionToTablesMap mode ++ tableNames.filter fun table =>
        tableAction tableActions dbDefaultAction appDefaultAction table = mode := by
  induction tableNames generalizing actionToTablesMap with
  | nil => simp
  | cons table rest ih =>
      rw [List.foldl_cons, ih, sortTable_eq, List.filter_cons]
      by_cases heq : tableAction tableActions dbDefaultAction appDefaultAction table = mode
      · simp [heq, hmode, pushTable]
      have hsame : ∀ action, action ≠ mode →
          pushTable actionToTablesMap action table mode = actionToTablesMap mode :=
        fun action hne => Function.update_of_ne (Ne.symm hne) _ _
      simp only [heq, decide_false, Bool.false_eq_true, if_false]
      split
      · rw [hsame _ heq]
      · rfl

section

variable (env : CleanEnv) (cloudInfo : CloudInfo) (actions : OrderedMap String CloudAction)
variable (configs : OrderedMap String (ClearConfig CloudAction))

theorem appDefault_eq_iff (app : String) {mode : CleanMode}
    (hmode : mode = .cloudData ∨ mode = .cloudInfo) :
    ((convertAction actions).find app).getD .cloudNone = mode ↔
      ((actions.find app).map convertActionType).getD .cloudNone = mode := by
  rw [convertAction, find_filterValues, find_mapValues]
  cases actions.find app with
  | none => rfl
  | some action =>
      rcases hmode with rfl | rfl <;> cases action <;> simp [convertActionType, Option.filter]

/-- The loop finds for a table the action that is resolved for it, as far as it removes. -/
theorem tableAction_eq_iff {app storeId : String} {info : DBActionInfo CloudAction}
    (hinfo : configured configs app storeId = some info) {mode : CleanMode}
    (hmode : mode = .cloudData ∨ mode = .cloudInfo) (table : String) :
    tableAction info.convert.tableInfo info.convert.action
        (((convertAction actions).find app).getD .cloudNone) table = mode ↔
      resolvedAction actions configs app storeId table = mode := by
  have happ := appDefault_eq_iff actions app hmode
  generalize hdbAction : info.convert.action = dbAction
  obtain rfl : convertActionType info.action = dbAction := hdbAction
  unfold tableAction resolvedAction databaseAction
  simp only [hinfo, find_convert_tableInfo, Option.bind_some]
  cases info.tableInfo.find table with
  | some action => rfl
  | none =>
      simp only [Option.map_none]
      by_cases hdb : convertActionType info.action = .cloudNone
      · rw [if_neg (not_not_intro hdb), if_neg (not_not_intro hdb)]
        exact happ
      · rw [if_pos hdb, if_pos hdb]

/-- What the requests for a database come to at an open store: tables that are not there are
left out. -/
def askedRemovals (target : CleanTarget) (app : String) (database : Database) : List Removal :=
  match openStore env target with
  | none => []
  | some store => (requests actions configs app database).map fun request =>
      ⟨target, request.1, getIntersection env.logTable request.2 store.tables⟩

variable (target : CleanTarget)

variable (app : String) (schemaMeta : SchemaMeta) (database : Database)

theorem removalsOf_whole {action : CleanMode}
    (hbyTables : byTables configs app database.name = false)
    (haction : ∀ mode, mode = .cloudData ∨ mode = .cloudInfo →
      (action = mode ↔ databaseAction actions configs app database.name = mode)) :
    removalsOf (if action ≠ .cloudNone then executeDatabaseClean env target action [] else []) =
      askedRemovals env actions configs target app database := by
  have hdata := haction .cloudData (.inl rfl)
  have hinfo := haction .cloudInfo (.inr rfl)
  rw [apply_ite removalsOf, removalsOf_executeDatabaseClean, removalsOf_nil, askedRemovals]
  cases openStore env target with
  | none => simp
  | some store =>
      cases action <;> simp [requests, request, hbyTables, getIntersection, ← hdata, ← hinfo]

theorem removalsOf_executeTableLevelClean (info : DBActionInfo CloudAction)
    (hinfo : configured configs app database.name = some info)
    (hentries : info.tableInfo.entries ≠ []) :
    removalsOf (executeTableLevelClean env target database info.convert.tableInfo
        info.convert.action (((convertAction actions).find app).getD .cloudNone)) =
      askedRemovals env actions configs target app database := by
  have hbyTables : byTables configs app database.name = true := by
    simp [byTables, hinfo, hentries]
  have hgroup : ∀ mode, mode = .cloudData ∨ mode = .cloudInfo →
      database.getTableNames.foldl (sortTable info.convert.tableInfo info.convert.action
          (((convertAction actions).find app).getD .cloudNone)) (fun _ => []) mode =
        database.getTableNames.filter fun table =>
          resolvedAction actions configs app database.name table = mode := by
    intro mode hmode
    rw [foldl_sortTable _ _ _ _ _ (by rcases hmode with rfl | rfl <;> decide), List.nil_append]
    refine List.filter_congr fun table _ => ?_
    rw [decide_eq_decide]
    exact tableAction_eq_iff actions configs hinfo hmode table
  have hdata := hgroup .cloudData (.inl rfl)
  have hinfo' := hgroup .cloudInfo (.inr rfl)
  unfold executeTableLevelClean askedRemovals
  rw [removalsOf_flatMap]
  simp only [apply_ite removalsOf, removalsOf_executeDatabaseClean, removalsOf_nil]
  cases openStore env target with
  | none => simp
  | some store =>
      simp only [CleanMode.all, List.flatMap_cons, List.flatMap_nil, hdata, hinfo', requests,
        request, hbyTables, List.filterMap_cons, List.filterMap_nil]
      generalize database.getTableNames.filter (fun table =>
        resolvedAction actions configs app database.name table = .cloudData) = dataTables
      generalize database.getTableNames.filter (fun table =>
        resolvedAction actions configs app database.name table = .cloudInfo) = infoTables
      by_cases hdataTables : dataTables = [] <;> by_cases hinfoTables : infoTables = [] <;>
        simp [hdataTables, hinfoTables]

theorem removalsOf_cleanDatabase {config : ClearConfig CloudAction}
    (hconfig : configs.find app = some config) :
    removalsOf (cleanDatabase env target database ⟨config.dbInfo.mapValues DBActionInfo.convert⟩
        (((convertAction actions).find app).getD .cloudNone)) =
      askedRemovals env actions configs target app database := by
  have hconfigured : configured configs app database.name = config.dbInfo.find database.name := by
    rw [configured, hconfig]
    rfl
  unfold cleanDatabase
  rw [find_mapValues]
  cases hinfo : config.dbInfo.find database.name with
  | none =>
      rw [hinfo] at hconfigured
      refine removalsOf_whole env actions configs target app database ?_ fun mode hmode => ?_
      · simp [byTables, hconfigured]
      · simp only [databaseAction, hconfigured]
        exact appDefault_eq_iff actions app hmode
  | some info =>
      rw [hinfo] at hconfigured
      by_cases hentries : info.tableInfo.entries = []
      · have hbyTables : byTables configs app database.name = false := by
          simp [byTables, hconfigured, hentries]
        have hempty : ¬ info.convert.tableInfo.entries ≠ [] := by
          simp [DBActionInfo.convert, mapValues, hentries]
        simp only [Option.map_some, if_neg hempty]
        by_cases hdb : convertActionType info.action = .cloudNone
        · rw [if_neg (not_not_intro (show info.convert.action = .cloudNone from hdb))]
          refine removalsOf_whole env actions configs target app database hbyTables
            fun mode hmode => ?_
          simp only [databaseAction, hconfigured, hdb]
          exact appDefault_eq_iff actions app hmode
        · have hwhole : removalsOf (if convertActionType info.action ≠ .cloudNone then
              executeDatabaseClean env target (convertActionType info.action) [] else []) =
                askedRemovals env actions configs target app database := by
            refine removalsOf_whole env actions configs target app database hbyTables
              fun mode _ => ?_
            simp only [databaseAction, hconfigured, if_pos hdb]
          rw [if_pos hdb] at hwhole
          rw [if_pos (show info.convert.action ≠ .cloudNone from hdb)]
          exact hwhole
      · have hnonempty : info.convert.tableInfo.entries ≠ [] := by
          simpa [DBActionInfo.convert, mapValues] using hentries
        simp only [Option.map_some, if_pos hnonempty]
        exact removalsOf_executeTableLevelClean env actions configs target app database info
          hconfigured hentries

theorem removalsOf_doAppLevelClean (hconfig : configs.find app = none) :
    removalsOf (doAppLevelClean env app schemaMeta
        (((convertAction actions).find app).getD .cloudNone)) =
      schemaMeta.databases.flatMap fun database =>
        match getStoreMetaData env app schemaMeta database with
        | none => []
        | some target => askedRemovals env actions configs target app database := by
  have hconfigured : ∀ storeId, configured configs app storeId = none := by
    intro storeId
    rw [configured, hconfig]
    rfl
  have hwhole : ∀ database target, removalsOf
      (if ((convertAction actions).find app).getD .cloudNone ≠ .cloudNone then
        executeDatabaseClean env target (((convertAction actions).find app).getD .cloudNone) []
      else []) = askedRemovals env actions configs target app database := by
    intro database target
    refine removalsOf_whole env actions configs target app database ?_ fun mode hmode => ?_
    · simp [byTables, hconfigured]
    · simp only [databaseAction, hconfigured]
      exact appDefault_eq_iff actions app hmode
  unfold doAppLevelClean
  by_cases hnone : ((convertAction actions).find app).getD .cloudNone = .cloudNone
  · rw [if_pos hnone, removalsOf_nil, eq_comm, List.flatMap_eq_nil_iff]
    intro database _
    cases getStoreMetaData env app schemaMeta database with
    | none => rfl
    | some target =>
        simp only
        rw [← hwhole database target, if_neg (not_not_intro hnone), removalsOf_nil]
  · rw [if_neg hnone, removalsOf_flatMap]
    congr 1
    funext database
    cases getStoreMetaData env app schemaMeta database with
    | none => rfl
    | some target =>
        simp only
        rw [← hwhole database target, if_pos hnone]

/-- What is removed for a database in the schema of an application. -/
def databaseRemovals : List Removal :=
  if cloudInfo.exist app = false then []
  else
    match getStoreMetaData env app schemaMeta database with
    | none => []
    | some target => askedRemovals env actions configs target app database

def appRemovals : List Removal :=
  match env.schema app with
  | none => []
  | some schemaMeta =>
      schemaMeta.databases.flatMap (databaseRemovals env cloudInfo actions configs app schemaMeta)

theorem removalsOf_cleanApp :
    removalsOf (cleanApp env cloudInfo (convertAction actions) (convertConfig configs) app) =
      appRemovals env cloudInfo actions configs app := by
  unfold cleanApp appRemovals databaseRemovals
  split
  · cases env.schema app with
    | none => rfl
    | some schemaMeta => simp
  cases env.schema app with
  | none => rfl
  | some schemaMeta =>
      simp only [convertConfig, find_mapValues]
      cases hconfig : configs.find app with
      | some config =>
          simp only [Option.map_some, doDbTableLevelClean, removalsOf_flatMap]
          congr 1
          funext database
          cases getStoreMetaData env app schemaMeta database with
          | none => rfl
          | some target =>
              exact removalsOf_cleanDatabase env actions configs target app database hconfig
      | none => exact removalsOf_doAppLevelClean env actions configs app schemaMeta hconfig

theorem removalsOf_doClean :
    removalsOf (doClean env cloudInfo (convertAction actions) (convertConfig configs)) =
      (allBundles (convertAction actions) (convertConfig configs)).flatMap
        (appRemovals env cloudInfo actions configs) := by
  rw [doClean, removalsOf_flatMap]
  congr 1
  funext app
  exact removalsOf_cleanApp env cloudInfo actions configs app

end

end DataMgr.Cloud
