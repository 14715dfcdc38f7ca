import DataMgr.Cloud.CloudInfo
import DataMgr.Foundation.OrderedMap
import DataMgr.Store.GeneralStore

/-! # Cleaning cloud data

A request to clean names an action for each application and, beside that, configurations with
actions for single databases and tables. `DoClean` goes through the schemas of the
applications, finds out what is to be done with each database, and has the store carry it
out. What reaches a store's database is kept as a list of effects, each with the application
it was done for.
-/

namespace DataMgr.Cloud

open DataMgr.Foundation DataMgr.Store

/-- `CloudService::Action`, as the caller gives it. -/
inductive CloudAction where
  | clearCloudInfo
  | clearCloudDataAndInfo
  | clearCloudNone
  | invalid (code : Int)
deriving DecidableEq, Repr

/-- `GeneralStore::CleanMode`, in declaration order. -/
inductive CleanMode where
  | nearbyData
  | cloudData
  | cloudInfo
  | localData
  | cleanWater
  | cloudNone
  | cleanModeButt
deriving DecidableEq, Repr

namespace CleanMode

/-- In the order of their numbers. -/
def all : List CleanMode :=
  [nearbyData, cloudData, cloudInfo, localData, cleanWater, cloudNone, cleanModeButt]

end CleanMode

def convertActionType : CloudAction → CleanMode
  | .clearCloudInfo => .cloudInfo
  | .clearCloudDataAndInfo => .cloudData
  | .clearCloudNone => .cloudNone
  | .invalid _ => .cleanModeButt

/-- What is to be done with a database and with tables of it. -/
structure DBActionInfo (γ : Type) where
  action : γ
  tableInfo : OrderedMap String γ

structure ClearConfig (γ : Type) where
  dbInfo : OrderedMap String (DBActionInfo γ)

/-- An application with an invalid action is dropped. -/
def convertAction (actions : OrderedMap String CloudAction) : OrderedMap String CleanMode :=
  (actions.mapValues convertActionType).filterValues (· ≠ .cleanModeButt)

/-- `RelationalStoreManager::GetDistributedLogTableName`. -/
abbrev LogTableName := String → String

variable (info : DBActionInfo CloudAction) (actions : OrderedMap String CleanMode)
  (configs : OrderedMap String (ClearConfig CleanMode)) (logTable : LogTableName)

def DBActionInfo.convert : DBActionInfo CleanMode where
  action := convertActionType info.action
  tableInfo := info.tableInfo.mapValues convertActionType

@[simp] theorem DBActionInfo.find_convert_tableInfo (table : String) :
    info.convert.tableInfo.find table = (info.tableInfo.find table).map convertActionType :=
  OrderedMap.find_mapValues convertActionType info.tableInfo table

/-- Invalid actions of databases and tables are kept. -/
def convertConfig (configs : OrderedMap String (ClearConfig CloudAction)) :
    OrderedMap String (ClearConfig CleanMode) :=
  configs.mapValues fun config => ⟨config.dbInfo.mapValues DBActionInfo.convert⟩

/-- A relational store, the tables of its database, and what the database answers. -/
structure CleanStore where
  isClosed : Bool := false
  delegate : Bool := true
  tables : List String := []
  removes : Bool := true
deriving DecidableEq, Repr

/-- The tables that are there, with their log. -/
def getIntersection (syncTables localTables : List String) : List String :=
  syncTables.filter fun table => table ∈ localTables ∧ logTable table ∈ localTables

/-- What `Clean` returns, and the tables for which it calls `RemoveDeviceData`, no table for the
whole database. Each such call is followed by one that clears the shared tables. -/
def CleanStore.clean (store : CleanStore) (mode : CleanMode) (tableList : List String) :
    GeneralError × Option (List String) :=
  if store.isClosed then (.eAlreadyClosed, none)
  else if mode ≠ .cloudInfo ∧ mode ≠ .cloudData then (.eInvalidArgs, none)
  else if store.delegate = false then (.eAlreadyClosed, none)
  else
    (if store.removes then .eOk else .eError,
      some (getIntersection logTable tableList store.tables))

theorem CleanStore.clean_tables (store : CleanStore) (mode : CleanMode) (tableList : List String) :
    (store.clean logTable mode tableList).2 =
      if store.isClosed = false ∧ store.delegate = true ∧ (mode = .cloudData ∨ mode = .cloudInfo)
      then some (getIntersection logTable tableList store.tables) else none := by
  unfold CleanStore.clean
  cases store.isClosed with
  | true => simp
  | false =>
      cases store.delegate with
      | false =>
          simp only [Bool.false_eq_true, false_and, and_false, if_false, if_true]
          split <;> rfl
      | true => cases mode <;> simp

/-- Metadata and stores: the schema saved for an application, the user under whose name the
metadata of one of its stores is found, and the store itself. -/
structure CleanEnv where
  schema : String → Option SchemaMeta
  storeMeta : String → String → Option String
  store : String → String → Option CleanStore
  logTable : LogTableName

/-- A store on which something is done, and the application for which it is done. -/
structure CleanTarget where
  app : String
  user : String
  bundleName : String
  storeId : String
deriving DecidableEq, Repr

inductive CleanEffect where
  /-- The event `CLEAN_DATA`. -/
  | notify (target : CleanTarget)
  /-- No table stands for the whole database. -/
  | removeDeviceData (target : CleanTarget) (mode : CleanMode) (tables : List String)
  | clearSharedTable (target : CleanTarget)
deriving DecidableEq, Repr

section

variable (env : CleanEnv)

variable (app : String) (schemaMeta : SchemaMeta) (target : CleanTarget) (database : Database)
  (config : ClearConfig CleanMode) (tableActions : OrderedMap String CleanMode)
  (dbDefaultAction appDefaultAction : CleanMode) (actionToTablesMap : CleanMode → List String)

def executeDatabaseClean (action : CleanMode) (tableList : List String) : List CleanEffect :=
  match env.store target.bundleName target.storeId with
  | none => []
  | some store =>
      (if action ≠ .cleanWater then [.notify target] else []) ++
        match (store.clean env.logTable action tableList).2 with
        | none => []
        | some tables => [.removeDeviceData target action tables, .clearSharedTable target]

/-- `GetStoreMetaData` for a database of a schema; without metadata the database is skipped. -/
def getStoreMetaData : Option CleanTarget :=
  (env.storeMeta schemaMeta.bundleName database.name).map fun user =>
    ⟨app, user, schemaMeta.bundleName, database.name⟩

def doAppLevelClean (appAction : CleanMode) : List CleanEffect :=
  if appAction = .cloudNone then []
  else
    schemaMeta.databases.flatMap fun database =>
      match getStoreMetaData env app schemaMeta database with
      | none => []
      | some target => executeDatabaseClean env target appAction []

def pushTable (action : CleanMode) (tableName : String) : CleanMode → List String :=
  Function.update actionToTablesMap action (actionToTablesMap action ++ [tableName])

/-- One turn of the loop over the tables. -/
def sortTable (tableName : String) : CleanMode → List String :=
  match tableActions.find tableName with
  | some action =>
      if action ≠ .cloudNone then pushTable actionToTablesMap action tableName
      else actionToTablesMap
  | none =>
      if dbDefaultAction ≠ .cloudNone then pushTable actionToTablesMap dbDefaultAction tableName
      else if appDefaultAction ≠ .cloudNone then
        pushTable actionToTablesMap appDefaultAction tableName
      else actionToTablesMap

def executeTableLevelClean : List CleanEffect :=
  let actionToTablesMap := database.getTableNames.foldl
    (sortTable tableActions dbDefaultAction appDefaultAction) fun _ => []
  CleanMode.all.flatMap fun action =>
    if actionToTablesMap action ≠ [] then
      executeDatabaseClean env target action (actionToTablesMap action)
    else []

/-- What `DoDbTableLevelClean` does with a database that has metadata. -/
def cleanDatabase (appDefaultAction : CleanMode) : List CleanEffect :=
  match config.dbInfo.find database.name with
  | none =>
      if appDefaultAction ≠ .cloudNone then executeDatabaseClean env target appDefaultAction []
      else []
  | some dbActionInfo =>
      if dbActionInfo.tableInfo.entries ≠ [] then
        executeTableLevelClean env target database dbActionInfo.tableInfo dbActionInfo.action
          appDefaultAction
      else if dbActionInfo.action ≠ .cloudNone then
        executeDatabaseClean env target dbActionInfo.action []
      else if appDefaultAction ≠ .cloudNone then
        executeDatabaseClean env target appDefaultAction []
      else []

def doDbTableLevelClean (appDefaultAction : CleanMode) : List CleanEffect :=
  schemaMeta.databases.flatMap fun database =>
    match getStoreMetaData env app schemaMeta database with
    | none => []
    | some target => cleanDatabase env target database config appDefaultAction

/-- The turn of the loop of `DoClean` for one application. -/
def cleanApp (cloudInfo : CloudInfo) (actions : OrderedMap String CleanMode)
    (configs : OrderedMap String (ClearConfig CleanMode)) (bundle : String) : List CleanEffect :=
  if cloudInfo.exist bundle = false then []
  else
    match env.schema bundle with
    | none => []
    | some schemaMeta =>
        let appDefaultAction := (actions.find bundle).getD .cloudNone
        match configs.find bundle with
        | some config => doDbTableLevelClean env bundle schemaMeta config appDefaultAction
        | none => doAppLevelClean env bundle schemaMeta appDefaultAction

def allBundles : List String :=
  (actions.keys ++ configs.keys).dedup.insertionSort (· ≤ ·)

def doClean (cloudInfo : CloudInfo) (actions : OrderedMap String CleanMode)
    (configs : OrderedMap String (ClearConfig CleanMode)) : List CleanEffect :=
  (allBundles actions configs).flatMap (cleanApp env cloudInfo actions configs)

end

theorem mem_allBundles {actions : OrderedMap String CleanMode}
    {configs : OrderedMap String (ClearConfig CleanMode)} {bundle : String} :
    bundle ∈ allBundles actions configs ↔ bundle ∈ actions.keys ∨ bundle ∈ configs.keys := by
  simp [allBundles]

theorem nodup_allBundles : (allBundles actions configs).Nodup :=
  (List.perm_insertionSort _ _).nodup_iff.mpr (List.nodup_dedup _)

end DataMgr.Cloud
