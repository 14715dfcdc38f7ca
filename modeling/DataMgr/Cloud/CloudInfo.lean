import DataMgr.Utils.Constant

/-! # Cloud information and schemas

What is kept of a user's cloud: the account, whether the cloud is enabled, and the
applications with their switches. Beside it, for each application, the schema of its
databases. Both are records of the metadata store, under keys made of their fields.
-/

namespace DataMgr.Cloud

open DataMgr.Utils

structure AppInfo where
  bundleName : String := ""
  appId : String := ""
  version : Nat := 0
  instanceId : Int := 0
  cloudSwitch : Bool := false
deriving DecidableEq, Repr

structure CloudInfo where
  user : Int := 0
  id : String := ""
  totalSpace : Nat := 0
  remainSpace : Nat := 0
  maxNumber : Int := 0
  maxSize : Int := 0
  enableCloud : Bool := false
  /-- The entries of a map, in the order of the bundle names. -/
  apps : List (String × AppInfo) := []
deriving DecidableEq, Repr

namespace CloudInfo

def exist (info : CloudInfo) (bundleName : String) (instanceId : Int := 0) : Bool :=
  bundleName ≠ "" && (info.apps.lookup bundleName).any fun app =>
    app.bundleName = bundleName && app.instanceId = instanceId

/-- `operator==`: the applications are compared one by one, without their keys. -/
def same (info other : CloudInfo) : Bool :=
  { info with apps := [] } = { other with apps := [] } &&
    info.apps.map Prod.snd = other.apps.map Prod.snd

def getSchemaKey (user : Int) (bundleName : String) (instanceId : Int := 0) : String :=
  join "CLOUD_SCHEMA" keySeparator [toString user, bundleName, toString instanceId]

def getSchemaPrefix (user : Int) (bundleName : String) : String :=
  if bundleName = "" then join "CLOUD_SCHEMA" keySeparator [toString user]
  else join "CLOUD_SCHEMA" keySeparator [toString user, bundleName]

end CloudInfo

structure Table where
  name : String
  sharedTableName : String := ""
deriving DecidableEq, Repr

structure Database where
  name : String
  /-- `alias`. -/
  aliasName : String := ""
  tables : List Table := []
deriving DecidableEq, Repr

def Database.getTableNames (database : Database) : List String :=
  database.tables.flatMap fun table =>
    if table.sharedTableName = "" then [table.name] else [table.name, table.sharedTableName]

structure SchemaMeta where
  bundleName : String
  databases : List Database
deriving DecidableEq, Repr

end DataMgr.Cloud
