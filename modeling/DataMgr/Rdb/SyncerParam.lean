import DataMgr.Metadata.StoreMetaData

/-! # The meta of the store a caller names

A call of the relational service names a store by its parameters. `GetStoreMetaData` makes
the meta of the store from them and from what the service knows of the caller; the path is
the caller's directory and the store's name, or, for a native caller, the given path.
-/

namespace DataMgr.Rdb

open DataMgr.Metadata

inductive RdbStatus
  | ok
  | error
deriving DecidableEq, Repr

inductive TokenType
  | hap
  | native
  | shell
  | other
deriving DecidableEq, Repr

/-- The fields of `RdbSyncerParam` that make up the meta of a store. -/
structure RdbSyncerParam where
  bundleName : String := ""
  hapName : String := ""
  storeName : String := ""
  customDir : String := ""
  dbPath : String := ""
  area : Int := 0
  level : Int := 0
  type : Int := 0
  subUser : Int := 0
  haMode : Int := 0
  isEncrypt : Bool := false
  isAutoClean : Bool := true
  isAutoCleanDevice : Bool := true
  isSearchable : Bool := false
  asyncDownloadAsset : Bool := false
  autoSyncSwitch : Bool := true
  assetConflictPolicy : Int := 0
  assetTempPath : String := ""
  assetDownloadOnDemand : Bool := false

structure Caller where
  uid : Int
  tokenId : Nat
  tokenType : TokenType
  /-- the instance and the user of the token, if its information can be read -/
  hapTokenInfo : Option (Int × Int)
  isSystemApp : Bool
  uuid : String
  account : String
  appId : StoreMetaData → String
  storePath : StoreMetaData → String
  isValid : (bundleName storeId : String) → Bool

def removeSuffix (name : String) : String :=
  if ".db".toList <:+ name.toList then String.ofList (name.toList.take (name.toList.length - 3))
  else name

def Caller.getInstIndexAndUser (caller : Caller) : Int × Int :=
  if caller.tokenType ≠ .hap then (0, 0) else caller.hapTokenInfo.getD (-1, -1)

def getStoreMetaData (caller : Caller) (param : RdbSyncerParam) : StoreMetaData :=
  let (instanceId, user) := caller.getInstIndexAndUser
  let named : StoreMetaData :=
    { uid := caller.uid
      tokenId := caller.tokenId
      instanceId := instanceId
      bundleName := param.bundleName
      deviceId := caller.uuid
      storeId := removeSuffix param.storeName
      user := if caller.tokenType ≠ .hap ∧ param.subUser ≠ 0 then toString param.subUser
        else toString user
      storeType := param.type
      securityLevel := param.level
      area := if param.area < 0 ∨ param.area > 5 then 0xff else param.area }
  let placed : StoreMetaData :=
    { named with
      appId := caller.appId named
      appType := "harmony"
      hapName := param.hapName
      customDir := param.customDir }
  { placed with
    dataDir :=
      if param.dbPath ≠ "" ∧ caller.tokenType = .native ∧
          param.bundleName.toList <:+: param.dbPath.toList ∧
          ¬ "..".toList <:+: param.dbPath.toList then param.dbPath
      else caller.storePath placed ++ "/" ++ param.storeName
    account := caller.account
    isEncrypt := param.isEncrypt
    isManualClean := !param.isAutoClean
    isManualCleanDevice := if caller.isSystemApp then !param.isAutoCleanDevice else false
    isSearchable := param.isSearchable
    haMode := param.haMode
    asyncDownloadAsset := param.asyncDownloadAsset
    autoSyncSwitch := param.autoSyncSwitch
    assetConflictPolicy := param.assetConflictPolicy
    assetTempPath := param.assetTempPath
    assetDownloadOnDemand := param.assetDownloadOnDemand }

end DataMgr.Rdb
