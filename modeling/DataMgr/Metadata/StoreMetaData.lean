import DataMgr.Utils.Constant

/-! # Store metadata and its keys

A store is recorded under several keys, all made of the same fields: the store meta and
its local part by device, user, bundle, store, instance and path, the secret key without
the device, and the older forms of these keys without the path. A field is not escaped
when it is put into a key.
-/

namespace DataMgr.Metadata

open DataMgr.Utils

def currentVersion : Nat := 0x03000006

/-- From this version on the instance is always part of the secret key's key. -/
def uuidChangedTag : Nat := 0x03000004

structure StoreMetaData where
  version : Nat := currentVersion
  isAutoSync : Bool := false
  autoSyncSwitch : Bool := true
  isBackup : Bool := false
  isDirty : Bool := false
  isEncrypt : Bool := false
  isManualClean : Bool := false
  isManualCleanDevice : Bool := false
  isSearchable : Bool := false
  isNeedCompress : Bool := false
  enableCloud : Bool := false
  cloudAutoSync : Bool := false
  customSwitch : Bool := false
  dataType : Int := -1
  storeType : Int := -1
  securityLevel : Int := 0
  area : Int := 0
  uid : Int := -1
  instanceId : Int := 0
  haMode : Int := 0
  tokenId : Nat := 0
  appId : String := ""
  appType : String := ""
  bundleName : String := ""
  hapName : String := ""
  dataDir : String := ""
  customDir : String := ""
  deviceId : String := ""
  schema : String := ""
  storeId : String := ""
  user : String := ""
  account : String := ""
  authType : Int := 0
  asyncDownloadAsset : Bool := false
  isNeedUpdateDeviceId : Bool := false
  assetConflictPolicy : Int := 0
  assetTempPath : String := ""
  assetDownloadOnDemand : Bool := false
  filterMode : Nat := 0
deriving DecidableEq, Repr

structure SecretKeyMetaData where
  time : List UInt8 := []
  sKey : List UInt8 := []
  nonce : List UInt8 := []
  storeType : Int := 0
  area : Int := -1
deriving DecidableEq, Repr

namespace SecretKeyMetaData

def getPrefix (fields : List String) : String :=
  join "SecretKey" keySeparator fields ++ keySeparator

def getKey (fields : List String) : String := getPrefix fields ++ "SINGLE_KEY"

def getCloneKey (fields : List String) : String := "Clone" ++ keySeparator ++ getKey fields

end SecretKeyMetaData

namespace StoreMetaData

def getKeyOf (fields : List String) : String := join "KvStoreMetaData" keySeparator fields

def getPrefix (fields : List String) : String := getKeyOf fields ++ keySeparator

variable (self : StoreMetaData)

def fieldsWithoutPath : List String :=
  [self.deviceId, self.user, "default", self.bundleName, self.storeId] ++
    if self.instanceId = 0 then [] else [toString self.instanceId]

def fields : List String := self.fieldsWithoutPath ++ [self.dataDir]

def secretFieldsWithoutPath : List String :=
  [self.user, "default", self.bundleName, self.storeId] ++
    if self.version < uuidChangedTag then [] else [toString self.instanceId]

def secretFields : List String :=
  self.secretFieldsWithoutPath ++ [self.dataDir]

/-- The fields of debug and dfx information: the instance always. -/
def infoFieldsWithoutPath : List String :=
  [self.deviceId, self.user, "default", self.bundleName, self.storeId, toString self.instanceId]

def infoFields : List String := self.infoFieldsWithoutPath ++ [self.dataDir]

def getKey : String := getKeyOf self.fields

def getKeyWithoutPath : String := getKeyOf self.fieldsWithoutPath

def getKeyLocal : String :=
  join "KvStoreMetaDataLocal" keySeparator self.fields

def getKeyLocalWithoutPath : String :=
  join "KvStoreMetaDataLocal" keySeparator self.fieldsWithoutPath

def getSecretKey : String := SecretKeyMetaData.getKey self.secretFields

def getSecretKeyWithoutPath : String :=
  SecretKeyMetaData.getKey self.secretFieldsWithoutPath

def getCloneSecretKey : String :=
  SecretKeyMetaData.getCloneKey
    [self.user, "default", self.bundleName, self.storeId, toString self.instanceId]

def getStrategyKey : String :=
  join "StrategyMetaData" keySeparator self.fieldsWithoutPath

def getAutoLaunchKey : String :=
  join "AutoLaunchMetaData" keySeparator
    [self.deviceId, self.user, "default", self.bundleName, self.storeId]

def getDebugInfoKey : String :=
  join "StoreDebugInfo" keySeparator self.infoFields

def getDebugInfoKeyWithoutPath : String :=
  join "StoreDebugInfo" keySeparator self.infoFieldsWithoutPath

def getDfxInfoKey : String :=
  join "StoreDfxInfo" keySeparator self.infoFields ++ keySeparator

def getDfxInfoKeyWithoutPath : String :=
  join "StoreDfxInfo" keySeparator self.infoFieldsWithoutPath ++ keySeparator

end StoreMetaData

structure StoreMetaMapping extends StoreMetaData where
  cloudPath : String := ""
  devicePath : String := ""
  searchPath : String := ""
deriving DecidableEq, Repr

namespace StoreMetaMapping

def getKeyOf (fields : List String) : String := join "StoreMetaMapping" keySeparator fields

def getPrefix (fields : List String) : String := getKeyOf fields ++ keySeparator

def getKey (self : StoreMetaMapping) : String := getKeyOf self.toStoreMetaData.fieldsWithoutPath

def ofMeta (storeMeta : StoreMetaData) : StoreMetaMapping := { toStoreMetaData := storeMeta }

end StoreMetaMapping

end DataMgr.Metadata
