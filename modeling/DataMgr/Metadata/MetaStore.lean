import DataMgr.Matrix.DeviceMatrix
import DataMgr.Metadata.StoreMetaData

/-! # The content of the metadata store

One map for each kind of record. A key starts with the word of its kind, so records of
different kinds never share a key. Local records stay on the device; the others are
synchronised.
-/

namespace DataMgr.Metadata

open DataMgr.Utils DataMgr.Matrix

structure PolicyValue where
  type : BitVec 32 := 0xFFFFFFFF#32
  index : BitVec 32 := 0#32
  valueUint : BitVec 32 := 0#32
deriving DecidableEq, Repr

structure PromiseInfo where
  tokenIds : List Nat := []
  uids : List Int := []
  permissionNames : List String := []
deriving DecidableEq, Repr

structure StoreMetaDataLocal where
  isAutoSync : Bool := false
  autoSyncSwitch : Bool := false
  isBackup : Bool := false
  isDirty : Bool := false
  isEncrypt : Bool := false
  isPublic : Bool := false
  dataDir : String := ""
  schema : String := ""
  policies : List PolicyValue := []
  promiseInfo : PromiseInfo := {}
deriving DecidableEq, Repr

structure CapabilityRange where
  localLabel : List String := []
  remoteLabel : List String := []
deriving DecidableEq, Repr

structure StrategyMeta where
  devId : String := ""
  userId : String := ""
  bundleName : String := ""
  instanceId : Int := 0
  storeId : String := ""
  capabilityEnabled : Bool := false
  capabilityRange : CapabilityRange := {}
deriving DecidableEq, Repr

structure AutoLaunchMetaData where
  datas : List (String × List String) := []
  launchForCleanData : Bool := false
deriving DecidableEq, Repr

structure UserStatus where
  id : Int
  isActive : Bool
deriving DecidableEq, Repr

structure UserMetaData where
  deviceId : String := ""
  users : List UserStatus := []
deriving DecidableEq, Repr

def UserMetaRow.getKeyFor (key : String) : String := concatenate ["UserMeta", keySeparator, key]

structure CapMetaData where
  version : Int := -1
  deviceId : String := ""
deriving DecidableEq, Repr

def CapMetaRow.getKeyFor (key : String) : String :=
  concatenate ["CapabilityMeta", keySeparator, key]

structure DeviceMetaData where
  newUuid : String := ""
deriving DecidableEq, Repr

structure MetaStore where
  /-- Local records. -/
  storeMetas : String → Option StoreMetaData := fun _ => none
  localMetas : String → Option StoreMetaDataLocal := fun _ => none
  secretKeys : String → Option SecretKeyMetaData := fun _ => none
  mappings : String → Option StoreMetaMapping := fun _ => none
  autoLaunches : String → Option AutoLaunchMetaData := fun _ => none
  /-- Of debug and dfx information only the presence matters here. -/
  debugInfos : String → Option String := fun _ => none
  dfxInfos : String → Option String := fun _ => none
  localMatrices : String → Option MatrixMetaData := fun _ => none
  switches : String → Option SwitchesMetaData := fun _ => none
  /-- The one record of the device. -/
  device : Option DeviceMetaData := none
  /-- Synchronised records. -/
  syncMetas : String → Option StoreMetaData := fun _ => none
  strategies : String → Option StrategyMeta := fun _ => none
  syncMatrices : String → Option MatrixMetaData := fun _ => none
  users : String → Option UserMetaData := fun _ => none
  capabilities : String → Option CapMetaData := fun _ => none

end DataMgr.Metadata
