import DataMgr.Object.ObjectStore

/-! # Notifying the observers of an object

Observers are kept by token and, under each token, by the bundle and the session they are
registered for, put together without a separator. A change that arrives from another
device is sorted by the same kind of key. Each observer carries what it was registered
for; the code sees its key only.
-/

namespace DataMgr.Object

structure Observer where
  proxy : Nat
  bundleName : Text
  sessionId : Text
deriving DecidableEq, Repr

structure CallbackInfo where
  pid : Int := 0
  observers : List (Text × Observer) := []
deriving DecidableEq, Repr

abbrev Callbacks := List (Nat × CallbackInfo)

def objectKey (bundleName sessionId : Text) : Text := bundleName ++ sessionId

variable (callbacks : Callbacks)

namespace Callbacks

/-- The entry an action runs on, created if it is absent. -/
def info (tokenId : Nat) : CallbackInfo :=
  (callbacks.lookup tokenId).getD {}

def registerRemoteCallback (observer : Observer) (pid : Int) (tokenId : Nat) : Callbacks :=
  if observer.bundleName = [] ∨ observer.sessionId = [] then callbacks
  else
    let value := callbacks.info tokenId
    let value := if value.pid ≠ pid then { pid } else value
    let key := objectKey observer.bundleName observer.sessionId
    assign tokenId { value with observers := assign key observer value.observers } callbacks

def unregisterRemoteCallback (bundleName : Text) (pid : Int) (tokenId : Nat) (sessionId : Text) :
    Callbacks :=
  if bundleName = [] then callbacks
  else
    let value := callbacks.info tokenId
    if value.pid ≠ pid then assign tokenId value callbacks
    else if sessionId = [] then callbacks.filter fun entry => entry.1 ≠ tokenId
    else
      let key := objectKey bundleName sessionId
      assign tokenId { value with observers := value.observers.filter fun item => item.1 ≠ key }
        callbacks

end Callbacks

inductive CallbackCall where
  | register (observer : Observer) (pid : Int) (tokenId : Nat)
  | unregister (bundleName : Text) (pid : Int) (tokenId : Nat) (sessionId : Text)
  | clear
deriving DecidableEq, Repr

def Callbacks.after : CallbackCall → Callbacks
  | .register observer pid tokenId => callbacks.registerRemoteCallback observer pid tokenId
  | .unregister bundleName pid tokenId sessionId =>
      callbacks.unregisterRemoteCallback bundleName pid tokenId sessionId
  | .clear => []

def registered (calls : List CallbackCall) : Callbacks := calls.foldl Callbacks.after []

structure SaveInfo where
  bundleName : Text := []
  sessionId : Text := []
  sourceDeviceId : Text := []
  targetDeviceId : Text := []
  timestamp : Text := []
deriving DecidableEq, Repr

def SaveInfo.toPropertyPrefix (info : SaveInfo) : Text :=
  if info.bundleName = [] ∨ info.sessionId = [] ∨ info.sourceDeviceId = [] ∨
      info.targetDeviceId = [] ∨ info.timestamp = [] then []
  else
    getPropertyPrefix info.sourceDeviceId info.bundleName info.sessionId info.targetDeviceId ++
      info.timestamp ++ [seperator]

section

variable {β : Type}

abbrev ObjectRecord (β : Type) := List (Text × β)

abbrev ObjectData (β : Type) := List (Text × ObjectRecord β)

def ObjectData.put (data : ObjectData β) (key propertyName : Text) (value : β) : ObjectData β :=
  assign key (assign propertyName value ((data.lookup key).getD [])) data

def isAssetKey (key : Text) : Bool := '.' ∈ key

/-- The save info of the first key that contains its name; `unmarshall` leaves the fields
empty that the text does not have. -/
def findSaveInfo (unmarshall : β → SaveInfo) (changedData : ObjectRecord β) : SaveInfo :=
  match changedData.find? fun item => saveInfoName <:+: item.1 with
  | none => {}
  | some item => unmarshall item.2

/-- The records so far, the save info, and whether there is an asset. -/
structure Sorted (β : Type) where
  data : ObjectData β := []
  saveInfo : SaveInfo
  hasAsset : Bool := false

/-- One round of the loop if the change has a save info: the property is what follows as
many characters as the prefix has. -/
def Sorted.addSaved (sorted : Sorted β) (item : Text × β) : Sorted β :=
  let keyPrefix := sorted.saveInfo.toPropertyPrefix
  if item.1.length < keyPrefix.length ∨ saveInfoName <:+: item.1 then sorted
  else
    let propertyName := item.1.drop keyPrefix.length
    { sorted with
      data := sorted.data.put (objectKey sorted.saveInfo.bundleName sorted.saveInfo.sessionId)
        propertyName item.2
      hasAsset := sorted.hasAsset || isAssetKey propertyName }

/-- One round of the loop otherwise: bundle, session and property are read from the key. -/
def Sorted.addSplit (sorted : Sorted β) (item : Text × β) : Sorted β :=
  match splitEntryKey item.1 with
  | none => sorted
  | some splitKeys =>
      { data := sorted.data.put (objectKey splitKeys.bundleName splitKeys.sessionId)
          splitKeys.propertyName item.2
        hasAsset := sorted.hasAsset || isAssetKey splitKeys.propertyName
        saveInfo :=
          if sorted.saveInfo.sourceDeviceId = [] ∨ sorted.saveInfo.bundleName = [] then
            { sorted.saveInfo with
              sourceDeviceId := splitKeys.sourceDeviceUdid, bundleName := splitKeys.bundleName
              sessionId := splitKeys.sessionId, timestamp := splitKeys.time }
          else sorted.saveInfo }

def getObjectData (changedData : ObjectRecord β) (saveInfo : SaveInfo) : Sorted β :=
  if saveInfo.toPropertyPrefix ≠ [] then changedData.foldl Sorted.addSaved { saveInfo }
  else changedData.foldl Sorted.addSplit { saveInfo }

inductive RestoreStatus where
  | none
  | dataReady
  | dataNotified
  | assetsReady
  | allReady
deriving DecidableEq, Repr

abbrev StatusMap := Text → Option RestoreStatus

structure Delivery (β : Type) where
  observer : Observer
  record : ObjectRecord β
  allReady : Bool
deriving DecidableEq, Repr

def statusAfterNotify (allReady : Bool) (status : Option RestoreStatus) : Option RestoreStatus :=
  if allReady then none else status.map fun _ => .dataNotified

/-- The status word after data with assets has arrived, and whether all is ready then; an
observer that is told changes it once more. -/
def statusAfterData (observed : Bool) (status : Option RestoreStatus) :
    Option RestoreStatus × Bool :=
  let allReady : Bool := status = some .assetsReady
  let status : RestoreStatus := if allReady then .allReady else .dataReady
  (if observed then statusAfterNotify allReady (some status) else some status, allReady)

def doNotify (data : ObjectData β) (allReady : Bool) :
    List (Text × Observer) → StatusMap → List (Delivery β) × StatusMap
  | [], status => ([], status)
  | (key, observer) :: rest, status =>
      match data.lookup key with
      | none => doNotify data allReady rest status
      | some record =>
          let (later, status) := doNotify data allReady rest
            (Function.update status key (statusAfterNotify allReady (status key)))
          ({ observer, record, allReady } :: later, status)

def notifyAll (data : ObjectData β) (allReady : Bool) :
    Callbacks → StatusMap → List (Delivery β) × StatusMap
  | [], status => ([], status)
  | (_, value) :: rest, status =>
      let (first, status) := doNotify data allReady value.observers status
      let (later, status) := notifyAll data allReady rest status
      (first ++ later, status)

/-- The timer of `WaitAssets` tells no data. -/
def computeStatus (callbacks : Callbacks) (key : Text) (data : ObjectData β) (status : StatusMap) :
    List (Delivery β) × StatusMap :=
  if status key = some .assetsReady then
    notifyAll data true callbacks (Function.update status key (some .allReady))
  else notifyAll data false callbacks (Function.update status key (some .dataReady))

/-- `NotifyDataChanged`, over the keys that are left. -/
def notifyDataChanged (callbacks : Callbacks) (data : ObjectData β) :
    List Text → StatusMap → List (Delivery β) × StatusMap
  | [], status => ([], status)
  | key :: rest, status =>
      let status := Function.update status key (some ((status key).getD .none))
      let (first, status) := computeStatus callbacks key data status
      let (later, status) := notifyDataChanged callbacks data rest status
      (first ++ later, status)

def notifyChange (unmarshall : β → SaveInfo) (callbacks : Callbacks) (changedData : ObjectRecord β)
    (status : StatusMap) : List (Delivery β) × StatusMap :=
  let sorted := getObjectData changedData (findSaveInfo unmarshall changedData)
  if !sorted.hasAsset then notifyAll sorted.data true callbacks status
  else notifyDataChanged callbacks sorted.data (sorted.data.map Prod.fst) status

end

end DataMgr.Object
