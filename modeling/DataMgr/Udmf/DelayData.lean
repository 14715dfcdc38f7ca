import DataMgr.Foundation.Machine
import DataMgr.Udmf.Service

/-! # Delayed data

An application registers a key with `SetDelayInfo` and provides the data later with
`PushDelayData`. In between, requesters wait for the key: on a block, inside `GetData`,
or with a callback left by `GetDataIfAvailable`. Runs interleave the calls of any
tokens; a `GetData` that waits returns in a later step.
-/

namespace DataMgr.Udmf

open DataMgr.Foundation

structure Delivery where
  key : String
  requester : Token
  pushed : Pushed
deriving DecidableEq, Repr

section

variable (env : ServiceEnv)

variable (st : ServiceState) (tokenId : Token) (key : String) (unifiedData : UnifiedData)

/-- `FillDelayRuntimeInfo`: the key and the data that stands for what is to come. -/
def fillDelayRuntimeInfo (sequenceKey : String) (recordCount : Nat) :
    Option (String × UnifiedData) :=
  (env.specificBundleName tokenId).map fun (specificBundleName, bundleName) =>
    let key := env.unifiedKey dragIntention specificBundleName sequenceKey
    let runtime : Runtime :=
      { key := key, privileges := [⟨tokenId, ""⟩], sourcePackage := bundleName,
        deviceId := env.localDeviceId, recordTotalNum := recordCount, tokenId := tokenId,
        dataStatus := .waiting, permissionPolicyMode := permissionPolicyModeMask }
    (key, ⟨some runtime, none, []⟩)

/-- `SetDelayInfo`: the status, the key and the state. The callback is registered before
the store is written. -/
def setDelayInfo (sequenceKey : String) (recordCount : Nat) (notifier : Option Notifier) :
    Status × Option String × ServiceState :=
  if !env.isDraggable tokenId then (.eNoPermission, none, st)
  else
    match fillDelayRuntimeInfo env tokenId sequenceKey recordCount with
    | none => (.eError, none, st)
    | some (key, delayData) =>
        let st := registerDataLoadCallback st key notifier
        match st.stores[dragIntention]? with
        | none => (.eDbError, some key, st)
        | some store =>
            let (status, store) := store.putDelayData key delayData
            let st := { st with stores := st.stores.insert dragIntention store }
            (if status = .eOk then .eOk else .eDbError, some key, st)

def checkAddPrivilegePermission (intention processName : String) : Bool :=
  if env.fileManagerIntention intention then env.fileManagerAllows tokenId intention
  else if intention = dragIntention then dragAuthorizedProcesses.contains processName
  else false

def addPrivilege (privilege : Privilege) : Status × ServiceState :=
  match env.intentionOf key, env.nativeProcessName tokenId with
  | none, _ => (.eInvalidParameters, st)
  | some _, none => (.eError, st)
  | some intention, some processName =>
      if !checkAddPrivilegePermission env tokenId intention processName then (.eNoPermission, st)
      else if !env.isNativeToken tokenId then (.eNoPermission, st)
      else
        match st.stores[intention]? with
        | none => (.eDbError, st)
        | some store =>
            match store.getRuntime key with
            | (.eNotFound, _) => (.eOk, cachePrivilege st)
            | (.eOk, some runtime) =>
                if runtime.dataStatus = .waiting then (.eOk, cachePrivilege st)
                else
                  let (status, store) := store.putRuntime key
                    { runtime with privileges := runtime.privileges ++ [privilege] }
                  (handleDbError status, { st with stores := st.stores.insert intention store })
            | (status, _) => (handleDbError status, st)
where
  cachePrivilege (st : ServiceState) : ServiceState :=
    { st with
      privilegeCache := st.privilegeCache.insert key
        ((st.privilegeCache[key]?).getD [] ++ [privilege]) }

def fillDelayUnifiedData : Status × UnifiedData :=
  match env.specificBundleName tokenId with
  | none => (.eError, unifiedData)
  | some (_, bundleName) =>
      let runtime : Runtime :=
        { key := key, privileges := [⟨tokenId, ""⟩], sourcePackage := bundleName,
          deviceId := env.localDeviceId, recordTotalNum := unifiedData.records.length,
          tokenId := tokenId, dataStatus := .working,
          permissionPolicyMode := permissionPolicyModeMask }
      handleFileUris env.toPreprocessEnv tokenId { unifiedData with runtime := some runtime }

/-- `UpdateDelayData`, the one path that compares the caller with the registrant. -/
def updateDelayData : Status × ServiceState :=
  match st.stores[dragIntention]? with
  | none => (.eDbError, st)
  | some store =>
      match store.get key with
      | (.eOk, storedData) =>
          match storedData.runtime with
          | none => (.eDbError, st)
          | some runtime =>
              if runtime.tokenId ≠ tokenId then (.eNoPermission, st)
              else
                match store.update key unifiedData with
                | (.eOk, store) =>
                    (if env.hasDevicesForDelayData then .eOk else .eError,
                      { st with stores := st.stores.insert dragIntention store })
                | (_, store) =>
                    (.eDbError, { st with stores := st.stores.insert dragIntention store })
      | (status, _) => (if handleDbError status = .eDbError then .eDbError else .eError, st)

/-- The token that waits for a key: the callback's, or else the block's. -/
def requester? : Option Token :=
  ((st.delayDataCallback[key]?).map DelayGetDataInfo.tokenId).or
    ((st.blockDelayDataCache[key]?).map BlockDelayData.tokenId)

/-- What `PushDelayData` does before it hands the data to the requester. -/
def preparePush (requester tokenId : Token) (key : String) (unifiedData : UnifiedData) :
    Status × UnifiedData :=
  if tokenId ≠ requester && !isPermissionInCache st requester key then
    (.eNoPermission, unifiedData)
  else
    match processUri env requester unifiedData with
    | (.eOk, unifiedData) => (.eOk, env.transferToEntries requester (setRemoteData env unifiedData))
    | (_, unifiedData) => (.eNoPermission, unifiedData)

def handleDelayDataCallback (pushed : Pushed) : Status × Option Delivery × ServiceState :=
  match st.delayDataCallback[key]? with
  | none => (.eError, none, st)
  | some info =>
      let st := { st with delayDataCallback := st.delayDataCallback.erase key }
      match info.dataCallback with
      | none => (.eError, none, st)
      | some _ => (.eOk, some ⟨key, info.tokenId, pushed⟩, st)

/-- `PushDelayData`: the status, what was handed to a callback, and the state.
`registrant` is history, recorded with the data. -/
def pushDelayData (registrant : Option Token) (tokenId : Token) (key : String)
    (unifiedData : UnifiedData) : Status × Option Delivery × ServiceState :=
  if !env.isDraggable tokenId then (.eNoPermission, none, st)
  else if !checkDragParams env key then (.eInvalidParameters, none, st)
  else
    match fillDelayUnifiedData env tokenId key unifiedData with
    | (.eOk, unifiedData) =>
        match requester? st key with
        | none =>
            let (status, st) := updateDelayData env st tokenId key unifiedData
            (status, none, st)
        | some requester =>
            match preparePush env st requester tokenId key unifiedData with
            | (.eOk, unifiedData) =>
                let st := erasePrivileges st key
                let pushed : Pushed := ⟨unifiedData, key, tokenId, registrant⟩
                if st.delayDataCallback[key]?.isSome then handleDelayDataCallback st key pushed
                else
                  match st.blockDelayDataCache[key]? with
                  | none => (.eOk, none, st)
                  | some entry =>
                      (.eOk, none, { st with blocks := st.blocks.set entry.block (some pushed) })
            | (status, _) => (status, none, st)
    | (status, _) => (status, none, st)

end

structure WaitingGet where
  tokenId : Token
  key : String
  block : Nat

/-- `registrants` holds the token of the last `SetDelayInfo` that registered a key, and
`delivered` all data handed to requesters; both are history. -/
structure DelayState where
  service : ServiceState
  calls : List WaitingGet
  registrants : Std.ExtTreeMap String Token
  delivered : List Delivery

inductive DelayCall where
  | setDelayInfo (tokenId : Token) (sequenceKey : String) (recordCount : Nat)
      (notifier : Option Notifier)
  | getData (tokenId : Token) (key : String)
  | getDataReturn (i : Nat)
  | getDataIfAvailable (tokenId : Token) (key : String) (notifier : Notifier)
  | addPrivilege (tokenId : Token) (key : String) (privilege : Privilege)
  | pushDelayData (tokenId : Token) (key : String) (unifiedData : UnifiedData)
  /-- Other calls, the life cycle and synchronisation change the stores. -/
  | storesChange (stores : Std.ExtTreeMap String RuntimeStore)

namespace DelayState

variable (env : ServiceEnv) (s : DelayState) (tokenId : Token)

/-- A key is registered when its callback is. -/
def setDelayInfo (sequenceKey : String) (recordCount : Nat) (notifier : Option Notifier) :
    DelayState :=
  let (_, key, service) := Udmf.setDelayInfo env s.service tokenId sequenceKey recordCount notifier
  match key with
  | none => { s with service := service }
  | some key =>
      if notifier.isSome && !key.isEmpty then
        { s with service := service, registrants := s.registrants.insert key tokenId }
      else { s with service := service }

/-- `GetData` up to its return or its wait. -/
def getData (key : String) : DelayState :=
  match env.hapBundleName tokenId with
  | none => s
  | some _ =>
      match handleDelayLoad s.service tokenId key with
      | (.notDelayData, service) =>
          { s with service := (retrieveData env service tokenId key).2.2 }
      | (.noPermission, service) => { s with service := service }
      | (.waits block, service) =>
          { s with service := service, calls := s.calls ++ [⟨tokenId, key, block⟩] }

/-- The return of a waiting `GetData`, with the value of its block if one has been set. -/
def getDataReturn (i : Nat) : Option DelayState :=
  (s.calls[i]?).map fun call =>
    let awaited := (s.service.blocks[call.block]?).join
    { s with
      service := (finishGetData env s.service call.key (awaited.map Pushed.data)).2.2
      calls := advance s.calls i none
      delivered := s.delivered ++
        (awaited.map fun pushed => (⟨call.key, call.tokenId, pushed⟩ : Delivery)).toList }

def pushDelayData (key : String) (unifiedData : UnifiedData) : DelayState :=
  let (_, delivery, service) :=
    Udmf.pushDelayData env s.service s.registrants[key]? tokenId key unifiedData
  { s with service := service, delivered := s.delivered ++ delivery.toList }

end DelayState

/-- A step is a call together with the answers the service gets during it. -/
def delayMachine : Machine DelayState (ServiceEnv × DelayCall) where
  step s label :=
    let env := label.1
    match label.2 with
    | .setDelayInfo tokenId sequenceKey recordCount notifier =>
        some (s.setDelayInfo env tokenId sequenceKey recordCount notifier)
    | .getData tokenId key => some (s.getData env tokenId key)
    | .getDataReturn i => s.getDataReturn env i
    | .getDataIfAvailable tokenId key notifier =>
        some { s with service := (getDataIfAvailable env s.service tokenId key notifier).2.2 }
    | .addPrivilege tokenId key privilege =>
        some { s with service := (addPrivilege env s.service tokenId key privilege).2 }
    | .pushDelayData tokenId key unifiedData => some (s.pushDelayData env tokenId key unifiedData)
    | .storesChange stores => some { s with service := { s.service with stores := stores } }

/-- Nothing is registered, waited for or delivered. -/
def DelayState.initial (stores : Std.ExtTreeMap String RuntimeStore) : DelayState where
  service := { ServiceState.initial with stores := stores }
  calls := []
  registrants := ∅
  delivered := []

end DataMgr.Udmf
