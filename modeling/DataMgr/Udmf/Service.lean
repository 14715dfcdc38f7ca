import DataMgr.Udmf.Preprocess

/-! # The drag channel of the service

The stores, the privilege cache and the two containers of delayed data, and the calls
on them. A call that waits for delayed data is given what it waited for.
-/

namespace DataMgr.Udmf

/-! ## The runtime store

`readStatus` and `writeStatus` are the database's answers, and `unreadable` is what
`UnmarshalEntryItem` has read when it comes to a value that cannot be read. Data is kept whole
under its key. -/

/-- The runtime and the properties may have been read, and so many records, without the
entries that are added to them at the end. -/
structure PartRead where
  isRuntime : Bool
  runtime : Bool
  properties : Bool
  records : Nat
deriving DecidableEq, Repr

def UnifiedData.upTo (part : PartRead) (data : UnifiedData) : UnifiedData where
  runtime := if part.runtime then data.runtime else none
  properties := if part.properties then data.properties else none
  records := (data.records.take part.records).map (Option.map fun record =>
    { record with entries := record.entries.map fun _ => ⟨none, none, []⟩ })

structure RuntimeStore where
  readStatus : Status
  writeStatus : Status
  data : Std.ExtTreeMap String UnifiedData
  unreadable : Option PartRead

namespace RuntimeStore

variable (store : RuntimeStore) (key : String)

def get : Status × UnifiedData :=
  if store.readStatus ≠ .eOk then (store.readStatus, .empty)
  else
    match store.data[key]? with
    | none => (.eNotFound, .empty)
    | some unifiedData =>
        match store.unreadable with
        | none => (.eOk, unifiedData)
        | some part => (.eReadParcelError, unifiedData.upTo part)

def getRuntime : Status × Option Runtime :=
  if store.readStatus ≠ .eOk then (store.readStatus, none)
  else
    match (store.data[key]?).bind UnifiedData.runtime with
    | none => (.eNotFound, none)
    | some runtime =>
        if store.unreadable.any PartRead.isRuntime then (.eReadParcelError, none)
        else (.eOk, some runtime)

def putRuntime (runtime : Runtime) : Status × RuntimeStore :=
  if store.writeStatus ≠ .eOk then (store.writeStatus, store)
  else
    let unifiedData := (store.data[key]?).getD .empty
    (.eOk, { store with
      data := store.data.insert key { unifiedData with runtime := some runtime } })

/-- `PutDelayData` writes a runtime; records already there are not removed. -/
def putDelayData (delayData : UnifiedData) : Status × RuntimeStore :=
  if store.writeStatus ≠ .eOk then (store.writeStatus, store)
  else
    let old := (store.data[key]?).getD .empty
    (.eOk, { store with
      data := store.data.insert key
        { delayData with
          properties := delayData.properties.or old.properties
          records := old.records ++ delayData.records } })

/-- `Update`: deletes and puts. -/
def update (unifiedData : UnifiedData) : Status × RuntimeStore :=
  if store.readStatus ≠ .eOk then (store.readStatus, store)
  else if store.writeStatus ≠ .eOk then (store.writeStatus, store)
  else (.eOk, { store with data := store.data.insert key unifiedData })

end RuntimeStore

abbrev Notifier := Nat

/-- Data that was pushed, with its key, the token that pushed it and the token under which
the key was registered then; all but the data is history. -/
structure Pushed where
  data : UnifiedData
  key : String
  pusher : Token
  registrant : Option Token
deriving DecidableEq, Repr

structure DelayGetDataInfo where
  dataCallback : Option Notifier
  tokenId : Token
deriving DecidableEq, Repr

/-- An entry of `blockDelayDataCache_`; the block itself is in `blocks`. -/
structure BlockDelayData where
  tokenId : Token
  block : Nat
deriving DecidableEq, Repr

structure ServiceState where
  stores : Std.ExtTreeMap String RuntimeStore
  privilegeCache : Std.ExtTreeMap String (List Privilege)
  dataLoadCallback : Std.ExtTreeMap String Notifier
  blockDelayDataCache : Std.ExtTreeMap String BlockDelayData
  blocks : List (Option Pushed)
  delayDataCallback : Std.ExtTreeMap String DelayGetDataInfo

/-- What the service asks of other components: the dlp kit, the key parser and builder,
the token kit, the device manager, `UnifiedData`, the life cycle manager, the uri
permission manager and the bundle manager. -/
structure ServiceEnv extends PreprocessEnv where
  isDraggable : Token → Bool
  intentionOf : String → Option String
  unifiedKey : String → String → String → String
  specificBundleName : Token → Option (String × String)
  nativeProcessName : Token → Option String
  isNativeToken : Token → Bool
  fileManagerIntention : String → Bool
  fileManagerAllows : Token → String → Bool
  localDeviceId : String
  isComplete : UnifiedData → Bool
  onGot : String → Token → Bool
  grantUriPermission : List (String × Mask) → Token → Token → Bool → Status
  transferToEntries : Token → UnifiedData → UnifiedData
  hasDevicesForDelayData : Bool

variable (st : ServiceState) (runtime : Runtime) (tokenId : Token) (key : String)

def dragIntention : String := "drag"
def privilegeReadAndKeep : String := "readAndKeep"
def dragAuthorizedProcesses : List String := ["msdp", "collaboration_service"]

def handleDbError (status : Status) : Status :=
  if status = .eDbCorrupted then .eDbError else status

variable (env : ServiceEnv)

def checkDragParams (key : String) : Bool := env.intentionOf key = some dragIntention

def isPermissionInCache : Bool :=
  match st.privilegeCache[key]? with
  | none => false
  | some privileges => privileges.any (·.tokenId = tokenId)

/-- `VerifyDataAccessPermission`, with `DataChecker` loaded. -/
def verifyDataAccessPermission : Status :=
  if !runtime.privileges.any (·.tokenId = tokenId) && !isPermissionInCache st tokenId key then
    .eNoPermission
  else .eOk

def isReadAndKeep (privileges : List Privilege) (tokenId : Token) (key : String) : Bool :=
  let keeps (privilege : Privilege) : Bool :=
    privilege.tokenId = tokenId && privilege.readPermission = privilegeReadAndKeep
  privileges.any keeps || ((st.privilegeCache[key]?).getD []).any keeps

def verifySavedTokenId (runtime : Runtime) : Bool :=
  env.hapBundleName runtime.tokenId = some runtime.sourcePackage

/-- `ProcessCrossDeviceData`: the status, the data and the grants that are not empty. -/
def processCrossDeviceData (unifiedData : UnifiedData) :
    Status × UnifiedData × List (String × Mask) :=
  match unifiedData.runtime with
  | none => (.eDbError, unifiedData, [])
  | some runtime =>
      let isLocal : Bool := env.localDeviceId = runtime.deviceId
      let (hasError, unifiedData, uriPermissions) :=
        processFileAuthorization env.toPreprocessEnv unifiedData isLocal
      if hasError then (.eInvalidParameters, unifiedData, [])
      else (.eOk, unifiedData, uriPermissions.toList.filter fun item => item.2 ≠ 0)

/-- `ProcessUri`. Its callers have seen that there is a runtime. -/
def processUri (tokenId : Token) (unifiedData : UnifiedData) : Status × UnifiedData :=
  match env.hapBundleName tokenId, unifiedData.runtime with
  | none, _ => (.eError, unifiedData)
  | some _, none => (.eError, unifiedData)
  | some _, some runtime =>
      let isLocal : Bool := env.localDeviceId = runtime.deviceId
      if isLocal && tokenId = runtime.tokenId then (.eOk, unifiedData)
      else
        match processCrossDeviceData env unifiedData with
        | (.eOk, unifiedData, grantUris) =>
            if isLocal && !verifySavedTokenId env runtime then (.eError, unifiedData)
            else if env.grantUriPermission grantUris tokenId runtime.tokenId isLocal ≠ .eOk then
              (.eNoPermission, unifiedData)
            else (.eOk, unifiedData)
        | (status, unifiedData, _) => (status, unifiedData)

def insertDetail (details : List (String × String)) : List (String × String) :=
  if details.any (·.1 = "isRemote") then details else details ++ [("isRemote", "true")]

def setRemoteData (unifiedData : UnifiedData) : UnifiedData :=
  if unifiedData.records.isEmpty then unifiedData
  else
    let isLocal : Bool :=
      (unifiedData.runtime.map fun runtime => runtime.deviceId) = some env.localDeviceId
    unifiedData.mapRecords fun record =>
      processFileType record fun obj =>
        if isLocal then { obj with remoteUri := some "" }
        else { obj with details := obj.details.map insertDetail }

def erasePrivileges : ServiceState :=
  { st with privilegeCache := st.privilegeCache.erase key }

/-- What is left to do of `RetrieveData` once access is allowed. -/
def releaseData (st : ServiceState) (runtime : Runtime) (tokenId : Token) (key : String)
    (unifiedData : UnifiedData) : Status × UnifiedData × ServiceState :=
  if !isReadAndKeep st runtime.privileges tokenId key && !env.onGot key runtime.tokenId then
    (.eDbError, unifiedData, st)
  else
    match processUri env tokenId unifiedData with
    | (.eOk, unifiedData) =>
        (.eOk, env.transferToEntries tokenId (setRemoteData env unifiedData),
          erasePrivileges st key)
    | (status, unifiedData) => (status, unifiedData, st)

/-- `RetrieveData`. The data read stays in the output on every later error. -/
def retrieveData (st : ServiceState) (tokenId : Token) (key : String) :
    Status × UnifiedData × ServiceState :=
  if !checkDragParams env key then (.eInvalidParameters, .empty, st)
  else
    match st.stores[dragIntention]? with
    | none => (.eDbError, .empty, st)
    | some store =>
        match store.get key with
        | (.eOk, unifiedData) =>
            if !env.isComplete unifiedData then (.eNotFound, unifiedData, st)
            else
              match unifiedData.runtime with
              | none => (.eDbError, unifiedData, st)
              | some runtime =>
                  match verifyDataAccessPermission st runtime tokenId key with
                  | .eOk => releaseData env st runtime tokenId key unifiedData
                  | status => (status, unifiedData, st)
        | (status, unifiedData) => (handleDbError status, unifiedData, st)

inductive DelayLoad where
  | notDelayData
  | noPermission
  | waits (block : Nat)
deriving DecidableEq, Repr

/-- `HandleDelayLoad` up to the wait. A new block is asked for once, by the callback. -/
def handleDelayLoad : DelayLoad × ServiceState :=
  if key.isEmpty then (.notDelayData, st)
  else
    match st.dataLoadCallback[key]? with
    | none => (.notDelayData, st)
    | some _ =>
        match st.blockDelayDataCache[key]? with
        | some entry =>
            if entry.tokenId ≠ tokenId then (.noPermission, st) else (.waits entry.block, st)
        | none =>
            (.waits st.blocks.length, { st with
              blockDelayDataCache :=
                st.blockDelayDataCache.insert key ⟨tokenId, st.blocks.length⟩
              blocks := st.blocks ++ [none] })

theorem handleDelayLoad_cases :
    ((handleDelayLoad st tokenId key).2 = st ∧ ∀ block,
      (handleDelayLoad st tokenId key).1 = .waits block →
        ∃ entry, st.blockDelayDataCache[key]? = some entry ∧ entry.block = block) ∨
    handleDelayLoad st tokenId key = (.waits st.blocks.length, { st with
      blockDelayDataCache := st.blockDelayDataCache.insert key ⟨tokenId, st.blocks.length⟩
      blocks := st.blocks ++ [none] }) := by
  unfold handleDelayLoad
  split
  · exact .inl ⟨rfl, fun block hwaits => by cases hwaits⟩
  split
  · exact .inl ⟨rfl, fun block hwaits => by cases hwaits⟩
  split
  · rename_i entry hentry
    split
    · exact .inl ⟨rfl, fun block hwaits => by cases hwaits⟩
    refine .inl ⟨rfl, ?_⟩
    intro block hwaits
    cases hwaits
    exact ⟨entry, hentry, rfl⟩
  · exact .inr rfl

/-- `HandleDelayLoad` and `GetData` after the wait; `awaited` is the value of the block,
`none` after the timeout. -/
def finishGetData (st : ServiceState) (key : String) (awaited : Option UnifiedData) :
    Status × UnifiedData × ServiceState :=
  match awaited with
  | none => (.eNotFound, .empty, st)
  | some unifiedData =>
      (if env.isComplete unifiedData then .eOk else .eNotFound, unifiedData,
        { st with
          blockDelayDataCache := st.blockDelayDataCache.erase key
          dataLoadCallback := st.dataLoadCallback.erase key })

def registerDataLoadCallback (callback : Option Notifier) : ServiceState :=
  match callback with
  | none => st
  | some callback =>
      if key.isEmpty then st
      else { st with dataLoadCallback := st.dataLoadCallback.insert key callback }

/-- `ExecDataLoadCallback`: whether there was a callback to call. -/
def execDataLoadCallback : Bool × ServiceState :=
  match st.dataLoadCallback[key]? with
  | none => (false, st)
  | some _ => (true, { st with dataLoadCallback := st.dataLoadCallback.erase key })

def registerDelayDataCallback (info : DelayGetDataInfo) : ServiceState :=
  if key.isEmpty then st
  else if (st.delayDataCallback[key]?).any (·.tokenId ≠ info.tokenId) then st
  else { st with delayDataCallback := st.delayDataCallback.insert key info }

/-- `GetData`, with what the call gets if it waits. -/
def getData (st : ServiceState) (tokenId : Token) (key : String) (awaited : Option UnifiedData) :
    Status × UnifiedData × ServiceState :=
  match env.hapBundleName tokenId with
  | none => (.eError, .empty, st)
  | some _ =>
      match handleDelayLoad st tokenId key with
      | (.notDelayData, st) => retrieveData env st tokenId key
      | (.noPermission, st) => (.eNoPermission, .empty, st)
      | (.waits _, st) => finishGetData env st key awaited

/-- The reply that `OnGetData` writes: the status and the data, whatever the status. -/
def onGetData (st : ServiceState) (tokenId : Token) (key : String)
    (awaited : Option UnifiedData) : Status × UnifiedData :=
  let (status, unifiedData, _) := getData env st tokenId key awaited
  (status, unifiedData)

def getDataIfAvailable (st : ServiceState) (tokenId : Token) (key : String)
    (notifier : Notifier) : Status × UnifiedData × ServiceState :=
  match retrieveData env st tokenId key with
  | (.eNotFound, unifiedData, st) =>
      let st := registerDelayDataCallback st key ⟨some notifier, tokenId⟩
      let (asked, st) := execDataLoadCallback st key
      if asked then (.eOk, unifiedData, st)
      else
        match unifiedData.runtime with
        | some runtime =>
            if runtime.deviceId ≠ env.localDeviceId then (.eOk, unifiedData, st)
            else (.eError, unifiedData, st)
        | none => (.eError, unifiedData, st)
  | (status, unifiedData, st) => (status, unifiedData, st)

/-- The reply that `OnGetDataIfAvailable` writes; `none` without a notifier. -/
def onGetDataIfAvailable (st : ServiceState) (tokenId : Token) (key : String)
    (notifier : Option Notifier) : Option (Status × UnifiedData) :=
  notifier.map fun notifier =>
    let (status, unifiedData, _) := getDataIfAvailable env st tokenId key notifier
    (status, unifiedData)

/-- The service on `openDevice`, where every key is a drag key and nothing is refused. -/
def openService : ServiceEnv where
  toPreprocessEnv := openDevice
  isDraggable _ := true
  intentionOf _ := some dragIntention
  unifiedKey _ _ groupId := groupId
  specificBundleName _ := some ("com.example.notes", "com.example.notes")
  nativeProcessName _ := some "msdp"
  isNativeToken _ := true
  fileManagerIntention _ := false
  fileManagerAllows _ _ := false
  localDeviceId := "local"
  isComplete data := (data.runtime.map Runtime.recordTotalNum) = some data.records.length
  onGot _ _ := true
  grantUriPermission _ _ _ _ := .eOk
  transferToEntries _ data := data
  hasDevicesForDelayData := false

/-- Nothing is registered and the drag store is open and empty. -/
def ServiceState.initial : ServiceState where
  stores := Std.ExtTreeMap.empty.insert dragIntention ⟨.eOk, .eOk, ∅, none⟩
  privilegeCache := ∅
  dataLoadCallback := ∅
  blockDelayDataCache := ∅
  blocks := []
  delayDataCallback := ∅

end DataMgr.Udmf
