import DataMgr.Cloud.SyncRetry

/-! # Bookkeeping of running syncs

`lastSyncInfos_` holds one record for each store a request is syncing, made when the
task starts and taken out, with one `SaveLastSyncInfo`, when the store has finished
or failed. A task writes its records first and then ends them on one of many paths:
the batch paths before any store is visited, the checks of each database, the handler
of the posted event, and the callback the store runs later on a thread of its own.
Everything a task reads from other components is an argument.
-/

namespace DataMgr.Cloud

open DataMgr.Foundation DataMgr.Store

/-- What is fixed while the account does not change: `GetAccountId`, which is empty
for a user without cloud info, and `kvApps_`. -/
structure CloudEnv where
  accountId : Int32 → String
  kvApps : List String

structure QueryKey where
  user : Int32
  accountId : String
  bundleName : String
  storeId : String
deriving DecidableEq, Repr

structure CloudLastSyncInfo where
  id : String
  storeId : String
  startTime : Int
  finishTime : Int
  code : GeneralError
  finished : Bool
deriving DecidableEq, Repr

/-- `lastSyncInfos_`; a store without records and an absent store are the same. -/
abbrev LastSyncInfos := QueryKey → UInt64 → Option CloudLastSyncInfo

/-- `SyncManager::EXPIRATION_TIME`, in milliseconds. -/
def expirationTime : Int := 6 * 60 * 60 * 1000

def maxCapability : Nat := 100

section

variable (env : CloudEnv) (infos : LastSyncInfos) (key : QueryKey) (syncId : UInt64)
  (code : GeneralError)

def needSaveSyncInfo : Bool :=
  key.accountId ≠ "" && key.bundleName ∉ env.kvApps

/-- The codes from `E_OK` up to `E_BUSY` are passed on. -/
def convertValidGeneralCode : GeneralError :=
  match code with
  | .eOk | .eError | .eNetworkError | .eCloudDisabled | .eLockedByOthers
  | .eRecodeLimitExceeded | .eNoSpaceForAsset | .eBlockedByNetworkStrategy
  | .eStopCloudSync => code
  | _ => .eError

def updateStartSyncInfo (startTime : Int) : LastSyncInfos :=
  fun k id =>
    if k = key ∧ id = syncId then
      some { id := key.accountId, storeId := key.storeId, startTime := startTime,
             finishTime := 0, code := .eOk, finished := false }
    else infos k id

def savedInfo (now : Int) : Option CloudLastSyncInfo :=
  if needSaveSyncInfo env key then
    (infos key syncId).map fun info =>
      { info with finishTime := now, code := convertValidGeneralCode code, finished := true }
  else none

/-- `UpdateFinishSyncInfo`: the request's record of the store is taken out, and with
it every expired record another request left there. -/
def updateFinishSyncInfo (now : Int) : LastSyncInfos :=
  fun k id =>
    if needSaveSyncInfo env key ∧ k = key then
      if id = syncId then none
      else (infos k id).filter fun info => now - info.startTime < expirationTime
    else infos k id

end

/-- The fields of `SyncInfo` the task reads; `tables` are the stores it asks for, all
of them when empty. -/
structure SyncInfo where
  syncId : UInt64
  user : Int32
  bundleName : String
  tables : List String
deriving DecidableEq, Repr

def SyncInfo.contains (info : SyncInfo) (storeName : String) : Bool :=
  info.tables.isEmpty || storeName ∈ info.tables

structure StoreInfo where
  bundleName : String
  storeName : String
  user : Int32
  syncId : UInt64
deriving DecidableEq, Repr

/-- A `SyncEvent`; `user` is the one of its `SyncParam`. -/
structure SyncEvent where
  storeInfo : StoreInfo
  user : Int32
  autoRetry : Bool
deriving DecidableEq, Repr

structure DatabaseRead where
  name : String
  dbEnable : Bool
  syncAction : GeneralError
  tablesEnabled : Bool
deriving DecidableEq, Repr

structure SchemaRead where
  bundleName : String
  databases : List DatabaseRead
deriving DecidableEq, Repr

structure TaskAnswers where
  users : List Int32
  /-- `GetCloudSyncInfo` has a cloud info, its own or the server's. -/
  cloudFound : Bool
  /-- The stores of the request's schema, when the metadata has one. -/
  schemaStores : Option (List String)
  cloudLoaded : Bool
  idMatches : Bool
  enableCloud : Bool
  /-- The bundles whose cloud switch is on. -/
  switchedOn : List String
  networkAvailable : Bool
  verified : Bool
  /-- The schemas under the request's prefix, before and after `UpdateSchema`. -/
  schemas : List SchemaRead
  updatedSchemas : List SchemaRead
deriving DecidableEq, Repr

variable (env : CloudEnv) (startTime : Int) (event : SyncEvent) (cloudUser : Int32)
  (info : SyncInfo) (retry : Bool) (answers : TaskAnswers)

def TaskAnswers.isOn (bundleName : String) : Bool :=
  bundleName ≠ "" && bundleName ∈ answers.switchedOn

def getStoresIntersection (schemaStores requested : List String) : List String :=
  requested.filter (· ∈ schemaStores)

def getCloudSyncInfo (user : Int32) (info : SyncInfo) (answers : TaskAnswers) : List QueryKey :=
  match answers.cloudFound, answers.schemaStores with
  | true, some schemaStores =>
      let stores := if info.tables.isEmpty then schemaStores
        else getStoresIntersection schemaStores info.tables
      stores.map fun storeId =>
        { user := user, accountId := env.accountId user, bundleName := info.bundleName,
          storeId := storeId }
  | _, _ => []

def isValid : GeneralError :=
  if !answers.cloudLoaded || !answers.idMatches then .eCloudDisabled
  else if !answers.enableCloud || (info.bundleName ≠ "" && !answers.isOn info.bundleName) then
    .eCloudDisabled
  else if !answers.networkAvailable then .eNetworkError
  else if !answers.verified then .eError
  else .eOk

def getSchemaMeta (loaded : List SchemaRead) : List SchemaRead :=
  if info.bundleName = "" then loaded
  else
    (loaded.map fun schema =>
      { schema with databases := schema.databases.filter (info.contains ·.name) }).filter
        (!·.databases.isEmpty)

/-- The schemas the task goes through: read once, and again after `UpdateSchema` when
there were none. -/
def visitedSchemas : List SchemaRead :=
  if (getSchemaMeta info answers.schemas).isEmpty then getSchemaMeta info answers.updatedSchemas
  else getSchemaMeta info answers.schemas

/-- What a task does after its records are made. -/
inductive SyncOp where
  | finish (key : QueryKey) (code : GeneralError)
  | post (event : SyncEvent)
deriving DecidableEq, Repr

/-- The body of the inner loop of `GetPostEventTask`; `info.user` is the user left in
the request, `cloudUser` the one the cloud info belongs to. -/
def postDatabase (bundleName : String) (database : DatabaseRead) : SyncOp :=
  let key : QueryKey :=
    { user := cloudUser, accountId := env.accountId cloudUser, bundleName := bundleName,
      storeId := database.name }
  if !info.contains database.name || !database.dbEnable then .finish key .eError
  else if database.syncAction ≠ .eOk then .finish key database.syncAction
  else if !database.tablesEnabled then .finish key .eCloudDisabled
  else
    .post
      { storeInfo :=
          { bundleName := bundleName, storeName := database.name, user := info.user,
            syncId := info.syncId }
        user := info.user
        autoRetry := retry }

/-- `GetPostEventTask`; a schema that is switched off is ended under an empty store name. -/
def getPostEventTask (schemas : List SchemaRead) : List SyncOp :=
  schemas.flatMap fun schema =>
    if answers.isOn schema.bundleName then
      schema.databases.map (postDatabase env cloudUser info retry schema.bundleName)
    else
      [.finish { user := cloudUser, accountId := env.accountId cloudUser,
                 bundleName := schema.bundleName, storeId := "" } .eError]

/-- An event in the task's own queue. Posting a `CloudSyncFinishedEvent` matters here
only because it takes a place in the queue. -/
inductive QueuedEvent where
  | cloudSyncFinished
  | sync (event : SyncEvent)
deriving DecidableEq, Repr

/-- A task in progress: the records it still makes, then what it does; `deferred` says
that its events go through a queue, which is worked off when the task ends. -/
structure Running where
  syncId : UInt64
  startTime : Int
  starts : List QueryKey
  ops : List SyncOp
  deferred : Bool
  started : List QueryKey
  queue : List QueuedEvent
  drained : Nat
deriving DecidableEq, Repr

def runSyncTask : Running :=
  let cloudUser := (initDefaultUser answers.users info.user).1
  let createdByDefaultUser := (initDefaultUser answers.users info.user).2
  let keys := getCloudSyncInfo env cloudUser info answers
  let schemas := visitedSchemas info answers
  let user := if createdByDefaultUser then 0 else cloudUser
  { syncId := info.syncId
    startTime := startTime
    starts := keys.filter (needSaveSyncInfo env)
    ops :=
      if keys.isEmpty then []
      else if isValid info answers ≠ .eOk then keys.map (.finish · (isValid info answers))
      else if schemas.isEmpty then keys.map (.finish · .eCloudDisabled)
      else getPostEventTask env cloudUser { info with user := user } retry answers schemas
    deferred := !keys.isEmpty && isValid info answers = .eOk && !schemas.isEmpty
    started := []
    queue := []
    drained := 0 }

/-- What the handler learns about the store of an event. `conflictHandler` is the
outcome of `SetCloudConflictHandler` where `customSwitch` asks for it. -/
structure StoreAnswers where
  hasMeta : Bool
  opened : Bool
  enableCloud : Bool
  conflictHandler : Option GeneralError
  syncStatus : GeneralError
deriving DecidableEq, Repr

/-- `GetSyncHandler`: the code an event is ended with on the spot, or `none` when the
store accepted the sync and will call back. -/
def getSyncHandler (answers : StoreAnswers) : Option GeneralError :=
  if !answers.hasMeta then some .eError
  else if !answers.opened then some .eError
  else if !answers.enableCloud then some .eCloudDisabled
  else if (answers.conflictHandler.getD .eOk) ≠ .eOk then some .eError
  else if answers.syncStatus ≠ .eOk then some .eError
  else none

/-- The key that `DoExceptionalCallback`, `StartCloudSync` and `RetryCallback` form. -/
def SyncEvent.storeKey : QueryKey :=
  { user := event.storeInfo.user
    accountId := env.accountId event.storeInfo.user
    bundleName := event.storeInfo.bundleName
    storeId := event.storeInfo.storeName }

/-- The key under which the event's callback ends the record: `RetryCallback` with auto
retry, else `GetCallback`, which gives up on an empty account. -/
def SyncEvent.callbackKey : Option QueryKey :=
  if event.autoRetry then some (event.storeKey env)
  else if env.accountId event.storeInfo.user = "" then none
  else some { event.storeKey env with user := event.user }

/-- The state of all requests; `recorded` and `saved` are the history of records made
(once for each store of an execution) and of calls of `SaveLastSyncInfo`. -/
structure BookState where
  now : Int
  infos : LastSyncInfos
  running : List Running
  callbacks : List SyncEvent
  recorded : List (QueryKey × UInt64)
  saved : List (QueryKey × UInt64 × CloudLastSyncInfo)

variable (infos : LastSyncInfos) (s : BookState) (key : QueryKey) (syncId : UInt64)
  (code : GeneralError)

inductive Effect where
  | nothing
  | start (key : QueryKey) (syncId : UInt64) (startTime : Int) (again : Bool)
  | finish (key : QueryKey) (syncId : UInt64) (code : GeneralError)
deriving DecidableEq, Repr

def BookState.apply : Effect → BookState
  | .nothing => s
  | .start key syncId startTime again =>
      { s with
        infos := updateStartSyncInfo s.infos key syncId startTime
        recorded := if again then s.recorded else (key, syncId) :: s.recorded }
  | .finish key syncId code =>
      { s with
        infos := updateFinishSyncInfo env s.infos key syncId s.now
        saved :=
          match savedInfo env s.infos key syncId code s.now with
          | none => s.saved
          | some info => (key, syncId, info) :: s.saved }

/-- Saving posts an event, which a task with a queue of its own puts there. -/
def Running.ended (e : Running) : Running :=
  if e.deferred && needSaveSyncInfo env key && (infos key syncId).isSome then
    { e with queue := e.queue ++ [.cloudSyncFinished] }
  else e

/-- One step of a task: what it does to the records, what is left of the task, and the
callback it leaves with a store. When the task has nothing left to do its queue is
worked off, up to the capability of the queue; what is left then is dropped. -/
def Running.next (answers : StoreAnswers) (e : Running) :
    Effect × Option Running × List SyncEvent :=
  match e.starts, e.ops, e.queue with
  | key :: starts, _, _ =>
      (.start key e.syncId e.startTime (key ∈ e.started),
        some { e with starts := starts, started := key :: e.started }, [])
  | [], .finish key code :: ops, _ =>
      (.finish key e.syncId code,
        some (Running.ended env infos key e.syncId { e with ops := ops }), [])
  | [], .post event :: ops, _ =>
      (.nothing, some { e with ops := ops, queue := e.queue ++ [.sync event] }, [])
  | [], [], [] => (.nothing, none, [])
  | [], [], event :: queue =>
      if maxCapability ≤ e.drained then (.nothing, none, [])
      else
        let rest := { e with queue := queue, drained := e.drained + 1 }
        match event with
        | .cloudSyncFinished => (.nothing, some rest, [])
        | .sync event =>
            match getSyncHandler answers with
            | none => (.nothing, some rest, [event])
            | some code =>
                let key := event.storeKey env
                let syncId := event.storeInfo.syncId
                (.finish key syncId code, some (Running.ended env infos key syncId rest), [])

def SyncEvent.finished : Effect :=
  match event.callbackKey env with
  | none => .nothing
  | some key => .finish key event.storeInfo.syncId code

inductive BookAction where
  | clock (now : Int)
  | run (info : SyncInfo) (retry : Bool) (answers : TaskAnswers)
  | resume (i : Nat) (answers : StoreAnswers)
  | callback (j : Nat) (code : GeneralError)

def BookState.resume (i : Nat) (answers : StoreAnswers) : Option BookState :=
  match s.running[i]? with
  | none => none
  | some e =>
      let next := e.next env s.infos answers
      some { s.apply env next.1 with
        running := advance s.running i next.2.1
        callbacks := s.callbacks ++ next.2.2 }

/-- A store finishes with `SYNC_FINISH`. -/
def BookState.callback (j : Nat) (code : GeneralError) : Option BookState :=
  match s.callbacks[j]? with
  | none => none
  | some event =>
      some { s.apply env (event.finished env code) with callbacks := s.callbacks.eraseIdx j }

def bookMachine : Machine BookState BookAction where
  step s
    | .clock now => some { s with now := now }
    | .run info retry answers =>
        some { s with running := runSyncTask env s.now info retry answers :: s.running }
    | .resume i answers => s.resume env i answers
    | .callback j code => s.callback env j code

def BookState.start (now : Int) : BookState :=
  { now := now, infos := fun _ _ => none, running := [], callbacks := [], recorded := [],
    saved := [] }

/-- No task of the request is in progress and no store will call back for it. -/
def BookState.Idle : Prop :=
  (∀ e ∈ s.running, e.syncId ≠ syncId) ∧ ∀ event ∈ s.callbacks, event.storeInfo.syncId ≠ syncId

/-- How often the store has been recorded by an execution of the request. -/
def BookState.recordings : Nat :=
  s.recorded.countP fun entry => entry.1 = key && entry.2 = syncId

/-- How often `SaveLastSyncInfo` has been called for the store and the request. -/
def BookState.saves : Nat :=
  s.saved.countP fun entry => entry.1 = key && entry.2.1 = syncId

/-- Every recorded store is among the databases the task goes through, under a bundle
name that can be switched on. -/
def VisitsRecorded : Prop :=
  ∀ key ∈ getCloudSyncInfo env (initDefaultUser answers.users info.user).1 info answers,
    needSaveSyncInfo env key = true →
      info.bundleName ≠ "" ∧ ∃ schema ∈ visitedSchemas info answers,
        schema.bundleName = info.bundleName ∧
          ∃ database ∈ schema.databases, database.name = key.storeId

instance (env : CloudEnv) (info : SyncInfo) (answers : TaskAnswers) :
    Decidable (VisitsRecorded env info answers) :=
  inferInstanceAs (Decidable (∀ key ∈ _, _ → _))

/-- A request that is redirected to another user posts no event, the task visits what it
recorded, and no event is dropped from the queue of a task. -/
def Steady : BookAction → Prop
  | .run info retry answers =>
      ((initDefaultUser answers.users info.user).1 = info.user ∨
        ∀ event, .post event ∉ (runSyncTask env s.now info retry answers).ops) ∧
      (isValid info answers = .eOk → visitedSchemas info answers ≠ [] →
        VisitsRecorded env info answers)
  | .resume i _ =>
      ∀ e, s.running[i]? = some e → e.starts = [] → e.ops = [] → e.queue ≠ [] →
        e.drained < maxCapability
  | _ => True

def BookState.effect : BookAction → Effect
  | .resume i answers => (s.running[i]?.map fun e => (e.next env s.infos answers).1).getD .nothing
  | .callback j code => (s.callbacks[j]?.map fun event => event.finished env code).getD .nothing
  | _ => .nothing

/-- A request is executed again only when its previous execution has ended with all its
callbacks, and no record expires before its own store ends it. -/
def OneAtATime (a : BookAction) : Prop :=
  (∀ info retry answers, a = .run info retry answers → s.Idle info.syncId) ∧
    ∀ key syncId code, s.effect env a = .finish key syncId code →
      ∀ other info, other ≠ syncId → s.infos key other = some info →
        s.now - info.startTime < expirationTime

end DataMgr.Cloud
