import DataMgr.Metadata.MetaStore
import DataMgr.Route.RouteHead

/-! # Authorisation of a session

The sender collects the users of the peer it may write to, and the receiver checks each of
them again when a message arrives. Both read the store metas of the sending device for the
bundle and the kind of authorisation. User ids are signed in some places and unsigned in
others and are only compared, so they are bit vectors. Every access that is evaluated is
recorded with its arguments.
-/

namespace DataMgr.Sessions

open DataMgr.Metadata

abbrev UserId := BitVec 32

def systemUser : UserId := 0#32

def defaultUserId : String := "0"

structure SessionPoint where
  deviceId : String := ""
  userId : UserId := 0#32
  appId : String := ""
  storeId : String := ""
  accountId : String := ""
deriving DecidableEq, Repr

structure Session where
  sourceDeviceId : String
  targetDeviceId : String
  sourceUserId : UserId
  targetUserIds : List UserId
  appId : String
  storeId : String
  accountId : String
deriving DecidableEq, Repr

structure AccessCaller where
  accountId : String := ""
  bundleName : String := ""
  networkId : String := ""
  userId : UserId := 0#32
deriving DecidableEq, Repr

structure AccessCallee where
  accountId : String := ""
  networkId : String := ""
  userId : UserId := 0#32
deriving DecidableEq, Repr

structure AclParams where
  accCaller : AccessCaller := {}
  accCallee : AccessCallee := {}
  authType : Int := 0
deriving DecidableEq, Repr

def authDefault : Int := 0

def authIdenticalAccount : Int := 1

structure Access where
  localUserId : UserId
  peerUserId : UserId
  peerDeviceId : String
  aclParams : AclParams
deriving DecidableEq, Repr

structure UserInfo where
  receiveUser : String
  sendUser : String
deriving DecidableEq, Repr

/-- One device: the synchronised store metas by key, in the order of the database, and what
its account, user and device managers answer. -/
structure Host where
  metas : List (String × StoreMetaData) := []
  readable : Bool := true
  localUsers : List UserStatus := []
  users : String → List UserStatus := fun _ => []
  currentAccountId : String := ""
  foregroundUserId : Int := 0
  isUserForeground : UserId → Bool := fun _ => true
  toNetworkId : String → String := id
  isOHOSType : String → Bool := fun _ => true
  isSameAccount : AccessCaller → AccessCallee → Bool := fun _ _ => false
  checkAccessControl : AccessCaller → AccessCallee → Bool := fun _ _ => false
  getKvStoreIdentifier : String → String → String := fun appId storeId => appId ++ "-" ++ storeId
  getCapability : String → Option Int := fun _ => none

namespace Host

def loadMetas (host : Host) (start : String) : Option (List StoreMetaData) :=
  if host.readable then
    some ((host.metas.filter fun entry => start.toList <+: entry.1.toList).map Prod.snd)
  else none

def loadMeta (host : Host) (key : String) : Option StoreMetaData :=
  if host.readable then host.metas.lookup key else none

def metasOf (host : Host) (deviceId : String) : Option (List StoreMetaData) :=
  host.loadMetas (StoreMetaData.getPrefix [deviceId])

def getRemoteUserStatus (host : Host) (deviceId : String) : List UserStatus :=
  if deviceId = "" then [] else host.users deviceId

def isUserActive (users : List UserStatus) (userId : UserId) : Bool :=
  users.any fun user => BitVec.ofInt 32 user.id = userId && user.isActive

def isSystemUser (localUserId peerUserId : UserId) : Bool :=
  localUserId = systemUser && peerUserId = systemUser

def checkUsers (host : Host) (localUserId peerUserId : UserId) (peerDeviceId : String) : Bool :=
  if localUserId = systemUser then peerUserId = systemUser
  else
    peerUserId ≠ systemUser && isUserActive host.localUsers localUserId &&
      isUserActive (host.getRemoteUserStatus peerDeviceId) peerUserId

/-- Whether access is permitted, and whether because the account is the same. -/
def checkAccess (host : Host) (access : Access) : Bool × Bool :=
  let caller := access.aclParams.accCaller
  let callee := access.aclParams.accCallee
  if isSystemUser access.localUserId access.peerUserId then (true, false)
  else if !host.checkUsers access.localUserId access.peerUserId access.peerDeviceId then
    (false, false)
  else if access.aclParams.authType = authDefault then
    if host.isSameAccount caller callee then (true, true)
    else if host.checkAccessControl caller callee then (true, false)
    else (false, false)
  else if access.aclParams.authType = authIdenticalAccount then
    (host.isSameAccount caller callee, host.isSameAccount caller callee)
  else (false, false)

def getSendAuthParams (host : Host) (point : SessionPoint) (targetDeviceId : String) :
    Option AclParams :=
  match host.metasOf point.deviceId with
  | none => none
  | some metaData =>
      (metaData.find? fun storeMeta =>
          storeMeta.appId = point.appId && storeMeta.storeId = point.storeId).map
        fun storeMeta =>
          { accCaller :=
              { bundleName := storeMeta.bundleName, accountId := point.accountId
                userId := point.userId, networkId := host.toNetworkId point.deviceId }
            accCallee := { networkId := host.toNetworkId targetDeviceId }
            authType := storeMeta.authType }

def sendAccess (point : SessionPoint) (targetDeviceId : String) (aclParams : AclParams)
    (userId : UserId) : Access :=
  { localUserId := point.userId, peerUserId := userId, peerDeviceId := targetDeviceId
    aclParams := { aclParams with accCallee := { aclParams.accCallee with userId } } }

/-- One round of the loop: users of the same account go to the session, others are kept
for its end. -/
def addUser (host : Host) (point : SessionPoint) (targetDeviceId : String) (aclParams : AclParams)
    (found : List UserId × List UserId) (user : UserStatus) : List UserId × List UserId :=
  let userId := BitVec.ofInt 32 user.id
  let (isPermitted, isSameAccount) :=
    host.checkAccess (sendAccess point targetDeviceId aclParams userId)
  if isPermitted && userId ∉ found.1 then
    if isSameAccount then (found.1 ++ [userId], found.2) else (found.1, found.2 ++ [userId])
  else found

/-- The session and the accesses that were evaluated for it. -/
def getSession (host : Host) (point : SessionPoint) (targetDeviceId : String) :
    Session × List Access :=
  let system := if point.userId = systemUser then [systemUser] else []
  let session : Session :=
    { appId := point.appId, storeId := point.storeId, sourceUserId := point.userId
      sourceDeviceId := point.deviceId, targetDeviceId, accountId := point.accountId
      targetUserIds := system }
  match host.getSendAuthParams point targetDeviceId with
  | none => (session, [])
  | some aclParams =>
      let users := host.getRemoteUserStatus targetDeviceId
      let found := users.foldl (host.addUser point targetDeviceId aclParams) (system, [])
      ({ session with targetUserIds := found.1 ++ found.2 },
        users.map fun user => sendAccess point targetDeviceId aclParams (BitVec.ofInt 32 user.id))

def getRecvAuthParams (host : Host) (point peer : SessionPoint) (accountFlag : Bool) :
    Option AclParams :=
  match host.metasOf peer.deviceId with
  | none => none
  | some metaData =>
      (metaData.find? fun storeMeta => storeMeta.appId = point.appId).map fun storeMeta =>
        { accCaller :=
            { bundleName := storeMeta.bundleName, accountId := host.currentAccountId
              userId := point.userId, networkId := host.toNetworkId point.deviceId }
          accCallee :=
            { accountId := if accountFlag then peer.accountId else host.currentAccountId
              userId := peer.userId, networkId := host.toNetworkId peer.deviceId }
          authType := storeMeta.authType }

/-- The answer and the accesses that were evaluated for it. -/
def checkSession (host : Host) (point peer : SessionPoint) (accountFlag : Bool) :
    Bool × List Access :=
  match host.getRecvAuthParams point peer accountFlag with
  | none => (false, [])
  | some aclParams =>
      let access : Access :=
        { localUserId := point.userId, peerUserId := peer.userId, peerDeviceId := peer.deviceId
          aclParams }
      let isPermitted := (host.checkAccess access).1
      (if isPermitted && point.userId ≠ systemUser then host.isUserForeground point.userId
       else isPermitted, [access])

def parseStoreId (host : Host) (session : Session) (deviceId label : String) : String :=
  if session.storeId ≠ "" then session.storeId
  else
    match host.metasOf deviceId with
    | none => ""
    | some metaData =>
        match metaData.find? fun storeMeta =>
            host.getKvStoreIdentifier storeMeta.appId storeMeta.storeId = label with
        | none => ""
        | some storeMeta => storeMeta.storeId

/-- The store of the system user is not known here: the message goes to the user in the
foreground. -/
def toForeground (host : Host) (session : Session) (label : String) : Bool :=
  let storeId := host.parseStoreId session session.targetDeviceId label
  host.isOHOSType session.sourceDeviceId && storeId ≠ "" &&
    toString session.sourceUserId.toNat = defaultUserId &&
    (host.loadMeta (StoreMetaData.getKeyWithoutPath
      { deviceId := session.targetDeviceId, user := defaultUserId, bundleName := session.appId
        storeId })).isNone

/-- The ends of a session are flipped. -/
def recvPoint (session : Session) (userId : UserId) : SessionPoint :=
  { deviceId := session.targetDeviceId, appId := session.appId, userId }

def peerPoint (session : Session) : SessionPoint :=
  { deviceId := session.sourceDeviceId, userId := session.sourceUserId, appId := session.appId
    accountId := session.accountId }

def checkUserIds (host : Host) (session : Session) (accountFlag : Bool) :
    List UserId → List UserInfo × List Access
  | [] => ([], [])
  | item :: rest =>
      let (permitted, accesses) :=
        host.checkSession (recvPoint session item) (peerPoint session) accountFlag
      let (userInfos, later) := checkUserIds host session accountFlag rest
      (if permitted then
          { receiveUser := toString item.toNat
            sendUser := toString (peerPoint session).userId.toNat } :: userInfos
        else userInfos, accesses ++ later)

/-- What follows the unpacking of the head: the answer, the users, and the accesses that
were evaluated. -/
def parseHeadDataUser (host : Host) (session : Session) (label : String) :
    Bool × List UserInfo × List Access :=
  if host.toForeground session label then
    (true, [{ receiveUser := toString host.foregroundUserId
              sendUser := toString session.sourceUserId.toNat }], [])
  else
    match host.getCapability session.sourceDeviceId with
    | none => (false, [], [])
    | some version =>
        (true, host.checkUserIds session (Route.accountVersion ≤ version) session.targetUserIds)

end Host

end DataMgr.Sessions
