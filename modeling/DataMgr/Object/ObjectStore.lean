import DataMgr.Foundation.PrefixStore

/-! # The store of distributed objects

All applications share one store. The key of a property is its bundle, session, source
device, target device, time and name, joined by a separator that is not escaped, and all
operations select entries by a prefix of the key. Texts are lists of characters. Each
entry carries the fields it was saved with; the code sees its key and value only. The
status of each database call is given, and a call that fails changes nothing.
-/

namespace DataMgr.Object

open DataMgr.Foundation PrefixStore

abbrev Text := List Char

def seperator : Char := '_'

def saveInfoName : Text := "p_###SAVEINFO###".toList

def maxObjectSizePerApp : Nat := 16

def assign {κ α : Type} [DecidableEq κ] (key : κ) (value : α) (items : List (κ × α)) :
    List (κ × α) :=
  items.filter (fun item => item.1 ≠ key) ++ [(key, value)]

def getPrefixWithoutDeviceId (appId sessionId : Text) : Text :=
  appId ++ [seperator] ++ sessionId ++ [seperator]

def getPropertyPrefix (udid appId sessionId toDeviceId : Text) : Text :=
  appId ++ [seperator] ++ sessionId ++ [seperator] ++ udid ++ [seperator] ++ toDeviceId ++
    [seperator]

structure Entry (β : Type) where
  bundleName : Text
  sessionId : Text
  sourceDeviceId : Text
  targetDeviceId : Text
  timestamp : Text
  propertyName : Text
  value : β
deriving DecidableEq, Repr

def Entry.key {β : Type} (e : Entry β) : Text :=
  getPropertyPrefix e.sourceDeviceId e.bundleName e.sessionId e.targetDeviceId ++ e.timestamp ++
    [seperator] ++ e.propertyName

def Entry.SavedUnder {β : Type} (e : Entry β) (bundleName sessionId : Text) : Prop :=
  e.bundleName = bundleName ∧ e.sessionId = sessionId

def isDigit (c : Char) : Bool := '0' ≤ c && c ≤ '9'

/-- `_\d{10}_p_` matches at the start of the text. -/
def matchesTime : Text → Bool
  | '_' :: rest =>
      (rest.take 10).length = 10 && (rest.take 10).all isDigit && "_p_".toList <+: rest.drop 10
  | _ => false

/-- The first match of the time: what stands before it, and what follows its first
separator. -/
def searchTime : Text → Option (Text × Text)
  | [] => none
  | c :: rest =>
      if matchesTime (c :: rest) then some ([], rest)
      else (searchTime rest).map fun (beforeTime, fromTime) => (c :: beforeTime, fromTime)

def splitLast : Text → Option (Text × Text)
  | [] => none
  | c :: rest =>
      match splitLast rest with
      | some (before, after) => some (c :: before, after)
      | none => if c = seperator then some ([], rest) else none

def splitFirst : Text → Option (Text × Text)
  | [] => none
  | c :: rest =>
      if c = seperator then some ([], rest)
      else (splitFirst rest).map fun (before, after) => (c :: before, after)

structure SplitKeys where
  bundleName : Text
  sessionId : Text
  sourceDeviceUdid : Text
  targetDevice : Text
  time : Text
  propertyName : Text
deriving DecidableEq, Repr

def splitEntryKey (key : Text) : Option SplitKeys := do
  let (beforeTime, fromTime) ← searchTime key
  let (beforeTargetDevice, targetDevice) ← splitLast beforeTime
  let (beforeSourceDeviceUdid, sourceDeviceUdid) ← splitLast beforeTargetDevice
  let (bundleName, sessionId) ← splitLast beforeSourceDeviceUdid
  let (time, propertyName) ← splitFirst fromTime
  some { bundleName, sessionId, sourceDeviceUdid, targetDevice, time, propertyName }

/-- `strtol`, for a text of digits. -/
def strtol (text : Text) : Nat :=
  (text.takeWhile isDigit).foldl (fun value c => 10 * value + (c.toNat - '0'.toNat)) 0

inductive DBStatus where
  | ok
  | notFound
  | failed
deriving DecidableEq, Repr

inductive ObjectStatus where
  | success
  | dbError
  | storeClosed
  | storeNotOpen
  | getKvFailed
  | keyNotFound
  | putFailed
deriving DecidableEq, Repr

section

variable {β : Type}

/-- `GetEntries`: exactly the entries under the prefix. -/
def getEntries (fails : Bool) (store : List (Entry β)) (start : Text) : DBStatus × List (Entry β) :=
  if fails then (.failed, [])
  else
    let entries := under Entry.key start store
    (if entries.isEmpty then .notFound else .ok, entries)

structure RevokeIO where
  isOpen : Bool := true
  readFails : Bool := false
  deleteFails : Bool := false
deriving DecidableEq, Repr

def revokeSaveToStore (io : RevokeIO) (store : List (Entry β)) (start : Text) :
    ObjectStatus × List (Entry β) :=
  if !io.isOpen then (.storeClosed, store)
  else
    match getEntries io.readFails store start with
    | (.notFound, _) => (.success, store)
    | (.failed, _) => (.dbError, store)
    | (.ok, entries) =>
        let keys := entries.map Entry.key
        if keys.isEmpty then (.success, store)
        else if io.deleteFails then (.dbError, store)
        else (.success, deleteKeys Entry.key keys store)

/-- The sessions found so far with a time each, the oldest time, and the prefix of the
session that has it. -/
structure OldSessions where
  sessionIds : List (Text × Nat) := []
  oldestTime : Nat := 0
  deleteKey : Text := []
deriving DecidableEq, Repr

def OldSessions.add (old : OldSessions) (key : Text) : OldSessions :=
  match splitEntryKey key with
  | none => old
  | some splitKeys =>
      let sessionIds :=
        if (old.sessionIds.lookup splitKeys.sessionId).isSome then old.sessionIds
        else old.sessionIds ++ [(splitKeys.sessionId, strtol splitKeys.time)]
      let time := (sessionIds.lookup splitKeys.sessionId).getD 0
      if old.oldestTime = 0 ∨ old.oldestTime > time then
        { sessionIds, oldestTime := time
          deleteKey := getPrefixWithoutDeviceId splitKeys.bundleName splitKeys.sessionId }
      else { old with sessionIds }

def oldSessions (entries : List (Entry β)) : OldSessions :=
  entries.foldl (fun old entry => old.add entry.key) {}

structure OldEntryIO where
  isOpen : Bool := true
  readFails : Bool := false
  revoke : RevokeIO := {}
deriving DecidableEq, Repr

def processOldEntry (io : OldEntryIO) (store : List (Entry β)) (appId : Text) : List (Entry β) :=
  if !io.isOpen then store
  else
    match getEntries io.readFails store appId with
    | (.ok, entries) =>
        let old := oldSessions entries
        if old.sessionIds.length < maxObjectSizePerApp then store
        else (revokeSaveToStore io.revoke store old.deleteKey).2
    | _ => store

def deleteByAppId (opens : Bool) (io : RevokeIO) (store : List (Entry β)) (appId : Text) :
    ObjectStatus × List (Entry β) :=
  if !opens then (.storeNotOpen, store) else revokeSaveToStore io store appId

/-- What happens to the calls of one save, the time it reads, and the value of its save
info. -/
structure SaveIO (β : Type) where
  old : OldEntryIO := {}
  revoke : RevokeIO := {}
  isOpen : Bool := true
  putFails : Bool := false
  timestamp : Text
  saveInfo : β

def savedEntries (udid appId sessionId toDeviceId : Text) (io : SaveIO β) (data : List (Text × β)) :
    List (Entry β) :=
  ((saveInfoName, io.saveInfo) :: data).map fun item =>
    { bundleName := appId, sessionId, sourceDeviceId := udid, targetDeviceId := toDeviceId
      timestamp := io.timestamp, propertyName := item.1, value := item.2 }

def saveToStore (udid : Text) (io : SaveIO β) (store : List (Entry β))
    (appId sessionId toDeviceId : Text) (data : List (Text × β)) : ObjectStatus × List (Entry β) :=
  let store := processOldEntry io.old store appId
  let store :=
    (revokeSaveToStore io.revoke store (getPropertyPrefix udid appId sessionId toDeviceId)).2
  if !io.isOpen then (.storeClosed, store)
  else if io.putFails then (.putFailed, store)
  else (.success, putBatch Entry.key (savedEntries udid appId sessionId toDeviceId io data) store)

/-- The data that was synchronised is deleted here. -/
def processSyncCallback (udid : Text) (opens : Bool) (io : RevokeIO) (store : List (Entry β))
    (appId sessionId toDeviceId : Text) : List (Entry β) :=
  if !opens then store
  else (revokeSaveToStore io store (getPropertyPrefix udid appId sessionId toDeviceId)).2

def revokeSave (opens : Bool) (io : RevokeIO) (store : List (Entry β)) (appId sessionId : Text) :
    ObjectStatus × List (Entry β) :=
  if !opens then (.storeNotOpen, store)
  else revokeSaveToStore io store (getPrefixWithoutDeviceId appId sessionId)

abbrev Results (β : Type) := List (Text × Entry β)

def Results.add (results : Results β) (entry : Entry β) : Results β :=
  if saveInfoName <:+: entry.key then results
  else
    match splitEntryKey entry.key with
    | none => results
    | some splitKeys => assign splitKeys.propertyName entry results

def retrieveFromStore (isOpen readFails : Bool) (store : List (Entry β)) (appId sessionId : Text) :
    ObjectStatus × Results β :=
  if !isOpen then (.storeClosed, [])
  else
    match getEntries readFails store (getPrefixWithoutDeviceId appId sessionId) with
    | (.notFound, _) => (.keyNotFound, [])
    | (.failed, _) => (.dbError, [])
    | (.ok, entries) => (.success, entries.foldl Results.add [])

structure RetrieveIO where
  opens : Bool := true
  isOpen : Bool := true
  readFails : Bool := false
  revoke : RevokeIO := {}
deriving DecidableEq, Repr

def retrieve (io : RetrieveIO) (store : List (Entry β)) (bundleName sessionId : Text) :
    ObjectStatus × Results β × List (Entry β) :=
  if !io.opens then (.getKvFailed, [], store)
  else
    match retrieveFromStore io.isOpen io.readFails store bundleName sessionId with
    | (.success, results) =>
        match revokeSaveToStore io.revoke store (getPrefixWithoutDeviceId bundleName sessionId) with
        | (.success, store) => (.success, results, store)
        | (status, store) => (status, [], store)
    | (status, _) => (status, [], store)

end

end DataMgr.Object
