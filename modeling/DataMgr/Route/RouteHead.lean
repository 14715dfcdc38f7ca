import DataMgr.Foundation.ByteMemory

/-! # The route head: layout and reader

A message starts with a fixed head, two device ids in fixed fields, a user pair
with a counted list of user ids, and three length-prefixed ids. The reader walks
them with a pointer and a count of the bytes left. Offsets are from the start of
the buffer; the memory goes on past its end, and every read is recorded.
-/

namespace DataMgr.Route

open DataMgr.Foundation

structure Session where
  sourceDeviceId : Bytes
  targetDeviceId : Bytes
  sourceUserId : UInt32
  targetUserIds : List UInt32
  appId : Bytes
  storeId : Bytes
  accountId : Bytes
deriving DecidableEq, Repr

/-- The session of a handler that has parsed nothing. -/
def Session.fresh : Session := ⟨[], [], 0, [], [], [], []⟩

def magicNumber : Nat := 0x8421
def routeHeadVersion : Nat := 0x1
def maxDeviceId : Nat := 65

/-- The packed sizes of `RouteHead`, `SessionDevicePair`, `SessionUserPair` and of
the three length-prefixed ids. -/
def routeHeadSize : Nat := 16
def devicePairSize : Nat := 130
def userPairSize : Nat := 5
def idHeadSize : Nat := 4

def invalidVersion : Int := -1
def accountVersion : Int := 2
def udmfAndObjectVersion : Int := 3

structure RouteHead where
  magic : Nat
  version : Nat
  checkSum : Nat
  dataLen : Nat
deriving DecidableEq, Repr

/-- A handler that is unpacking: `reads` lists the offset and length of every read,
`checks` the offset of the pointer at every length check with the left size tested. -/
structure Unpacker where
  session : Session
  reads : List (Nat × Nat)
  checks : List (Nat × Nat)

variable (capability : Bytes → Option Int) (mem : Memory) (totalLen : Nat) (ptr leftSize : Nat)
  (u : Unpacker)

namespace Unpacker

def read (off len : Nat) : Unpacker := { u with reads := u.reads ++ [(off, len)] }

def check (ptr leftSize : Nat) : Unpacker :=
  { u with checks := u.checks ++ [(ptr, leftSize)] }

end Unpacker

def strnlen (off max : Nat) : Nat :=
  ((readBytes mem off max).takeWhile (· ≠ 0)).length

/-- `NetToHost` on the ids of a user pair, which are little endian on the wire. -/
def unPackUserIds (mem : Memory) : Nat → Nat → List UInt32
  | _, 0 => []
  | off, count + 1 => UInt32.ofNat (readLE mem off 4) :: unPackUserIds mem (off + 4) count

def unPackDataHead : Bool × RouteHead × Unpacker :=
  let u := u.check 0 totalLen
  if totalLen < routeHeadSize then (false, ⟨0, 0, 0, 0⟩, u)
  else
    let head : RouteHead :=
      ⟨readLE mem 0 2, readLE mem 2 2, readLE mem 4 8, readLE mem 12 4⟩
    let u := (((u.read 0 2).read 2 2).read 4 8).read 12 4
    if head.magic ≠ magicNumber then (false, head, u)
    else
      let u := u.check routeHeadSize (totalLen - routeHeadSize)
      if totalLen - routeHeadSize < head.dataLen then (false, head, u) else (true, head, u)

/-- The device pair of `UnPackDataBody`; on success the pointer and the left size
after it. `strnlen` stops after the terminator. -/
def unPackDevicePair : Option (Nat × Nat) × Unpacker :=
  let u := u.check ptr leftSize
  if leftSize < devicePairSize then (none, u)
  else
    let sourceLen := strnlen mem ptr maxDeviceId
    let targetLen := strnlen mem (ptr + maxDeviceId) maxDeviceId
    let u := (u.read ptr (min (sourceLen + 1) maxDeviceId)).read (ptr + maxDeviceId)
      (min (targetLen + 1) maxDeviceId)
    (some (ptr + devicePairSize, leftSize - devicePairSize),
      { u with session := { u.session with
          sourceDeviceId := readBytes mem ptr sourceLen
          targetDeviceId := readBytes mem (ptr + maxDeviceId) targetLen } })

/-- The user pair of `UnPackDataBody`. The ids are appended to those already there. -/
def unPackUserPair : Option (Nat × Nat) × Unpacker :=
  let u := u.check ptr leftSize
  if leftSize < userPairSize then (none, u)
  else
    let targetUserCount := (mem (ptr + 4)).toNat
    let u := (u.read ptr 4).read (ptr + 4) 1
    let u := { u with session := { u.session with
      sourceUserId := UInt32.ofNat (readLE mem ptr 4) } }
    let pairSize := userPairSize + targetUserCount * 4
    let u := u.check ptr leftSize
    if leftSize < pairSize then (none, u)
    else
      let u := u.read (ptr + userPairSize) (targetUserCount * 4)
      (some (ptr + pairSize, leftSize - pairSize),
        { u with session := { u.session with
            targetUserIds := u.session.targetUserIds ++
              unPackUserIds mem (ptr + userPairSize) targetUserCount } })

/-- `UnPackAppId` and `UnPackStoreId`: the left size is the callee's own copy, so
only the pointer is handed back. -/
def unPackId (setId : Session → Bytes → Session) (mem : Memory) (ptr leftSize : Nat)
    (u : Unpacker) : Option Nat × Unpacker :=
  let u := u.check ptr leftSize
  if leftSize < idHeadSize then (none, u)
  else
    let idLen := readLE mem ptr 4
    let u := (u.read ptr 4).check (ptr + idHeadSize) (leftSize - idHeadSize)
    if leftSize - idHeadSize < idLen then (none, u)
    else
      let u := u.read (ptr + idHeadSize) idLen
      (some (ptr + idHeadSize + idLen),
        { u with session := setId u.session (readBytes mem (ptr + idHeadSize) idLen) })

def unPackAppId := unPackId fun s bytes => { s with appId := bytes }

def unPackStoreId := unPackId fun s bytes => { s with storeId := bytes }

/-- The last field moves no pointer. -/
def unPackAccountId : Bool × Unpacker :=
  let u := u.check ptr leftSize
  if leftSize < idHeadSize then (false, u)
  else
    let accountIdLen := readLE mem ptr 4
    let u := (u.read ptr 4).check (ptr + idHeadSize) (leftSize - idHeadSize)
    if leftSize - idHeadSize < accountIdLen then (false, u)
    else
      let u := u.read (ptr + idHeadSize) accountIdLen
      (true, { u with session := { u.session with
        accountId := readBytes mem (ptr + idHeadSize) accountIdLen } })

/-- The ids that only newer peers send. Both checks get the left size that held
before the app id. -/
def unPackLaterIds : Bool × Unpacker :=
  match unPackStoreId mem ptr leftSize u with
  | (none, u) => (false, u)
  | (some ptr, u) => unPackAccountId mem ptr leftSize u

/-- `UnPackDataBody` over the buffer from `ptr` on; `capability` is `GetCapability`,
with `none` for a failed lookup. -/
def unPackDataBody (ptr totalLen : Nat) (u : Unpacker) : Bool × Unpacker :=
  match unPackDevicePair mem ptr totalLen u with
  | (none, u) => (false, u)
  | (some (ptr, leftSize), u) =>
      match unPackUserPair mem ptr leftSize u with
      | (none, u) => (false, u)
      | (some (ptr, leftSize), u) =>
          match unPackAppId mem ptr leftSize u with
          | (none, u) => (false, u)
          | (some ptr, u) =>
              match capability u.session.sourceDeviceId with
              | none => (false, u)
              | some version =>
                  if accountVersion ≤ version then unPackLaterIds mem ptr leftSize u
                  else (true, u)

/-- `UnPackData`: success, the unpacked size (left at zero on failure) and the handler. -/
def unPackData : Bool × Nat × Unpacker :=
  if totalLen < routeHeadSize then (false, 0, u.check 0 totalLen)
  else
    match unPackDataHead mem totalLen (u.check 0 totalLen) with
    | (false, _, u) => (false, 0, u)
    | (true, head, u) =>
        if head.version = routeHeadVersion then
          match unPackDataBody capability mem routeHeadSize (totalLen - routeHeadSize) u with
          | (false, u) => (false, 0, u)
          | (true, u) => (true, routeHeadSize + head.dataLen, u)
        else (false, 0, u)

end DataMgr.Route
