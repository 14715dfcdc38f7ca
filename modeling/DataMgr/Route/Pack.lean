import DataMgr.Route.RouteHead

/-! # The route head: writer

`GetHeadDataSize` computes the size of the head for the handler's session and
`FillHeadData` writes it. The copying functions of the secure C library are a
parameter; the other managers' answers are an argument.
-/

namespace DataMgr.Route

open DataMgr.Foundation

/-- `strcpy_s` and `memcpy_s` with the destination's offset and capacity; `none` is
a non-zero return. `strcpyS` gets the C string's characters without the terminator. -/
structure Securec where
  strcpyS : Memory → Nat → Nat → Bytes → Option Memory
  memcpyS : Memory → Nat → Nat → Bytes → Option Memory

def securecMemMaxLen : Nat := 0x7fffffff

structure Securec.Lawful (S : Securec) : Prop where
  strcpyS_fits : ∀ {mem dest destMax src mem'}, S.strcpyS mem dest destMax src = some mem' →
    src.length < destMax
  strcpyS_copy : ∀ {mem dest destMax src mem'}, S.strcpyS mem dest destMax src = some mem' →
    readBytes mem' dest (src.length + 1) = src ++ [0]
  strcpyS_frame : ∀ {mem dest destMax src mem' a}, S.strcpyS mem dest destMax src = some mem' →
    a < dest ∨ dest + destMax ≤ a → mem' a = mem a
  memcpyS_fits : ∀ {mem dest destMax src mem'}, S.memcpyS mem dest destMax src = some mem' →
    src.length ≤ destMax ∧ destMax ≤ securecMemMaxLen
  memcpyS_copy : ∀ {mem dest destMax src mem'}, S.memcpyS mem dest destMax src = some mem' →
    readBytes mem' dest src.length = src
  memcpyS_frame : ∀ {mem dest destMax src mem' a}, S.memcpyS mem dest destMax src = some mem' →
    a < dest ∨ dest + src.length ≤ a → mem' a = mem a

inductive DBStatus where
  | ok
  | dbError
deriving DecidableEq, Repr

/-- The answers of the bootstrap, device, trust and upgrade managers. -/
structure RouteEnv where
  processLabel : Bytes
  metaDBName : Bytes
  isOHOSType : Bytes → Bool
  isTrust : Bytes → Bool
  capability : Bytes → Option Int

structure Handler where
  appId : Bytes
  storeId : Bytes
  session : Session
  headSize : Nat
deriving DecidableEq, Repr

def asciiBytes (text : String) : Bytes := text.toList.map fun c => UInt8.ofNat c.toNat

def udmfStoreId : Bytes := asciiBytes "drag"
def dataObjectStoreId : Bytes := asciiBytes "distributedObject_"

def alignWidth : Nat := 8

/-- `GET_ALIGNED_SIZE`: clearing the low bits of `x + width - 1` for a width that is
a power of two. -/
def getAlignedSize (x width : Nat) : Nat := (x + (width - 1)) / width * width

variable (S : Securec) (s : Session) (mem : Memory)

def expectSize : Nat :=
  routeHeadSize + devicePairSize + userPairSize + s.targetUserIds.length * 4 +
    idHeadSize + s.appId.length + idHeadSize + s.storeId.length + idHeadSize + s.accountId.length

def Session.isValid : Bool := !s.targetUserIds.isEmpty

/-- `GetHeadDataSize`: the status, the head size and the handler. The size is stored
as a `uint32_t`. -/
def getHeadDataSize (env : RouteEnv) (h : Handler) : DBStatus × Nat × Handler :=
  if h.appId = env.processLabel ∧ h.storeId ≠ udmfStoreId ∧ h.storeId ≠ dataObjectStoreId then
    (.ok, 0, h)
  else if !env.isOHOSType h.session.targetDeviceId then
    if h.appId.isEmpty then (.dbError, 0, h)
    else if !env.isTrust h.appId then (.dbError, 0, h)
    else (.ok, 0, h)
  else
    match env.capability h.session.targetDeviceId with
    | none =>
        if h.appId = env.processLabel ∧
            (h.storeId = udmfStoreId ∨ h.storeId = dataObjectStoreId) then (.ok, 0, h)
        else (.dbError, 0, h)
    | some version =>
        if (h.appId = env.processLabel ∧ h.storeId ≠ env.metaDBName ∧
            version < udmfAndObjectVersion) ∨ version = invalidVersion then (.ok, 0, h)
        else if !h.session.isValid then (.dbError, 0, h)
        else
          let headSize := getAlignedSize (expectSize h.session) alignWidth % 2 ^ 32
          (.ok, headSize, { h with headSize := headSize })

def packDataHead (totalLen : Nat) : Memory :=
  let mem := writeBytes mem 0 (leBytes 2 magicNumber)
  let mem := writeBytes mem 2 (leBytes 2 routeHeadVersion)
  let mem := writeBytes mem 4 (leBytes 8 0)
  writeBytes mem 12 (leBytes 4 (totalLen - routeHeadSize))

/-- `c_str()` as the copying functions see it. -/
def cStr (text : Bytes) : Bytes := text.takeWhile (· ≠ 0)

def packUserIds (mem : Memory) : Nat → List UInt32 → Memory
  | _, [] => mem
  | off, id :: ids => packUserIds (writeBytes mem off (leBytes 4 id.toNat)) (off + 4) ids

/-- `end - *data` as a `size_t`. -/
def sizeLeft (endPtr ptr : Nat) : Nat := (endPtr + 2 ^ 64 - ptr) % 2 ^ 64

/-- `PackAppId` and `PackStoreId`: the size is stored as a `uint32_t`. On success the
memory and the pointer after the field. -/
def packId (id : Bytes) (mem : Memory) (ptr endPtr : Nat) : Option (Memory × Nat) :=
  let idSize := id.length % 2 ^ 32
  let mem := writeBytes mem ptr (leBytes 4 idSize)
  let ptr := ptr + idHeadSize
  (S.memcpyS mem ptr (sizeLeft endPtr ptr) (id.take idSize)).map fun mem => (mem, ptr + idSize)

def packAppId := packId S s.appId

def packStoreId := packId S s.storeId

/-- The last field moves no pointer. -/
def packAccountId (ptr endPtr : Nat) : Option Memory :=
  let idSize := s.accountId.length % 2 ^ 32
  let mem := writeBytes mem ptr (leBytes 4 idSize)
  let ptr := ptr + idHeadSize
  S.memcpyS mem ptr (sizeLeft endPtr ptr) (s.accountId.take idSize)

/-- The fixed part of `PackDataBody`: both device ids and the user pair, whose count
is a `uint8_t`. -/
def packPairs (ptr : Nat) : Option Memory := do
  let mem ← S.strcpyS mem ptr maxDeviceId (cStr s.sourceDeviceId)
  let mem ← S.strcpyS mem (ptr + maxDeviceId) maxDeviceId (cStr s.targetDeviceId)
  let ptr := ptr + devicePairSize
  let mem := writeBytes mem ptr (leBytes 4 s.sourceUserId.toNat)
  let mem := writeBytes mem (ptr + 4) [UInt8.ofNat s.targetUserIds.length]
  some (packUserIds mem (ptr + userPairSize) s.targetUserIds)

def packDataBody (data totalLen : Nat) :
    Option Memory := do
  let mem ← packPairs S s mem data
  let ptr := data + devicePairSize + (userPairSize + s.targetUserIds.length * 4)
  let endPtr := data + totalLen
  let (mem, ptr) ← packAppId S s mem ptr endPtr
  let (mem, ptr) ← packStoreId S s mem ptr endPtr
  packAccountId S s mem ptr endPtr

def packData (h : Handler) (mem : Memory) (totalLen : Nat) : Option Memory :=
  if totalLen < h.headSize then none
  else if h.headSize < routeHeadSize then none
  else packDataBody S h.session (packDataHead mem h.headSize) routeHeadSize
    (h.headSize - routeHeadSize)

/-- `FillHeadData` on a buffer. What a failed packing has already written is not tracked. -/
def fillHeadData (h : Handler) (mem : Memory) (headSize : Nat) : DBStatus × Memory :=
  if headSize ≠ h.headSize then (.dbError, mem)
  else if h.headSize = 0 then (.ok, mem)
  else
    match packData S h mem headSize with
    | some mem => (.ok, mem)
    | none => (.dbError, mem)

end DataMgr.Route
