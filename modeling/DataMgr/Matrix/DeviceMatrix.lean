import DataMgr.Foundation.Machine
import DataMgr.Utils.Constant

/-! # The device matrix

For each known device a 16-bit word per data type: the low four bits name the stores
with changes still to be exchanged, the rest is the level of the type. `onLines_` and
`offLines_` hold what the other devices have not got from here, `remotes_` what is
still to be fetched from them. The levels are also persisted as local metadata, in a
received and in a consistent record of each device.

One call is one step. `matrices_` and `versions_` are least-recently-used buckets that
may drop any entry at any time; the observer of local metadata is called some time
after the write, so it is a step of its own. Whether a save succeeds is part of the
action.
-/

namespace DataMgr.Matrix

open DataMgr.Foundation DataMgr.Utils

abbrev Word := BitVec 16

def metaStoreMask : Word := 0x0001#16

def invalidHigh : Word := 0xFFF0#16

def invalidLevel : Word := 0xFFFF#16

def invalidLength : Word := 0#16

def invalidValue : BitVec 32 := 0xFFFFFFFF#32

def invalidMask : Word := 0#16

def currentVersion : Nat := 3

def currentDynamicMask : Word := 0x0006#16

def currentStaticsMask : Word := 0x0003#16

inductive LevelType where
  | statics
  | dynamic
  | butt
deriving DecidableEq, Repr

def changeLocal : BitVec 32 := 1#32

def changeRemote : BitVec 32 := 2#32

def changeAll : BitVec 32 := 3#32

def setMask (index : Nat) : Word := 1#16 <<< index

variable (data : Word)

def low : Word := data &&& 0x000F#16

def high : Word := data &&& 0xFFF0#16

def merge (highPart lowPart : Word) : Word := high highPart ||| low lowPart

def resetMask : Word := data &&& 0xFFF0#16

theorem getLsbD_low (i : Nat) : (low data).getLsbD i = (data.getLsbD i && decide (i < 4)) := by
  have hmask : (0x000F#16).getLsbD i = decide (i < 4) := by
    by_cases hi : i < 16
    · interval_cases i <;> rfl
    · rw [BitVec.getLsbD_of_ge _ _ (by omega), eq_comm, decide_eq_false_iff_not]
      omega
  rw [low, BitVec.getLsbD_and, hmask]

theorem getLsbD_high (i : Nat) : (high data).getLsbD i = (data.getLsbD i && decide (4 ≤ i)) := by
  by_cases hi : i < 16
  · rw [high, BitVec.getLsbD_and]
    interval_cases i <;> rfl
  · rw [BitVec.getLsbD_of_ge _ _ (by omega), BitVec.getLsbD_of_ge data _ (by omega), Bool.false_and]

theorem getLsbD_merge (highPart lowPart : Word) {i : Nat} (hi : i < 4) :
    (merge highPart lowPart).getLsbD i = lowPart.getLsbD i := by
  simp [merge, getLsbD_high, getLsbD_low, hi]

structure Mask where
  dynamic : Word := metaStoreMask ||| currentDynamicMask
  statics : Word := currentStaticsMask
deriving DecidableEq, Repr

/-- The word of a type; `BUTT` has none. -/
def Mask.word (mask : Mask) : LevelType → Word
  | .statics => mask.statics
  | .dynamic => mask.dynamic
  | .butt => 0#16

def Mask.setDynamicMask (self : Mask) (mask : Word) : Mask :=
  { self with dynamic := resetMask self.dynamic ||| low mask }

def Mask.setStaticsMask (self : Mask) (mask : Word) : Mask :=
  { self with statics := resetMask self.statics ||| low mask }

/-- `DataLevel`, and `MatrixEvent::MatrixData` with the same fields. -/
structure DataLevel where
  dynamic : Word := invalidLevel
  statics : Word := invalidLevel
  switches : BitVec 32 := invalidValue
  switchesLen : Word := invalidLength
deriving DecidableEq, Repr

def DataLevel.isValid (level : DataLevel) : Bool :=
  !(level.dynamic == invalidLevel && level.statics == invalidLevel &&
    level.switches == invalidValue && level.switchesLen == invalidLength)

inductive Origin where
  | localDevice
  | remoteReceived
  | remoteConsistent
deriving DecidableEq, Repr

structure MatrixMetaData where
  version : Nat := 0
  dynamic : Word := 0#16
  statics : Word := 0#16
  origin : Origin := .localDevice
  deviceId : String := ""
  dynamicInfo : List String := []
  staticsInfo : List String := []
deriving DecidableEq, Repr

variable (self : MatrixMetaData)

def MatrixMetaData.word : LevelType → Word
  | .statics => self.statics
  | .dynamic => self.dynamic
  | .butt => 0#16

/-- `operator==`: the version and the application lists are not compared. -/
def MatrixMetaData.same (self other : MatrixMetaData) : Bool :=
  self.dynamic == other.dynamic && self.statics == other.statics &&
    self.deviceId == other.deviceId && self.origin == other.origin

def MatrixMetaData.getPrefix (fields : List String) : String :=
  join "MatrixMeta" keySeparator fields

def MatrixMetaData.getKey : String :=
  join "MatrixMeta" keySeparator [self.deviceId]

def MatrixMetaData.getConsistentKey : String :=
  join "MatrixMeta" keySeparator [self.deviceId, "Consistent"]

/-- The copy kept in `matrices_` and `versions_`: its device id is moved away. -/
def MatrixMetaData.cached : MatrixMetaData := { self with deviceId := "" }

structure SwitchesMetaData where
  version : Nat := 1
  value : BitVec 32 := invalidValue
  length : Word := invalidLength
  deviceId : String := ""
  networkId : String := ""
deriving DecidableEq, Repr

def SwitchesMetaData.getKey (self : SwitchesMetaData) : String :=
  join "SwitchesMeta" keySeparator [self.deviceId]

def SwitchesMetaData.same (self other : SwitchesMetaData) : Bool :=
  self.length == other.length && self.value == other.value

def SwitchesMetaData.changed (self : SwitchesMetaData) : Option SwitchesMetaData → Bool
  | some oldMeta => !self.same oldMeta
  | none => true

/-- What `Initialize` sets, and the uuid of this device. -/
structure MatrixConfig where
  localUuid : String
  tokenId : Nat
  storeId : String
  dynamicApps : List String
  staticsApps : List String

structure MatrixState where
  onLines : String → Option Mask
  offLines : String → Option Mask
  remotes : String → Option Mask
  matrices : String → Option MatrixMetaData
  versions : String → Option MatrixMetaData
  /-- The metadata store by key: local and synchronised matrix metadata, local switches. -/
  localMeta : String → Option MatrixMetaData
  syncMeta : String → Option MatrixMetaData
  switchesMeta : String → Option SwitchesMetaData
  lasts : DataLevel
  resetTask : Bool
  /-- The matrix events posted so far, newest first. -/
  posted : List DataLevel

variable (s : MatrixState) (cfg : MatrixConfig) (mask : Mask)

namespace MatrixState

def init (localMeta syncMeta : String → Option MatrixMetaData)
    (switchesMeta : String → Option SwitchesMetaData) : MatrixState :=
  ⟨fun _ => none, fun _ => none, fun _ => none, fun _ => none, fun _ => none, localMeta, syncMeta,
    switchesMeta, {}, false, []⟩

structure SameMasks (s s' : MatrixState) : Prop where
  onLines : s'.onLines = s.onLines
  offLines : s'.offLines = s.offLines
  remotes : s'.remotes = s.remotes

theorem SameMasks.trans {s t u : MatrixState} (h : s.SameMasks t) (h' : t.SameMasks u) :
    s.SameMasks u :=
  ⟨h'.onLines.trans h.onLines, h'.offLines.trans h.offLines, h'.remotes.trans h.remotes⟩

def saveMeta (s : MatrixState) (key : String) (matrixMeta : MatrixMetaData)
    (saved : Bool) : MatrixState :=
  if saved then { s with localMeta := Function.update s.localMeta key (some matrixMeta) } else s

theorem saveMeta_sameMasks (key : String) (matrixMeta : MatrixMetaData) (saved : Bool) :
    s.SameMasks (s.saveMeta key matrixMeta saved) := by
  cases saved <;> exact ⟨rfl, rfl, rfl⟩

/-- The record found, if any, and the state with a received record cached. -/
def getMatrixMeta (device : String) (isConsistent : Bool) :
    (Bool × MatrixMetaData) × MatrixState :=
  let fresh : MatrixMetaData := { deviceId := device }
  if isConsistent then
    match s.localMeta fresh.getConsistentKey with
    | some matrixMeta => ((true, matrixMeta), s)
    | none => ((false, fresh), s)
  else
    match s.matrices device with
    | some matrixMeta => ((true, matrixMeta), s)
    | none =>
        match s.localMeta fresh.getKey with
        | some matrixMeta =>
            ((true, matrixMeta.cached),
              { s with matrices := Function.update s.matrices device (some matrixMeta.cached) })
        | none => ((false, fresh), s)

theorem getMatrixMeta_sameMasks (device : String) (isConsistent : Bool) :
    s.SameMasks (s.getMatrixMeta device isConsistent).2 := by
  unfold getMatrixMeta
  dsimp only
  split
  · split <;> exact ⟨rfl, rfl, rfl⟩
  · split
    · exact ⟨rfl, rfl, rfl⟩
    · split <;> exact ⟨rfl, rfl, rfl⟩

def getMatrixInfo (device : String) : MatrixMetaData × MatrixState :=
  let fresh : MatrixMetaData := { deviceId := device }
  match s.versions device with
  | some matrixMeta => (matrixMeta, s)
  | none =>
      match s.syncMeta fresh.getKey with
      | some matrixMeta =>
          (matrixMeta.cached,
            { s with versions := Function.update s.versions device (some matrixMeta.cached) })
      | none => (fresh, s)

theorem getMatrixInfo_sameMasks (device : String) :
    s.SameMasks (s.getMatrixInfo device).2 := by
  unfold getMatrixInfo
  dsimp only
  split
  · exact ⟨rfl, rfl, rfl⟩
  · split <;> exact ⟨rfl, rfl, rfl⟩

def observed (matrixMeta : MatrixMetaData) : MatrixState :=
  if matrixMeta.origin = .remoteConsistent then s
  else
    { s with
      matrices := Function.update s.matrices matrixMeta.deviceId (some matrixMeta.cached) }

/-- The given mask with the levels of this device. -/
def updateMask (cfg : MatrixConfig) (mask : Mask) : Mask × MatrixState :=
  let found := s.getMatrixMeta cfg.localUuid false
  (⟨merge found.1.2.dynamic mask.dynamic, merge found.1.2.statics mask.statics⟩, found.2)

theorem updateMask_sameMasks : s.SameMasks (s.updateMask cfg mask).2 :=
  s.getMatrixMeta_sameMasks cfg.localUuid false

theorem updateMask_bit (type : LevelType) {i : Nat} (hi : i < 4) :
    ((s.updateMask cfg mask).1.word type).getLsbD i = (mask.word type).getLsbD i := by
  cases type with
  | statics => exact getLsbD_merge _ _ hi
  | dynamic => exact getLsbD_merge _ _ hi
  | butt => rfl

def online (s : MatrixState) (cfg : MatrixConfig) (device : String) : MatrixState :=
  match s.offLines device with
  | some mask =>
      { s with
        offLines := Function.update s.offLines device none
        onLines := Function.update s.onLines device (some mask) }
  | none =>
      let fresh := s.updateMask cfg {}
      { fresh.2 with onLines := Function.update s.onLines device (some fresh.1) }

def offline (s : MatrixState) (cfg : MatrixConfig) (device : String) : MatrixState :=
  match s.onLines device with
  | some mask =>
      { s with
        onLines := Function.update s.onLines device none
        offLines := Function.update s.offLines device (some mask) }
  | none =>
      let fresh := s.updateMask cfg {}
      { fresh.2 with offLines := Function.update s.offLines device (some fresh.1) }

end MatrixState

open MatrixState

/-- `codes[type]` of `OnChanged` and `OnExchanged`: the low bits for the type given. -/
def codes (code : Word) (type wanted : LevelType) : Word := if wanted = type then low code else 0#16

def Mask.add (code : Word) (type : LevelType) : Mask :=
  ⟨mask.dynamic ||| codes code type .dynamic, mask.statics ||| codes code type .statics⟩

def Mask.clear (code : Word) (type : LevelType) : Mask :=
  ⟨mask.dynamic &&& ~~~codes code type .dynamic, mask.statics &&& ~~~codes code type .statics⟩

variable (code : Word)

theorem Mask.word_add {type wanted : LevelType} (h : wanted ≠ .butt) :
    (mask.add code type).word wanted = mask.word wanted ||| codes code type wanted := by
  cases wanted with
  | statics => rfl
  | dynamic => rfl
  | butt => exact absurd rfl h

open Mask

theorem Mask.word_clear (type wanted : LevelType) :
    (mask.clear code type).word wanted = mask.word wanted &&& ~~~codes code type wanted := by
  cases wanted with
  | statics => rfl
  | dynamic => rfl
  | butt => simp [word]

theorem getLsbD_codes (type wanted : LevelType) (i : Nat) :
    (codes code type wanted).getLsbD i =
      (decide (wanted = type) && (code.getLsbD i && decide (i < 4))) := by
  unfold codes
  split
  · rename_i h
    simp [h, getLsbD_low]
  · rename_i h
    simp [h]

theorem Mask.add_bit {mask : Mask} {type : LevelType} {i : Nat} (added : LevelType)
    (h : (mask.word type).getLsbD i = true) :
    ((mask.add code added).word type).getLsbD i = true := by
  have htype : type ≠ .butt := by
    rintro rfl
    simp [word] at h
  simp [word_add mask code htype, h]

theorem Mask.clear_bit {mask : Mask} {code : Word} {type cleared : LevelType} {i : Nat}
    (h : (mask.word type).getLsbD i = true) (hnot : ¬ (cleared = type ∧ code.getLsbD i = true)) :
    ((mask.clear code cleared).word type).getLsbD i = true := by
  have hi : i < 16 := BitVec.lt_of_getLsbD h
  have hcode : (codes code cleared type).getLsbD i = false := by
    rw [getLsbD_codes, Bool.and_eq_false_iff]
    by_cases htype : type = cleared
    · have hclear : code.getLsbD i = false := by
        simpa [htype] using hnot
      simp [hclear]
    · simp [htype]
  rw [word_clear, BitVec.getLsbD_and, BitVec.getLsbD_not, h, hcode]
  simp [hi]

def MatrixState.onChanged (s : MatrixState) (cfg : MatrixConfig) (code : Word) (type : LevelType) :
    MatrixState :=
  if type = .butt then s
  else
    let s : MatrixState :=
      { s with
        onLines := fun device => (s.onLines device).map fun mask => mask.add code type
        offLines := fun device => (s.offLines device).map fun mask => mask.add code type }
    if low code = 0#16 then s
    else
      let fresh := s.updateMask cfg {}
      let mask := (fresh.1.setStaticsMask (codes code type .statics)).setDynamicMask
        (codes code type .dynamic)
      let own : SwitchesMetaData := { deviceId := cfg.localUuid }
      let matrixData : DataLevel :=
        match s.switchesMeta own.getKey with
        | some switches => ⟨mask.dynamic, mask.statics, switches.value, switches.length⟩
        | none => { dynamic := mask.dynamic, statics := mask.statics }
      { fresh.2 with lasts := matrixData, resetTask := true, posted := matrixData :: s.posted }

/-- The population count of the bits below the lowest set bit, less one. -/
def convertIndex : Word :=
  let index := ~~~code &&& (code - 1#16)
  let index := ((index &&& 0xAAAA#16) >>> 1) + (index &&& 0x5555#16)
  let index := ((index &&& 0xCCCC#16) >>> 2) + (index &&& 0x3333#16)
  let index := ((index &&& 0xF0F0#16) >>> 4) + (index &&& 0x0F0F#16)
  let index := ((index &&& 0xFF00#16) >>> 8) + (index &&& 0x00FF#16)
  index - 1#16

/-- The bit of the first entry that is the application, the inner loop of both
conversions and of `GetCode`. -/
def appMask (apps : List String) (app : String) : Word :=
  match apps.findIdx? (· == app) with
  | some i => setMask i
  | none => 0#16

/-- The outer loop of both conversions. Each round clears a bit of `code`, so sixteen
rounds are enough. -/
def convertLoop (info apps : List String) : Nat → Word → Word → Word
  | 0, _, result => result
  | fuel + 1, code, result =>
      if code = 0#16 then result
      else
        match info[(convertIndex code).toNat]? with
        | none => result
        | some app =>
            convertLoop info apps fuel (code &&& (code - 1#16)) (result ||| appMask apps app)

def convertDynamic (matrixMeta : MatrixMetaData) (mask : Word) : Word :=
  convertLoop matrixMeta.dynamicInfo cfg.dynamicApps 16 (low mask &&& ~~~metaStoreMask)
    (low mask &&& metaStoreMask)

def convertStatics (matrixMeta : MatrixMetaData) (mask : Word) : Word :=
  convertLoop matrixMeta.staticsInfo cfg.staticsApps 16 (low mask) 0#16

def MatrixState.convertMask (s : MatrixState) (cfg : MatrixConfig) (device : String)
    (dataLevel : DataLevel) : (Word × Word) × MatrixState :=
  let found := s.getMatrixInfo device
  let mask : Mask := {}
  if found.1.version = currentVersion then
    ((mask.dynamic &&& dataLevel.dynamic, mask.statics &&& dataLevel.statics), found.2)
  else
    ((convertDynamic cfg found.1 dataLevel.dynamic, convertStatics cfg found.1 dataLevel.statics),
      found.2)

theorem MatrixState.convertMask_sameMasks (device : String) (dataLevel : DataLevel) :
    s.SameMasks (s.convertMask cfg device dataLevel).2 := by
  have hfound := s.getMatrixInfo_sameMasks device
  unfold convertMask
  dsimp only
  split <;> exact hfound

/-- What a store of the given identity and type is in the masks. -/
def getCode (tokenId : Nat) (storeId appId : String) (dataType : LevelType) : Word :=
  if tokenId = cfg.tokenId ∧ storeId = cfg.storeId then metaStoreMask
  else
    match dataType with
    | .statics => appMask cfg.staticsApps appId
    | .dynamic => appMask cfg.dynamicApps appId
    | .butt => 0#16

/-- One type's part of the mask in `OnBroadcast`. -/
def broadcastWord (word level converted : Word) : Word :=
  if level ≠ invalidLevel then
    let word := word &&& low converted
    if high level ≠ invalidHigh then word ||| high level else word
  else word &&& ~~~level

def getMatrixMetaData (device : String) (mask : Mask) : MatrixMetaData :=
  { dynamic := mask.dynamic
    statics := mask.statics
    deviceId := device
    origin := .remoteReceived
    dynamicInfo := cfg.dynamicApps
    staticsInfo := cfg.staticsApps }

/-- One type's part of `UpdateRemoteMeta` over an existing record: the new word of the
record and of the mask. A gap of more than one is more than `0x0001`, which any two
different levels have. -/
def widenWord (word mask old : Word) : Word × Word :=
  if high word < high old then ((word &&& 0x000F#16) ||| high old, mask)
  else if 1 < (high word).toNat - (high old).toNat then (word ||| 0x000F#16, mask ||| 0x000F#16)
  else (word, mask)

/-- One type's part of `UpdateRemoteMeta` when there is no record yet. -/
def widenFirst (word mask : Word) : Word × Word :=
  if high word ≠ 0x0010#16 then (word ||| 0x000F#16, mask ||| 0x000F#16) else (word, mask)

def MatrixState.updateRemoteMeta (device : String) (mask : Mask) (newMeta : MatrixMetaData)
    (saved : Bool) : Mask × MatrixState :=
  let found := s.getMatrixMeta device false
  let oldMeta := found.1.2
  if found.1.1 && oldMeta.same newMeta then (mask, found.2)
  else
    let dynamic := if found.1.1 then widenWord newMeta.dynamic mask.dynamic oldMeta.dynamic
      else widenFirst newMeta.dynamic mask.dynamic
    let statics := if found.1.1 then widenWord newMeta.statics mask.statics oldMeta.statics
      else widenFirst newMeta.statics mask.statics
    let newMeta := { newMeta with dynamic := dynamic.1, statics := statics.1 }
    (⟨dynamic.2, statics.2⟩, found.2.saveMeta newMeta.getKey newMeta saved)

theorem MatrixState.updateRemoteMeta_sameMasks (device : String) (mask : Mask)
    (newMeta : MatrixMetaData) (saved : Bool) :
    s.SameMasks (s.updateRemoteMeta device mask newMeta saved).2 := by
  have hfound := s.getMatrixMeta_sameMasks device false
  unfold updateRemoteMeta
  dsimp only
  split
  · exact hfound
  · exact hfound.trans (saveMeta_sameMasks _ _ _ _)

def MatrixState.saveSwitches (device networkId : String) (dataLevel : DataLevel) (saved : Bool) :
    MatrixState :=
  if device = "" ∨ networkId = "" ∨ dataLevel.switches = invalidValue ∨
      dataLevel.switchesLen = invalidLength then s
  else
    let newMeta : SwitchesMetaData :=
      { value := dataLevel.switches, length := dataLevel.switchesLen, deviceId := device,
        networkId := networkId }
    if newMeta.changed (s.switchesMeta newMeta.getKey) && saved then
      { s with switchesMeta := Function.update s.switchesMeta newMeta.getKey (some newMeta) }
    else s

variable (device networkId : String) (dataLevel : DataLevel)

theorem MatrixState.saveSwitches_spec (saved : Bool) :
    ∃ switches, s.saveSwitches device networkId dataLevel saved =
      { s with switchesMeta := switches } := by
  unfold saveSwitches
  split
  · exact ⟨s.switchesMeta, rfl⟩
  dsimp only
  split
  · exact ⟨_, rfl⟩
  · exact ⟨s.switchesMeta, rfl⟩

/-- `OnBroadcast` up to its lock: what the broadcast itself says is pending. -/
def MatrixState.received (s : MatrixState) (cfg : MatrixConfig) (device networkId : String)
    (dataLevel : DataLevel) (switchesSaved saved : Bool) : Mask × MatrixState :=
  let s := s.saveSwitches device networkId dataLevel switchesSaved
  let result := s.convertMask cfg device dataLevel
  let mask : Mask := {}
  let mask : Mask :=
    ⟨broadcastWord mask.dynamic dataLevel.dynamic result.1.1,
      broadcastWord mask.statics dataLevel.statics result.1.2⟩
  result.2.updateRemoteMeta device mask (getMatrixMetaData cfg device mask) saved

/-- The mask that is stored: the low bits of the mask it replaces are kept. -/
def Mask.keep : Option Mask → Mask
  | some old => ⟨mask.dynamic ||| low old.dynamic, mask.statics ||| low old.statics⟩
  | none => mask

/-- The returned pair and the new state. `switchesSaved` and `saved` are the outcomes of
the two saves. -/
def MatrixState.onBroadcast (s : MatrixState) (cfg : MatrixConfig) (device networkId : String)
    (dataLevel : DataLevel) (switchesSaved saved : Bool) : (Word × Word) × MatrixState :=
  if device = "" ∨ networkId = "" ∨ dataLevel.isValid = false then
    ((invalidLevel, invalidLevel), s)
  else
    let updated := s.received cfg device networkId dataLevel switchesSaved saved
    let mask := updated.1.keep (updated.2.remotes device)
    ((mask.dynamic, mask.statics),
      { updated.2 with remotes := Function.update updated.2.remotes device (some mask) })

theorem Mask.keep_bit (mask old : Mask) (type : LevelType) {i : Nat} (hi : i < 4)
    (h : (old.word type).getLsbD i = true) :
    ((mask.keep (some old)).word type).getLsbD i = true := by
  cases type with
  | statics =>
      simp only [word] at h
      simp [keep, word, getLsbD_low, hi, h]
  | dynamic =>
      simp only [word] at h
      simp [keep, word, getLsbD_low, hi, h]
  | butt => simp [word] at h

theorem MatrixState.received_sameMasks (switchesSaved saved : Bool) :
    s.SameMasks (s.received cfg device networkId dataLevel switchesSaved saved).2 := by
  obtain ⟨switches, hswitches⟩ := s.saveSwitches_spec device networkId dataLevel switchesSaved
  have hstart : s.SameMasks (s.saveSwitches device networkId dataLevel switchesSaved) := by
    rw [hswitches]
    exact ⟨rfl, rfl, rfl⟩
  exact (hstart.trans (convertMask_sameMasks _ cfg device dataLevel)).trans
    (updateRemoteMeta_sameMasks _ _ _ _ _)

def MatrixState.getRemoteMask (s : MatrixState) (device : String) (type : LevelType) :
    Bool × Word :=
  match s.remotes device with
  | none => (false, 0#16)
  | some mask => if type = .butt then (false, 0#16) else (true, low (mask.word type))

def MatrixState.getMask (s : MatrixState) (device : String) (type : LevelType) : Bool × Word :=
  match s.onLines device with
  | none => (false, 0#16)
  | some mask => if type = .butt then (false, 0#16) else (true, low (mask.word type))

/-- A word of the consistent record: replaced if its type is clean and the received level
is higher. -/
def raisedWord (word received remote : Word) : Word :=
  if low remote = 0#16 ∧ high word < high received then received else word

def MatrixMetaData.raise (metaData matrixMeta : MatrixMetaData) (remote : Mask) : MatrixMetaData :=
  { metaData with
    statics := raisedWord metaData.statics matrixMeta.statics remote.statics
    dynamic := raisedWord metaData.dynamic matrixMeta.dynamic remote.dynamic }

/-- The received record that `UpdateConsistentMeta` makes up when there is none. -/
def MatrixMetaData.ofRemote (device : String) (remote : Mask) : MatrixMetaData :=
  { dynamic := remote.dynamic
    statics := remote.statics
    origin := .remoteReceived
    dynamicInfo := cfg.dynamicApps
    staticsInfo := cfg.staticsApps
    deviceId := device }

namespace MatrixState

/-- `recvSaved` and `consSaved` are the outcomes of the saves of the received and of the
consistent record. -/
def updateConsistentMeta (device : String) (remote : Mask)
    (recvSaved consSaved : Bool) : MatrixState :=
  if low remote.statics ≠ 0#16 ∧ low remote.dynamic ≠ 0#16 then s
  else
    let found := s.getMatrixMeta device false
    let matrixMeta := if found.1.1 then found.1.2 else .ofRemote cfg device remote
    let s := if found.1.1 then found.2 else found.2.saveMeta matrixMeta.getKey matrixMeta recvSaved
    match (s.getMatrixMeta device true).1 with
    | (false, _) =>
        let matrixMeta := { matrixMeta with origin := .remoteConsistent, deviceId := device }
        s.saveMeta matrixMeta.getConsistentKey matrixMeta consSaved
    | (true, metaData) =>
        let metaData := metaData.raise matrixMeta remote
        s.saveMeta metaData.getConsistentKey metaData consSaved

theorem updateConsistentMeta_sameMasks (device : String) (remote : Mask)
    (recvSaved consSaved : Bool) :
    s.SameMasks (s.updateConsistentMeta cfg device remote recvSaved consSaved) := by
  have hfound := s.getMatrixMeta_sameMasks device false
  unfold updateConsistentMeta
  dsimp only
  split
  · exact ⟨rfl, rfl, rfl⟩
  split <;> split
  all_goals first
    | exact hfound.trans (saveMeta_sameMasks _ _ _ _)
    | exact (hfound.trans (saveMeta_sameMasks _ _ _ _)).trans (saveMeta_sameMasks _ _ _ _)

def onExchanged (s : MatrixState) (cfg : MatrixConfig) (device : String) (code : Word)
    (type : LevelType) (change : BitVec 32) (recvSaved consSaved : Bool) : MatrixState :=
  if device = "" ∨ type = .butt then s
  else
    let cleared := fun (mask : Mask) => mask.clear code type
    let s : MatrixState :=
      if change &&& changeLocal = changeLocal then
        { s with
          onLines := Function.update s.onLines device ((s.onLines device).map cleared)
          offLines := Function.update s.offLines device ((s.offLines device).map cleared) }
      else s
    if change &&& changeRemote = changeRemote then
      match s.remotes device with
      | none => s
      | some mask =>
          let s := { s with remotes := Function.update s.remotes device (some (cleared mask)) }
          s.updateConsistentMeta cfg device (cleared mask) recvSaved consSaved
    else s

/-- `GetRecvLevel` and `GetConsLevel`: both read `GetMatrixMeta`, without or with its flag. -/
def getLevel (device : String) (type : LevelType) (isConsistent : Bool) : Bool × Word :=
  match (s.getMatrixMeta device isConsistent).1 with
  | (false, _) => (false, high invalidLevel)
  | (true, matrixMeta) =>
      if type = .butt then (false, high invalidLevel) else (true, high (matrixMeta.word type))

def getRecvLevel (device : String) (type : LevelType) : Bool × Word :=
  s.getLevel device type false

def getConsLevel (device : String) (type : LevelType) : Bool × Word :=
  s.getLevel device type true

def isConsistentOf (device : String) (type : LevelType) : Bool :=
  let recv := s.getRecvLevel device type
  let cons := s.getConsLevel device type
  recv.1 && cons.1 && decide (recv.2 ≤ cons.2) && recv.2 != invalidMask

def isConsistent (device : String) : Bool × Bool :=
  (s.isConsistentOf device .dynamic, s.isConsistentOf device .statics)

def updateLevel (device : String) (level : Word) (type : LevelType)
    (isConsistent saved : Bool) : MatrixState :=
  if device = "" ∨ type = .butt then s
  else
    let found := s.getMatrixMeta device isConsistent
    let matrixMeta : MatrixMetaData :=
      if found.1.1 then found.1.2
      else
        { found.1.2 with
          origin := if device = cfg.localUuid then .localDevice
            else if isConsistent then .remoteConsistent else .remoteReceived
          dynamicInfo := cfg.dynamicApps
          staticsInfo := cfg.staticsApps }
    let matrixMeta : MatrixMetaData :=
      { matrixMeta with
        deviceId := device
        dynamic := if type = .dynamic then merge level matrixMeta.dynamic else matrixMeta.dynamic
        statics := if type = .statics then merge level matrixMeta.statics else matrixMeta.statics }
    if isConsistent then found.2.saveMeta matrixMeta.getConsistentKey matrixMeta saved
    else
      let s := found.2.saveMeta matrixMeta.getKey matrixMeta saved
      { s with matrices := Function.update s.matrices device (some matrixMeta.cached) }

theorem updateLevel_sameMasks (device : String) (level : Word) (type : LevelType)
    (isConsistent saved : Bool) :
    s.SameMasks (s.updateLevel cfg device level type isConsistent saved) := by
  have hfound := s.getMatrixMeta_sameMasks device isConsistent
  unfold updateLevel
  dsimp only
  split
  · exact ⟨rfl, rfl, rfl⟩
  split
  · exact hfound.trans (saveMeta_sameMasks _ _ _ _)
  have hsaved : ∀ key matrixMeta, s.SameMasks
      ((s.getMatrixMeta device false).2.saveMeta key matrixMeta saved) := by
    intro key matrixMeta
    exact (s.getMatrixMeta_sameMasks device false).trans (saveMeta_sameMasks _ _ _ _)
  rename_i hflag
  rw [Bool.not_eq_true] at hflag
  subst hflag
  exact ⟨(hsaved _ _).onLines, (hsaved _ _).offLines, (hsaved _ _).remotes⟩

end MatrixState

/-- One type's word of `Broadcast`: the low bits of the last broadcast are kept. When the
given level is behind, the word is first cut to its low bits, so the level or-ed in
afterwards is zero. -/
def broadcastNext (given last : Word) : Word :=
  let word := resetMask given ||| low last
  if high word ≠ invalidHigh ∧ high last ≠ invalidHigh ∧ high word < high last then
    (word &&& 0x000F#16) ||| high (word &&& 0x000F#16)
  else word

def MatrixState.broadcast : MatrixState :=
  if s.lasts.isValid = false then
    { s with
      posted := { dataLevel with
        dynamic := resetMask dataLevel.dynamic
        statics := resetMask dataLevel.statics } :: s.posted }
  else
    let matrix : DataLevel :=
      { dataLevel with
        dynamic := broadcastNext dataLevel.dynamic s.lasts.dynamic
        statics := broadcastNext dataLevel.statics s.lasts.statics }
    { s with posted := matrix :: s.posted, lasts := matrix }

/-- The delayed task of `OnChanged`: the last broadcast once more, without its low bits. -/
def MatrixState.runResetTask : MatrixState :=
  { s with
    resetTask := false
    posted := { s.lasts with
      dynamic := resetMask s.lasts.dynamic
      statics := resetMask s.lasts.statics } :: s.posted }

def MatrixState.clear : MatrixState :=
  { s with
    matrices := fun _ => none
    versions := fun _ => none
    onLines := fun _ => none
    offLines := fun _ => none
    remotes := fun _ => none }

inductive MatrixAction where
  | online (device : String)
  | offline (device : String)
  | onChanged (code : Word) (type : LevelType)
  | onExchanged (device : String) (code : Word) (type : LevelType) (change : BitVec 32)
      (recvSaved consSaved : Bool)
  | onBroadcast (device networkId : String) (dataLevel : DataLevel) (switchesSaved saved : Bool)
  | broadcast (dataLevel : DataLevel)
  | runResetTask
  | updateLevel (device : String) (level : Word) (type : LevelType) (isConsistent saved : Bool)
  | clear
  /-- The observer of local metadata, and the buckets dropping an entry. -/
  | observed (matrixMeta : MatrixMetaData)
  | evictMatrix (device : String)
  | evictVersion (device : String)
  /-- Writes of other components, and what synchronisation brings. -/
  | localMetaWritten (key : String) (matrixMeta : Option MatrixMetaData)
  | syncMetaWritten (key : String) (matrixMeta : Option MatrixMetaData)
  | switchesWritten (key : String) (switches : Option SwitchesMetaData)

def MatrixState.apply (s : MatrixState) (cfg : MatrixConfig) : MatrixAction → MatrixState
  | .online device => s.online cfg device
  | .offline device => s.offline cfg device
  | .onChanged code type => s.onChanged cfg code type
  | .onExchanged device code type change recvSaved consSaved =>
      s.onExchanged cfg device code type change recvSaved consSaved
  | .onBroadcast device networkId dataLevel switchesSaved saved =>
      (s.onBroadcast cfg device networkId dataLevel switchesSaved saved).2
  | .broadcast dataLevel => s.broadcast dataLevel
  | .runResetTask => if s.resetTask then s.runResetTask else s
  | .updateLevel device level type isConsistent saved =>
      s.updateLevel cfg device level type isConsistent saved
  | .clear => s.clear
  | .observed matrixMeta => s.observed matrixMeta
  | .evictMatrix device => { s with matrices := Function.update s.matrices device none }
  | .evictVersion device => { s with versions := Function.update s.versions device none }
  | .localMetaWritten key matrixMeta =>
      { s with localMeta := Function.update s.localMeta key matrixMeta }
  | .syncMetaWritten key matrixMeta =>
      { s with syncMeta := Function.update s.syncMeta key matrixMeta }
  | .switchesWritten key switches =>
      { s with switchesMeta := Function.update s.switchesMeta key switches }

def matrixMachine : Machine MatrixState MatrixAction where
  step s a := some (s.apply cfg a)

end DataMgr.Matrix
