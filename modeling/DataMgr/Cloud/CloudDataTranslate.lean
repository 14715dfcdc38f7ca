import DataMgr.Foundation.ByteMemory

/-! # Assets as blobs

An asset is stored in a database column as a magic word, a length word and its
JSON form; a list as another magic word, a count word and the blobs of its
elements. The reader walks a buffer it does not trust: sizes are `size_t`, so
their differences wrap, and every read is recorded with its offset.
-/

namespace DataMgr.Cloud

open DataMgr.Foundation

structure DbAsset where
  version : UInt32
  name : String
  assetId : String
  subpath : String
  uri : String
  modifyTime : String
  createTime : String
  size : String
  hash : String
  extension : String
  flag : UInt32
  status : UInt32
deriving DecidableEq, Repr

/-- `NativeRdb::AssetValue`; `DistributedData::Asset` has the same fields. -/
structure DataAsset where
  version : UInt32
  status : UInt32
  expiresTime : UInt64
  id : String
  name : String
  uri : String
  createTime : String
  modifyTime : String
  size : String
  hash : String
  path : String
  extension : String
deriving DecidableEq, Repr

/-- What `DistributedDB` defines: the codes of `AssetStatus`, the operation type
`NO_CHANGE`, and a value-initialised asset. -/
structure DbAssetCodes where
  normal : UInt32
  downloading : UInt32
  abnormal : UInt32
  insert : UInt32
  update : UInt32
  delete : UInt32
  toDownload : UInt32
  noChange : UInt32
  initial : DbAsset

def statusNormal : UInt32 := 1
def statusInsert : UInt32 := 2
def statusUpdate : UInt32 := 3
def statusDelete : UInt32 := 4
def statusAbnormal : UInt32 := 5
def statusDownloading : UInt32 := 6
def statusToDownload : UInt32 := 7
def statusSkipAsset : UInt32 := 8
def statusNotFound : UInt32 := 9

def noExpiresTime : UInt64 := 0

variable (codes : DbAssetCodes) (status : UInt32)

def getHighStatus : UInt32 := status &&& 0xF0000000

def getLowStatus : UInt32 := status &&& ~~~0xF0000000

def convertToDataStatus : UInt32 :=
  let lowStatus := getLowStatus status
  let converted :=
    if lowStatus = codes.normal then statusNormal
    else if lowStatus = codes.abnormal then statusAbnormal
    else if lowStatus = codes.insert then statusInsert
    else if lowStatus = codes.update then statusUpdate
    else if lowStatus = codes.delete then statusDelete
    else if lowStatus = codes.downloading then statusDownloading
    else if lowStatus = codes.toDownload then statusToDownload
    else statusNormal
  converted ||| getHighStatus status

def convertToDBStatus : UInt32 :=
  let lowStatus := getLowStatus status
  let converted :=
    if lowStatus = statusNormal then codes.normal
    else if lowStatus = statusAbnormal ∨ lowStatus = statusSkipAsset ∨
        lowStatus = statusNotFound then
      codes.abnormal
    else if lowStatus = statusInsert then codes.insert
    else if lowStatus = statusUpdate then codes.update
    else if lowStatus = statusDelete then codes.delete
    else if lowStatus = statusDownloading then codes.downloading
    else if lowStatus = statusToDownload then codes.toDownload
    else codes.normal
  converted ||| getHighStatus status

/-- `ValueProxy::TempAsset`, to `NativeRdb::AssetValue`. -/
def tempAsset (asset : DbAsset) : DataAsset where
  version := asset.version
  status := convertToDataStatus codes asset.status
  expiresTime := noExpiresTime
  id := asset.assetId
  name := asset.name
  uri := asset.uri
  createTime := asset.createTime
  modifyTime := asset.modifyTime
  size := asset.size
  hash := asset.hash
  path := asset.subpath
  extension := asset.extension

/-- `ValueProxy::Asset`, from `NativeRdb::AssetValue` to `DistributedDB::Asset`. -/
def convert (asset : DataAsset) : DbAsset where
  version := asset.version
  name := asset.name
  assetId := asset.id
  subpath := asset.path
  uri := asset.uri
  modifyTime := asset.modifyTime
  createTime := asset.createTime
  size := asset.size
  hash := asset.hash
  extension := asset.extension
  flag := codes.initial.flag
  status := convertToDBStatus codes asset.status

def assetMagic : Nat := 0x41534554
def assetsMagic : Nat := 0x41534553

/-- `Serializable::Marshall` and `Unmarshall` of an `InnerAsset`, on the bytes of the
JSON text; `none` is a text `Unmarshall` refuses. -/
structure AssetJson where
  marshall : DataAsset → Bytes
  unmarshall : Bytes → Option DataAsset

variable (json : AssetJson) (blob : Bytes) (mem : Memory) (data : Nat) (length : UInt64)

/-- `HostToNet` of a `uint16_t`: what does not fit is cut off. -/
def word16 (n : Nat) : Bytes := leBytes 2 (n % 2 ^ 16)

def assetToBlob (asset : DbAsset) : Bytes :=
  let dbAsset := { asset with flag := codes.noChange }
  let data := json.marshall (tempAsset codes dbAsset)
  leBytes 4 assetMagic ++ word16 data.length ++ data

def assetsToBlob (assets : List DbAsset) : Bytes :=
  leBytes 4 assetsMagic ++ word16 assets.length ++ assets.flatMap (assetToBlob codes json)

/-- What a parser returns: the bytes consumed, the value it fills in, the offset and
length of every read, and the read position before and after every round of its
loop that goes on. -/
structure Parsed (α : Type) where
  used : UInt64
  value : α
  reads : List (Nat × Nat)
  rounds : List (UInt64 × UInt64)

/-- `ParserRawData` for one asset, at the pointer `data` (`none` is `nullptr`). -/
def parserRawData (data : Option Nat) (length : UInt64) : Parsed (Option DataAsset) :=
  match data with
  | none => ⟨0, none, [], []⟩
  | some data =>
      if length = 0 then ⟨0, none, [], []⟩
      else
        let used : UInt64 := 0
        if 4 > length - used then ⟨0, none, [], []⟩
        else
          let reads := [(data, 4)]
          let used := used + 4
          if readLE mem data 4 ≠ assetMagic then ⟨0, none, reads, []⟩
          else if 2 > length - used then ⟨0, none, reads, []⟩
          else
            let reads := reads ++ [(data + used.toNat, 2)]
            let size := UInt64.ofNat (readLE mem (data + used.toNat) 2)
            let used := used + 2
            if size > length - used then ⟨0, none, reads, []⟩
            else
              let reads := reads ++ [(data + used.toNat, size.toNat)]
              match json.unmarshall (readBytes mem (data + used.toNat) size.toNat) with
              | none => ⟨0, none, reads, []⟩
              | some asset => ⟨used + size, some asset, reads, []⟩

/-- The loop of `ParserRawData` for a list, with `num - count` rounds left. -/
def parseAssets (json : AssetJson) (mem : Memory) (data : Nat) (length : UInt64) :
    Nat → UInt64 → Parsed (List DataAsset)
  | 0, used => ⟨used, [], [], []⟩
  | left + 1, used =>
      if used < length then
        let p := parserRawData json mem (some (data + used.toNat)) (length - used)
        match p.value with
        | some asset =>
            if p.used = 0 then ⟨used, [], p.reads, []⟩
            else
              let rest := parseAssets json mem data length left (used + p.used)
              ⟨rest.used, asset :: rest.value, p.reads ++ rest.reads,
                (used, used + p.used) :: rest.rounds⟩
        | none => ⟨used, [], p.reads, []⟩
      else ⟨used, [], [], []⟩

/-- `ParserRawData` for a list. The count is read at `data`, where the magic word is. -/
def parserRawDatas (data : Option Nat) (length : UInt64) : Parsed (List DataAsset) :=
  match data with
  | none => ⟨0, [], [], []⟩
  | some data =>
      if length = 0 then ⟨0, [], [], []⟩
      else
        let used : UInt64 := 0
        if 4 > length - used then ⟨0, [], [], []⟩
        else
          let reads := [(data, 4)]
          let used := used + 4
          if readLE mem data 4 ≠ assetsMagic then ⟨0, [], reads, []⟩
          else if 2 > length - used then ⟨0, [], reads, []⟩
          else
            let reads := reads ++ [(data, 2)]
            let num := readLE mem data 2
            let used := used + 2
            let p := parseAssets json mem data length num used
            { p with reads := reads ++ p.reads }

/-- `blob.data()`: the buffer lies at offset zero. -/
def blobData : Option Nat := if blob.isEmpty then none else some 0

def blobToAsset : DbAsset :=
  let p := parserRawData json (ofBytes blob) (blobData blob) (UInt64.ofNat blob.length)
  match p.value with
  | some asset => if p.used = 0 then codes.initial else convert codes asset
  | none => codes.initial

def blobToAssets : List DbAsset :=
  let p := parserRawDatas json (ofBytes blob) (blobData blob) (UInt64.ofNat blob.length)
  if p.used = 0 then [] else p.value.map (convert codes)

/-- The length checks before a read: below the length the difference does not wrap. -/
theorem not_gt_sub_iff {need length used : UInt64} (hused : used ≤ length) :
    ¬ need > length - used ↔ used.toNat + need.toNat ≤ length.toNat := by
  have hle : used.toNat ≤ length.toNat := UInt64.le_iff_toNat_le.mp hused
  rw [gt_iff_lt, UInt64.not_lt, UInt64.le_iff_toNat_le, UInt64.toNat_sub_of_le _ _ hused]
  omega

/-- Every read lies in the `length` bytes at `data`. -/
def ReadsWithin (data length : Nat) (reads : List (Nat × Nat)) : Prop :=
  ∀ r ∈ reads, data ≤ r.1 ∧ r.1 + r.2 ≤ data + length

theorem ReadsWithin.nil (data length : Nat) : ReadsWithin data length [] := nofun

theorem ReadsWithin.append {data length : Nat} {reads more : List (Nat × Nat)}
    (h : ReadsWithin data length reads) (hmore : ReadsWithin data length more) :
    ReadsWithin data length (reads ++ more) := by
  intro r hr
  rcases List.mem_append.mp hr with hr | hr
  · exact h r hr
  · exact hmore r hr

theorem ReadsWithin.single {length off len : Nat} (h : off + len ≤ length) :
    ReadsWithin data length [(data + off, len)] := by
  intro r hr
  rw [List.mem_singleton.mp hr]
  omega

theorem ReadsWithin.suffix {data length used : Nat} {reads : List (Nat × Nat)}
    (h : ReadsWithin (data + used) (length - used) reads) (hused : used ≤ length) :
    ReadsWithin data length reads := by
  intro r hr
  have hin := h r hr
  omega

open ReadsWithin

theorem parserRawData_within :
    (parserRawData json mem (some data) length).used ≤ length ∧
      ReadsWithin data length.toNat (parserRawData json mem (some data) length).reads := by
  have hzero : (0 : UInt64) ≤ length := UInt64.le_iff_toNat_le.mpr (Nat.zero_le _)
  have hnone : ReadsWithin data length.toNat [] := nil _ _
  rw [parserRawData]
  split
  · exact ⟨hzero, hnone⟩
  dsimp only
  split
  · exact ⟨hzero, hnone⟩
  rename_i h4
  have hlen4 : 4 ≤ length.toNat := by
    have h := (not_gt_sub_iff hzero).mp h4
    simpa using h
  have hused4 : 0 + 4 ≤ length := UInt64.le_iff_toNat_le.mpr hlen4
  have hmagic : ReadsWithin data length.toNat [(data, 4)] :=
    single data ((Nat.zero_add 4).symm ▸ hlen4)
  split
  · exact ⟨hzero, hmagic⟩
  split
  · exact ⟨hzero, hmagic⟩
  rename_i h2
  have hlen6 : 6 ≤ length.toNat := (not_gt_sub_iff hused4).mp h2
  have hused6 : 0 + 4 + 2 ≤ length := UInt64.le_iff_toNat_le.mpr hlen6
  have hword : ReadsWithin data length.toNat ([(data, 4)] ++ [(data + 4, 2)]) :=
    hmagic.append (single data hlen6)
  split
  · exact ⟨hzero, hword⟩
  rename_i hsize
  have hfits := (not_gt_sub_iff hused6).mp hsize
  have hbody := hword.append (single data hfits)
  split
  · exact ⟨hzero, hbody⟩
  · refine ⟨?_, hbody⟩
    exact le_trans (UInt64.toNat_add _ _ ▸ Nat.mod_le _ _) hfits

theorem advance_within {length used step : UInt64} (hused : used ≤ length)
    (hstep : step ≤ length - used) (hpos : step ≠ 0) :
    (used + step).toNat = used.toNat + step.toNat ∧ used < used + step ∧ used + step ≤ length := by
  have hrest : step.toNat ≤ length.toNat - used.toNat := by
    rw [← UInt64.toNat_sub_of_le _ _ hused]
    exact UInt64.le_iff_toNat_le.mp hstep
  have hbound : length.toNat < 2 ^ 64 := length.toNat_lt
  have hstepPos : 0 < step.toNat := Nat.pos_of_ne_zero fun h0 => hpos (UInt64.toNat_inj.mp h0)
  have hsum : (used + step).toNat = used.toNat + step.toNat := by
    rw [UInt64.toNat_add]
    exact Nat.mod_eq_of_lt (by omega)
  refine ⟨hsum, ?_, ?_⟩
  · rw [UInt64.lt_iff_toNat_lt, hsum]
    omega
  · rw [UInt64.le_iff_toNat_le, hsum]
    omega

theorem parseAssets_within (left : Nat) (used : UInt64) (hused : used ≤ length) :
    (parseAssets json mem data length left used).used ≤ length ∧
      ReadsWithin data length.toNat (parseAssets json mem data length left used).reads ∧
      ∀ r ∈ (parseAssets json mem data length left used).rounds, r.1 < r.2 ∧ r.2 ≤ length := by
  induction left generalizing used with
  | zero => exact ⟨hused, nil _ _, nofun⟩
  | succ left ih =>
      obtain ⟨hconsumed, hreads⟩ :=
        parserRawData_within json mem (data + used.toNat) (length - used)
      rw [UInt64.toNat_sub_of_le _ _ hused] at hreads
      have hinside := hreads.suffix (UInt64.le_iff_toNat_le.mp hused)
      rw [parseAssets]
      split
      · dsimp only
        split
        · split
          · exact ⟨hused, hinside, nofun⟩
          · rename_i hgoes
            obtain ⟨-, hlt, hle⟩ := advance_within hused hconsumed hgoes
            obtain ⟨hrestUsed, hrestReads, hrestRounds⟩ := ih _ hle
            refine ⟨hrestUsed, hinside.append hrestReads, ?_⟩
            intro r hr
            rcases List.mem_cons.mp hr with rfl | hr
            · exact ⟨hlt, hle⟩
            · exact hrestRounds r hr
        · exact ⟨hused, hinside, nofun⟩
      · exact ⟨hused, nil _ _, nofun⟩

theorem parserRawDatas_within :
    (parserRawDatas json mem (some data) length).used ≤ length ∧
      ReadsWithin data length.toNat (parserRawDatas json mem (some data) length).reads ∧
      ∀ r ∈ (parserRawDatas json mem (some data) length).rounds, r.1 < r.2 ∧ r.2 ≤ length := by
  have hzero : (0 : UInt64) ≤ length := UInt64.le_iff_toNat_le.mpr (Nat.zero_le _)
  rw [parserRawDatas]
  split
  · exact ⟨hzero, nil _ _, nofun⟩
  dsimp only
  split
  · exact ⟨hzero, nil _ _, nofun⟩
  rename_i h4
  have hlen4 : 4 ≤ length.toNat := by
    have h := (not_gt_sub_iff hzero).mp h4
    simpa using h
  have hused4 : 0 + 4 ≤ length := UInt64.le_iff_toNat_le.mpr hlen4
  have hmagic : ReadsWithin data length.toNat [(data, 4)] :=
    single data ((Nat.zero_add 4).symm ▸ hlen4)
  split
  · exact ⟨hzero, hmagic, nofun⟩
  split
  · exact ⟨hzero, hmagic, nofun⟩
  rename_i h2
  have hlen6 : 6 ≤ length.toNat := (not_gt_sub_iff hused4).mp h2
  have hused6 : 0 + 4 + 2 ≤ length := UInt64.le_iff_toNat_le.mpr hlen6
  have hcount : ReadsWithin data length.toNat [(data, 2)] :=
    single data (show 0 + 2 ≤ length.toNat by omega)
  obtain ⟨hused, hreads, hrounds⟩ :=
    parseAssets_within json mem data length (readLE mem data 2) _ hused6
  exact ⟨hused, (hmagic.append hcount).append hreads, hrounds⟩

/-- Both parsers, on any bytes: no read past the end, no size past the length, and
every round of the list parser that goes on moves the read position. -/
theorem parsers_stay_inside (json : AssetJson) (mem : Memory) (data : Option Nat)
    (length : UInt64) :
    (parserRawData json mem data length).used ≤ length ∧
      (parserRawDatas json mem data length).used ≤ length ∧
      (∀ r ∈ (parserRawData json mem data length).reads ++
          (parserRawDatas json mem data length).reads,
        ∃ base, data = some base ∧ base ≤ r.1 ∧ r.1 + r.2 ≤ base + length.toNat) ∧
      ∀ r ∈ (parserRawDatas json mem data length).rounds, r.1 < r.2 ∧ r.2 ≤ length := by
  cases data with
  | none =>
      have hzero : (0 : UInt64) ≤ length := UInt64.le_iff_toNat_le.mpr (Nat.zero_le _)
      exact ⟨hzero, hzero, nofun, nofun⟩
  | some base =>
      obtain ⟨hone, honeReads⟩ := parserRawData_within json mem base length
      obtain ⟨hall, hallReads, hrounds⟩ := parserRawDatas_within json mem base length
      refine ⟨hone, hall, ?_, hrounds⟩
      intro r hr
      exact ⟨base, rfl, (honeReads.append hallReads) r hr⟩

end DataMgr.Cloud
