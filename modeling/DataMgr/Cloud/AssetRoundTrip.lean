import DataMgr.Cloud.CloudDataTranslate

/-! # What a blob of assets reads back as

A single asset comes back as it was, up to its flag and status. For a list the
reader takes its count from the first two bytes of the magic word, `0x4553`: the
end of the buffer stops it in time on shorter lists, and on longer ones it drops
what follows.
-/

namespace DataMgr.Cloud

open DataMgr.Foundation

variable {codes : DbAssetCodes} {json : AssetJson}

@[simp] theorem length_word16 (n : Nat) : (word16 n).length = 2 := length_leBytes _ _

def frameBlob (data : Bytes) : Bytes := leBytes 4 assetMagic ++ word16 data.length ++ data

theorem assetToBlob_eq (asset : DbAsset) :
    assetToBlob codes json asset = frameBlob (json.marshall (tempAsset codes asset)) := rfl

@[simp] theorem length_frameBlob (data : Bytes) : (frameBlob data).length = 6 + data.length := by
  simp only [frameBlob, List.length_append, length_leBytes, length_word16]

theorem toNat_frameUsed {n : Nat} (h : n ≤ 65535) : (UInt64.ofNat (6 + n)).toNat = 6 + n :=
  UInt64.toNat_ofNat_of_lt' ((Nat.add_le_add_left h 6).trans_lt (by decide))

theorem ne_zero_of_toNat_pos {n : UInt64} (h : 0 < n.toNat) : n ≠ 0 := by
  rintro rfl
  exact absurd h (by simp)

theorem readBytes_frameBlob {mem : Memory} {off : Nat} {data : Bytes}
    (h : readBytes mem off (frameBlob data).length = frameBlob data) :
    readBytes mem off 4 = leBytes 4 assetMagic ∧
      readBytes mem (off + 4) 2 = word16 data.length ∧
      readBytes mem (off + 6) data.length = data := by
  have hsplit : (frameBlob data).length = 4 + 2 + data.length := by simp
  rw [hsplit, readBytes_add, readBytes_add, frameBlob] at h
  obtain ⟨hhead, hdata⟩ := List.append_inj h (by simp)
  obtain ⟨hmagic, hsize⟩ := List.append_inj hhead (by simp)
  exact ⟨hmagic, hsize, hdata⟩

theorem parserRawData_frameBlob {mem : Memory} {off : Nat} {length : UInt64} {data : Bytes}
    {asset : DataAsset} (hmem : readBytes mem off (frameBlob data).length = frameBlob data)
    (hsize : data.length ≤ 65535) (hlength : 6 + data.length ≤ length.toNat)
    (hjson : json.unmarshall data = some asset) :
    (parserRawData json mem (some off) length).used = UInt64.ofNat (6 + data.length) ∧
      (parserRawData json mem (some off) length).value = some asset := by
  obtain ⟨hmagic, hword, hdata⟩ := readBytes_frameBlob hmem
  have hzero : (0 : UInt64) ≤ length := UInt64.le_iff_toNat_le.mpr (Nat.zero_le _)
  have hused4 : 0 + 4 ≤ length := UInt64.le_iff_toNat_le.mpr (show 4 ≤ length.toNat by omega)
  have hused6 : 0 + 4 + 2 ≤ length := UInt64.le_iff_toNat_le.mpr (show 6 ≤ length.toNat by omega)
  have hne : length ≠ 0 := ne_zero_of_toNat_pos (by omega)
  have hmagicWord : readLE mem off 4 = assetMagic := by
    rw [readLE, hmagic, leValue_leBytes]
    rfl
  have hsizeWord : readLE mem (off + 4) 2 = data.length := by
    rw [readLE, hword, word16, leValue_leBytes]
    omega
  have hsizeNat : (UInt64.ofNat data.length).toNat = data.length :=
    UInt64.toNat_ofNat_of_lt' (hsize.trans_lt (by decide))
  have h4 : ¬ 4 > length - 0 := (not_gt_sub_iff hzero).mpr (show 4 ≤ length.toNat by omega)
  have h2 : ¬ 2 > length - (0 + 4) := (not_gt_sub_iff hused4).mpr (show 6 ≤ length.toNat by omega)
  have hbody : ¬ UInt64.ofNat data.length > length - (0 + 4 + 2) := by
    rw [not_gt_sub_iff hused6, hsizeNat]
    exact hlength
  have h4Nat : ((0 : UInt64) + 4).toNat = 4 := rfl
  have h6Nat : ((0 : UInt64) + 4 + 2).toNat = 6 := rfl
  have hsum : (0 : UInt64) + 4 + 2 + UInt64.ofNat data.length = UInt64.ofNat (6 + data.length) := by
    rw [UInt64.ofNat_add]
    rfl
  simp only [parserRawData, if_neg hne, if_neg h4, hmagicWord, ne_eq, not_true_eq_false, if_false,
    if_neg h2, h4Nat, hsizeWord, if_neg hbody, h6Nat, hsizeNat, hdata, hjson, hsum, and_self]

/-- The marshalled form fits its length word, and reading it gives the asset back. -/
def Marshalled (codes : DbAssetCodes) (json : AssetJson) (asset : DbAsset) : Prop :=
  (json.marshall (tempAsset codes asset)).length ≤ 65535 ∧
    json.unmarshall (json.marshall (tempAsset codes asset)) = some (tempAsset codes asset)

instance (codes : DbAssetCodes) (json : AssetJson) (asset : DbAsset) :
    Decidable (Marshalled codes json asset) :=
  inferInstanceAs (Decidable (_ ∧ _))

theorem blobData_of_ne_nil {blob : Bytes} (h : blob ≠ []) : blobData blob = some 0 := by
  rw [blobData, if_neg]
  simpa using h

theorem blobToAsset_assetToBlob {asset : DbAsset} (h : Marshalled codes json asset) :
    blobToAsset codes json (assetToBlob codes json asset) =
      convert codes (tempAsset codes asset) := by
  obtain ⟨hsize, hjson⟩ := h
  rw [assetToBlob_eq]
  generalize hdata : json.marshall (tempAsset codes asset) = data at hsize hjson
  have hne : frameBlob data ≠ [] := List.ne_nil_of_length_pos (by simp)
  have hlength : 6 + data.length ≤ (UInt64.ofNat (frameBlob data).length).toNat := by
    rw [length_frameBlob, toNat_frameUsed hsize]
  obtain ⟨hused, hvalue⟩ :=
    parserRawData_frameBlob (by simpa using readBytes_ofBytes [] (frameBlob data) []) hsize hlength
      hjson
  have hpos : UInt64.ofNat (6 + data.length) ≠ 0 := by
    apply ne_zero_of_toNat_pos
    rw [toNat_frameUsed hsize]
    omega
  simp only [blobToAsset, blobData_of_ne_nil hne, hused, hvalue, if_neg hpos]

/-- The count the reader takes: the low half of the magic word. -/
def countRead : Nat := assetsMagic % 2 ^ 16

variable {assets : List DbAsset}

theorem length_flatMap_assetToBlob_le (h : ∀ asset ∈ assets, Marshalled codes json asset) :
    (assets.flatMap (assetToBlob codes json)).length ≤ assets.length * 65541 := by
  induction assets with
  | nil => simp
  | cons asset rest ih =>
      have hhead := (h asset List.mem_cons_self).1
      have hrest := ih fun a ha => h a (List.mem_cons_of_mem _ ha)
      rw [List.flatMap_cons, List.length_append, List.length_cons, assetToBlob_eq, length_frameBlob]
      omega

/-- The loop on the blobs of `assets` at `used`, up to the end of the buffer: it stops
at the end of the buffer or at the count, whichever comes first. -/
theorem parseAssets_blobs (mem : Memory) (data : Nat) (length : UInt64) (assets : List DbAsset)
    (hok : ∀ asset ∈ assets, Marshalled codes json asset) (left : Nat) (used : UInt64)
    (hpos : 0 < used.toNat)
    (hmem : readBytes mem (data + used.toNat) (assets.flatMap (assetToBlob codes json)).length =
      assets.flatMap (assetToBlob codes json))
    (hend : used.toNat + (assets.flatMap (assetToBlob codes json)).length = length.toNat) :
    (parseAssets json mem data length left used).used ≠ 0 ∧
      (parseAssets json mem data length left used).value =
        (assets.take left).map (tempAsset codes) := by
  have hne : used ≠ 0 := ne_zero_of_toNat_pos hpos
  induction assets generalizing left used with
  | nil =>
      have hstop : ¬ used < length := by
        rw [UInt64.lt_iff_toNat_lt]
        simp only [List.flatMap_nil, List.length_nil] at hend
        omega
      cases left with
      | zero => exact ⟨hne, by simp [parseAssets]⟩
      | succ left => simp [parseAssets, hstop, hne]
  | cons asset rest ih =>
      cases left with
      | zero => exact ⟨hne, by simp [parseAssets]⟩
      | succ left =>
          obtain ⟨hsize, hjson⟩ := hok asset List.mem_cons_self
          rw [List.flatMap_cons, List.length_append] at hmem hend
          rw [readBytes_add] at hmem
          obtain ⟨hfirst, hothers⟩ := List.append_inj hmem (by simp)
          rw [assetToBlob_eq] at hfirst hothers hend
          generalize json.marshall (tempAsset codes asset) = text at hsize hjson hfirst hothers hend
          rw [length_frameBlob] at hothers hend
          have hlt : used < length := UInt64.lt_iff_toNat_lt.mpr (by omega)
          have hle : used ≤ length := UInt64.le_iff_toNat_le.mpr (by omega)
          have hroom : 6 + text.length ≤ (length - used).toNat := by
            rw [UInt64.toNat_sub_of_le _ _ hle]
            omega
          obtain ⟨hstep, hvalue⟩ := parserRawData_frameBlob hfirst hsize hroom hjson
          have hstepNat : (UInt64.ofNat (6 + text.length)).toNat = 6 + text.length :=
            toNat_frameUsed hsize
          have hstepPos : UInt64.ofNat (6 + text.length) ≠ 0 :=
            ne_zero_of_toNat_pos (by omega)
          have hstepLe : UInt64.ofNat (6 + text.length) ≤ length - used := by
            rw [UInt64.le_iff_toNat_le, hstepNat]
            exact hroom
          obtain ⟨hsum, -, -⟩ := advance_within hle hstepLe hstepPos
          rw [hstepNat] at hsum
          have hnext : 0 < (used + UInt64.ofNat (6 + text.length)).toNat := by omega
          obtain ⟨hused, hrest⟩ := ih (fun a ha => hok a (List.mem_cons_of_mem _ ha)) left
            (used + UInt64.ofNat (6 + text.length)) hnext
            (by rw [hsum, ← Nat.add_assoc]; exact hothers) (by omega) (ne_zero_of_toNat_pos hnext)
          rw [parseAssets, if_pos hlt]
          simp only [hvalue, hstep, if_neg hstepPos, hrest, List.take_succ_cons, List.map_cons,
            and_true]
          exact hused

theorem blobToAssets_assetsToBlob (hcount : assets.length ≤ 65535)
    (hok : ∀ asset ∈ assets, Marshalled codes json asset) :
    blobToAssets codes json (assetsToBlob codes json assets) =
      (assets.take countRead).map fun asset => convert codes (tempAsset codes asset) := by
  have hshort := length_flatMap_assetToBlob_le hok
  rw [assetsToBlob]
  generalize hblobs : assets.flatMap (assetToBlob codes json) = blobs at hshort
  generalize hblob : leBytes 4 assetsMagic ++ word16 assets.length ++ blobs = blob
  have hlength : blob.length = 6 + blobs.length := by
    rw [← hblob]
    simp only [List.length_append, length_leBytes, length_word16]
  have hsmall : blob.length < UInt64.size := by
    have hsize : UInt64.size = 18446744073709551616 := rfl
    omega
  have hlenNat : (UInt64.ofNat blob.length).toNat = 6 + blobs.length := by
    rw [UInt64.toNat_ofNat_of_lt' hsmall, hlength]
  have hne : blob ≠ [] := List.ne_nil_of_length_pos (by omega)
  have hmagic : readBytes (ofBytes blob) 0 4 = leBytes 4 assetsMagic := by
    have h := readBytes_ofBytes [] (leBytes 4 assetsMagic) (word16 assets.length ++ blobs)
    rwa [List.nil_append, ← List.append_assoc, hblob, length_leBytes] at h
  have hcountWord : readLE (ofBytes blob) 0 2 = countRead := by
    have hsplit : readBytes (ofBytes blob) 0 2 ++ readBytes (ofBytes blob) 2 2 =
        leBytes 2 assetsMagic ++ leBytes 2 (assetsMagic / 2 ^ 16) :=
      (readBytes_add _ 0 2 2).symm.trans hmagic
    rw [readLE, (List.append_inj hsplit (by simp)).1, leValue_leBytes]
    rfl
  have hmagicWord : readLE (ofBytes blob) 0 4 = assetsMagic := by
    rw [readLE, hmagic, leValue_leBytes]
    rfl
  have hbody : readBytes (ofBytes blob) (0 + 6) blobs.length = blobs := by
    have h := readBytes_ofBytes (leBytes 4 assetsMagic ++ word16 assets.length) blobs []
    rw [List.append_nil, hblob] at h
    simpa using h
  obtain ⟨hused, hvalue⟩ := parseAssets_blobs (ofBytes blob) 0 (UInt64.ofNat blob.length) assets hok
    countRead (0 + 4 + 2) (by decide) (by rw [hblobs]; exact hbody) (by rw [hblobs, hlenNat]; rfl)
  have hzero : (0 : UInt64) ≤ UInt64.ofNat blob.length :=
    UInt64.le_iff_toNat_le.mpr (Nat.zero_le _)
  have hused4 : 0 + 4 ≤ UInt64.ofNat blob.length :=
    UInt64.le_iff_toNat_le.mpr (show 4 ≤ (UInt64.ofNat blob.length).toNat by omega)
  have hlenPos : UInt64.ofNat blob.length ≠ 0 := ne_zero_of_toNat_pos (by omega)
  have h4 : ¬ 4 > UInt64.ofNat blob.length - 0 :=
    (not_gt_sub_iff hzero).mpr (show 4 ≤ (UInt64.ofNat blob.length).toNat by omega)
  have h2 : ¬ 2 > UInt64.ofNat blob.length - (0 + 4) :=
    (not_gt_sub_iff hused4).mpr (show 6 ≤ (UInt64.ofNat blob.length).toNat by omega)
  simp only [blobToAssets, blobData_of_ne_nil hne, parserRawDatas, if_neg hlenPos, if_neg h4,
    hmagicWord, ne_eq, not_true_eq_false, if_false, if_neg h2, hcountWord, if_neg hused, hvalue,
    List.map_map, Function.comp_def]

/-- A list comes back element by element as its assets do on their own, and each of
those is the asset it was up to its flag and status. -/
def RoundTrips (codes : DbAssetCodes) (json : AssetJson) (assets : List DbAsset) : Prop :=
  blobToAssets codes json (assetsToBlob codes json assets) =
      assets.map (fun asset => blobToAsset codes json (assetToBlob codes json asset)) ∧
    ∀ asset ∈ assets, { blobToAsset codes json (assetToBlob codes json asset) with
      flag := asset.flag, status := asset.status } = asset

theorem assets_roundTrip_iff (codes : DbAssetCodes) (json : AssetJson) (assets : List DbAsset)
    (hcount : assets.length ≤ 65535) (hok : ∀ asset ∈ assets, Marshalled codes json asset) :
    RoundTrips codes json assets ↔ assets.length ≤ 17747 := by
  rw [RoundTrips, blobToAssets_assetsToBlob hcount hok,
    List.map_congr_left fun asset hmem => blobToAsset_assetToBlob (hok asset hmem)]
  constructor
  · rintro ⟨hlist, -⟩
    have hlen := congrArg List.length hlist
    rw [List.length_map, List.length_map, List.length_take] at hlen
    have hread : countRead = 17747 := rfl
    omega
  · intro hle
    refine ⟨by rw [List.take_of_length_le (show assets.length ≤ countRead from hle)], ?_⟩
    intro asset hmem
    rw [blobToAsset_assetToBlob (hok asset hmem)]
    rfl

/-- Codes with an asset that has nothing set. -/
def plainCodes : DbAssetCodes :=
  ⟨0, 1, 2, 3, 4, 5, 6, 0, ⟨0, "", "", "", "", "", "", "", "", "", 0, 0⟩⟩

/-- A text of one byte, the version; everything else is as in a plain asset. -/
def versionJson : AssetJson where
  marshall asset := [UInt8.ofNat asset.version.toNat]
  unmarshall
    | [b] => some { tempAsset plainCodes plainCodes.initial with version := UInt32.ofNat b.toNat }
    | _ => none

def versioned (version : UInt32) : DbAsset := { plainCodes.initial with version := version }

theorem assets_roundTrip_two :
    RoundTrips plainCodes versionJson [versioned 1, versioned 2] :=
  (assets_roundTrip_iff plainCodes versionJson [versioned 1, versioned 2] (by decide)
    (by decide)).mpr (by decide)

/-- One asset more than `0x4553`: the reader drops the last one. -/
theorem assets_lose_the_17748th :
    ∃ assets : List DbAsset, assets.length = 17748 ∧
      (∀ asset ∈ assets, Marshalled plainCodes versionJson asset) ∧
      (blobToAssets plainCodes versionJson (assetsToBlob plainCodes versionJson assets)).length =
        17747 ∧
      ¬ RoundTrips plainCodes versionJson assets := by
  have hok : ∀ asset ∈ List.replicate 17748 (versioned 1),
      Marshalled plainCodes versionJson asset := by
    intro asset hmem
    rw [List.eq_of_mem_replicate hmem]
    decide
  have hcount : (List.replicate 17748 (versioned 1)).length ≤ 65535 := by
    rw [List.length_replicate]
    omega
  have hlen : (blobToAssets plainCodes versionJson (assetsToBlob plainCodes versionJson
      (List.replicate 17748 (versioned 1)))).length = 17747 := by
    rw [blobToAssets_assetsToBlob hcount hok, List.length_map, List.length_take,
      List.length_replicate]
    rfl
  refine ⟨_, List.length_replicate, hok, hlen, ?_⟩
  rintro ⟨hlist, -⟩
  rw [hlist, List.length_map, List.length_replicate] at hlen
  omega

end DataMgr.Cloud
