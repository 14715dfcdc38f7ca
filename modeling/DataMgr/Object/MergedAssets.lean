import DataMgr.Object.FetchedWrites

/-! # What a merge leaves in the row

`MergeAssetData` binds the columns of the primary key and then merges the new asset into its
column. The names of two single assets are compared, but none of the two is written: the
column keeps what it says about the old one.
-/

namespace DataMgr.Object

open DataMgr.Cloud (DataAsset)

section

variable {β : Type} (newAsset : DataAsset)

/-- What `MergeAsset` copies. -/
def metadata (asset : DataAsset) : String × String × String × String × String × String × String :=
  (asset.name, asset.uri, asset.modifyTime, asset.createTime, asset.size, asset.hash, asset.path)

/-- A null, an asset of the same name or a list of assets. -/
def Mergeable : Option (ColumnValue β) → Prop
  | some .null | some (.assets _) => True
  | some (.asset old) => old.name = newAsset.name
  | some (.other _) | none => False

/-- The column has an asset that carries what the new one says, and those of other names as
before. -/
def Holds (before after : Option (ColumnValue β)) : Prop :=
  (∃ asset ∈ assetsIn after, metadata asset = metadata newAsset) ∧
    (assetsIn after).filter (·.name ≠ newAsset.name) =
      (assetsIn before).filter (·.name ≠ newAsset.name)

/-- A value that is bound to the field itself and is right as it is: a merge leaves it alone, and
it is what a merge into the record's own value should give. -/
def BoundRight (before : Option (ColumnValue β)) : ColumnValue β → Prop
  | .null => False
  | .other _ => ¬ Mergeable newAsset before
  | .asset asset => Mergeable newAsset before →
    metadata asset = metadata newAsset ∧ ∀ old ∈ assetsIn before, old.name = newAsset.name
  | .assets assets =>
      (∃ old, assets.find? (·.name = newAsset.name) = some old ∧ metadata old = metadata newAsset) ∧
        (Mergeable newAsset before → assets.filter (·.name ≠ newAsset.name) =
          (assetsIn before).filter (·.name ≠ newAsset.name))

variable (record : VBucket β) (bindInfo : AssetBindInfo β)

structure MergesRight : Prop where
  primary : ∀ entry ∈ bindInfo.primaryKey,
    mergeAssetData record newAsset bindInfo entry.1 = some entry.2
  others : ∀ column, column ∉ bindInfo.primaryKey.map Prod.fst → column ≠ bindInfo.field →
    mergeAssetData record newAsset bindInfo column = record column
  merged : Mergeable newAsset (record bindInfo.field) →
    Holds newAsset (record bindInfo.field) (mergeAssetData record newAsset bindInfo bindInfo.field)

theorem mergeAssets_holds (assets : List DataAsset) :
    (∃ asset ∈ mergeAssets newAsset assets, metadata asset = metadata newAsset) ∧
      (mergeAssets newAsset assets).filter (·.name ≠ newAsset.name) =
        assets.filter (·.name ≠ newAsset.name) := by
  induction assets with
  | nil => simp [mergeAssets]
  | cons asset rest ih =>
      rw [mergeAssets]
      by_cases hname : asset.name = newAsset.name
      · rw [if_pos hname]
        exact ⟨⟨_, List.mem_cons_self, rfl⟩, by simp [mergeAsset, hname]⟩
      · obtain ⟨⟨merged, hmem, hsame⟩, hothers⟩ := ih
        rw [if_neg hname, List.filter_cons, List.filter_cons, hothers]
        exact ⟨⟨merged, List.mem_cons_of_mem _ hmem, hsame⟩, rfl⟩

/-- Only the merge into a single asset can fail. -/
theorem holds_merged_iff {value : Option (ColumnValue β)} (h : Mergeable newAsset value) :
    Holds newAsset value (value.map (mergedValue newAsset)) ↔
      ∀ old, value = some (.asset old) → metadata old = metadata newAsset := by
  cases value with
  | none => exact h.elim
  | some value =>
      cases value with
      | null => simp [Holds, mergedValue, assetsIn]
      | asset old => simp [Holds, mergedValue, assetsIn]
      | assets assets =>
          exact iff_of_true (mergeAssets_holds newAsset assets) (fun _ heq => by cases heq)
      | other value => exact h.elim

theorem mergeAsset_eq_self_iff (asset : DataAsset) :
    mergeAsset asset newAsset = asset ↔ metadata asset = metadata newAsset := by
  constructor
  · intro h
    rw [← h]
    rfl
  · intro h
    cases asset
    cases h
    rfl

theorem mergeAssets_eq_self_iff (assets : List DataAsset) :
    mergeAssets newAsset assets = assets ↔
      ∃ old, assets.find? (·.name = newAsset.name) = some old ∧
        metadata old = metadata newAsset := by
  induction assets with
  | nil => simp [mergeAssets]
  | cons asset rest ih =>
      by_cases hname : asset.name = newAsset.name
      · simp [mergeAssets, hname, mergeAsset_eq_self_iff]
      · simpa [mergeAssets, hname] using ih

theorem boundRight_iff (before : Option (ColumnValue β)) (value : ColumnValue β) :
    BoundRight newAsset before value ↔ mergedValue newAsset value = value ∧
      (Mergeable newAsset before → Holds newAsset before (some value)) := by
  cases value with
  | null => simp [BoundRight, mergedValue]
  | other value => simp [BoundRight, mergedValue, Holds, assetsIn]
  | asset asset =>
      rw [BoundRight, mergedValue, eq_self, true_and]
      refine imp_congr_right fun _ => ?_
      simp only [Holds, assetsIn, List.mem_singleton, exists_eq_left]
      refine and_congr_right fun hsame => ?_
      have hname : asset.name = newAsset.name := congrArg Prod.fst hsame
      have hnone : [asset].filter (·.name ≠ newAsset.name) = [] := by simp [hname]
      rw [hnone, @eq_comm _ [], List.filter_eq_nil_iff]
      simp
  | assets assets =>
      rw [BoundRight, mergedValue, ColumnValue.assets.injEq, mergeAssets_eq_self_iff]
      refine and_congr_right fun ⟨old, hfind, hsame⟩ => imp_congr_right fun _ => ?_
      exact (and_iff_right ⟨old, List.mem_of_find?_eq_some hfind, hsame⟩).symm

variable {record bindInfo newAsset}

theorem setPrimaryKey_of_mem {primaryKey : List (String × ColumnValue β)}
    (hkeys : (primaryKey.map Prod.fst).Nodup) {entry : String × ColumnValue β}
    (h : entry ∈ primaryKey) (record : VBucket β) :
    setPrimaryKey record primaryKey entry.1 = some entry.2 := by
  induction primaryKey generalizing record with
  | nil => cases h
  | cons first rest ih =>
      rw [List.map_cons, List.nodup_cons] at hkeys
      rcases List.mem_cons.mp h with rfl | hrest
      · exact (setPrimaryKey_of_not_mem hkeys.1 _).trans (Function.update_self ..)
      · exact ih hkeys.2 hrest _

/-- The merge is right exactly if a single asset of the same name already says what the new
one does; if the field is a column of the primary key, its bound value has to be right. -/
theorem merges_right_iff (hkeys : (bindInfo.primaryKey.map Prod.fst).Nodup) :
    MergesRight newAsset record bindInfo ↔
      (∀ value, (bindInfo.field, value) ∈ bindInfo.primaryKey →
        BoundRight newAsset (record bindInfo.field) value) ∧
      (bindInfo.field ∉ bindInfo.primaryKey.map Prod.fst → ∀ old,
        record bindInfo.field = some (.asset old) → old.name = newAsset.name →
          metadata old = metadata newAsset) := by
  have hfield := mergeAssetData_field record newAsset bindInfo
  simp only [boundRight_iff]
  constructor
  · intro h
    constructor
    · intro value hvalue
      have hkept := h.primary _ hvalue
      refine ⟨?_, fun hmergeable => hkept ▸ h.merged hmergeable⟩
      rw [hfield, setPrimaryKey_of_mem hkeys hvalue] at hkept
      exact Option.some.inj hkept
    · intro hfree old hold hname
      have hmergeable : Mergeable newAsset (record bindInfo.field) := by
        rw [hold]
        exact hname
      have hmerged := h.merged hmergeable
      rw [hfield, setPrimaryKey_of_not_mem hfree, holds_merged_iff newAsset hmergeable] at hmerged
      exact hmerged old hold
  · intro ⟨hbound, hfree⟩
    refine ⟨?_, ?_, ?_⟩
    · rintro ⟨column, value⟩ hentry
      by_cases hcolumn : column = bindInfo.field
      · subst hcolumn
        have hset : setPrimaryKey record bindInfo.primaryKey bindInfo.field = some value :=
          setPrimaryKey_of_mem hkeys hentry record
        rw [hfield, hset, Option.map_some, (hbound value hentry).1]
      · rw [mergeAssetData_eq, Function.update_of_ne hcolumn]
        exact setPrimaryKey_of_mem hkeys hentry record
    · intro column hnot hcolumn
      rw [mergeAssetData_eq, Function.update_of_ne hcolumn, setPrimaryKey_of_not_mem hnot]
    · intro hmergeable
      rw [hfield]
      by_cases hnot : bindInfo.field ∈ bindInfo.primaryKey.map Prod.fst
      · obtain ⟨⟨column, value⟩, hentry, hcolumn⟩ := List.mem_map.mp hnot
        cases hcolumn
        have hset : setPrimaryKey record bindInfo.primaryKey bindInfo.field = some value :=
          setPrimaryKey_of_mem hkeys hentry record
        rw [hset, Option.map_some, (hbound value hentry).1]
        exact (hbound value hentry).2 hmergeable
      · rw [setPrimaryKey_of_not_mem hnot, holds_merged_iff newAsset hmergeable]
        intro old hold
        refine hfree hnot old hold ?_
        rw [hold] at hmergeable
        exact hmergeable

end

def photo (hash : String) : DataAsset :=
  ⟨0, 0, 0, "", "a.jpg", "file://a.jpg", "1", "1", "9", hash, "/a.jpg", ""⟩

def notesPhoto : AssetBindInfo Nat := ⟨"notes.db", "notes", [("id", .other 7)], "photo", "a.jpg"⟩

def notesRow (value : ColumnValue Nat) : VBucket Nat := fun column =>
  if column = "photo" then some value else none

theorem merges_right_iff_list :
    MergesRight (photo "2") (notesRow (.assets [photo "1"])) notesPhoto := by
  refine (merges_right_iff (by decide)).mpr ⟨fun value hvalue => ?_, fun _ old hold => ?_⟩
  · exact absurd (congrArg Prod.fst (List.mem_singleton.mp hvalue)) (by simp [notesPhoto])
  · cases hold

/-- The row holds an older version of the photo as a single asset, and keeps it. -/
theorem single_asset_not_merged :
    mergeAssetData (notesRow (.asset (photo "1"))) (photo "2") notesPhoto "photo" =
        some (.asset (photo "1")) ∧
      ¬ MergesRight (photo "2") (notesRow (.asset (photo "1"))) notesPhoto := by
  refine ⟨rfl, fun h => ?_⟩
  obtain ⟨⟨asset, hasset, hsame⟩, -⟩ := h.merged rfl
  cases List.mem_singleton.mp hasset
  exact absurd hsame (by decide)

end DataMgr.Object
