import DataMgr.Object.AssetMachine

/-! # A callback writes what its transfer fetched

The callback of a transfer takes the asset from the record, so it writes what was fetched
as long as no other asset has been put there since the transfer began. Whether the asset
gets into the row at all depends on the column: a list takes it, a single asset does not.
-/

namespace DataMgr.Object

open DataMgr.Foundation Machine
open DataMgr.Cloud (DataAsset)

def content (asset : DataAsset) : String × String × String × String :=
  (asset.uri, asset.modifyTime, asset.size, asset.hash)

section

variable {β : Type}

def assetsIn : Option (ColumnValue β) → List DataAsset
  | some (.asset asset) => [asset]
  | some (.assets assets) => assets
  | some .null | some (.other _) | none => []

def fieldAssets (row : VBucket β) (field : String) : List DataAsset := assetsIn (row field)

/-- The column takes an asset that is merged into it, or has its content already. -/
def Takes (asset : DataAsset) : Option (ColumnValue β) → Prop
  | some .null | some (.assets _) => True
  | some (.asset old) => content old = content asset
  | some (.other _) | none => False

/-- The row as it is before the asset is merged into it. -/
def AssetWrite.row? (write : AssetWrite β) : Option (VBucket β) :=
  (write.store.bind fun store => boundRow store write.bindInfo).map fun row =>
    setPrimaryKey row write.bindInfo.primaryKey

/-- The rows written hold the asset that was fetched and, beside it, only assets they held
before. -/
def AssetWrite.Right (write : AssetWrite β) : Prop :=
  ∀ row ∈ write.vBuckets,
    (∃ asset ∈ fieldAssets row write.bindInfo.field, content asset = content write.fetched) ∧
    ∀ asset ∈ fieldAssets row write.bindInfo.field, content asset = content write.fetched ∨
      ∃ old ∈ write.row?, asset ∈ fieldAssets old write.bindInfo.field

theorem content_mergeAsset (oldAsset newAsset : DataAsset) :
    content (mergeAsset oldAsset newAsset) = content newAsset := rfl

theorem mergeAssets_has (newAsset : DataAsset) (assets : List DataAsset) :
    ∃ asset ∈ mergeAssets newAsset assets, content asset = content newAsset := by
  induction assets with
  | nil => exact ⟨newAsset, List.mem_singleton_self _, rfl⟩
  | cons asset rest ih =>
      rw [mergeAssets]
      split
      · exact ⟨_, List.mem_cons_self, content_mergeAsset asset newAsset⟩
      · obtain ⟨merged, hmem, hsame⟩ := ih
        exact ⟨merged, List.mem_cons_of_mem _ hmem, hsame⟩

variable {newAsset asset : DataAsset} {value : Option (ColumnValue β)}

theorem mem_mergeAssets {assets : List DataAsset} (h : asset ∈ mergeAssets newAsset assets) :
    content asset = content newAsset ∨ asset ∈ assets := by
  induction assets with
  | nil =>
      rw [mergeAssets, List.mem_singleton] at h
      exact .inl (congrArg content h)
  | cons old rest ih =>
      rw [mergeAssets] at h
      split at h
      · rcases List.mem_cons.mp h with rfl | hrest
        · exact .inl (content_mergeAsset old newAsset)
        · exact .inr (List.mem_cons_of_mem _ hrest)
      · rcases List.mem_cons.mp h with rfl | hrest
        · exact .inr List.mem_cons_self
        · exact (ih hrest).imp_right (List.mem_cons_of_mem _)

def mergedValue (newAsset : DataAsset) : ColumnValue β → ColumnValue β
  | .null => .assets [newAsset]
  | .asset old => .asset old
  | .assets assets => .assets (mergeAssets newAsset assets)
  | .other value => .other value

theorem mergeAssetData_eq (record : VBucket β) (newAsset : DataAsset) (bindInfo : AssetBindInfo β) :
    mergeAssetData record newAsset bindInfo =
      Function.update (setPrimaryKey record bindInfo.primaryKey) bindInfo.field
        ((setPrimaryKey record bindInfo.primaryKey bindInfo.field).map (mergedValue newAsset)) := by
  unfold mergeAssetData
  generalize setPrimaryKey record bindInfo.primaryKey = bound
  dsimp only
  cases hvalue : bound bindInfo.field with
  | none => exact (Function.update_eq_self_iff.mpr hvalue.symm).symm
  | some value =>
      cases value with
      | null => rfl
      | asset old => exact (Function.update_eq_self_iff.mpr hvalue.symm).symm
      | assets assets => rfl
      | other value => exact (Function.update_eq_self_iff.mpr hvalue.symm).symm

theorem mergeAssetData_field (record : VBucket β) (newAsset : DataAsset)
    (bindInfo : AssetBindInfo β) :
    mergeAssetData record newAsset bindInfo bindInfo.field =
      (setPrimaryKey record bindInfo.primaryKey bindInfo.field).map (mergedValue newAsset) := by
  rw [mergeAssetData_eq, Function.update_self]

theorem assetsIn_merged_has (h : Takes newAsset value) :
    ∃ asset ∈ assetsIn (value.map (mergedValue newAsset)), content asset = content newAsset := by
  cases value with
  | none => exact h.elim
  | some value =>
      cases value with
      | null => exact ⟨newAsset, List.mem_singleton_self _, rfl⟩
      | asset old => exact ⟨old, List.mem_singleton_self _, h⟩
      | assets assets => exact mergeAssets_has newAsset assets
      | other value => exact h.elim

theorem mem_assetsIn_merged (h : asset ∈ assetsIn (value.map (mergedValue newAsset))) :
    content asset = content newAsset ∨ asset ∈ assetsIn value := by
  cases value with
  | none => exact .inr h
  | some value =>
      cases value with
      | null => exact .inl (congrArg content (List.mem_singleton.mp h))
      | asset old => exact .inr h
      | assets assets => exact mem_mergeAssets h
      | other value => exact .inr h

/-- A column that does not take an asset does not hold it afterwards, whatever is merged. -/
theorem assetsIn_merged_lacks {fetched : DataAsset} (h : ¬ Takes fetched value) :
    ∀ asset ∈ assetsIn (value.map (mergedValue newAsset)), content asset ≠ content fetched := by
  intro asset hasset
  cases value with
  | none => exact absurd hasset List.not_mem_nil
  | some value =>
      cases value with
      | null => exact absurd trivial h
      | asset old =>
          rw [List.mem_singleton.mp hasset]
          exact h
      | assets assets => exact absurd trivial h
      | other value => exact absurd hasset List.not_mem_nil

theorem takes_congr {other : DataAsset} (h : content asset = content other)
    (ht : Takes asset value) : Takes other value := by
  cases value with
  | none => exact ht
  | some value =>
      cases value with
      | null | assets | other => exact ht
      | asset old => exact (show content old = content asset from ht).trans h

theorem setPrimaryKey_of_not_mem {primaryKey : List (String × ColumnValue β)} {field : String}
    (h : field ∉ primaryKey.map Prod.fst) (record : VBucket β) :
    setPrimaryKey record primaryKey field = record field := by
  induction primaryKey generalizing record with
  | nil => rfl
  | cons entry rest ih =>
      rw [List.map_cons, List.mem_cons, not_or] at h
      have hrest := ih h.2 (Function.update record entry.1 (some entry.2))
      rw [Function.update_of_ne h.1] at hrest
      exact hrest

end

namespace BoundAsset

variable {β : Type} {s s' : BoundAsset β}

def WritesRight (s : BoundAsset β) : Prop := ∀ write ∈ s.writes, write.Right

/-- A remote change finds only transfers of the asset it brings, and a callback that
succeeds finds a column that takes the asset. -/
def Settled (s : BoundAsset β) : AssetAction β → Prop
  | .post event _ newAsset => event = .remoteChanged →
      ∀ transfer ∈ s.transfers, content transfer.2 = content newAsset.2
  | .callback i success _ store => success = true → ∀ transfer ∈ s.transfers[i]?,
      ∀ row ∈ store.bind fun store => boundRow store s.info.bindInfo,
        Takes transfer.2 (setPrimaryKey row s.info.bindInfo.primaryKey s.info.bindInfo.field)
  | .finish => True

/-- What an event other than a remote change leaves in the record, and the transfers it may
start: a compensation transfers the asset of the record. -/
structure Keeps (s s' : BoundAsset β) : Prop where
  writes : s'.writes = s.writes
  asset : s'.info.asset = s.info.asset
  bindInfo : s'.info.bindInfo = s.info.bindInfo
  transfers : ∀ transfer ∈ s'.transfers, transfer ∈ s.transfers ∨ transfer.2 = s.info.asset

/-- A remote change puts its asset into the record and loses no transfer. -/
structure Changes (s s' : BoundAsset β) (newAsset : String × DataAsset) : Prop where
  writes : s'.writes = s.writes
  asset : s'.info.asset = newAsset.2
  bindInfo : s'.info.bindInfo = s.info.bindInfo
  kept : s.transfers ⊆ s'.transfers
  transfers : ∀ transfer ∈ s'.transfers, transfer ∈ s.transfers ∨ transfer = newAsset

theorem postEventWith_changes (compensate : BoundAsset β → BoundAsset β) (s : BoundAsset β)
    (asset : DataAsset) (newAsset : String × DataAsset) :
    Changes s (s.postEventWith compensate .remoteChanged asset newAsset).1 newAsset := by
  unfold postEventWith
  rcases assetDfa_remoteChanged s.info.status with hafter | hafter
  · simp only [hafter]
    refine ⟨rfl, rfl, rfl, List.subset_append_left _ _, fun transfer htransfer => ?_⟩
    exact (List.mem_append.mp htransfer).imp_right List.mem_singleton.mp
  · simp only [hafter]
    exact ⟨rfl, rfl, rfl, List.Subset.refl _, fun _ => .inl⟩

theorem compensateTransferring_keeps (s : BoundAsset β) : Keeps s s.compensateTransferring := by
  have hchanges := postEventWith_changes id s s.info.asset (s.info.deviceId, s.info.asset)
  exact ⟨hchanges.writes, hchanges.asset, hchanges.bindInfo, fun transfer htransfer =>
    (hchanges.transfers transfer htransfer).imp_right (congrArg Prod.snd)⟩

theorem dfaPostEvent_keeps {event : AssetEvent} (h : event ≠ .remoteChanged) (s : BoundAsset β)
    (asset : DataAsset) (newAsset : String × DataAsset) :
    Keeps s (s.dfaPostEvent event asset newAsset).1 := by
  have hrefl : ∀ {t : BoundAsset β}, t.writes = s.writes → t.info.asset = s.info.asset →
      t.info.bindInfo = s.info.bindInfo → t.transfers = s.transfers → Keeps s t := by
    intro t hwrites hasset hbind htransfers
    refine ⟨hwrites, hasset, hbind, fun transfer htransfer => .inl ?_⟩
    rwa [htransfers] at htransfer
  obtain ⟨hdo, hsave⟩ := assetDfa_of_ne h s.info.status
  unfold dfaPostEvent postEventWith
  extract_lets action s₁
  split
  · exact hrefl rfl rfl rfl rfl
  · rename_i hafter
    exact absurd hafter hdo
  · rename_i hafter
    exact absurd hafter hsave
  · exact hrefl rfl rfl rfl rfl
  · have hkeeps := compensateTransferring_keeps s₁
    exact ⟨hkeeps.writes, hkeeps.asset, hkeeps.bindInfo, hkeeps.transfers⟩
  · exact hrefl rfl rfl rfl rfl
  · exact hrefl rfl rfl rfl rfl

/-- Every transfer under way is of the content in the record. -/
structure Inv (s : BoundAsset β) : Prop where
  transfers : ∀ transfer ∈ s.transfers, content transfer.2 = content s.info.asset
  writes : s.WritesRight

theorem Keeps.inv (hk : Keeps s s') (h : s.Inv) : s'.Inv := by
  constructor
  · intro transfer htransfer
    rw [hk.asset]
    rcases hk.transfers transfer htransfer with hold | hnew
    · exact h.transfers transfer hold
    · rw [hnew]
  · rw [WritesRight, hk.writes]
    exact h.writes

theorem Changes.inv {newAsset : String × DataAsset} (hc : Changes s s' newAsset) (h : s.Inv)
    (hsame : ∀ transfer ∈ s.transfers, content transfer.2 = content newAsset.2) : s'.Inv := by
  constructor
  · intro transfer htransfer
    rw [hc.asset]
    rcases hc.transfers transfer htransfer with hold | hnew
    · exact hsame transfer hold
    · rw [hnew]
  · rw [WritesRight, hc.writes]
    exact h.writes

theorem updateStore_right {info : ChangedAssetInfo β} {fetched : DataAsset}
    {store : Option (BoundStore β)} (hsame : content fetched = content info.asset)
    (htakes : ∀ row ∈ store.bind fun store => boundRow store info.bindInfo,
      Takes fetched (setPrimaryKey row info.bindInfo.primaryKey info.bindInfo.field)) :
    (AssetWrite.mk fetched info.bindInfo store (updateStore info store)).Right := by
  intro row hrow
  cases store with
  | none => exact absurd hrow List.not_mem_nil
  | some store =>
      dsimp only [updateStore, getMigratedData] at hrow
      split at hrow
      · rename_i entry hentry
        rw [List.mem_singleton.mp hrow]
        rw [hsame]
        constructor
        · rw [fieldAssets, mergeAssetData_field]
          exact assetsIn_merged_has (takes_congr hsame (htakes entry hentry))
        · intro asset hasset
          rw [fieldAssets, mergeAssetData_field] at hasset
          refine (mem_assetsIn_merged hasset).imp_right fun hold => ?_
          refine ⟨setPrimaryKey entry info.bindInfo.primaryKey, ?_, hold⟩
          exact congrArg (Option.map _) hentry
      · exact absurd hrow List.not_mem_nil

variable {a : AssetAction β}

theorem inv_step (h : s.Inv) (hsettled : s.Settled a) (hstep : s.step a = some s') : s'.Inv := by
  cases a with
  | post event asset newAsset =>
      cases hstep
      by_cases hevent : event = .remoteChanged
      · rw [hevent]
        exact (postEventWith_changes _ s asset newAsset).inv h (hsettled hevent)
      · exact (dfaPostEvent_keeps hevent s asset newAsset).inv h
  | callback i success again store =>
      obtain ⟨transfer, hi, rfl⟩ := Option.map_eq_some_iff.mp hstep
      constructor
      · intro other hother
        refine h.transfers other ?_
        dsimp only [callback] at hother
        split at hother
        · exact hother
        · exact List.mem_of_mem_eraseIdx hother
      · intro write hwrite
        dsimp only [callback] at hwrite
        split at hwrite
        · rename_i hsuccess
          rcases mem_concat.mp hwrite with hold | rfl
          · exact h.writes write hold
          · exact updateStore_right (h.transfers transfer (List.mem_of_getElem? hi))
              (hsettled hsuccess transfer hi)
        · exact h.writes write hwrite
  | finish =>
      rw [step] at hstep
      split at hstep
      · cases hstep
      cases hstep
      have hevent : AssetEvent.transferFinished ≠ .remoteChanged := by decide
      have hinv := (dfaPostEvent_keeps hevent s s.info.asset noAsset).inv h
      exact ⟨hinv.transfers, hinv.writes⟩

theorem bindInfo_step (hstep : s.step a = some s') :
    s'.info.bindInfo = s.info.bindInfo := by
  cases a with
  | post event asset newAsset =>
      cases hstep
      by_cases hevent : event = .remoteChanged
      · rw [hevent]
        exact (postEventWith_changes _ s asset newAsset).bindInfo
      · exact (dfaPostEvent_keeps hevent s asset newAsset).bindInfo
  | callback i success again store =>
      obtain ⟨transfer, -, rfl⟩ := Option.map_eq_some_iff.mp hstep
      rfl
  | finish =>
      rw [step] at hstep
      split at hstep
      · cases hstep
      · cases hstep
        have hevent : AssetEvent.transferFinished ≠ .remoteChanged := by decide
        exact (dfaPostEvent_keeps hevent s s.info.asset noAsset).bindInfo

def emptyColumn : BoundStore β := ⟨fun _ _ _ => some [some fun _ => some .null]⟩

/-- The run can go on to write something that was not fetched. -/
def CanMiswrite (s : BoundAsset β) : Prop :=
  ∃ more t, (boundAssetMachine β).exec s more = some t ∧ ¬ t.WritesRight

/-- With another content in the record than a transfer under way has, its callback writes
the wrong one. -/
theorem canMiswrite_of_content
    (hfield : s.info.bindInfo.field ∉ s.info.bindInfo.primaryKey.map Prod.fst)
    {transfer : String × DataAsset} (htransfer : transfer ∈ s.transfers)
    (hne : content transfer.2 ≠ content s.info.asset) : s.CanMiswrite := by
  obtain ⟨i, hi⟩ := List.getElem?_of_mem htransfer
  have hstep : s.step (.callback i true false (some emptyColumn)) =
      some (s.callback i transfer.2 true false (some emptyColumn)) := by
    rw [step, hi]
    rfl
  refine ⟨[.callback i true false (some emptyColumn)], _,
    (exec_cons_eq_some _).mpr ⟨_, hstep, rfl⟩, fun hright => ?_⟩
  have hwrite := hright ⟨transfer.2, s.info.bindInfo, some emptyColumn,
    updateStore s.info (some emptyColumn)⟩ (List.mem_append_right _ (List.mem_singleton_self _))
  obtain ⟨asset, hasset, hsame⟩ := (hwrite _ (List.mem_singleton_self _)).1
  rw [fieldAssets, mergeAssetData_field, setPrimaryKey_of_not_mem hfield] at hasset
  rw [List.mem_singleton.mp hasset] at hsame
  exact hne hsame.symm

theorem not_writesRight_callback {i : Nat} {again : Bool} {store : Option (BoundStore β)}
    {fetched : DataAsset} {row : VBucket β}
    (hrow : (store.bind fun store => boundRow store s.info.bindInfo) = some row)
    (h : ¬ Takes fetched (setPrimaryKey row s.info.bindInfo.primaryKey s.info.bindInfo.field)) :
    ¬ (s.callback i fetched true again store).WritesRight := by
  intro hright
  have hwrite := hright ⟨fetched, s.info.bindInfo, store, updateStore s.info store⟩
    (List.mem_append_right _ (List.mem_singleton_self _))
  have hwritten : mergeAssetData row s.info.asset s.info.bindInfo ∈ updateStore s.info store := by
    cases store with
    | none => cases hrow
    | some store =>
        have hbound : boundRow store s.info.bindInfo = some row := hrow
        simp [updateStore, getMigratedData, hbound]
  obtain ⟨asset, hasset, hsame⟩ := (hwrite _ hwritten).1
  rw [fieldAssets, mergeAssetData_field] at hasset
  exact assetsIn_merged_lacks h asset hasset hsame

theorem canMiswrite_of_not_settled
    (hfield : s.info.bindInfo.field ∉ s.info.bindInfo.primaryKey.map Prod.fst)
    (hsettled : ¬ s.Settled a) (hstep : s.step a = some s') : s'.CanMiswrite := by
  cases a with
  | post event asset newAsset =>
      cases hstep
      simp only [Settled, not_forall] at hsettled
      obtain ⟨rfl, transfer, htransfer, hne⟩ := hsettled
      have hchanges := postEventWith_changes compensateTransferring s asset newAsset
      refine canMiswrite_of_content ?_ (hchanges.kept htransfer) ?_
      · rw [dfaPostEvent, hchanges.bindInfo]
        exact hfield
      · rw [dfaPostEvent, hchanges.asset]
        exact hne
  | callback i success again store =>
      simp only [Settled, not_forall] at hsettled
      obtain ⟨rfl, transfer, hi, row, hrow, htakes⟩ := hsettled
      obtain ⟨other, hother, rfl⟩ := Option.map_eq_some_iff.mp hstep
      cases hother.symm.trans hi
      exact ⟨[], _, rfl, not_writesRight_callback hrow htakes⟩
  | finish => exact absurd trivial hsettled

end BoundAsset

open BoundAsset

/-- Every callback writes the asset its transfer fetched in a run whose steps are settled.
If the column is not part of the primary key, every other step can be continued so that
one does not. -/
theorem fetched_asset_written {β : Type} (info : ChangedAssetInfo β) :
    (∀ schedule s, (boundAssetMachine β).exec { info } schedule = some s →
      (boundAssetMachine β).Guarded BoundAsset.Settled { info } schedule → s.WritesRight) ∧
    (info.bindInfo.field ∉ info.bindInfo.primaryKey.map Prod.fst →
      ∀ schedule s a s', (boundAssetMachine β).exec { info } schedule = some s →
        (boundAssetMachine β).step s a = some s' → ¬ s.Settled a → s'.CanMiswrite) := by
  constructor
  · intro schedule s hrun hsettled
    have hinit : ({ info } : BoundAsset β).Inv :=
      ⟨fun _ h => absurd h List.not_mem_nil, fun _ h => absurd h List.not_mem_nil⟩
    exact ((boundAssetMachine β).exec_guarded_invariant
      (fun _ _ _ h hguard hstep => inv_step h hguard hstep) hinit hsettled hrun).writes
  · intro hfield schedule s a s' hrun hstep hsettled
    have hbind : s.info.bindInfo = info.bindInfo :=
      (boundAssetMachine β).exec_invariant
        (fun _ _ _ h hstep => (bindInfo_step hstep).trans h) rfl hrun
    rw [← hbind] at hfield
    exact canMiswrite_of_not_settled hfield hsettled hstep

def noteAsset (modifyTime hash : String) : DataAsset :=
  ⟨0, 1, 0, "", "note", "file://note", "1", modifyTime, "10", hash, "", ""⟩

def noteInfo : ChangedAssetInfo Empty where
  asset := noteAsset "1" "h1"
  bindInfo := ⟨"notes", "note", [("id", .null)], "attachments", "note"⟩
  storeInfo := ⟨1, "com.notes", 0, 100⟩

/-- Two versions arrive, the second after the transfer of the first is done. -/
def oneByOne : List (AssetAction Empty) :=
  [.post .remoteChanged (noteAsset "2" "h2") ("peer", noteAsset "2" "h2"),
    .callback 0 true false (some emptyColumn), .finish,
    .post .remoteChanged (noteAsset "3" "h3") ("peer", noteAsset "3" "h3"),
    .callback 0 true false (some emptyColumn)]

theorem fetched_asset_written_one_by_one :
    ∃ s, (boundAssetMachine Empty).exec { info := noteInfo } oneByOne = some s ∧
      s.writes.map (fun write => write.vBuckets.map fun row => fieldAssets row "attachments") =
        [[[noteAsset "2" "h2"]], [[noteAsset "3" "h3"]]] ∧ s.WritesRight := by
  refine ⟨_, rfl, rfl, (fetched_asset_written noteInfo).1 oneByOne _ rfl ?_⟩
  refine guarded_cons _ ?_ rfl (guarded_cons _ ?_ rfl
    (guarded_cons _ trivial rfl (guarded_cons _ ?_ rfl
      (guarded_cons _ ?_ rfl trivial))))
  · intro _ transfer htransfer
    cases htransfer
  · intro _ transfer _ row hrow
    cases hrow
    trivial
  · intro _ transfer htransfer
    cases htransfer
  · intro _ transfer _ row hrow
    cases hrow
    trivial

/-- The second version arrives during the transfer of the first and is written when that
transfer is done. -/
theorem later_asset_written :
    ∃ s, (boundAssetMachine Empty).exec { info := noteInfo }
        [.post .remoteChanged (noteAsset "2" "h2") ("peer", noteAsset "2" "h2"),
          .post .remoteChanged (noteAsset "3" "h3") ("peer", noteAsset "3" "h3"),
          .callback 0 true false (some emptyColumn)] = some s ∧
      s.writes.map (fun write => (write.fetched,
        write.vBuckets.map fun row => fieldAssets row "attachments")) =
        [(noteAsset "2" "h2", [[noteAsset "3" "h3"]])] ∧ ¬ s.WritesRight := by
  refine ⟨_, rfl, rfl, fun hright => ?_⟩
  obtain ⟨asset, hasset, hsame⟩ :=
    (hright _ (List.mem_singleton_self _) _ (List.mem_singleton_self _)).1
  have hlater : asset = noteAsset "3" "h3" := List.mem_singleton.mp hasset
  rw [hlater] at hsame
  exact absurd hsame (by decide)

end DataMgr.Object
