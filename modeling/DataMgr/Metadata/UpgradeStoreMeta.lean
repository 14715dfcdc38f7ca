import DataMgr.Foundation.BatchMove
import DataMgr.Metadata.MetaStore

/-! # Upgrade of the store metas

`UpgradeStoreMeta` moves the store metas of the device, with their local parts and secret
keys, to the keys that end with the path of the store. It works in batches of 100: a batch
reads the path-less records of its stores, saves everything under the new keys in one
write, and then deletes the old keys. Two stores that differ in the path alone share their
path-less keys, and old secret keys are shared by the instances of a store as well, so a
batch may delete a record that a store of a later batch still needs.
-/

namespace DataMgr.Metadata

open DataMgr.Utils DataMgr.Foundation StoreMetaData

def upgradeBatchSize : Nat := 100

/-- One batch. `saved` and `deleted` say whether the batch write and the batch deletion
succeeded; each changes all of its keys or none, and the result of the deletion is not
looked at. -/
def upgradeBatch (saved deleted : Bool) (s : MetaStore) (batch : List StoreMetaData) :
    MetaStore × Bool :=
  if saved then
    ({ s with
        localMetas := moveBatch getKeyLocalWithoutPath getKeyLocal s.localMetas batch deleted
        secretKeys := moveBatch getSecretKeyWithoutPath getSecretKey s.secretKeys batch deleted
        mappings := putAll s.mappings (batch.map fun storeMeta =>
          ((StoreMetaMapping.ofMeta storeMeta).getKey, StoreMetaMapping.ofMeta storeMeta))
        storeMetas := putBatch getKeyWithoutPath getKey s.storeMetas batch deleted
        debugInfos := if deleted
          then deleteAll s.debugInfos (batch.map getDebugInfoKeyWithoutPath)
          else s.debugInfos
        dfxInfos := if deleted
          then deleteAll s.dfxInfos (batch.map getDfxInfoKeyWithoutPath)
          else s.dfxInfos }, true)
  else (s, false)

/-- `found` is what the database returns for the prefix of the device, or nothing if the
query fails. The outcomes of the writes are given by the number of the batch. -/
def upgradeStoreMeta (found : Option (List StoreMetaData)) (saved deleted : Nat → Bool)
    (s : MetaStore) : MetaStore × Bool :=
  match found with
  | none => (s, false)
  | some metaDataList =>
      let result := batchProcess metaDataList upgradeBatchSize
        (fun state batch =>
          let step := upgradeBatch (saved state.2) (deleted state.2) state.1 batch
          ((step.1, state.2 + 1), step.2)) (s, 0)
      (result.1.1, result.2)

def savedBatches (saved deleted : Nat → Bool) :
    Nat → List (List StoreMetaData) → List (List StoreMetaData × Bool)
  | _, [] => []
  | i, batch :: rest =>
      if saved i then (batch, deleted i) :: savedBatches saved deleted (i + 1) rest else []

def upgradeTrace (saved deleted : Nat → Bool) (metaDataList : List StoreMetaData) :
    List (List StoreMetaData × Bool) :=
  savedBatches saved deleted 0 (batches metaDataList upgradeBatchSize)

def upgraded (s : MetaStore) (trace : List (List StoreMetaData × Bool)) : MetaStore :=
  trace.foldl (fun s batch => (upgradeBatch true batch.2 s batch.1).1) s

variable (s : MetaStore)

@[simp] theorem upgraded_nil : upgraded s [] = s := rfl

@[simp] theorem upgraded_cons (batch : List StoreMetaData × Bool)
    (rest : List (List StoreMetaData × Bool)) :
    upgraded s (batch :: rest) = upgraded (upgradeBatch true batch.2 s batch.1).1 rest := rfl

variable (trace : List (List StoreMetaData × Bool))

theorem upgraded_fields :
    (upgraded s trace).storeMetas = putBatches getKeyWithoutPath getKey s.storeMetas trace ∧
      (upgraded s trace).localMetas =
        moveBatches getKeyLocalWithoutPath getKeyLocal s.localMetas trace ∧
      (upgraded s trace).secretKeys =
        moveBatches getSecretKeyWithoutPath getSecretKey s.secretKeys trace := by
  induction trace generalizing s with
  | nil => exact ⟨rfl, rfl, rfl⟩
  | cons batch rest ih => exact ih _

theorem runBatches_upgrade (saved deleted : Nat → Bool) (rest : List (List StoreMetaData))
    (s : MetaStore) (i : Nat) :
    let result := runBatches (fun (state : MetaStore × Nat) batch =>
      let step := upgradeBatch (saved state.2) (deleted state.2) state.1 batch
      ((step.1, state.2 + 1), step.2)) rest (s, i)
    result.1.1 = upgraded s (savedBatches saved deleted i rest) ∧
      (result.2 = true → (savedBatches saved deleted i rest).map Prod.fst = rest) := by
  induction rest generalizing s i with
  | nil => simp [runBatches, savedBatches]
  | cons batch rest ih =>
      by_cases hsaved : saved i = true
      · have hrest := ih (upgradeBatch true (deleted i) s batch).1 (i + 1)
        simp only [runBatches, savedBatches, hsaved, if_true, upgraded_cons, List.map_cons,
          List.cons.injEq, true_and] at hrest ⊢
        exact hrest
      · simp [runBatches, savedBatches, hsaved, upgradeBatch]

theorem upgradeStoreMeta_spec (found : Option (List StoreMetaData)) (saved deleted : Nat → Bool)
    (s : MetaStore) :
    (upgradeStoreMeta found saved deleted s).1 =
        upgraded s (upgradeTrace saved deleted (found.getD [])) ∧
      ((upgradeStoreMeta found saved deleted s).2 = true →
        (upgradeTrace saved deleted (found.getD [])).map Prod.fst =
          batches (found.getD []) upgradeBatchSize) := by
  cases found with
  | none => simp [upgradeStoreMeta, upgradeTrace, batches, batchesLoop, savedBatches]
  | some metaDataList =>
      simp only [upgradeStoreMeta, batchProcess_eq]
      exact runBatches_upgrade saved deleted _ s 0

theorem mem_savedBatches {saved deleted : Nat → Bool} {i : Nat}
    {rest : List (List StoreMetaData)} {batch : List StoreMetaData × Bool}
    (h : batch ∈ savedBatches saved deleted i rest) : batch.1 ∈ rest := by
  induction rest generalizing i with
  | nil => simp [savedBatches] at h
  | cons first rest ih =>
      rw [savedBatches] at h
      split at h
      · cases List.mem_cons.mp h with
        | inl heq => simp [heq]
        | inr hrest => exact List.mem_cons_of_mem _ (ih hrest)
      · simp at h

theorem upgradeTrace_within (saved deleted : Nat → Bool) (metaDataList : List StoreMetaData) :
    Within (upgradeTrace saved deleted metaDataList) metaDataList := by
  intro batch hbatch storeMeta hmem
  have hflat := List.mem_flatten.mpr ⟨batch.1, mem_savedBatches hbatch, hmem⟩
  rwa [flatten_batches (by decide)] at hflat

structure PathKeysApart (metaDataList : List StoreMetaData) : Prop where
  stores : KeysApart getKeyWithoutPath getKey metaDataList
  locals : KeysApart getKeyLocalWithoutPath getKeyLocal metaDataList
  secrets : KeysApart getSecretKeyWithoutPath getSecretKey metaDataList

/-- Every store found is under its path key, with the local meta and the secret key that
it had under its path-less keys. -/
@[mk_iff]
structure Kept (before after : MetaStore) (metaDataList : List StoreMetaData) : Prop where
  stores : ∀ storeMeta ∈ metaDataList, after.storeMetas storeMeta.getKey = some storeMeta
  locals : ∀ storeMeta ∈ metaDataList, ∀ localMeta,
    before.localMetas storeMeta.getKeyLocalWithoutPath = some localMeta →
      after.localMetas storeMeta.getKeyLocal = some localMeta
  secrets : ∀ storeMeta ∈ metaDataList, ∀ secretKeyMeta,
    before.secretKeys storeMeta.getSecretKeyWithoutPath = some secretKeyMeta →
      after.secretKeys storeMeta.getSecretKey = some secretKeyMeta

/-- The secret key of every store is under its path-less or its path key. -/
def SecretsLoadable (before after : MetaStore) (metaDataList : List StoreMetaData) : Prop :=
  ∀ storeMeta ∈ metaDataList, ∀ secretKeyMeta,
    before.secretKeys storeMeta.getSecretKeyWithoutPath = some secretKeyMeta →
      after.secretKeys storeMeta.getSecretKeyWithoutPath = some secretKeyMeta ∨
        after.secretKeys storeMeta.getSecretKey = some secretKeyMeta

/-- Every record that a store had under its path-less key is copied before a batch
deletes that key, or was under the path key already. -/
def CopiedInTime {V : Type} (old new : StoreMetaData → String) (map : String → Option V)
    (trace : List (List StoreMetaData × Bool)) (metaDataList : List StoreMetaData) : Prop :=
  ∀ storeMeta ∈ metaDataList, ∀ record, map (old storeMeta) = some record →
    Covered old new storeMeta trace ∨ map (new storeMeta) = some record

variable {metaDataList : List StoreMetaData}

section

variable {trace : List (List StoreMetaData × Bool)}

theorem copiedInTime_iff {V : Type} {old new : StoreMetaData → String} {map : String → Option V}
    (hkeys : KeysApart old new metaDataList) (htrace : Within trace metaDataList) :
    (∀ storeMeta ∈ metaDataList, ∀ record, map (old storeMeta) = some record →
        moveBatches old new map trace (new storeMeta) = some record) ↔
      CopiedInTime old new map trace metaDataList :=
  forall₂_congr fun _ hmem => forall₂_congr fun _ hold => moveBatches_new hkeys htrace hmem hold

variable (hkeys : PathKeysApart metaDataList) (htrace : Within trace metaDataList) (s : MetaStore)

include hkeys htrace

theorem upgraded_stores_iff
    (hall : ∀ storeMeta ∈ metaDataList, ∃ batch ∈ trace, storeMeta ∈ batch.1) :
    (∀ storeMeta ∈ metaDataList,
        (upgraded s trace).storeMetas storeMeta.getKey = some storeMeta) ↔
      ∀ storeMeta ∈ metaDataList, ∀ other ∈ metaDataList,
        storeMeta.getKey = other.getKey → storeMeta = other := by
  rw [(upgraded_fields s trace).1]
  constructor
  · intro h storeMeta hmem other hother hkey
    have hfirst := h storeMeta hmem
    rw [hkey, h other hother] at hfirst
    exact (Option.some.inj hfirst).symm
  · intro h storeMeta hmem
    exact putBatches_new hkeys.stores.apart h htrace hmem (.inr (hall storeMeta hmem))

theorem upgraded_loadable_iff :
    SecretsLoadable s (upgraded s trace) metaDataList ↔
      ∀ storeMeta ∈ metaDataList, ∀ secretKeyMeta,
        s.secretKeys storeMeta.getSecretKeyWithoutPath = some secretKeyMeta →
          ¬ Erased getSecretKeyWithoutPath storeMeta trace ∨
            Covered getSecretKeyWithoutPath getSecretKey storeMeta trace ∨
            s.secretKeys storeMeta.getSecretKey = some secretKeyMeta := by
  rw [SecretsLoadable, (upgraded_fields s trace).2.2]
  refine forall₂_congr fun storeMeta hmem => forall₂_congr fun secretKeyMeta hold => ?_
  rw [moveBatches_old hkeys.secrets htrace hmem hold,
    moveBatches_new hkeys.secrets htrace hmem hold]

end

/-- No field contains the sign that separates fields, and the path has a slash, so that it
is not taken for the number of an instance. -/
structure StoreMetaData.ProperFields (storeMeta : StoreMetaData) : Prop where
  deviceId : '#' ∉ storeMeta.deviceId.toList
  user : '#' ∉ storeMeta.user.toList
  bundleName : '#' ∉ storeMeta.bundleName.toList
  storeId : '#' ∉ storeMeta.storeId.toList
  dataDir : '#' ∉ storeMeta.dataDir.toList
  path : '/' ∈ storeMeta.dataDir.toList

namespace StoreMetaData.ProperFields

variable {x : StoreMetaData} (hx : x.ProperFields)

include hx

section

variable {p q : Prop} [Decidable p] [Decidable q]

theorem mem_short {field : String} (h : field ∈ [x.user, "default", x.bundleName, x.storeId] ++
    if p then [] else [toString x.instanceId]) : '#' ∉ field.toList := by
  simp only [List.cons_append, List.nil_append, List.mem_cons] at h
  rcases h with rfl | rfl | rfl | rfl | h
  · exact hx.user
  · decide
  · exact hx.bundleName
  · exact hx.storeId
  split at h
  · simp at h
  · rw [List.mem_singleton.mp h]
    exact not_mem_number (by decide) (by decide) _

theorem path_ne_number (n : Int) : x.dataDir ≠ toString n := by
  intro h
  have hslash := hx.path
  rw [h] at hslash
  exact not_mem_number (by decide) (by decide) n hslash

theorem short_path_ne (y : StoreMetaData) :
    ([x.user, "default", x.bundleName, x.storeId] ++ if p then [] else [toString x.instanceId]) ++
        [x.dataDir] ≠
      [y.user, "default", y.bundleName, y.storeId] ++
        if q then [] else [toString y.instanceId] := by
  intro h
  split at h <;> split at h
  · simp at h
  · simp only [List.append_nil, List.cons_append, List.nil_append, List.cons.injEq, and_true] at h
    exact hx.path_ne_number _ h.2.2.2.2
  · simp at h
  · simp at h

end

theorem mem_path {fields : List String} (hfields : ∀ field ∈ fields, '#' ∉ field.toList) :
    ∀ field ∈ fields ++ [x.dataDir], '#' ∉ field.toList := by
  intro field h
  cases List.mem_append.mp h with
  | inl hfield => exact hfields field hfield
  | inr hpath =>
      rw [List.mem_singleton.mp hpath]
      exact hx.dataDir

end StoreMetaData.ProperFields

theorem secretKey_eq_join (fields : List String) :
    SecretKeyMetaData.getKey fields = join "SecretKey" keySeparator (fields ++ ["SINGLE_KEY"]) := by
  rw [join_append]
  rfl

theorem StoreMetaData.ProperFields.dataDir_eq_of_getSecretKey_eq {x y : StoreMetaData}
    (hx : x.ProperFields) (hy : y.ProperFields) (h : x.getSecretKey = y.getSecretKey) :
    x.dataDir = y.dataDir := by
  have hfields : ∀ z : StoreMetaData, z.ProperFields →
      ∀ field ∈ z.secretFields ++ ["SINGLE_KEY"], '#' ∉ field.toList := by
    intro z hz field hfield
    cases List.mem_append.mp hfield with
    | inl hin =>
        exact hz.mem_path (fun field hin => hz.mem_short hin) field hin
    | inr hlast =>
        rw [List.mem_singleton.mp hlast]
        decide
  rw [getSecretKey, getSecretKey, secretKey_eq_join, secretKey_eq_join] at h
  have hsame := List.append_cancel_right (join_inj (hfields x hx) (hfields y hy) h)
  exact List.head_eq_of_cons_eq (List.append_inj_right' hsame rfl)

theorem keysApart_of_fields (short : StoreMetaData → List String) (word : String)
    (tail : List String) (htail : ∀ field ∈ tail, '#' ∉ field.toList)
    (hproper : ∀ x ∈ metaDataList, x.ProperFields)
    (hshort : ∀ x ∈ metaDataList, ∀ field ∈ short x, '#' ∉ field.toList)
    (hne : ∀ x ∈ metaDataList, ∀ y, short x ++ [x.dataDir] ≠ short y) :
    KeysApart (fun x => join word keySeparator (short x ++ tail))
      (fun x => join word keySeparator (short x ++ [x.dataDir] ++ tail)) metaDataList := by
  have happend : ∀ fields : List String, (∀ field ∈ fields, '#' ∉ field.toList) →
      ∀ field ∈ fields ++ tail, '#' ∉ field.toList := by
    intro fields hfields field h
    cases List.mem_append.mp h with
    | inl hfield => exact hfields field hfield
    | inr hin => exact htail field hin
  have hlong : ∀ x ∈ metaDataList, ∀ field ∈ short x ++ [x.dataDir] ++ tail,
      '#' ∉ field.toList := by
    intro x hx
    exact happend _ ((hproper x hx).mem_path (hshort x hx))
  constructor
  · intro x hx y hy h
    have hfields := join_inj (hlong x hx) (happend _ (hshort y hy)) h
    exact hne x hx y (List.append_cancel_right hfields)
  · intro x hx y hy h
    have hfields := List.append_cancel_right (join_inj (hlong x hx) (hlong y hy) h)
    rw [List.append_inj_left' hfields rfl]

theorem pathKeysApart_of_proper (h : ∀ x ∈ metaDataList, x.ProperFields) :
    PathKeysApart metaDataList := by
  have hshort : ∀ x ∈ metaDataList, ∀ field ∈ x.fieldsWithoutPath, '#' ∉ field.toList := by
    intro x hx field hfield
    cases List.mem_cons.mp hfield with
    | inl hdevice => exact hdevice ▸ (h x hx).deviceId
    | inr hshort => exact (h x hx).mem_short hshort
  have hne : ∀ x ∈ metaDataList, ∀ y : StoreMetaData,
      x.fieldsWithoutPath ++ [x.dataDir] ≠ y.fieldsWithoutPath := by
    intro x hx y hfields
    exact (h x hx).short_path_ne y (List.cons.inj hfields).2
  constructor
  · have hstore := keysApart_of_fields _ "KvStoreMetaData" [] (by simp) h hshort hne
    simp only [List.append_nil] at hstore
    exact hstore
  · have hlocal := keysApart_of_fields _ "KvStoreMetaDataLocal" [] (by simp) h hshort hne
    simp only [List.append_nil] at hlocal
    exact hlocal
  · have hsecret := keysApart_of_fields secretFieldsWithoutPath
      "SecretKey" ["SINGLE_KEY"] (by decide) h
      (fun x hx field hfield => (h x hx).mem_short hfield) (fun x hx y => (h x hx).short_path_ne y)
    simp only [← secretKey_eq_join] at hsecret
    exact hsecret

/-- An upgrade that returns true has kept everything exactly if no two different stores
have one path key and every path-less local meta and secret key was copied for each of its
stores before a batch deleted it. In any run, the secret key of a store can be loaded
afterwards exactly if its path-less key was not deleted, or not before the copy. -/
theorem upgrade_keeps_iff (found : Option (List StoreMetaData)) (saved deleted : Nat → Bool)
    (s : MetaStore) (hkeys : PathKeysApart (found.getD [])) :
    let metaDataList := found.getD []
    let trace := upgradeTrace saved deleted metaDataList
    let result := upgradeStoreMeta found saved deleted s
    (result.2 = true →
      (Kept s result.1 metaDataList ↔
        (∀ storeMeta ∈ metaDataList, ∀ other ∈ metaDataList,
          storeMeta.getKey = other.getKey → storeMeta = other) ∧
        CopiedInTime getKeyLocalWithoutPath getKeyLocal s.localMetas trace metaDataList ∧
        CopiedInTime getSecretKeyWithoutPath getSecretKey s.secretKeys trace metaDataList)) ∧
    (SecretsLoadable s result.1 metaDataList ↔
      ∀ storeMeta ∈ metaDataList, ∀ secretKeyMeta,
        s.secretKeys storeMeta.getSecretKeyWithoutPath = some secretKeyMeta →
          ¬ Erased getSecretKeyWithoutPath storeMeta trace ∨
            Covered getSecretKeyWithoutPath getSecretKey storeMeta trace ∨
            s.secretKeys storeMeta.getSecretKey = some secretKeyMeta) := by
  intro metaDataList trace result
  have htrace := upgradeTrace_within saved deleted metaDataList
  obtain ⟨hfinal, hall⟩ := upgradeStoreMeta_spec found saved deleted s
  have hresult : result.1 = upgraded s trace := hfinal
  constructor
  · intro hok
    have hbatches : ∀ storeMeta ∈ metaDataList, ∃ batch ∈ trace, storeMeta ∈ batch.1 := by
      intro storeMeta hmem
      rw [← flatten_batches (show 0 < upgradeBatchSize by decide) metaDataList, ← hall hok] at hmem
      obtain ⟨stores, hstores, hin⟩ := List.mem_flatten.mp hmem
      obtain ⟨batch, hbatch, rfl⟩ := List.mem_map.mp hstores
      exact ⟨batch, hbatch, hin⟩
    rw [hresult, kept_iff, upgraded_stores_iff hkeys htrace s hbatches,
      (upgraded_fields s trace).2.1, (upgraded_fields s trace).2.2,
      copiedInTime_iff hkeys.locals htrace, copiedInTime_iff hkeys.secrets htrace]
  · rw [hresult]
    exact upgraded_loadable_iff hkeys htrace s

/-- The main instance of a store whose secret key was made before the instance became
part of its key. -/
def olderStore : StoreMetaData :=
  { version := 0x03000003, deviceId := "dev", user := "100", bundleName := "com.notes",
    storeId := "notes", dataDir := "/data/0/notes", isEncrypt := true }

def twinStore : StoreMetaData := { olderStore with instanceId := 1, dataDir := "/data/1/notes" }

def mailStore (number : Nat) : StoreMetaData :=
  { deviceId := "dev", user := "100", bundleName := "com.mail", storeId := toString number,
    dataDir := "/data/0/mail" }

def sharedSecret : MetaStore :=
  { secretKeys := fun key =>
      if key = olderStore.getSecretKeyWithoutPath then some { sKey := [1, 2, 3] } else none }

theorem olderStore_proper : olderStore.ProperFields := by
  constructor <;> decide

theorem twinStore_proper : twinStore.ProperFields := by
  constructor <;> decide

theorem mailStore_proper (number : Nat) : (mailStore number).ProperFields := by
  constructor
  case storeId => exact not_mem_repr (by decide) number
  all_goals simp [mailStore]

/-- In one batch both instances get the key. -/
theorem upgrade_keeps_two_instances :
    PathKeysApart [olderStore, twinStore] ∧
      (upgradeStoreMeta (some [olderStore, twinStore]) (fun _ => true) (fun _ => true)
        sharedSecret).2 = true ∧
      Kept sharedSecret (upgradeStoreMeta (some [olderStore, twinStore]) (fun _ => true)
        (fun _ => true) sharedSecret).1 [olderStore, twinStore] := by
  have hkeys : PathKeysApart [olderStore, twinStore] :=
    pathKeysApart_of_proper (by simp [olderStore_proper, twinStore_proper])
  have hok : (upgradeStoreMeta (some [olderStore, twinStore]) (fun _ => true) (fun _ => true)
      sharedSecret).2 = true := by decide +kernel
  refine ⟨hkeys, hok, ?_⟩
  apply ((upgrade_keeps_iff (some [olderStore, twinStore]) (fun _ => true) (fun _ => true)
    sharedSecret hkeys).1 hok).mpr
  refine ⟨by decide +kernel, ?_, ?_⟩
  · intro storeMeta _ localMeta hlocal
    cases hlocal
  · intro storeMeta hmem secretKeyMeta _
    left
    have htrace : upgradeTrace (fun _ => true) (fun _ => true) [olderStore, twinStore] =
        [([olderStore, twinStore], true)] := rfl
    exact .inl ⟨storeMeta, hmem, rfl⟩

/-- 99 other stores and the main instance, which make up the first batch. -/
def firstBatch : List StoreMetaData := (List.range 99).map mailStore ++ [olderStore]

/-- The second instance comes alone in the second batch. -/
def manyStores : List StoreMetaData := firstBatch ++ [twinStore]

theorem manyStores_proper : ∀ storeMeta ∈ manyStores, storeMeta.ProperFields := by
  intro storeMeta hmem
  simp only [manyStores, firstBatch, List.mem_append, List.mem_map, List.mem_singleton] at hmem
  rcases hmem with (⟨number, -, rfl⟩ | rfl) | rfl
  · exact mailStore_proper number
  · exact olderStore_proper
  · exact twinStore_proper

/-- No store of the first batch has the path of the second instance. -/
theorem firstBatch_secretKey_ne :
    ∀ storeMeta ∈ firstBatch, storeMeta.getSecretKey ≠ twinStore.getSecretKey := by
  intro storeMeta hmem hkey
  have hproper := manyStores_proper storeMeta (List.mem_append_left _ hmem)
  have hdir := hproper.dataDir_eq_of_getSecretKey_eq twinStore_proper hkey
  simp only [firstBatch, List.mem_append, List.mem_map, List.mem_singleton] at hmem
  rcases hmem with ⟨number, -, rfl⟩ | rfl
  · simp [mailStore, twinStore, olderStore] at hdir
  · exact absurd hdir (by decide)

theorem firstBatch_shares_secret :
    ∃ storeMeta ∈ firstBatch,
      storeMeta.getSecretKeyWithoutPath = twinStore.getSecretKeyWithoutPath :=
  ⟨olderStore, by simp [firstBatch], by decide +kernel⟩

/-- Once the first batch has been saved and its old keys are gone, the second instance has
nothing to copy. -/
theorem twinStore_not_covered (rest : List (List StoreMetaData × Bool)) :
    ¬ Covered getSecretKeyWithoutPath getSecretKey twinStore ((firstBatch, true) :: rest) := by
  intro h
  cases h with
  | inl hhere =>
      obtain ⟨storeMeta, hmem, hkey⟩ := hhere
      exact firstBatch_secretKey_ne storeMeta hmem hkey
  | inr hlater => exact hlater.1 ⟨rfl, firstBatch_shares_secret⟩

theorem sharedSecret_twinStore :
    sharedSecret.secretKeys twinStore.getSecretKeyWithoutPath = some { sKey := [1, 2, 3] } ∧
      sharedSecret.secretKeys twinStore.getSecretKey = none := by
  decide +kernel

/-- Every write succeeds and the upgrade returns true, but the first batch has deleted the
secret key before the second instance's turn. If the second write fails, the second
instance is left without a key as well. -/
theorem upgrade_loses_shared_secret :
    PathKeysApart manyStores ∧
      (let result := upgradeStoreMeta (some manyStores) (fun _ => true) (fun _ => true) sharedSecret
       result.2 = true ∧ ¬ Kept sharedSecret result.1 manyStores) ∧
      (let result := upgradeStoreMeta (some manyStores) (· == 0) (fun _ => true) sharedSecret
       result.2 = false ∧ ¬ SecretsLoadable sharedSecret result.1 manyStores) := by
  have hkeys := pathKeysApart_of_proper manyStores_proper
  have hmem : twinStore ∈ manyStores := by simp [manyStores]
  refine ⟨hkeys, ⟨by decide +kernel, ?_⟩, ⟨by decide +kernel, ?_⟩⟩
  · intro hkept
    have htrace : upgradeTrace (fun _ => true) (fun _ => true) manyStores =
        [(firstBatch, true), ([twinStore], true)] := rfl
    have hwithin := upgradeTrace_within (fun _ => true) (fun _ => true) manyStores
    have hsecrets := hkept.secrets
    rw [(upgradeStoreMeta_spec _ _ _ _).1, Option.getD_some, (upgraded_fields _ _).2.2,
      copiedInTime_iff hkeys.secrets hwithin, htrace] at hsecrets
    cases hsecrets twinStore hmem _ sharedSecret_twinStore.1 with
    | inl hcovered => exact twinStore_not_covered _ hcovered
    | inr hnew =>
        rw [sharedSecret_twinStore.2] at hnew
        cases hnew
  · intro hloadable
    have htrace : upgradeTrace (· == 0) (fun _ => true) manyStores = [(firstBatch, true)] := rfl
    have hwithin := upgradeTrace_within (· == 0) (fun _ => true) manyStores
    rw [(upgradeStoreMeta_spec _ _ _ _).1, Option.getD_some,
      upgraded_loadable_iff hkeys hwithin, htrace] at hloadable
    rcases hloadable twinStore hmem _ sharedSecret_twinStore.1 with hkeeps | hcovered | hnew
    · exact hkeeps ⟨_, List.mem_singleton_self _, rfl, firstBatch_shares_secret⟩
    · exact twinStore_not_covered _ hcovered
    · rw [sharedSecret_twinStore.2] at hnew
      cases hnew

end DataMgr.Metadata
