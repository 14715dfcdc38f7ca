import DataMgr.Metadata.DeviceIdChange

/-! # What a change of the device id reaches

The kinds of records are renamed independently, so each has its own condition. Store metas
and mappings must be under their own keys, the other records of a store are reached through
the store metas that were found, and a record of the device must be under the uuid alone.
The capability record is moved without its uuid being replaced, and the debug and dfx
information is deleted under keys that belong to no store.
-/

namespace DataMgr.Metadata

open DataMgr.Utils DataMgr.Foundation DataMgr.Matrix StoreMetaData

structure UuidReplaced (c : UuidChange) (before after : MetaStore) (found : List StoreMetaData) :
    Prop where
  stores : Rekeyed c "KvStoreMetaData"
    (fun storeMeta => { storeMeta with isNeedUpdateDeviceId := true, deviceId := c.new })
    before.storeMetas after.storeMetas
  syncMetas : Rekeyed c "KvStoreMetaData"
    (fun syncStoreMeta => { syncStoreMeta with deviceId := c.new })
    before.syncMetas after.syncMetas
  strategies : Rekeyed c "StrategyMetaData"
    (fun strategyMeta => { strategyMeta with devId := c.new }) before.strategies after.strategies
  locals : Rekeyed c "KvStoreMetaDataLocal" id before.localMetas after.localMetas
  launches : Rekeyed c "AutoLaunchMetaData" id before.autoLaunches after.autoLaunches
  mappings : Rekeyed c "StoreMetaMapping" (fun mapping => { mapping with deviceId := c.new })
    before.mappings after.mappings
  localMatrices : Rekeyed c "MatrixMeta" (fun matrixMeta => { matrixMeta with deviceId := c.new })
    before.localMatrices after.localMatrices
  syncMatrices : Rekeyed c "MatrixMeta" (fun matrixMeta => { matrixMeta with deviceId := c.new })
    before.syncMatrices after.syncMatrices
  users : Rekeyed c "UserMeta" (fun userMeta => { userMeta with deviceId := c.new })
    before.users after.users
  capabilities : Rekeyed c "CapabilityMeta" (fun capMeta => { capMeta with deviceId := c.new })
    before.capabilities after.capabilities
  debugInfos : ∀ storeMeta ∈ found, after.debugInfos storeMeta.getDebugInfoKey = none
  dfxInfos : ∀ storeMeta ∈ found, after.dfxInfos storeMeta.getDfxInfoKey = none

structure UuidReplaceable (c : UuidChange) (s : MetaStore) (found : List StoreMetaData) :
    Prop where
  /-- A store meta is under the key with its path, a mapping under its own key. -/
  stores : ∀ rest record, s.storeMetas (keyOf "KvStoreMetaData" c.old rest) = some record →
    record.getKey = keyOf "KvStoreMetaData" c.old rest
  mappings : ∀ rest record, s.mappings (keyOf "StoreMetaMapping" c.old rest) = some record →
    record.getKey = keyOf "StoreMetaMapping" c.old rest
  /-- A store that has been found leads to the record. -/
  syncMetas : ∀ rest, s.syncMetas (keyOf "KvStoreMetaData" c.old rest) ≠ none →
    ∃ storeMeta ∈ found, storeMeta.getKeyWithoutPath = keyOf "KvStoreMetaData" c.old rest
  strategies : ∀ rest, s.strategies (keyOf "StrategyMetaData" c.old rest) ≠ none →
    ∃ storeMeta ∈ found, storeMeta.getStrategyKey = keyOf "StrategyMetaData" c.old rest
  locals : ∀ rest, s.localMetas (keyOf "KvStoreMetaDataLocal" c.old rest) ≠ none →
    ∃ storeMeta ∈ found, storeMeta.getKeyLocal = keyOf "KvStoreMetaDataLocal" c.old rest
  launches : ∀ rest, s.autoLaunches (keyOf "AutoLaunchMetaData" c.old rest) ≠ none →
    Taken (keyOf "AutoLaunchMetaData" c.old) s.autoLaunches (found.map launchCandidates).reverse
      rest
  /-- The records of the device have nothing after the uuid in their keys. -/
  localMatrices : ∀ rest, s.localMatrices (keyOf "MatrixMeta" c.old rest) ≠ none →
    keyOf "MatrixMeta" c.old [] = keyOf "MatrixMeta" c.old rest
  syncMatrices : ∀ rest, s.syncMatrices (keyOf "MatrixMeta" c.old rest) ≠ none →
    keyOf "MatrixMeta" c.old [] = keyOf "MatrixMeta" c.old rest
  users : ∀ rest, s.users (keyOf "UserMeta" c.old rest) ≠ none →
    keyOf "UserMeta" c.old [] = keyOf "UserMeta" c.old rest
  /-- A capability record is written back with the uuid it had. -/
  capabilities : ∀ rest record, s.capabilities (keyOf "CapabilityMeta" c.old rest) = some record →
    keyOf "CapabilityMeta" c.old [] = keyOf "CapabilityMeta" c.old rest ∧ record.deviceId = c.new
  debugInfos : ∀ storeMeta ∈ found, s.debugInfos storeMeta.getDebugInfoKey = none ∨
    InfoDeleted c s.autoLaunches found getDebugInfoKey storeMeta
  dfxInfos : ∀ storeMeta ∈ found, s.dfxInfos storeMeta.getDfxInfoKey = none ∨
    InfoDeleted c s.autoLaunches found getDfxInfoKey storeMeta

section

variable (c : UuidChange) {found : List StoreMetaData} {mapped : List StoreMetaMapping}
  (s : MetaStore)

variable {V : Type} {word : String}

theorem rekeyed_capabilities_iff :
    Rekeyed c "CapabilityMeta" (fun capMeta => { capMeta with deviceId := c.new })
        s.capabilities (moveFirst id s.capabilities
          [(keyOf "CapabilityMeta" c.old [], keyOf "CapabilityMeta" c.new [])]) ↔
      ∀ rest record, s.capabilities (keyOf "CapabilityMeta" c.old rest) = some record →
        keyOf "CapabilityMeta" c.old [] = keyOf "CapabilityMeta" c.old rest ∧
          record.deviceId = c.new := by
  have hmoved := rekeyed_device_iff c "CapabilityMeta" id s.capabilities
  rw [rekeyed_iff_done, moveFirst_device] at hmoved
  rw [rekeyed_iff_done, moveFirst_device, Renaming.done_moveFirsts_congr, hmoved]
  constructor
  · intro h rest record hrecord
    refine ⟨h.1 rest (by simp [hrecord]), ?_⟩
    have hsame := congrArg CapMetaData.deviceId (h.2 rest record hrecord)
    exact hsame
  · intro h
    constructor
    · intro rest hsome
      obtain ⟨record, hrecord⟩ := Option.ne_none_iff_exists'.mp hsome
      exact (h rest record hrecord).1
    · intro rest record hrecord
      have hdevice := (h rest record hrecord).2
      rw [← hdevice]
      rfl

theorem deviceId_of_found {map : String → Option V} {records : List V} (device : V → String)
    (hkeyed : ∀ key record, map key = some record →
      '#' ∉ (device record).toList ∧ ∃ rest, key = keyOf word (device record) rest)
    (hfound : FoundBy (join word keySeparator [c.old] ++ keySeparator) map records) :
    ∀ record ∈ records, device record = c.old := by
  intro record hmem
  obtain ⟨key, hstarts, hrecord⟩ := (hfound record).mp hmem
  obtain ⟨rest, rfl⟩ := keyOf_of_hasPrefix hstarts
  obtain ⟨hplain, rest', hkey⟩ := hkeyed _ record hrecord
  exact deviceId_of_keyOf hplain hkey

theorem rekeyed_replaced_iff {map : String → Option V} {records : List V} (device : V → String)
    (tail : V → List String) (f : V → V) (hkeyed : ∀ key record, map key = some record →
      '#' ∉ (device record).toList ∧ ∃ rest, key = keyOf word (device record) rest)
    (hfound : FoundBy (join word keySeparator [c.old] ++ keySeparator) map records)
    (hlong : ∀ record, ∃ field rest, tail record = field :: rest)
    (htail : ∀ record record', f record = f record' → tail record = tail record') :
    Rekeyed c word f map ((c.keys word).replaceAll tail f map records) ↔
      ∀ rest record, map (keyOf word c.old rest) = some record →
        keyOf word (device record) (tail record) = keyOf word c.old rest := by
  have hown : ∀ record, HasPrefix (join word keySeparator [c.old] ++ keySeparator)
      ((c.keys word).src (tail record)) := by
    intro record
    obtain ⟨field, rest, htailEq⟩ := hlong record
    refine ⟨field.toList ++ rest.flatMap fun str => keySeparator.toList ++ str.toList, ?_⟩
    rw [htailEq]
    show _ = (keyOf word c.old (field :: rest)).toList
    rw [keyOf, toList_join, String.toList_append, toList_join]
    simp
  rw [rekeyed_iff_done, Renaming.done_replaceAll_iff
    (HasPrefix (join word keySeparator [c.old] ++ keySeparator))
    (fun key hstarts => keyOf_of_hasPrefix hstarts) hown htail hfound]
  refine forall₂_congr fun rest record => forall_congr' fun hrecord => ?_
  obtain ⟨hplain, rest', hkey⟩ := hkeyed _ record hrecord
  rw [deviceId_of_keyOf hplain hkey]
  rfl

theorem debugInfoKey_ne {storeMeta left : StoreMetaData} (h : storeMeta.deviceId = c.old)
    (hleft : left.deviceId = c.new) : left.getDebugInfoKey ≠ storeMeta.getDebugInfoKey := by
  have hne : left.deviceId ≠ storeMeta.deviceId := by
    rw [h, hleft]
    exact c.differ
  exact join_cons_ne (by rw [hleft]; exact c.newPlain) (by rw [h]; exact c.oldPlain) hne _ _ _

theorem dfxInfoKey_ne {storeMeta left : StoreMetaData} (h : storeMeta.deviceId = c.old)
    (hleft : left.deviceId = c.new) : left.getDfxInfoKey ≠ storeMeta.getDfxInfoKey := by
  have hne : left.deviceId ≠ storeMeta.deviceId := by
    rw [h, hleft]
    exact c.differ
  intro heq
  simp only [getDfxInfoKey, ← String.toList_inj, String.toList_append] at heq
  have hjoin := String.toList_inj.mp (List.append_cancel_right heq)
  exact join_cons_ne (by rw [hleft]; exact c.newPlain) (by rw [h]; exact c.oldPlain) hne _ _ _ hjoin

theorem rekeyed_stores_iff (hkeyed : s.KeyedByDevice)
    (hfound : FoundBy (getPrefix [c.old]) s.storeMetas found) :
    Rekeyed c "KvStoreMetaData"
        (fun storeMeta => { storeMeta with isNeedUpdateDeviceId := true, deviceId := c.new })
        s.storeMetas (found.foldl (updateStore c.new) s).storeMetas ↔
      ∀ rest record, s.storeMetas (keyOf "KvStoreMetaData" c.old rest) = some record →
        record.getKey = keyOf "KvStoreMetaData" c.old rest := by
  have hdevice := deviceId_of_found c deviceId hkeyed.stores hfound
  rw [updateStores_storeMetas c hdevice]
  apply rekeyed_replaced_iff c deviceId _ _ hkeyed.stores hfound
  · intro record
    exact ⟨_, _, rfl⟩
  · intro record record' h
    have htail := congrArg tailWithPath h
    exact htail

theorem rekeyed_mappings_iff (hkeyed : s.KeyedByDevice)
    (hmapped : FoundBy (StoreMetaMapping.getPrefix [c.old]) s.mappings mapped) :
    Rekeyed c "StoreMetaMapping" (fun mapping => { mapping with deviceId := c.new })
        s.mappings (updateStoreMetaMapping c.new mapped s.mappings) ↔
      ∀ rest record, s.mappings (keyOf "StoreMetaMapping" c.old rest) = some record →
        record.getKey = keyOf "StoreMetaMapping" c.old rest := by
  have hdevice := deviceId_of_found c (fun mapping : StoreMetaMapping => mapping.deviceId)
    hkeyed.mappings hmapped
  rw [updateStoreMetaMapping_eq c hdevice]
  apply rekeyed_replaced_iff c (fun mapping : StoreMetaMapping => mapping.deviceId) _ _
    hkeyed.mappings hmapped
  · intro record
    exact ⟨_, _, rfl⟩
  · intro record record' h
    have htail := congrArg (fun mapping : StoreMetaMapping =>
      mapping.toStoreMetaData.tailWithoutPath) h
    exact htail

section

variable (hdevice : ∀ storeMeta ∈ found, storeMeta.deviceId = c.old)

include hdevice

theorem rekeyed_moved_iff (kind : MetaStore → String → Option V) {f : V → V}
    (tail : StoreMetaData → List String) {storeKey : StoreMetaData → String}
    (hstep : ∀ s storeMeta, kind (updateStore c.new s storeMeta) = moveRecord f (kind s)
      (keyOf word storeMeta.deviceId (tail storeMeta)) (keyOf word c.new (tail storeMeta)))
    (hkey : ∀ storeMeta, storeKey storeMeta = keyOf word storeMeta.deviceId (tail storeMeta)) :
    Rekeyed c word f (kind s) (kind (found.foldl (updateStore c.new) s)) ↔
      ∀ rest, kind s (keyOf word c.old rest) ≠ none →
        ∃ storeMeta ∈ found, storeKey storeMeta = keyOf word c.old rest := by
  have hmoved : kind (found.foldl (updateStore c.new) s) = (c.keys word).moveFirsts f (kind s)
      (found.map fun storeMeta => [tail storeMeta]) := by
    apply updateStores_moved c word f kind _ _ hdevice
    intro s storeMeta h
    rw [hstep, h]
    exact moveRecord_eq_moveFirst _ _ ((c.keys _).apart _ _)
  rw [hmoved, rekeyed_iff_done, Renaming.done_moveFirsts_iff]
  refine forall₂_congr fun rest _ => ?_
  have hsingle := taken_singletons (c.keys word).src (kind s) (found.reverse.map tail) rest
  simp only [List.map_map, List.mem_map, List.mem_reverse, exists_exists_and_eq_and] at hsingle
  rw [← List.map_reverse]
  refine hsingle.trans (exists_congr fun storeMeta => and_congr_right fun hmem => ?_)
  rw [hkey, hdevice storeMeta hmem]
  rfl

theorem rekeyed_autoLaunches_iff :
    Rekeyed c "AutoLaunchMetaData" id s.autoLaunches
        (found.foldl (updateStore c.new) s).autoLaunches ↔
      ∀ rest, s.autoLaunches (keyOf "AutoLaunchMetaData" c.old rest) ≠ none →
        Taken (keyOf "AutoLaunchMetaData" c.old) s.autoLaunches
          (found.map launchCandidates).reverse rest := by
  rw [updateStores_autoLaunches c hdevice, rekeyed_iff_done, Renaming.done_moveFirsts_iff]
  rfl

theorem infos_iff (kind : MetaStore → String → Option String) (infoKey : StoreMetaData → String)
    (hstep : ∀ s storeMeta, kind (updateStore c.new s storeMeta) =
      deleteAll (kind s) [infoKey (updateAutoLaunch c.new s.autoLaunches storeMeta).2])
    (hne : ∀ {storeMeta left : StoreMetaData}, storeMeta.deviceId = c.old →
      left.deviceId = c.new → infoKey left ≠ infoKey storeMeta) :
    (∀ storeMeta ∈ found, kind (found.foldl (updateStore c.new) s) (infoKey storeMeta) = none) ↔
      ∀ storeMeta ∈ found, kind s (infoKey storeMeta) = none ∨
        InfoDeleted c s.autoLaunches found infoKey storeMeta := by
  refine forall₂_congr fun storeMeta hmem => ?_
  rw [updateStores_info c.new kind infoKey hstep, infoDeleted_iff c hdevice]
  exact fun left hleft => hne (hdevice storeMeta hmem) hleft

end

/-- What the rounds over the stores leave alone is moved from where it was. -/
theorem checkMetaDeviceId_eq (hnew : c.new ≠ "")
    (hrecorded : s.device = some { newUuid := c.old }) :
    checkMetaDeviceId c.new found mapped s =
      { found.foldl (updateStore c.new) s with
        mappings := updateStoreMetaMapping c.new mapped s.mappings
        localMatrices := moveFirst (fun matrixMeta => { matrixMeta with deviceId := c.new })
          s.localMatrices [(keyOf "MatrixMeta" c.old [], keyOf "MatrixMeta" c.new [])]
        syncMatrices := moveFirst (fun matrixMeta => { matrixMeta with deviceId := c.new })
          s.syncMatrices [(keyOf "MatrixMeta" c.old [], keyOf "MatrixMeta" c.new [])]
        switches := moveFirst (fun switchesMeta => { switchesMeta with deviceId := c.new })
          s.switches [(keyOf "SwitchesMeta" c.old [], keyOf "SwitchesMeta" c.new [])]
        users := moveFirst (fun userMeta => { userMeta with deviceId := c.new })
          s.users [(keyOf "UserMeta" c.old [], keyOf "UserMeta" c.new [])]
        capabilities := moveFirst id s.capabilities
          [(keyOf "CapabilityMeta" c.old [], keyOf "CapabilityMeta" c.new [])]
        device := some { newUuid := c.new } } := by
  obtain ⟨hmappings, hlocal, hsync, hswitches, husers, hcaps⟩ :=
    updateStores_others c s found
  rw [← hmappings, ← hlocal, ← hsync, ← hswitches, ← husers, ← hcaps]
  simp only [checkMetaDeviceId, hnew, hrecorded, c.differ.symm, ne_eq, not_false_eq_true, if_true,
    if_false, updateMetaDatas, updateStoreMetaData, matrixKey_eq, switchesKey_eq, userKey_eq,
    capKey_eq]

/-- After the check everything that was keyed by the old uuid is keyed by the new one
exactly if the metadata is replaceable. -/
theorem device_id_replaced_iff (hnew : c.new ≠ "")
    (hrecorded : s.device = some { newUuid := c.old }) (hkeyed : s.KeyedByDevice)
    (hfound : FoundBy (getPrefix [c.old]) s.storeMetas found)
    (hmapped : FoundBy (StoreMetaMapping.getPrefix [c.old]) s.mappings mapped) :
    UuidReplaced c s (checkMetaDeviceId c.new found mapped s) found ↔
      UuidReplaceable c s found := by
  have hdevice := deviceId_of_found c deviceId hkeyed.stores hfound
  have hsyncMetas := rekeyed_moved_iff c s hdevice MetaStore.syncMetas tailWithoutPath
    (fun _ _ => rfl) fun _ => rfl
  have hstrategies := rekeyed_moved_iff c s hdevice MetaStore.strategies tailWithoutPath
    (fun _ _ => rfl) fun _ => rfl
  have hlocals := rekeyed_moved_iff c s hdevice MetaStore.localMetas tailWithPath
    (fun _ _ => rfl) fun _ => rfl
  have hdebug := infos_iff c s hdevice MetaStore.debugInfos getDebugInfoKey (fun _ _ => rfl)
    (debugInfoKey_ne c)
  have hdfx := infos_iff c s hdevice MetaStore.dfxInfos getDfxInfoKey (fun _ _ => rfl)
    (dfxInfoKey_ne c)
  rw [checkMetaDeviceId_eq c s hnew hrecorded]
  constructor
  · intro h
    exact
      { stores := (rekeyed_stores_iff c s hkeyed hfound).mp h.stores
        mappings := (rekeyed_mappings_iff c s hkeyed hmapped).mp h.mappings
        syncMetas := hsyncMetas.mp h.syncMetas
        strategies := hstrategies.mp h.strategies
        locals := hlocals.mp h.locals
        launches := (rekeyed_autoLaunches_iff c s hdevice).mp h.launches
        localMatrices := (rekeyed_device_iff c _ _ _).mp h.localMatrices
        syncMatrices := (rekeyed_device_iff c _ _ _).mp h.syncMatrices
        users := (rekeyed_device_iff c _ _ _).mp h.users
        capabilities := (rekeyed_capabilities_iff c s).mp h.capabilities
        debugInfos := hdebug.mp h.debugInfos
        dfxInfos := hdfx.mp h.dfxInfos }
  · intro h
    exact
      { stores := (rekeyed_stores_iff c s hkeyed hfound).mpr h.stores
        mappings := (rekeyed_mappings_iff c s hkeyed hmapped).mpr h.mappings
        syncMetas := hsyncMetas.mpr h.syncMetas
        strategies := hstrategies.mpr h.strategies
        locals := hlocals.mpr h.locals
        launches := (rekeyed_autoLaunches_iff c s hdevice).mpr h.launches
        localMatrices := (rekeyed_device_iff c _ _ _).mpr h.localMatrices
        syncMatrices := (rekeyed_device_iff c _ _ _).mpr h.syncMatrices
        users := (rekeyed_device_iff c _ _ _).mpr h.users
        capabilities := (rekeyed_capabilities_iff c s).mpr h.capabilities
        debugInfos := hdebug.mpr h.debugInfos
        dfxInfos := hdfx.mpr h.dfxInfos }

end

def only {V : Type} (key : String) (record : V) : String → Option V :=
  fun k => if k = key then some record else none

theorem only_eq_some {V : Type} {key k : String} {record v : V} :
    only key record k = some v ↔ k = key ∧ record = v := by
  simp [only]

theorem only_ne_none {V : Type} {key k : String} {record : V} :
    only key record k ≠ none ↔ k = key := by
  simp [only]

def phoneChange : UuidChange where
  old := "A1"
  new := "B2"
  oldPlain := by decide
  newPlain := by decide
  differ := by decide

def notesStore : StoreMetaData :=
  { deviceId := "A1", user := "100", bundleName := "com.notes", storeId := "notes",
    dataDir := "/data/notes" }

def notesMetadata : MetaStore :=
  { storeMetas := only notesStore.getKey notesStore
    localMetas := only notesStore.getKeyLocal { isBackup := true }
    syncMetas := only notesStore.getKeyWithoutPath notesStore
    autoLaunches := only notesStore.getAutoLaunchKey { launchForCleanData := true }
    localMatrices := only (MatrixMetaData.getPrefix ["A1"]) { deviceId := "A1" }
    device := some { newUuid := "A1" } }

theorem notesMetadata_keyed : notesMetadata.KeyedByDevice := by
  constructor
  · intro key record h
    obtain ⟨rfl, rfl⟩ := only_eq_some.mp h
    exact ⟨by decide, _, getKey_eq notesStore⟩
  · intro key record h
    cases h

theorem notesMetadata_found :
    FoundBy (getPrefix ["A1"]) notesMetadata.storeMetas [notesStore] := by
  intro record
  constructor
  · intro hmem
    rw [List.mem_singleton.mp hmem]
    exact ⟨notesStore.getKey, by decide +kernel, by simp [notesMetadata, only]⟩
  · intro h
    obtain ⟨key, -, hrecord⟩ := h
    rw [← (only_eq_some.mp hrecord).2]
    exact List.mem_singleton_self _

theorem notesMetadata_mapped :
    FoundBy (StoreMetaMapping.getPrefix ["A1"]) notesMetadata.mappings [] := by
  intro record
  simp [notesMetadata]

/-- The store, its local meta, its synchronised copy, its auto-launch record and the matrix
go to the new uuid. -/
theorem device_id_replaced_one_store :
    notesMetadata.KeyedByDevice ∧
      UuidReplaced phoneChange notesMetadata
        (checkMetaDeviceId "B2" [notesStore] [] notesMetadata) [notesStore] := by
  refine ⟨notesMetadata_keyed, (device_id_replaced_iff phoneChange notesMetadata (by decide) rfl
    notesMetadata_keyed notesMetadata_found notesMetadata_mapped).mpr ?_⟩
  constructor
  case stores =>
    intro rest record h
    obtain ⟨hkey, rfl⟩ := only_eq_some.mp h
    exact hkey.symm
  case syncMetas =>
    intro rest h
    exact ⟨notesStore, List.mem_singleton_self _, (only_ne_none.mp h).symm⟩
  case locals =>
    intro rest h
    exact ⟨notesStore, List.mem_singleton_self _, (only_ne_none.mp h).symm⟩
  case launches =>
    intro rest h
    exact .inr (.inl (only_ne_none.mp h).symm)
  case localMatrices =>
    intro rest h
    exact (only_ne_none.mp h).symm
  all_goals simp [notesMetadata]

/-- The same device, with debug and dfx information of the store and a capability record. -/
def notesWithInfo : MetaStore :=
  { notesMetadata with
    debugInfos := only notesStore.getDebugInfoKey "files"
    dfxInfos := only notesStore.getDfxInfoKey "opened"
    capabilities := only (CapMetaRow.getKeyFor "A1") { version := 3, deviceId := "A1" } }

/-- The debug and dfx information stays under the old uuid, and the capability record is
under the new uuid with the old one written in it. -/
theorem old_uuid_left_behind :
    notesWithInfo.KeyedByDevice ∧
      FoundBy (getPrefix ["A1"]) notesWithInfo.storeMetas [notesStore] ∧
      FoundBy (StoreMetaMapping.getPrefix ["A1"]) notesWithInfo.mappings [] ∧
      (let after := checkMetaDeviceId "B2" [notesStore] [] notesWithInfo
       after.debugInfos notesStore.getDebugInfoKey = some "files" ∧
        after.dfxInfos notesStore.getDfxInfoKey = some "opened" ∧
        after.capabilities (CapMetaRow.getKeyFor "B2") = some { version := 3, deviceId := "A1" } ∧
        ¬ UuidReplaced phoneChange notesWithInfo after [notesStore]) := by
  have hdebug : (checkMetaDeviceId "B2" [notesStore] [] notesWithInfo).debugInfos
      notesStore.getDebugInfoKey = some "files" := by decide +kernel
  refine ⟨⟨notesMetadata_keyed.stores, notesMetadata_keyed.mappings⟩, notesMetadata_found,
    notesMetadata_mapped, hdebug, by decide +kernel, by decide +kernel, ?_⟩
  intro h
  have hgone := h.debugInfos notesStore (List.mem_singleton_self _)
  rw [hdebug] at hgone
  cases hgone

end DataMgr.Metadata
