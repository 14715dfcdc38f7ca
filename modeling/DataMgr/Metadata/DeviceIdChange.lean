import DataMgr.Foundation.BatchMove
import DataMgr.Foundation.Rekey
import DataMgr.Metadata.MetaStore

/-! # Change of the device id

When the uuid of the device is not the recorded one, `CheckMetaDeviceId` renames every
record of the device: for each store the store meta, its synchronised copy, the strategy,
the local meta and the auto-launch record, then the mappings, and last the records that
belong to the device itself. The metadata object from which the old keys are made is
changed on the way, by the search for the auto-launch record.
-/

namespace DataMgr.Metadata

open DataMgr.Utils DataMgr.Foundation DataMgr.Matrix Renaming

section

variable (newUuid : String)

/-- The auto-launch record of a store, or else of its bundle, is moved to the new uuid.
Returns the metadata object as the search has left it: without its store if the store has
no record of its own, and with the new uuid if a record was found. -/
def updateAutoLaunch (launches : String → Option AutoLaunchMetaData) (oldMeta : StoreMetaData) :
    (String → Option AutoLaunchMetaData) × StoreMetaData :=
  let searched := if (launches oldMeta.getAutoLaunchKey).isSome then oldMeta
    else { oldMeta with storeId := "" }
  match launches searched.getAutoLaunchKey with
  | none => (launches, searched)
  | some autoLaunchMetaData =>
      let moved := { searched with deviceId := newUuid }
      (Function.update (Function.update launches searched.getAutoLaunchKey none)
        moved.getAutoLaunchKey (some autoLaunchMetaData), moved)

def updateStore (s : MetaStore) (oldMeta : StoreMetaData) : MetaStore :=
  let storeMeta := { oldMeta with isNeedUpdateDeviceId := true, deviceId := newUuid }
  let launch := updateAutoLaunch newUuid s.autoLaunches oldMeta
  { s with
    storeMetas := replaceRecord s.storeMetas oldMeta.getKey storeMeta.getKey storeMeta
    syncMetas := moveRecord (fun syncStoreMeta => { syncStoreMeta with deviceId := newUuid })
      s.syncMetas oldMeta.getKeyWithoutPath storeMeta.getKeyWithoutPath
    strategies := moveRecord (fun strategyMeta => { strategyMeta with devId := newUuid })
      s.strategies oldMeta.getStrategyKey storeMeta.getStrategyKey
    localMetas := moveRecord id s.localMetas oldMeta.getKeyLocal storeMeta.getKeyLocal
    autoLaunches := launch.1
    secretKeys := if storeMeta.isEncrypt
      then deleteAll s.secretKeys [storeMeta.getSecretKey, storeMeta.getCloneSecretKey]
      else s.secretKeys
    -- the keys of the object that the search has changed
    debugInfos := deleteAll s.debugInfos [launch.2.getDebugInfoKey]
    dfxInfos := deleteAll s.dfxInfos [launch.2.getDfxInfoKey] }

def updateStoreMetaMapping (storeMetaMappings : List StoreMetaMapping)
    (mappings : String → Option StoreMetaMapping) : String → Option StoreMetaMapping :=
  storeMetaMappings.foldl (fun mappings mapping =>
    let moved := { mapping with deviceId := newUuid }
    replaceRecord mappings mapping.getKey moved.getKey moved) mappings

/-- `storeMetas` and `storeMetaMappings` are what the database returns for the prefixes of
the old uuid. -/
def updateStoreMetaData (storeMetas : List StoreMetaData)
    (storeMetaMappings : List StoreMetaMapping) (s : MetaStore) : MetaStore :=
  let updated := storeMetas.foldl (updateStore newUuid) s
  { updated with
    mappings := updateStoreMetaMapping newUuid storeMetaMappings updated.mappings }

end

def switchesPrefix (fields : List String) : String := join "SwitchesMeta" keySeparator fields

def updateMetaDatas (newUuid oldUuid : String) (s : MetaStore) : MetaStore :=
  let matrixKeys := [(MatrixMetaData.getPrefix [oldUuid], MatrixMetaData.getPrefix [newUuid])]
  { s with
    localMatrices := moveFirst (fun matrixMeta => { matrixMeta with deviceId := newUuid })
      s.localMatrices matrixKeys
    syncMatrices := moveFirst (fun matrixMeta => { matrixMeta with deviceId := newUuid })
      s.syncMatrices matrixKeys
    switches := moveFirst (fun switchesMeta => { switchesMeta with deviceId := newUuid })
      s.switches [(switchesPrefix [oldUuid], switchesPrefix [newUuid])]
    users := moveFirst (fun userMeta => { userMeta with deviceId := newUuid })
      s.users [(UserMetaRow.getKeyFor oldUuid, UserMetaRow.getKeyFor newUuid)]
    -- the record itself is saved as it was
    capabilities := moveFirst id
      s.capabilities [(CapMetaRow.getKeyFor oldUuid, CapMetaRow.getKeyFor newUuid)] }

def checkMetaDeviceId (localUuid : String) (storeMetas : List StoreMetaData)
    (storeMetaMappings : List StoreMetaMapping) (s : MetaStore) : MetaStore :=
  if localUuid = "" then s
  else match s.device with
    | none => { s with device := some { newUuid := localUuid } }
    | some deviceMeta =>
        if deviceMeta.newUuid ≠ localUuid then
          let updated := updateMetaDatas localUuid deviceMeta.newUuid
            (updateStoreMetaData localUuid storeMetas storeMetaMappings s)
          { updated with device := some { deviceMeta with newUuid := localUuid } }
        else s

def keyOf (word uuid : String) (rest : List String) : String :=
  join word keySeparator (uuid :: rest)

structure UuidChange where
  old : String
  new : String
  oldPlain : '#' ∉ old.toList
  newPlain : '#' ∉ new.toList
  differ : new ≠ old

variable (storeMeta : StoreMetaData) (c : UuidChange) (word : String) (mapping : StoreMetaMapping)
  (uuid : String) (newUuid : String)

def UuidChange.keys : Renaming (List String) String where
  src := keyOf word c.old
  dst := keyOf word c.new
  apart := join_cons_ne c.newPlain c.oldPlain c.differ word
  same := by
    intro rest rest'
    constructor
    · intro h
      exact join_cons_congr h c.new
    · intro h
      exact join_cons_congr h c.old

theorem UuidChange.keys_src :
    (c.keys word).src = keyOf word c.old := rfl

theorem UuidChange.keys_dst :
    (c.keys word).dst = keyOf word c.new := rfl

/-- Every record that was keyed by the old uuid is under the new one, changed by `f`, and
no key carries the old uuid any more. -/
def Rekeyed {V : Type} (c : UuidChange) (word : String) (f : V → V)
    (before after : String → Option V) : Prop :=
  (∀ rest record, before (keyOf word c.old rest) = some record →
      after (keyOf word c.new rest) = some (f record)) ∧
    ∀ rest, after (keyOf word c.old rest) = none

theorem rekeyed_iff_done {V : Type} (c : UuidChange) (word : String) (f : V → V)
    (before after : String → Option V) :
    Rekeyed c word f before after ↔ (c.keys word).Done f before after := Iff.rfl

def FoundBy {V : Type} (start : String) (map : String → Option V) (found : List V) : Prop :=
  ∀ record, record ∈ found ↔ ∃ key, HasPrefix start key ∧ map key = some record

/-- The key of a record starts with the device that is written in it. -/
structure MetaStore.KeyedByDevice (s : MetaStore) : Prop where
  stores : ∀ key record, s.storeMetas key = some record →
    '#' ∉ record.deviceId.toList ∧ ∃ rest, key = keyOf "KvStoreMetaData" record.deviceId rest
  mappings : ∀ key record, s.mappings key = some record →
    '#' ∉ record.deviceId.toList ∧ ∃ rest, key = keyOf "StoreMetaMapping" record.deviceId rest

theorem keyOf_of_hasPrefix {word uuid key : String}
    (h : HasPrefix (join word keySeparator [uuid] ++ keySeparator) key) :
    ∃ rest, key = keyOf word uuid rest := by
  obtain ⟨tail, htail⟩ := h
  refine ⟨[String.ofList tail], ?_⟩
  rw [← String.toList_inj, ← htail, keyOf, toList_join, String.toList_append, toList_join]
  simp

theorem deviceId_of_keyOf {c : UuidChange} {word device : String} {rest rest' : List String}
    (hplain : '#' ∉ device.toList) (h : keyOf word c.old rest = keyOf word device rest') :
    device = c.old := by
  by_contra hne
  exact join_cons_ne hplain c.oldPlain hne word rest' rest h.symm

/-- What follows the uuid in the keys of a store. -/
def StoreMetaData.tailWithoutPath (self : StoreMetaData) : List String :=
  [self.user, "default", self.bundleName, self.storeId] ++
    if self.instanceId = 0 then [] else [toString self.instanceId]

def StoreMetaData.tailWithPath (self : StoreMetaData) : List String :=
  self.tailWithoutPath ++ [self.dataDir]

def launchTail : List String :=
  [storeMeta.user, "default", storeMeta.bundleName, storeMeta.storeId]

/-- The keys under which an auto-launch record is looked for. -/
def launchCandidates : List (List String) :=
  [launchTail storeMeta, launchTail { storeMeta with storeId := "" }]

open MetaStore

section

-- keys are compared field by field, never by building them
attribute [local irreducible] join

variable (c : UuidChange) {found : List StoreMetaData}

variable {storeMeta : StoreMetaData}

theorem getAutoLaunchKey_eq (h : storeMeta.deviceId = c.old) :
    storeMeta.getAutoLaunchKey = (c.keys "AutoLaunchMetaData").src (launchTail storeMeta) := by
  rw [StoreMetaData.getAutoLaunchKey, h]
  rfl

theorem updateAutoLaunch_fst (h : storeMeta.deviceId = c.old)
    (launches : String → Option AutoLaunchMetaData) :
    (updateAutoLaunch c.new launches storeMeta).1 =
      moveFirst id launches
        ((launchCandidates storeMeta).map (c.keys "AutoLaunchMetaData").pair) := by
  have hown := getAutoLaunchKey_eq c h
  have hbundle := getAutoLaunchKey_eq c (show { storeMeta with storeId := "" }.deviceId = _ from h)
  rw [launchCandidates, pair_cons, pair_cons, ← hown, ← hbundle]
  cases hfirst : launches storeMeta.getAutoLaunchKey with
  | some launch =>
      rw [moveFirst_of_some hfirst]
      simp only [updateAutoLaunch, hfirst, Option.isSome_some, if_true]
      rfl
  | none =>
      rw [moveFirst_of_none hfirst]
      simp only [updateAutoLaunch, hfirst, Option.isSome_none, Bool.false_eq_true, if_false]
      cases hsecond : launches { storeMeta with storeId := "" }.getAutoLaunchKey with
      | some launch =>
          rw [moveFirst_of_some hsecond]
          rfl
      | none =>
          rw [moveFirst_of_none hsecond]
          rfl

/-- What the search leaves of the metadata object. It still has the old uuid exactly if
there was no auto-launch record, and then it has lost its store. -/
theorem updateAutoLaunch_snd (h : storeMeta.deviceId = c.old)
    (launches : String → Option AutoLaunchMetaData) :
    let left := (updateAutoLaunch c.new launches storeMeta).2
    let src := (c.keys "AutoLaunchMetaData").src
    if launches (src (launchTail storeMeta)) = none ∧
        launches (src (launchTail { storeMeta with storeId := "" })) = none
    then left = { storeMeta with storeId := "" } else left.deviceId = c.new := by
  have hown := getAutoLaunchKey_eq c h
  have hbundle := getAutoLaunchKey_eq c (show { storeMeta with storeId := "" }.deviceId = _ from h)
  simp only [← hown, ← hbundle]
  cases hfirst : launches storeMeta.getAutoLaunchKey with
  | some launch => simp [updateAutoLaunch, hfirst]
  | none =>
      cases hsecond : launches { storeMeta with storeId := "" }.getAutoLaunchKey with
      | some launch => simp [updateAutoLaunch, hfirst, hsecond]
      | none => simp [updateAutoLaunch, hfirst, hsecond]

/-! The keys of a store, split at its uuid. -/

theorem getKey_eq (storeMeta : StoreMetaData) :
    storeMeta.getKey = keyOf "KvStoreMetaData" storeMeta.deviceId storeMeta.tailWithPath := rfl

theorem updateStores_moved {V : Type} (word : String) (f : V → V)
    (kind : MetaStore → String → Option V) (candidates : StoreMetaData → List (List String))
    (hstep : ∀ s storeMeta, storeMeta.deviceId = c.old →
      kind (updateStore c.new s storeMeta) =
        moveFirst f (kind s) ((candidates storeMeta).map (c.keys word).pair))
    (hdevice : ∀ storeMeta ∈ found, storeMeta.deviceId = c.old) (s : MetaStore) :
    kind (found.foldl (updateStore c.new) s) =
      (c.keys word).moveFirsts f (kind s) (found.map candidates) := by
  induction found generalizing s with
  | nil => rfl
  | cons storeMeta rest ih =>
      simp only [List.mem_cons, forall_eq_or_imp] at hdevice
      rw [List.foldl_cons, ih hdevice.2, hstep s storeMeta hdevice.1]
      rfl

variable (hdevice : ∀ storeMeta ∈ found, storeMeta.deviceId = c.old) (s : MetaStore)

include hdevice

theorem updateStores_autoLaunches :
    (found.foldl (updateStore c.new) s).autoLaunches =
      (c.keys "AutoLaunchMetaData").moveFirsts id s.autoLaunches (found.map launchCandidates) := by
  apply updateStores_moved c "AutoLaunchMetaData" _ autoLaunches _ _ hdevice
  intro s storeMeta h
  exact updateAutoLaunch_fst c h s.autoLaunches

theorem updateStores_storeMetas :
    (found.foldl (updateStore c.new) s).storeMetas =
      (c.keys "KvStoreMetaData").replaceAll (fun storeMeta => storeMeta.tailWithPath)
        (fun storeMeta => { storeMeta with isNeedUpdateDeviceId := true, deviceId := c.new })
        s.storeMetas found := by
  induction found generalizing s with
  | nil => rfl
  | cons storeMeta rest ih =>
      simp only [List.mem_cons, forall_eq_or_imp] at hdevice
      rw [List.foldl_cons, ih hdevice.2, replaceAll_cons]
      simp only [updateStore, getKey_eq, hdevice.1]
      rfl

omit hdevice in
theorem updateStores_others (found : List StoreMetaData) :
    let updated := found.foldl (updateStore c.new) s
    updated.mappings = s.mappings ∧ updated.localMatrices = s.localMatrices ∧
      updated.syncMatrices = s.syncMatrices ∧ updated.switches = s.switches ∧
      updated.users = s.users ∧ updated.capabilities = s.capabilities := by
  induction found generalizing s with
  | nil => exact ⟨rfl, rfl, rfl, rfl, rfl, rfl⟩
  | cons storeMeta rest ih => exact ih (updateStore c.new s storeMeta)

omit hdevice

theorem mapping_getKey_eq :
    mapping.getKey = keyOf "StoreMetaMapping" mapping.deviceId
      mapping.toStoreMetaData.tailWithoutPath := rfl

theorem moved_mapping_getKey_eq :
    { mapping with deviceId := uuid }.getKey = keyOf "StoreMetaMapping" uuid
      mapping.toStoreMetaData.tailWithoutPath := rfl

theorem updateStoreMetaMapping_eq {mapped : List StoreMetaMapping}
    (hdevice : ∀ mapping ∈ mapped, mapping.deviceId = c.old)
    (mappings : String → Option StoreMetaMapping) :
    updateStoreMetaMapping c.new mapped mappings =
      (c.keys "StoreMetaMapping").replaceAll
        (fun mapping => mapping.toStoreMetaData.tailWithoutPath)
        (fun mapping => { mapping with deviceId := c.new }) mappings mapped := by
  unfold updateStoreMetaMapping
  induction mapped generalizing mappings with
  | nil => rfl
  | cons mapping rest ih =>
      simp only [List.mem_cons, forall_eq_or_imp] at hdevice
      rw [List.foldl_cons, ih hdevice.2, replaceAll_cons, UuidChange.keys_src,
        UuidChange.keys_dst]
      simp only [moved_mapping_getKey_eq]
      rw [mapping_getKey_eq, hdevice.1]

end

/-- The metadata objects from which the keys of debug and dfx information are made. -/
def infoMetas (newUuid : String) :
    (String → Option AutoLaunchMetaData) → List StoreMetaData → List StoreMetaData
  | _, [] => []
  | launches, oldMeta :: rest =>
      let launch := updateAutoLaunch newUuid launches oldMeta
      launch.2 :: infoMetas newUuid launch.1 rest

theorem updateStores_info (kind : MetaStore → String → Option String)
    (infoKey : StoreMetaData → String)
    (hstep : ∀ s storeMeta, kind (updateStore newUuid s storeMeta) =
      deleteAll (kind s) [infoKey (updateAutoLaunch newUuid s.autoLaunches storeMeta).2])
    (found : List StoreMetaData) (s : MetaStore) (key : String) :
    kind (found.foldl (updateStore newUuid) s) key = none ↔
      kind s key = none ∨ ∃ left ∈ infoMetas newUuid s.autoLaunches found, infoKey left = key := by
  induction found generalizing s with
  | nil => simp [infoMetas]
  | cons storeMeta rest ih =>
      have hlaunch : (updateStore newUuid s storeMeta).autoLaunches =
          (updateAutoLaunch newUuid s.autoLaunches storeMeta).1 := rfl
      rw [List.foldl_cons, ih, hstep, hlaunch, infoMetas]
      by_cases hhere : infoKey (updateAutoLaunch newUuid s.autoLaunches storeMeta).2 = key
      · simp [deleteAll, hhere]
      · simp [deleteAll, hhere, Ne.symm hhere]

section

variable (c : UuidChange)

variable (launches : String → Option AutoLaunchMetaData)

/-- The auto-launch record is not there when the stores before have been updated. -/
def LaunchGone (earlier : List StoreMetaData) (tail : List String) : Prop :=
  launches (keyOf "AutoLaunchMetaData" c.old tail) = none ∨
    Taken (keyOf "AutoLaunchMetaData" c.old) launches (earlier.map launchCandidates).reverse tail

/-- The information of a store is deleted in the round of a store that has no auto-launch
record, if the two have the same key up to the store id, which has been cut. -/
def InfoDeleted (found : List StoreMetaData) (infoKey : StoreMetaData → String)
    (storeMeta : StoreMetaData) : Prop :=
  ∃ earlier other, earlier ++ [other] <+: found ∧
    LaunchGone c launches earlier (launchTail other) ∧
    LaunchGone c launches earlier (launchTail { other with storeId := "" }) ∧
    infoKey { other with storeId := "" } = infoKey storeMeta

theorem mem_infoMetas {found : List StoreMetaData}
    (hdevice : ∀ storeMeta ∈ found, storeMeta.deviceId = c.old)
    (launches : String → Option AutoLaunchMetaData) (left : StoreMetaData) :
    left ∈ infoMetas c.new launches found ↔
      ∃ earlier other, earlier ++ [other] <+: found ∧
        left = (updateAutoLaunch c.new ((c.keys "AutoLaunchMetaData").moveFirsts id launches
          (earlier.map launchCandidates)) other).2 := by
  induction found generalizing launches with
  | nil => simp [infoMetas]
  | cons storeMeta rest ih =>
      simp only [List.mem_cons, forall_eq_or_imp] at hdevice
      rw [infoMetas, List.mem_cons, ih hdevice.2, updateAutoLaunch_fst c hdevice.1]
      constructor
      · intro h
        cases h with
        | inl hfirst => exact ⟨[], storeMeta, by simp, hfirst⟩
        | inr hlater =>
            obtain ⟨earlier, other, hstarts, hleft⟩ := hlater
            exact ⟨storeMeta :: earlier, other, by simpa using hstarts, hleft⟩
      · intro h
        obtain ⟨earlier, other, hstarts, hleft⟩ := h
        cases earlier with
        | nil =>
            have hsame : other = storeMeta := by simpa using hstarts
            rw [hsame] at hleft
            exact .inl hleft
        | cons first earlier =>
            rw [List.cons_append, List.cons_prefix_cons] at hstarts
            rw [hstarts.1] at hleft
            exact .inr ⟨earlier, other, hstarts.2, hleft⟩

theorem infoDeleted_iff {found : List StoreMetaData}
    (hdevice : ∀ storeMeta ∈ found, storeMeta.deviceId = c.old)
    (launches : String → Option AutoLaunchMetaData) (infoKey : StoreMetaData → String)
    {storeMeta : StoreMetaData}
    (hne : ∀ left : StoreMetaData, left.deviceId = c.new → infoKey left ≠ infoKey storeMeta) :
    (∃ left ∈ infoMetas c.new launches found, infoKey left = infoKey storeMeta) ↔
      InfoDeleted c launches found infoKey storeMeta := by
  have hgone : ∀ (earlier : List StoreMetaData) (tail : List String),
      (c.keys "AutoLaunchMetaData").moveFirsts id launches (earlier.map launchCandidates)
          ((c.keys "AutoLaunchMetaData").src tail) = none ↔ LaunchGone c launches earlier tail :=
    fun earlier tail => moveFirsts_src_eq_none launches _ tail
  constructor
  · intro h
    obtain ⟨left, hmem, hkey⟩ := h
    obtain ⟨earlier, other, hstarts, hleft⟩ := (mem_infoMetas c hdevice launches left).mp hmem
    have hother : other ∈ found := hstarts.subset (by simp)
    have hsnd := updateAutoLaunch_snd c (hdevice other hother)
      ((c.keys "AutoLaunchMetaData").moveFirsts id launches (earlier.map launchCandidates))
    simp only [← hleft] at hsnd
    split at hsnd
    next hboth =>
      rw [hsnd] at hkey
      exact ⟨earlier, other, hstarts, (hgone _ _).mp hboth.1, (hgone _ _).mp hboth.2, hkey⟩
    next => exact absurd hkey (hne left hsnd)
  · intro h
    obtain ⟨earlier, other, hstarts, hown, hbundle, hkey⟩ := h
    have hother : other ∈ found := hstarts.subset (by simp)
    have hsnd := updateAutoLaunch_snd c (hdevice other hother)
      ((c.keys "AutoLaunchMetaData").moveFirsts id launches (earlier.map launchCandidates))
    simp only [if_pos (And.intro ((hgone _ _).mpr hown) ((hgone _ _).mpr hbundle))] at hsnd
    refine ⟨_, (mem_infoMetas c hdevice launches _).mpr ⟨earlier, other, hstarts, rfl⟩, ?_⟩
    rw [hsnd, hkey]

end

section

variable (c : UuidChange) {V : Type}

theorem moveFirst_device (word : String) (f : V → V) (map : String → Option V) :
    moveFirst f map [(keyOf word c.old [], keyOf word c.new [])] =
      (c.keys word).moveFirsts f map [[[]]] := rfl

theorem rekeyed_device_iff (word : String) (f : V → V) (map : String → Option V) :
    Rekeyed c word f map (moveFirst f map [(keyOf word c.old [], keyOf word c.new [])]) ↔
      ∀ rest, map (keyOf word c.old rest) ≠ none → keyOf word c.old [] = keyOf word c.old rest := by
  rw [rekeyed_iff_done, moveFirst_device, done_moveFirsts_iff]
  refine forall₂_congr fun rest _ => ?_
  have hsingle := taken_singletons (c.keys word).src map [[]] rest
  simp only [List.mem_singleton, exists_eq_left] at hsingle
  exact hsingle

theorem switchesKey_eq : switchesPrefix [uuid] = keyOf "SwitchesMeta" uuid [] := rfl

theorem userKey_eq : UserMetaRow.getKeyFor uuid = keyOf "UserMeta" uuid [] := rfl

theorem capKey_eq : CapMetaRow.getKeyFor uuid = keyOf "CapabilityMeta" uuid [] :=
  rfl

theorem matrixKey_eq :
    MatrixMetaData.getPrefix [uuid] = keyOf "MatrixMeta" uuid [] := rfl

end

end DataMgr.Metadata
