import DataMgr.Clone.CloneManager

/-! # Which keys a backup exports

A backup visits, for each listed bundle, the stores whose key starts with the text made
of the device, the user and the bundle. That text does not end with the separator, so it
is also the beginning of the keys of bundles whose name is longer. Their items are
labelled with the listed bundle.
-/

namespace DataMgr.Clone

open DataMgr.Utils DataMgr.Metadata DataMgr.Crypto CloneBundleInfo

variable {Key : Type}

structure BackupRequest where
  bundleInfos : List CloneBundleInfo
  userId : String
  iv : Bytes
  localDeviceId : String

variable (s : CloneState Key) (cipher : Cipher Key) (results : BackupResults Key)
  (request : BackupRequest)

/-- The store belongs to the bundle under which it was visited, and to this device and
user. -/
def BackupRequest.Own (attempt : Attempt) : Prop :=
  attempt.2.bundleName = attempt.1 ∧ attempt.2.deviceId = request.localDeviceId ∧
    attempt.2.user = request.userId

instance (request : BackupRequest) (attempt : Attempt) : Decidable (request.Own attempt) :=
  inferInstanceAs (Decidable (_ ∧ _ ∧ _))

/-- The encrypted local stores of the listed bundles. -/
def BackupRequest.requestedStores (table : StoreMetaTable) : List StoreMetaData :=
  (table.entries.map Prod.snd).filter fun storeMeta =>
    storeMeta.isEncrypt && decide (request.Own (storeMeta.bundleName, storeMeta)) &&
      decide (storeMeta.bundleName ∈ request.bundleInfos.map bundleName)

/-- The text by which the stores of a bundle are looked up. -/
def BackupRequest.start (bundleName : String) : String :=
  StoreMetaData.getKeyOf [request.localDeviceId, request.userId, "default", bundleName]

def CloneState.attempts : List Attempt :=
  backupAttempts s.storeMetas results request.bundleInfos request.userId request.localDeviceId

def CloneState.exportedItems : List BackupItem :=
  (s.getSecretKeyBackup cipher results request.bundleInfos request.userId request.iv
    request.localDeviceId).1

/-- The keystore when the backup comes to the store. -/
def CloneState.keysAt (attempt : Attempt) : Keystore Key :=
  (backupRun cipher results s.secrets request.userId request.iv
    ((s.attempts results request).takeWhile fun other => other ≠ attempt) s.keys).2

/-- What `ReEncryptKey` gives for the store then. -/
def CloneState.reEncrypted (attempt : Attempt) : Bytes × SecretKeyMetaData × Keystore Key :=
  reEncryptKey cipher (s.keysAt cipher results request attempt)
    (results.reEncrypt attempt.1 attempt.2) s.secrets attempt.2 request.iv

def CloneState.ReEncryptable (attempt : Attempt) : Prop :=
  attempt.2.isEncrypt = true ∧ (s.reEncrypted cipher results request attempt).1 ≠ []

instance (attempt : Attempt) : Decidable (s.ReEncryptable cipher results request attempt) :=
  inferInstanceAs (Decidable (_ ∧ _))

def CloneState.exportable : List StoreMetaData :=
  (request.requestedStores s.storeMetas).filter fun storeMeta =>
    s.ReEncryptable cipher results request (storeMeta.bundleName, storeMeta)

/-- The item with the store's re-encrypted key, under a label. -/
def CloneState.labelled (attempt : Attempt) (bundleName user : String) : BackupItem :=
  let reEncrypted := s.reEncrypted cipher results request attempt
  { time := reEncrypted.2.1.time
    bundleName := bundleName
    dbName := attempt.2.storeId
    instanceId := attempt.2.instanceId
    sKey := Base64.encode reEncrypted.1
    storeType := reEncrypted.2.1.storeType
    user := user
    area := attempt.2.area }

/-- The item of a store, labelled with the store's own bundle and user. -/
def CloneState.itemFor (storeMeta : StoreMetaData) : BackupItem :=
  s.labelled cipher results request (storeMeta.bundleName, storeMeta) storeMeta.bundleName
    storeMeta.user

/-- One item for each requested store whose key can be re-encrypted, and no other item. -/
def CloneState.OnlyRequested : Prop :=
  (s.exportedItems cipher results request).Perm
    ((s.exportable cipher results request).map (s.itemFor cipher results request))

/-- The item the loop makes when it comes to the store. -/
def CloneState.itemOf (attempt : Attempt) : Option BackupItem :=
  (backupStore cipher (s.keysAt cipher results request attempt) results s.secrets request.userId
    request.iv attempt.1 attempt.2).1

theorem backupRun_eq_map (secrets : String → Option SecretKeyMetaData) (userId : String)
    (iv : Bytes) {attempts : List Attempt} (hnodup : attempts.Nodup) (keys : Keystore Key) :
    (backupRun cipher results secrets userId iv attempts keys).1 = attempts.map fun attempt =>
      (attempt, (backupStore cipher (backupRun cipher results secrets userId iv
        (attempts.takeWhile fun other => other ≠ attempt) keys).2 results secrets userId iv
          attempt.1 attempt.2).1) := by
  induction attempts generalizing keys with
  | nil => rfl
  | cons first rest ih =>
      obtain ⟨hfirst, hrest⟩ := List.nodup_cons.mp hnodup
      rw [backupRun, List.map_cons, ih hrest]
      refine congrArg₂ List.cons ?_ ?_
      · rw [List.takeWhile_cons_of_neg (by simp)]
        rfl
      · apply List.map_congr_left
        intro attempt hattempt
        have hne : first ≠ attempt := fun heq => hfirst (heq ▸ hattempt)
        rw [List.takeWhile_cons_of_pos (by simpa using hne)]
        rfl

theorem itemOf_eq (attempt : Attempt) :
    s.itemOf cipher results request attempt =
      if s.ReEncryptable cipher results request attempt then
        some (s.labelled cipher results request attempt attempt.1 request.userId)
      else none := by
  unfold CloneState.itemOf backupStore
  split
  · rename_i hplain
    rw [if_neg fun h => Bool.false_ne_true (hplain.symm.trans h.1)]
  · rename_i hencrypt
    dsimp only
    split
    · rename_i hempty
      exact (if_neg fun h => h.2 hempty).symm
    · rename_i hkey
      exact (if_pos ⟨by simpa using hencrypt, hkey⟩).symm

section

variable {table : StoreMetaTable} {results : BackupResults Key} {request : BackupRequest}

theorem StoreMetaTable.nodup_metas (table : StoreMetaTable) :
    (table.entries.map Prod.snd).Nodup := by
  have hkeys : table.entries.map Prod.fst =
      (table.entries.map Prod.snd).map StoreMetaData.getKey := by
    rw [List.map_map]
    apply List.map_congr_left
    intro entry hentry
    rw [Function.comp_apply, table.keyed entry hentry]
  have hnodup := table.nodup
  rw [hkeys] at hnodup
  exact List.Nodup.of_map _ hnodup

theorem StoreMetaTable.nodup_loadMeta (table : StoreMetaTable) (start : String) :
    (table.loadMeta start).Nodup :=
  table.nodup_metas.sublist (List.filter_sublist.map Prod.snd)

theorem StoreMetaTable.mem_loadMeta {start : String} {storeMeta : StoreMetaData} :
    storeMeta ∈ table.loadMeta start ↔
      storeMeta ∈ table.entries.map Prod.snd ∧ HasPrefix start storeMeta.getKey := by
  simp only [StoreMetaTable.loadMeta, List.mem_map, List.mem_filter, decide_eq_true_eq]
  constructor
  · rintro ⟨entry, ⟨hentry, hstart⟩, rfl⟩
    exact ⟨⟨entry, hentry, rfl⟩, table.keyed entry hentry ▸ hstart⟩
  · rintro ⟨⟨entry, hentry, rfl⟩, hstart⟩
    exact ⟨entry, ⟨hentry, table.keyed entry hentry ▸ hstart⟩, rfl⟩

theorem mem_backupAttempts {attempt : Attempt} :
    attempt ∈ backupAttempts table results request.bundleInfos request.userId
        request.localDeviceId ↔
      attempt.1 ∈ request.bundleInfos.map bundleName ∧
        results.loaded attempt.1 = true ∧ attempt.2 ∈ table.loadMeta (request.start attempt.1) := by
  simp only [backupAttempts, List.mem_flatMap, List.mem_map]
  constructor
  · rintro ⟨info, hinfo, hmem⟩
    split at hmem
    · rename_i hloaded
      obtain ⟨storeMeta, hstore, rfl⟩ := List.mem_map.mp hmem
      exact ⟨⟨info, hinfo, rfl⟩, hloaded, hstore⟩
    · cases hmem
  · rintro ⟨⟨info, hinfo, hname⟩, hloaded, hstore⟩
    refine ⟨info, hinfo, ?_⟩
    rw [hname, if_pos hloaded]
    exact List.mem_map.mpr ⟨attempt.2, hstore, rfl⟩

theorem nodup_backupAttempts
    (hbundles : (request.bundleInfos.map bundleName).Nodup) :
    (backupAttempts table results request.bundleInfos request.userId
      request.localDeviceId).Nodup := by
  rw [backupAttempts, List.nodup_flatMap]
  constructor
  · intro info _
    split
    · exact (table.nodup_loadMeta _).map fun _ _ h => congrArg Prod.snd h
    · exact List.nodup_nil
  · refine (List.pairwise_map.mp hbundles).imp ?_
    intro info other hne attempt hmem hother
    have hname : ∀ {bundleInfo : CloneBundleInfo} {found : List StoreMetaData},
        attempt ∈ (if results.loaded bundleInfo.bundleName then
          found.map fun storeMeta => (bundleInfo.bundleName, storeMeta) else []) →
        attempt.1 = bundleInfo.bundleName := by
      intro bundleInfo found h
      split at h
      · obtain ⟨storeMeta, -, rfl⟩ := List.mem_map.mp h
        rfl
      · cases h
    exact hne ((hname hmem).symm.trans (hname hother))

end

theorem hasPrefix_start {request : BackupRequest} {storeMeta : StoreMetaData}
    (hown : request.Own (storeMeta.bundleName, storeMeta)) :
    HasPrefix (request.start storeMeta.bundleName) storeMeta.getKey := by
  obtain ⟨-, hdevice, huser⟩ := hown
  unfold HasPrefix BackupRequest.start
  rw [← hdevice, ← huser, StoreMetaData.getKey, StoreMetaData.getKeyOf, StoreMetaData.getKeyOf,
    toList_join, toList_join, StoreMetaData.fields, StoreMetaData.fieldsWithoutPath]
  simp

section

variable {cipher : Cipher Key} {s : CloneState Key} {results : BackupResults Key}
  {request : BackupRequest}

theorem itemOf_own {storeMeta : StoreMetaData}
    (hown : request.Own (storeMeta.bundleName, storeMeta))
    (h : s.ReEncryptable cipher results request (storeMeta.bundleName, storeMeta)) :
    s.itemOf cipher results request (storeMeta.bundleName, storeMeta) =
      some (s.itemFor cipher results request storeMeta) := by
  have huser : storeMeta.user = request.userId := hown.2.2
  rw [itemOf_eq, if_pos h, ← huser]
  rfl

theorem mem_exportable {storeMeta : StoreMetaData} :
    storeMeta ∈ s.exportable cipher results request ↔
      storeMeta ∈ s.storeMetas.entries.map Prod.snd ∧
        request.Own (storeMeta.bundleName, storeMeta) ∧
        storeMeta.bundleName ∈ request.bundleInfos.map bundleName ∧
        s.ReEncryptable cipher results request (storeMeta.bundleName, storeMeta) := by
  simp only [CloneState.exportable, BackupRequest.requestedStores, List.mem_filter,
    Bool.and_eq_true, decide_eq_true_eq]
  constructor
  · rintro ⟨⟨hmem, ⟨-, hown⟩, hlisted⟩, hkey⟩
    exact ⟨hmem, hown, hlisted, hkey⟩
  · rintro ⟨hmem, hown, hlisted, hkey⟩
    exact ⟨⟨hmem, ⟨hkey.1, hown⟩, hlisted⟩, hkey⟩

variable (s cipher results request) in
def CloneState.wanted : List Attempt :=
  (s.exportable cipher results request).map fun storeMeta => (storeMeta.bundleName, storeMeta)

variable (s cipher results request) in
def CloneState.made : List Attempt :=
  (s.attempts results request).filter fun attempt =>
    s.ReEncryptable cipher results request attempt

theorem mem_made {attempt : Attempt} :
    attempt ∈ s.made cipher results request ↔
      attempt.1 ∈ request.bundleInfos.map bundleName ∧ results.loaded attempt.1 = true ∧
        attempt.2 ∈ s.storeMetas.entries.map Prod.snd ∧
        HasPrefix (request.start attempt.1) attempt.2.getKey ∧
        s.ReEncryptable cipher results request attempt := by
  unfold CloneState.made CloneState.attempts
  rw [List.mem_filter, mem_backupAttempts, StoreMetaTable.mem_loadMeta, decide_eq_true_eq]
  simp only [and_assoc]

theorem nodup_wanted : (s.wanted cipher results request).Nodup :=
  ((s.storeMetas.nodup_metas.filter _).filter _).map fun _ _ h => congrArg Prod.snd h

theorem wanted_items : (s.wanted cipher results request).filterMap
      (s.itemOf cipher results request) =
    (s.exportable cipher results request).map (s.itemFor cipher results request) := by
  rw [CloneState.wanted, List.filterMap_map, ← List.filterMap_eq_map]
  apply List.filterMap_congr
  intro storeMeta hmem
  obtain ⟨-, hown, -, hkey⟩ := mem_exportable.mp hmem
  exact itemOf_own hown hkey

theorem made_items (hbundles : (request.bundleInfos.map bundleName).Nodup) :
    (s.made cipher results request).filterMap (s.itemOf cipher results request) =
      s.exportedItems cipher results request := by
  have hnodup : (s.attempts results request).Nodup := nodup_backupAttempts hbundles
  have hvisits := backupRun_eq_map cipher results s.secrets request.userId request.iv hnodup s.keys
  rw [CloneState.exportedItems, CloneState.getSecretKeyBackup, CloneState.backupVisits]
  dsimp only
  rw [← CloneState.attempts, hvisits, List.filterMap_map, CloneState.made, List.filterMap_filter]
  apply List.filterMap_congr
  intro attempt _
  show _ = s.itemOf cipher results request attempt
  by_cases hkey : s.ReEncryptable cipher results request attempt
  · rw [if_pos (decide_eq_true hkey)]
  · rw [if_neg (by simpa using hkey), itemOf_eq, if_neg hkey]

theorem length_made_items : ((s.made cipher results request).filterMap
    (s.itemOf cipher results request)).length = (s.made cipher results request).length := by
  rw [List.filterMap_length_eq_length]
  intro attempt hmem
  rw [itemOf_eq, if_pos (of_decide_eq_true (List.mem_filter.mp hmem).2)]
  rfl

theorem wanted_subset_made (hloaded : ∀ storeMeta ∈ s.exportable cipher results request,
      results.loaded storeMeta.bundleName = true) :
    s.wanted cipher results request ⊆ s.made cipher results request := by
  intro attempt hmem
  obtain ⟨storeMeta, hwanted, rfl⟩ := List.mem_map.mp hmem
  obtain ⟨hstored, hown, hlisted, hkey⟩ := mem_exportable.mp hwanted
  exact mem_made.mpr ⟨hlisted, hloaded _ hwanted, hstored, hasPrefix_start hown, hkey⟩

section

variable (hitems : ((s.made cipher results request).filterMap
    (s.itemOf cipher results request)).Perm
  ((s.wanted cipher results request).filterMap (s.itemOf cipher results request)))

include hitems

/-- An item with the label of a bundle comes from a bundle whose metadata was read. -/
theorem loaded_of_perm {storeMeta : StoreMetaData}
    (hmem : storeMeta ∈ s.exportable cipher results request) :
    results.loaded storeMeta.bundleName = true := by
  obtain ⟨-, hown, -, hkey⟩ := mem_exportable.mp hmem
  have hmade := hitems.mem_iff.mpr
    (List.mem_filterMap.mpr ⟨_, List.mem_map_of_mem hmem, itemOf_own hown hkey⟩)
  obtain ⟨attempt, hattempt, hitem⟩ := List.mem_filterMap.mp hmade
  obtain ⟨-, hloaded, -, -, hmadeKey⟩ := mem_made.mp hattempt
  rw [itemOf_eq, if_pos hmadeKey, Option.some.injEq] at hitem
  have hbundle : attempt.1 = storeMeta.bundleName := congrArg BackupItem.bundleName hitem
  rw [← hbundle]
  exact hloaded

/-- There are as many items as wanted stores, so none is left for another store. -/
theorem own_of_perm {attempt : Attempt} (hmem : attempt ∈ s.made cipher results request) :
    request.Own attempt := by
  have hlength : (s.made cipher results request).length ≤
      (s.wanted cipher results request).length := by
    rw [← length_made_items, hitems.length_eq]
    exact List.length_filterMap_le _ _
  have hsubset : s.wanted cipher results request ⊆ s.made cipher results request :=
    wanted_subset_made fun _ hwanted => loaded_of_perm hitems hwanted
  have hperm := (nodup_wanted.subperm hsubset).perm_of_length_le hlength
  obtain ⟨storeMeta, hown, rfl⟩ := List.mem_map.mp (hperm.mem_iff.mpr hmem)
  exact (mem_exportable.mp hown).2.1

end

theorem made_subset_wanted
    (hown : ∀ attempt ∈ s.made cipher results request, request.Own attempt) :
    s.made cipher results request ⊆ s.wanted cipher results request := by
  intro attempt hmem
  obtain ⟨hlisted, -, hstored, -, hkey⟩ := mem_made.mp hmem
  have hbundle := (hown attempt hmem).1
  have hattempt : (attempt.2.bundleName, attempt.2) = attempt := Prod.ext hbundle rfl
  refine List.mem_map.mpr ⟨attempt.2, mem_exportable.mpr ⟨hstored, ?_⟩, hattempt⟩
  rw [hattempt, hbundle]
  exact ⟨hown attempt hmem, hlisted, hkey⟩

end

/-- The items are exactly those of the requested stores if and only if the metadata of their
bundles can be read, and no store of another bundle, device or user whose key can be
re-encrypted has a key that starts with the text of a listed bundle. -/
theorem only_requested_iff (cipher : Cipher Key) (s : CloneState Key) (results : BackupResults Key)
    (request : BackupRequest)
    (hbundles : (request.bundleInfos.map bundleName).Nodup) :
    s.OnlyRequested cipher results request ↔
      (∀ storeMeta ∈ s.exportable cipher results request,
        results.loaded storeMeta.bundleName = true) ∧
      ∀ listed ∈ request.bundleInfos.map bundleName, results.loaded listed = true →
        ∀ storeMeta ∈ s.storeMetas.entries.map Prod.snd,
          HasPrefix (request.start listed) storeMeta.getKey →
          s.ReEncryptable cipher results request (listed, storeMeta) →
            request.Own (listed, storeMeta) := by
  unfold CloneState.OnlyRequested
  rw [← made_items hbundles, ← wanted_items]
  constructor
  · intro hitems
    refine ⟨fun storeMeta hmem => loaded_of_perm hitems hmem, ?_⟩
    intro listed hlisted hread storeMeta hstored hstart hkey
    exact own_of_perm hitems (mem_made.mpr ⟨hlisted, hread, hstored, hstart, hkey⟩)
  · rintro ⟨hloaded, hforeign⟩
    have hown : ∀ attempt ∈ s.made cipher results request, request.Own attempt := by
      intro attempt hmem
      obtain ⟨hlisted, hread, hstored, hstart, hkey⟩ := mem_made.mp hmem
      exact hforeign attempt.1 hlisted hread attempt.2 hstored hstart hkey
    have hnodup : (s.made cipher results request).Nodup := (nodup_backupAttempts hbundles).filter _
    apply List.Perm.filterMap
    rw [List.perm_ext_iff_of_nodup hnodup nodup_wanted]
    exact fun attempt => ⟨fun hmem => made_subset_wanted hown hmem,
      fun hmem => wanted_subset_made hloaded hmem⟩

def notesStore (bundleName : String) : StoreMetaData :=
  { bundleName := bundleName, storeId := "notes", user := "100", deviceId := "uuid"
    dataDir := "/data", isEncrypt := true, area := 1 }

def twoBundles : StoreMetaTable where
  entries := [((notesStore "com.a").getKey, notesStore "com.a"),
    ((notesStore "com.ab").getKey, notesStore "com.ab")]
  nodup := by decide +kernel
  keyed := by simp

def twoBundlesState : CloneState UInt8 where
  keys id := if id.keyAlias = rootKeyAlias then some 7 else some 9
  secrets _ := some { sKey := [7, 1, 2], nonce := [1], area := 1, time := [1] }
  storeMetas := twoBundles

def workingBackup : BackupResults UInt8 where
  loaded _ := true
  reEncrypt _ _ := ⟨{ generatedKey := none, randomNonce := none },
    { generatedKey := none, randomNonce := none }⟩

def backupOf (bundleName : String) : BackupRequest where
  bundleInfos := [{ bundleName := bundleName }]
  userId := "100"
  iv := List.replicate aes256NonceSize 3
  localDeviceId := "uuid"

theorem only_requested_longer_name :
    (twoBundlesState.exportable tagCipher workingBackup (backupOf "com.ab")).length = 1 ∧
      twoBundlesState.OnlyRequested tagCipher workingBackup (backupOf "com.ab") :=
  ⟨by decide +kernel, (only_requested_iff tagCipher twoBundlesState workingBackup
    (backupOf "com.ab") (by decide)).mpr (by decide +kernel)⟩

/-- A backup of `com.a` alone also exports the key of `com.ab`, as one of `com.a`. -/
theorem longer_name_exported :
    (twoBundlesState.exportedItems tagCipher workingBackup (backupOf "com.a")).map
        (fun item => (item.bundleName, item.dbName)) =
      [("com.a", "notes"), ("com.a", "notes")] ∧
      ((backupOf "com.a").requestedStores twoBundles).length = 1 := by
  decide +kernel

end DataMgr.Clone
