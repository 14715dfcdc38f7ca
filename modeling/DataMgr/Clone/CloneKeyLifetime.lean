import DataMgr.Clone.CloneManager

/-! # The lifetime of the clone key

Both operations import the raw clone key and delete it by hand on their way out. Nothing
between the two touches its alias, so it is gone at the end exactly if the deletion is
reached and succeeds. `OnBackup` checks the length of the nonce after the import, and
leaves without a deletion.
-/

namespace DataMgr.Clone

open DataMgr.Utils DataMgr.Metadata DataMgr.Crypto

variable {Key : Type}

def KeyCall.Succeeds (call : KeyCall) : Prop := call.built = true ∧ call.done = true

def CloneState.backupImports (s : CloneState Key) (cipher : Cipher Key) (o : BackupOutcomes Key)
    (data : Option CloneBackupInfo) : Prop :=
  ∃ backupInfo, data = some backupInfo ∧ backupInfo.bundleInfos ≠ [] ∧ backupInfo.userId ≠ "" ∧
    (importCloneKey cipher s.keys o.importCall backupInfo.encryptionInfo.symkey).1 = true

def CloneState.restoreImports (s : CloneState Key) (cipher : Cipher Key) (o : RestoreOutcomes Key)
    (file : Option (List BackupItem)) (data : Option CloneBackupInfo) : Prop :=
  ∃ infos backupInfo, file = some infos ∧ infos ≠ [] ∧ data = some backupInfo ∧
    backupInfo.userId ≠ "" ∧
    (convertDecStrToVec backupInfo.encryptionInfo.iv).length = aes256NonceSize ∧
    (importCloneKey cipher s.keys o.importCall backupInfo.encryptionInfo.symkey).1 = true

def NonceAccepted (data : Option CloneBackupInfo) : Prop :=
  ∀ backupInfo, data = some backupInfo →
    (convertDecStrToVec backupInfo.encryptionInfo.iv).length = aes256NonceSize

theorem importCloneKey_present {cipher : Cipher Key} {keys : Keystore Key} {call : KeyCall}
    {keyStr : String} (h : (importCloneKey cipher keys call keyStr).1 = true) :
    (importCloneKey cipher keys call keyStr).2 cloneKeyId ≠ none := by
  unfold importCloneKey importKey at h ⊢
  dsimp only at h ⊢
  split at h
  · cases h
  rename_i hlength
  split at h
  · cases h
  rename_i hbuilt
  split at h
  · cases h
  · rename_i hdone
    rw [if_neg hlength, if_neg hbuilt, if_neg hdone]
    simp [cloneKeyId]

theorem deleteCloneKey_eq_none_iff {keys : Keystore Key} (hkeys : keys cloneKeyId ≠ none)
    (call : KeyCall) : deleteCloneKey keys call cloneKeyId = none ↔ call.Succeeds := by
  obtain ⟨built, done⟩ := call
  cases built with
  | false => simp [deleteCloneKey, deleteKey, KeyCall.Succeeds, hkeys]
  | true =>
      cases done with
      | false => simp [deleteCloneKey, deleteKey, KeyCall.Succeeds, hkeys]
      | true => simp [deleteCloneKey, deleteKey, KeyCall.Succeeds, cloneKeyId]

variable (cipher : Cipher Key)

theorem reEncryptKey_cloneKey (keys : Keystore Key) (r : ReEncryptResults Key)
    (secrets : String → Option SecretKeyMetaData) (metaData : StoreMetaData) (iv : Bytes) :
    (reEncryptKey cipher keys r secrets metaData iv).2.2 cloneKeyId = keys cloneKeyId := by
  unfold reEncryptKey
  split
  · rfl
  dsimp only
  split
  · exact (decrypt_keeps _ _ _ _ _).other _ cloneKeyId_ne_root
  · exact ((encrypt_keeps _ _ _ _ _).other _ cloneKeyId_ne_root).trans
      ((decrypt_keeps _ _ _ _ _).other _ cloneKeyId_ne_root)

theorem backupStore_cloneKey (keys : Keystore Key) (results : BackupResults Key)
    (secrets : String → Option SecretKeyMetaData) (userId : String) (iv : Bytes)
    (bundleName : String) (storeMeta : StoreMetaData) :
    (backupStore cipher keys results secrets userId iv bundleName storeMeta).2 cloneKeyId =
      keys cloneKeyId := by
  unfold backupStore
  split
  · rfl
  · dsimp only
    split <;> exact reEncryptKey_cloneKey ..

theorem backupRun_cloneKey (results : BackupResults Key)
    (secrets : String → Option SecretKeyMetaData) (userId : String) (iv : Bytes)
    (attempts : List Attempt) (keys : Keystore Key) :
    (backupRun cipher results secrets userId iv attempts keys).2 cloneKeyId = keys cloneKeyId := by
  induction attempts generalizing keys with
  | nil => rfl
  | cons attempt rest ih =>
      rw [backupRun]
      rw [ih, backupStore_cloneKey]

open CloneState

theorem restoreSecretKey_cloneKey (s : CloneState Key) (cipher : Cipher Key)
    (r : RestoreResults Key) (item : BackupItem) (userId : String) (iv : Bytes) :
    (s.restoreSecretKey cipher r item userId iv).2.keys cloneKeyId = s.keys cloneKeyId := by
  have hraw : (rawKey cipher s.keys r item iv).2 cloneKeyId = s.keys cloneKeyId :=
    (decrypt_keeps _ _ _ _ _).other _ cloneKeyId_ne_root
  unfold restoreSecretKey
  dsimp only
  split
  · exact hraw
  · split <;> exact ((encrypt_keeps _ _ _ _ _).other _ cloneKeyId_ne_root).trans hraw

theorem restoreItems_cloneKey (results : Nat → RestoreResults Key) (userId : String) (iv : Bytes)
    (infos : List BackupItem) (s : CloneState Key) (index : Nat) :
    (s.restoreItems cipher results userId iv index infos).keys cloneKeyId = s.keys cloneKeyId := by
  induction infos generalizing s index with
  | nil => rfl
  | cons item rest ih =>
      rw [restoreItems]
      split
      · rw [ih, restoreSecretKey_cloneKey]
      · rw [ih]

theorem onBackup_cloneKey {cipher : Cipher Key} {s : CloneState Key} {o : BackupOutcomes Key}
    {data : Option CloneBackupInfo} (localDeviceId : String) (h : s.backupImports cipher o data) :
    (s.onBackup cipher o data localDeviceId).2.keys cloneKeyId = none ↔
      NonceAccepted data ∧ o.deleteCall.Succeeds := by
  obtain ⟨backupInfo, rfl, hbundles, huser, himport⟩ := h
  have hpresent := importCloneKey_present himport
  have hcond : ¬ (backupInfo.bundleInfos = [] ∨ backupInfo.userId = "") := by
    rintro (h | h)
    · exact hbundles h
    · exact huser h
  have hnonce : NonceAccepted (some backupInfo) ↔
      (convertDecStrToVec backupInfo.encryptionInfo.iv).length = aes256NonceSize := by
    simp [NonceAccepted]
  unfold onBackup
  dsimp only
  rw [if_neg hcond, if_neg (by simp [himport]), hnonce]
  by_cases hlength : (convertDecStrToVec backupInfo.encryptionInfo.iv).length = aes256NonceSize
  · rw [if_neg (not_not_intro hlength)]
    have hkeys : ∀ keys : Keystore Key, keys cloneKeyId = (importCloneKey cipher s.keys o.importCall
        backupInfo.encryptionInfo.symkey).2 cloneKeyId →
        (deleteCloneKey keys o.deleteCall cloneKeyId = none ↔ o.deleteCall.Succeeds) := by
      intro keys heq
      exact deleteCloneKey_eq_none_iff (heq ▸ hpresent) o.deleteCall
    simp only [hlength, true_and]
    split
    · exact hkeys _ (backupRun_cloneKey ..)
    split
    · exact hkeys _ (backupRun_cloneKey ..)
    · split
      · exact hkeys _ (backupRun_cloneKey ..)
      · split <;> exact hkeys _ (backupRun_cloneKey ..)
  · simp [hpresent, hlength]

theorem onRestore_cloneKey {cipher : Cipher Key} {s : CloneState Key} {o : RestoreOutcomes Key}
    {file : Option (List BackupItem)} {data : Option CloneBackupInfo}
    (h : s.restoreImports cipher o file data) :
    (s.onRestore cipher o file data).2.keys cloneKeyId = none ↔ o.deleteCall.Succeeds := by
  obtain ⟨infos, backupInfo, rfl, hinfos, rfl, huser, hlength, himport⟩ := h
  have hpresent := importCloneKey_present himport
  unfold onRestore
  dsimp only
  rw [if_neg hinfos, if_neg huser, if_neg (not_not_intro hlength), if_neg (by simp [himport])]
  apply deleteCloneKey_eq_none_iff
  rw [restoreItems_cloneKey]
  exact hpresent

/-- When a call that imported the clone key returns, the key is gone exactly if the
deletion succeeded and, in a backup, the nonce had the right length. -/
theorem clone_key_gone_iff (cipher : Cipher Key) (s : CloneState Key) :
    (∀ o data localDeviceId, s.backupImports cipher o data →
      ((s.onBackup cipher o data localDeviceId).2.keys cloneKeyId = none ↔
        NonceAccepted data ∧ o.deleteCall.Succeeds)) ∧
    (∀ o file data, s.restoreImports cipher o file data →
      ((s.onRestore cipher o file data).2.keys cloneKeyId = none ↔ o.deleteCall.Succeeds)) :=
  ⟨fun _ _ localDeviceId h => onBackup_cloneKey localDeviceId h,
    fun _ _ _ h => onRestore_cloneKey h⟩

def emptyState : CloneState UInt8 := ⟨fun _ => none, fun _ => none, noStores⟩

def byteText : String :=
  "1,2,3,4,5,6,7,8,9,10,11,12,13,14,15,16,17,18,19,20,21,22,23,24,25,26,27,28,29,30,31,32"

def request (iv : String) : CloneBackupInfo where
  encryptionInfo := { symkey := byteText, iv := iv }
  bundleInfos := [{ bundleName := "com.notes" }]
  userId := "100"

def quietOutcomes : BackupOutcomes UInt8 where
  results :=
    { loaded := fun _ => true
      reEncrypt := fun _ _ => ⟨⟨true, true, true, none, true, none, true, true, true⟩,
        ⟨true, true, true, none, true, none, true, true, true⟩⟩ }
  clonePath := "/clone"

theorem clone_key_gone_after_backup :
    (emptyState.onBackup tagCipher quietOutcomes (some (request byteText)) "uuid").2.keys
      cloneKeyId = none :=
  ((clone_key_gone_iff tagCipher emptyState).1 quietOutcomes (some (request byteText)) "uuid"
    ⟨_, rfl, by simp [request], by decide, by decide +kernel⟩).mpr
    ⟨by intro _ h; cases h; decide +kernel, rfl, rfl⟩

/-- With a nonce of one byte every call of the keystore succeeds, the backup returns
`-1`, and the imported key stays. -/
theorem clone_key_left_by_short_nonce :
    (emptyState.onBackup tagCipher quietOutcomes (some (request "7")) "uuid").1.1 = -1 ∧
      ((emptyState.onBackup tagCipher quietOutcomes (some (request "7")) "uuid").2.keys
        cloneKeyId).isSome = true := by
  decide +kernel

end DataMgr.Clone
