import DataMgr.Clone.CloneManager

/-! # Restored secret keys

A key travels as the text of one keystore encrypted by the clone key, and is encrypted
again by the root key of the other. The clone key, the nonce of the request and the
coding of the text are the same on both sides, so the raw key that a restore finds is the
password that the backup read. A restore whose second encryption fails still saves its
record.
-/

namespace DataMgr.Clone

open DataMgr.Utils DataMgr.Metadata DataMgr.Crypto

variable {Key : Type}

def restoreEncryption (cipher : Cipher Key) (keys : Keystore Key) (r : RestoreResults Key)
    (item : BackupItem) (userId : String) (iv : Bytes) : Bytes × CryptoParams × Keystore Key :=
  encrypt cipher (rawKey cipher keys r item iv).2 r.encryptResults (rawKey cipher keys r item iv).1
    (restoreParams item userId)

def recordParams (item : BackupItem) (userId : String) (record : SecretKeyMetaData) :
    CryptoParams :=
  { area := record.area, userId := (restoredMeta item userId).user, nonce := record.nonce }

/-- The record saved for an item decrypts to the item's raw key, and none is saved when
one of the two steps fails. -/
def CloneState.RestoreSound (s : CloneState Key) (cipher : Cipher Key) (r : RestoreResults Key)
    (item : BackupItem) (userId : String) (iv : Bytes) : Prop :=
  (∀ record, (s.restoreSecretKey cipher r item userId iv).1 = some record →
    Decrypts cipher (s.restoreSecretKey cipher r item userId iv).2.keys
      (recordParams item userId record) record.sKey (rawKey cipher s.keys r item iv).1) ∧
  ((rawKey cipher s.keys r item iv).1 = [] ∨
      (restoreEncryption cipher s.keys r item userId iv).1 = [] →
    (s.restoreSecretKey cipher r item userId iv).1 = none)

variable {s : CloneState Key} {cipher : Cipher Key} {r : RestoreResults Key} {item : BackupItem}
  {iv : Bytes} {keys : Keystore Key} {secrets : String → Option SecretKeyMetaData}

theorem restoreSecretKey_of_raw_empty (h : (rawKey cipher s.keys r item iv).1 = [])
    (userId : String) :
    (s.restoreSecretKey cipher r item userId iv).1 = none := by
  rw [CloneState.restoreSecretKey]
  rw [if_pos h]

theorem restoreSecretKey_of_unsaved (hsaved : r.saved = false) (s : CloneState Key)
    (cipher : Cipher Key) (item : BackupItem) (userId : String) (iv : Bytes) :
    (s.restoreSecretKey cipher r item userId iv).1 = none := by
  rw [CloneState.restoreSecretKey]
  split
  · rfl
  · rw [if_neg (by simp [hsaved])]

theorem restoreSecretKey_of_saved (hraw : (rawKey cipher s.keys r item iv).1 ≠ [])
    (hsaved : r.saved = true) (userId : String) :
    (s.restoreSecretKey cipher r item userId iv).1 =
        some
          { sKey := (restoreEncryption cipher s.keys r item userId iv).1
            storeType := item.storeType
            nonce := (restoreEncryption cipher s.keys r item userId iv).2.1.nonce
            area := item.area
            time := item.time } ∧
      (s.restoreSecretKey cipher r item userId iv).2.keys =
        (restoreEncryption cipher s.keys r item userId iv).2.2 := by
  rw [CloneState.restoreSecretKey]
  rw [if_neg hraw, if_pos hsaved]
  exact ⟨rfl, rfl⟩

theorem restored_decrypts {userId : String} {record : SecretKeyMetaData}
    (hrecord : (s.restoreSecretKey cipher r item userId iv).1 = some record)
    (hencrypt : (restoreEncryption cipher s.keys r item userId iv).1 ≠ []) :
    Decrypts cipher (s.restoreSecretKey cipher r item userId iv).2.keys
      (recordParams item userId record) record.sKey (rawKey cipher s.keys r item iv).1 := by
  have hraw : (rawKey cipher s.keys r item iv).1 ≠ [] := by
    intro hempty
    rw [restoreSecretKey_of_raw_empty hempty] at hrecord
    cases hrecord
  have hsaved : r.saved = true := by
    by_contra hunsaved
    rw [restoreSecretKey_of_unsaved (by simpa using hunsaved)] at hrecord
    cases hrecord
  obtain ⟨hnew, hkeys⟩ := restoreSecretKey_of_saved hraw hsaved userId
  rw [hnew] at hrecord
  cases hrecord
  rw [hkeys]
  exact encrypt_decrypts hencrypt

theorem restoreSound_iff (s : CloneState Key) (cipher : Cipher Key) (r : RestoreResults Key)
    (item : BackupItem) (userId : String) (iv : Bytes) :
    s.RestoreSound cipher r item userId iv ↔
      (rawKey cipher s.keys r item iv).1 = [] ∨
        (restoreEncryption cipher s.keys r item userId iv).1 ≠ [] ∨ r.saved = false := by
  constructor
  · rintro ⟨-, hnone⟩
    by_contra hnot
    simp only [not_or, not_not, ne_eq, Bool.not_eq_false] at hnot
    obtain ⟨hraw, hencrypt, hsaved⟩ := hnot
    have hempty := hnone (.inr hencrypt)
    rw [(restoreSecretKey_of_saved hraw hsaved userId).1] at hempty
    cases hempty
  · rintro (hraw | hencrypt | hsaved)
    · have hnone := restoreSecretKey_of_raw_empty hraw userId
      constructor
      · intro record hrecord
        rw [hnone] at hrecord
        cases hrecord
      · intro _
        exact hnone
    · constructor
      · intro record hrecord
        exact restored_decrypts hrecord hencrypt
      · rintro (hraw | hempty)
        · exact restoreSecretKey_of_raw_empty hraw userId
        · exact absurd hempty hencrypt
    · have hnone := restoreSecretKey_of_unsaved hsaved s cipher item userId iv
      constructor
      · intro record hrecord
        rw [hnone] at hrecord
        cases hrecord
      · intro _
        exact hnone

theorem reEncryptKey_eq {r : ReEncryptResults Key} {metaData : StoreMetaData}
    (h : (reEncryptKey cipher keys r secrets metaData iv).1 ≠ []) :
    ∃ secretKeyMeta password later, secrets metaData.getSecretKey = some secretKeyMeta ∧
      decrypt cipher keys r.decryptResults secretKeyMeta.sKey (storeParams metaData secretKeyMeta) =
        (password, later) ∧
      password ≠ [] ∧
      reEncryptKey cipher keys r secrets metaData iv =
        ((encrypt cipher later r.encryptResults password (cloneParams iv)).1, secretKeyMeta,
          (encrypt cipher later r.encryptResults password (cloneParams iv)).2.2) := by
  unfold reEncryptKey at h ⊢
  cases hsecret : secrets metaData.getSecretKey with
  | none => simp [hsecret] at h
  | some secretKeyMeta =>
      simp only [hsecret] at h ⊢
      split at h
      · exact absurd rfl h
      rename_i hpassword
      exact ⟨secretKeyMeta, (decrypt cipher keys r.decryptResults secretKeyMeta.sKey
        (storeParams metaData secretKeyMeta)).1, (decrypt cipher keys r.decryptResults
          secretKeyMeta.sKey (storeParams metaData secretKeyMeta)).2, rfl, rfl, hpassword,
        if_neg hpassword⟩

/-- The re-encrypted key decrypts to the password that the store's record decrypts to, in
every keystore with the same clone key. -/
theorem reEncryptKey_decrypts {r : ReEncryptResults Key} {metaData : StoreMetaData} (hiv : iv ≠ [])
    (h : (reEncryptKey cipher keys r secrets metaData iv).1 ≠ []) :
    ∃ secretKeyMeta password, secrets metaData.getSecretKey = some secretKeyMeta ∧
      password ≠ [] ∧
      Decrypts cipher (reEncryptKey cipher keys r secrets metaData iv).2.2
        (storeParams metaData secretKeyMeta) secretKeyMeta.sKey password ∧
      ∀ target : Keystore Key, target cloneKeyId = keys cloneKeyId →
        Decrypts cipher target (cloneParams iv) (reEncryptKey cipher keys r secrets metaData iv).1
          password := by
  obtain ⟨secretKeyMeta, password, later, hsecret, hdecrypt, hpassword, heq⟩ := reEncryptKey_eq h
  rw [heq] at h ⊢
  refine ⟨secretKeyMeta, password, hsecret, hpassword, ?_, ?_⟩
  · have hfound : (decrypt cipher keys r.decryptResults secretKeyMeta.sKey
        (storeParams metaData secretKeyMeta)).1 ≠ [] := by
      rw [hdecrypt]
      exact hpassword
    have hplain : Decrypts cipher later (storeParams metaData secretKeyMeta) secretKeyMeta.sKey
        password := by
      have hspec := decrypt_spec hfound
      rwa [hdecrypt] at hspec
    exact hplain.mono (encrypt_keeps cipher later _ _ _).old
  · intro target htarget
    obtain ⟨key, hkey, -, hnonce, hcipher⟩ := encrypt_spec h
    have hother : later cloneKeyId = keys cloneKeyId := by
      have hkept := (decrypt_keeps cipher keys r.decryptResults secretKeyMeta.sKey
        (storeParams metaData secretKeyMeta)).other _ cloneKeyId_ne_root
      rwa [hdecrypt] at hkept
    rw [cloneParams_keyId, (encrypt_keeps _ _ _ _ _).other _ cloneKeyId_ne_root, hother,
      ← htarget] at hkey
    refine ⟨key, by rw [cloneParams_keyId, hkey], ?_⟩
    have hused : (cloneParams iv).decryptNonce = iv := if_neg hiv
    rw [hused]
    conv_lhs => rw [hcipher, hnonce hiv]
    exact cipher.decrypt_encrypt ..

theorem backupStore_decrypts {results : BackupResults Key} {userId : String} {bundleName : String}
    {storeMeta : StoreMetaData} (hiv : iv ≠ [])
    (h : (backupStore cipher keys results secrets userId iv bundleName storeMeta).1 = some item) :
    ∃ secretKeyMeta password, secrets storeMeta.getSecretKey = some secretKeyMeta ∧
      password ≠ [] ∧
      Decrypts cipher (backupStore cipher keys results secrets userId iv bundleName storeMeta).2
        (storeParams storeMeta secretKeyMeta) secretKeyMeta.sKey password ∧
      ∀ target : Keystore Key, target cloneKeyId = keys cloneKeyId →
        Decrypts cipher target (cloneParams iv) (Base64.decode item.sKey) password := by
  unfold backupStore at h ⊢
  split at h
  · cases h
  rename_i hencrypted
  dsimp only at h
  split at h
  · cases h
  rename_i hne
  cases h
  rw [if_neg hencrypted]
  rw [if_neg hne, Base64.decode_encode]
  exact reEncryptKey_decrypts hiv hne

/-- The record saved for each item is usable, and none is saved after a failed step,
exactly if no restore saves after a failed encryption. A key that is backed up and
restored under the same clone key is the same password. -/
theorem clone_keys_usable_iff (cipher : Cipher Key) (s : CloneState Key) (r : RestoreResults Key)
    (item : BackupItem) (userId : String) (iv : Bytes) :
    (s.RestoreSound cipher r item userId iv ↔
      (rawKey cipher s.keys r item iv).1 = [] ∨
        (restoreEncryption cipher s.keys r item userId iv).1 ≠ [] ∨ r.saved = false) ∧
    ∀ (source : CloneState Key) (results : BackupResults Key) (user bundleName : String)
      (storeMeta : StoreMetaData), iv.length = aes256NonceSize →
      (backupStore cipher source.keys results source.secrets user iv bundleName storeMeta).1 =
        some item →
      s.keys cloneKeyId = source.keys cloneKeyId → r.decryptResults.Working →
      ∃ secretKeyMeta password, source.secrets storeMeta.getSecretKey = some secretKeyMeta ∧
        Decrypts cipher
          (backupStore cipher source.keys results source.secrets user iv bundleName storeMeta).2
          (storeParams storeMeta secretKeyMeta) secretKeyMeta.sKey password ∧
        (rawKey cipher s.keys r item iv).1 = password ∧
        ∀ record, (s.restoreSecretKey cipher r item userId iv).1 = some record →
          (restoreEncryption cipher s.keys r item userId iv).1 ≠ [] →
          Decrypts cipher (s.restoreSecretKey cipher r item userId iv).2.keys
            (recordParams item userId record) record.sKey password := by
  refine ⟨restoreSound_iff s cipher r item userId iv, ?_⟩
  intro source results user bundleName storeMeta hiv hitem hclone hwork
  have hne : iv ≠ [] := by
    rintro rfl
    cases hiv
  obtain ⟨secretKeyMeta, password, hsecret, -, hsource, htarget⟩ := backupStore_decrypts hne hitem
  have hraw : (rawKey cipher s.keys r item iv).1 = password :=
    (htarget s.keys hclone).decrypt_eq hwork
  refine ⟨secretKeyMeta, password, hsecret, hsource, hraw, ?_⟩
  intro record hrecord hencrypt
  rw [← hraw]
  exact restored_decrypts hrecord hencrypt

/-- A device with the given root key and the clone key, and a record of the password. -/
def deviceWith (rootKey : UInt8) : CloneState UInt8 where
  keys id := if id.keyAlias = rootKeyAlias then some rootKey else some 9
  secrets _ := some { sKey := [rootKey, 1, 2], nonce := [1], area := 1, time := [1] }
  storeMetas := noStores

def workingHks : HksResults UInt8 where
  generatedKey := some 5
  randomNonce := some ⟨List.replicate nonceSize 4, List.length_replicate⟩

def requestNonce : Bytes := List.replicate aes256NonceSize 3

def mailStore : StoreMetaData :=
  { bundleName := "com.mail", storeId := "mail", user := "100", isEncrypt := true, area := 1 }

def mailBackup : BackupResults UInt8 := ⟨fun _ => true, fun _ _ => ⟨workingHks, workingHks⟩⟩

/-- The item of the store, backed up on a device with root key seven. -/
def mailItem : BackupItem :=
  { bundleName := "com.mail", dbName := "mail", user := "100", sKey := Base64.encode [9, 1, 2]
    instanceId := 0, storeType := 0, area := 1, time := [1] }

theorem clone_keys_usable_second_device :
    (deviceWith 8).RestoreSound tagCipher ⟨workingHks, workingHks, true⟩ mailItem "100"
        requestNonce ∧
      ∃ secretKeyMeta password, (deviceWith 7).secrets mailStore.getSecretKey = some secretKeyMeta ∧
        Decrypts tagCipher (deviceWith 7).keys (storeParams mailStore secretKeyMeta)
          secretKeyMeta.sKey password ∧
        (rawKey tagCipher (deviceWith 8).keys ⟨workingHks, workingHks, true⟩ mailItem
          requestNonce).1 = password := by
  have h := clone_keys_usable_iff tagCipher (deviceWith 8) ⟨workingHks, workingHks, true⟩ mailItem
    "100" requestNonce
  obtain ⟨secretKeyMeta, password, hsecret, hsource, hraw, -⟩ :=
    h.2 (deviceWith 7) mailBackup "100" "com.mail" mailStore (by decide)
      (by decide +kernel) (by decide +kernel) ⟨rfl, rfl, rfl, rfl, rfl, rfl, rfl, rfl, rfl⟩
  exact ⟨h.1.mpr (.inr (.inl (by decide +kernel))), secretKeyMeta, password, hsecret, hsource,
    hraw⟩

/-- The second encryption fails, and the restore saves a record without a key. -/
theorem restore_saves_empty_key :
    (rawKey tagCipher (deviceWith 8).keys
        ⟨workingHks, { workingHks with operation := false }, true⟩ mailItem requestNonce).1 =
      [1, 2] ∧
      ((deviceWith 8).restoreSecretKey tagCipher
        ⟨workingHks, { workingHks with operation := false }, true⟩ mailItem "100"
          requestNonce).1 = some { sKey := [], nonce := [], area := 1, time := [1] } := by
  decide +kernel

end DataMgr.Clone
