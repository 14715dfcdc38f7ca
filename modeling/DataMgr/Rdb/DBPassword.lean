import DataMgr.Crypto.CryptoManager

/-! # Database passwords

The password of an encrypted database is stored encrypted in the secret key metadata.
`GetDBPassword` decrypts it, or makes one up when it may, and lets the crypto manager
bring the record up to date. A new password is persisted by that update only, which is
meant for records of older versions and may do nothing at all.
-/

namespace DataMgr.Rdb

open DataMgr.Metadata DataMgr.Crypto

variable {Key : Type}

def keySize : Nat := 32

structure PasswordState (Key : Type) where
  keys : Keystore Key
  /-- The local metadata, by key. -/
  secrets : String → Option SecretKeyMetaData

structure PasswordResults (Key : Type) where
  randomKey : Option { value : Bytes // value.length = keySize }
  encryptResults : HksResults Key
  decryptResults : HksResults Key
  updateResults : HksResults Key
  saved : Bool
  time : Bytes

structure PasswordResults.Working (r : PasswordResults Key) : Prop where
  randomKey : r.randomKey.isSome = true
  encryptResults : r.encryptResults.Working
  decryptResults : r.decryptResults.Working
  updateResults : r.updateResults.Working
  saved : r.saved = true

variable (s : PasswordState Key) (cipher : Cipher Key) (keys : Keystore Key)
  (r : PasswordResults Key) (data : StoreMetaData) (secretKey : SecretKeyMetaData)

/-- The record loaded; a failed load leaves the default. -/
def PasswordState.stored : SecretKeyMetaData :=
  (s.secrets data.getSecretKey).getD {}

/-- The record with a new encrypted password if it has none. -/
def generateSecretKey : Option (SecretKeyMetaData × Keystore Key) :=
  if secretKey.sKey ≠ [] then some (secretKey, keys)
  else
    let key := random r.randomKey
    if key = [] then none
    else
      let encrypted := encrypt cipher keys r.encryptResults key
        { area := secretKey.area, userId := data.user }
      some ({ secretKey with sKey := encrypted.1, nonce := encrypted.2.1.nonce }, encrypted.2.2)

def decryptSecretKey : Bytes × Keystore Key :=
  decrypt cipher keys r.decryptResults secretKey.sKey
    { area := secretKey.area, userId := data.user, nonce := secretKey.nonce }

/-- `UpdateSecretMeta` with a saver of its own, flushed when it ends. A failed save is
only logged. -/
def PasswordState.updateAndSave (password : Bytes) (data : StoreMetaData)
    (secretKey : SecretKeyMetaData) : PasswordState Key :=
  let updated := updateSecretMeta cipher keys r.updateResults password data secretKey r.time
  { keys := updated.2
    secrets := if updated.1.2 && r.saved then
        Function.update s.secrets data.getSecretKey (some updated.1.1)
      else s.secrets }

def PasswordState.getDBPassword (createRequired : Bool) : Bytes × PasswordState Key :=
  if (s.stored data).sKey = [] ∧ createRequired = false then ([], s)
  else
    match generateSecretKey cipher s.keys r data (s.stored data) with
    | none => ([], s)
    | some (secretKey, keys) =>
        if secretKey.sKey = [] then ([], { s with keys := keys })
        else
          let decrypted := decryptSecretKey cipher keys r data secretKey
          if decrypted.1 = [] then ([], { s with keys := decrypted.2 })
          else
            (decrypted.1, s.updateAndSave cipher decrypted.2 r decrypted.1 data secretKey)

def secretParams : CryptoParams :=
  { area := secretKey.area, userId := data.user, nonce := secretKey.nonce }

/-- The record holds the password: it decrypts to it with a key of the keystore. -/
def Holds (password : Bytes) : Prop :=
  secretKey.sKey ≠ [] ∧ Decrypts cipher keys (secretParams data secretKey) secretKey.sKey password

/-- Every later call with a working keystore, which may have got more keys meanwhile,
returns the password. -/
def Recoverable (s : PasswordState Key) (data : StoreMetaData) (password : Bytes) : Prop :=
  ∀ (later : Keystore Key) (r : PasswordResults Key) (createRequired : Bool),
    later.Extends s.keys → r.Working →
      ({ s with keys := later }.getDBPassword cipher r data createRequired).1 = password

variable {cipher : Cipher Key} {keys : Keystore Key} {data : StoreMetaData}
  {secretKey : SecretKeyMetaData} {password : Bytes} {s : PasswordState Key}
  {r : PasswordResults Key}

theorem Holds.mono {later : Keystore Key} (h : Holds cipher keys data secretKey password)
    (hlater : later.Extends keys) : Holds cipher later data secretKey password :=
  ⟨h.1, h.2.mono hlater⟩

open PasswordState

/-- A call is decided by the stored record whenever that has a key. -/
theorem recoverable_of_holds (h : Holds cipher s.keys data (s.stored data) password) :
    Recoverable cipher s data password := by
  intro later r createRequired hlater hwork
  obtain ⟨hne, hplain⟩ := h
  have hstored : ({ s with keys := later } : PasswordState Key).stored data = s.stored data := rfl
  have hdecrypt : (decryptSecretKey cipher later r data (s.stored data)).1 = password :=
    (hplain.mono hlater).decrypt_eq hwork.decryptResults
  unfold getDBPassword
  rw [hstored, if_neg (fun hempty => hne hempty.1), generateSecretKey, if_pos hne]
  dsimp only
  rw [if_neg hne, hdecrypt]
  by_cases hpassword : password = []
  · rw [if_pos hpassword, hpassword]
  · rw [if_neg hpassword]

theorem updateSecretMeta_holds {hks : HksResults Key} {time : Bytes}
    (h : (updateSecretMeta cipher keys hks password data secretKey time).1.2 = true) :
    Holds cipher (updateSecretMeta cipher keys hks password data secretKey time).2 data
      (updateSecretMeta cipher keys hks password data secretKey time).1.1 password := by
  obtain ⟨hcond, hne⟩ := (updateSecretMeta_saves_iff ..).mp h
  rw [updateSecretMeta, if_neg hcond]
  dsimp only
  rw [if_neg hne]
  exact ⟨hne, encrypt_decrypts hne⟩

theorem updateAndSave_holds (h : Holds cipher keys data (s.stored data) password ∨
      ((updateSecretMeta cipher keys r.updateResults password data secretKey r.time).1.2 &&
        r.saved) = true) :
    Holds cipher (s.updateAndSave cipher keys r password data secretKey).keys data
      ((s.updateAndSave cipher keys r password data secretKey).stored data) password := by
  by_cases hadded :
      ((updateSecretMeta cipher keys r.updateResults password data secretKey r.time).1.2 &&
        r.saved) = true
  · have hstored : (s.updateAndSave cipher keys r password data secretKey).stored data =
        (updateSecretMeta cipher keys r.updateResults password data secretKey r.time).1.1 := by
      simp [updateAndSave, stored, hadded]
    rw [hstored]
    rw [Bool.and_eq_true] at hadded
    exact updateSecretMeta_holds hadded.1
  · have hstored : (s.updateAndSave cipher keys r password data secretKey).stored data =
        s.stored data := by
      simp only [updateAndSave, stored, if_neg hadded]
    rw [hstored]
    exact (h.resolve_right hadded).mono (updateSecretMeta_keeps _ _ _ _ _ _ _).old

theorem getDBPassword_eq {createRequired : Bool}
    (h : (s.getDBPassword cipher r data createRequired).1 ≠ []) :
    ∃ secretKey keys,
      generateSecretKey cipher s.keys r data (s.stored data) = some (secretKey, keys) ∧
      secretKey.sKey ≠ [] ∧ (decryptSecretKey cipher keys r data secretKey).1 ≠ [] ∧
      s.getDBPassword cipher r data createRequired =
        ((decryptSecretKey cipher keys r data secretKey).1,
          s.updateAndSave cipher (decryptSecretKey cipher keys r data secretKey).2 r
            (decryptSecretKey cipher keys r data secretKey).1 data secretKey) := by
  unfold getDBPassword at h ⊢
  split at h
  · exact absurd rfl h
  rename_i hcond
  cases hgenerate : generateSecretKey cipher s.keys r data (s.stored data) with
  | none => simp [hgenerate] at h
  | some generated =>
      obtain ⟨secretKey, keys⟩ := generated
      simp only [hgenerate] at h
      split at h
      · exact absurd rfl h
      rename_i hne
      split at h
      · exact absurd rfl h
      rename_i hpassword
      refine ⟨secretKey, keys, rfl, hne, hpassword, ?_⟩
      rw [if_neg hcond]
      dsimp only
      rw [if_neg hne, if_neg hpassword]

/-- A new password is persisted: the record had no area, so the update is not skipped, and
the second encryption and the save succeed. -/
def Persisted (cipher : Cipher Key) (s : PasswordState Key) (r : PasswordResults Key)
    (data : StoreMetaData) : Prop :=
  (s.stored data).area < 0 ∧ r.saved = true ∧
    ∃ secretKey keys,
      generateSecretKey cipher s.keys r data (s.stored data) = some (secretKey, keys) ∧
      (encrypt cipher (decryptSecretKey cipher keys r data secretKey).2 r.updateResults
        (decryptSecretKey cipher keys r data secretKey).1 (updateParams data secretKey)).1 ≠ []

def workingResults (key : Key) : HksResults Key where
  generatedKey := some key
  randomNonce := some ⟨List.replicate nonceSize 0, List.length_replicate⟩

theorem workingResults_working (key : Key) : (workingResults key).Working :=
  ⟨rfl, rfl, rfl, rfl, rfl, rfl, rfl, rfl, rfl⟩

theorem not_recoverable_of_empty (key : Key) (hempty : (s.stored data).sKey = [])
    (hpassword : password ≠ []) : ¬ Recoverable cipher s data password := by
  intro h
  let r : PasswordResults Key :=
    { randomKey := some ⟨List.replicate keySize 0, List.length_replicate⟩
      encryptResults := workingResults key
      decryptResults := workingResults key
      updateResults := workingResults key
      saved := true
      time := [] }
  have hwork : r.Working := ⟨rfl, workingResults_working key, workingResults_working key,
    workingResults_working key, rfl⟩
  have hreturn := h s.keys r false (fun _ _ hkey => hkey) hwork
  rw [getDBPassword, if_pos ⟨hempty, rfl⟩] at hreturn
  exact hpassword hreturn.symm

theorem generateSecretKey_new {later : Keystore Key} {generated : SecretKeyMetaData}
    (hempty : secretKey.sKey = [])
    (h : generateSecretKey cipher keys r data secretKey = some (generated, later))
    (hne : generated.sKey ≠ []) : generated.nonce ≠ [] ∧ generated.area = secretKey.area := by
  rw [generateSecretKey, if_neg (not_not_intro hempty)] at h
  dsimp only at h
  split at h
  · cases h
  obtain ⟨rfl, -⟩ := h
  obtain ⟨-, -, hnonce, -⟩ := encrypt_spec hne
  exact ⟨hnonce, rfl⟩

/-- A password handed out is what every later call returns, exactly if it was stored
before or the update persisted it. -/
theorem password_recoverable_iff (cipher : Cipher Key) (s : PasswordState Key)
    (r : PasswordResults Key) (data : StoreMetaData) (createRequired : Bool)
    (h : (s.getDBPassword cipher r data createRequired).1 ≠ []) :
    Recoverable cipher (s.getDBPassword cipher r data createRequired).2 data
        (s.getDBPassword cipher r data createRequired).1 ↔
      (s.stored data).sKey ≠ [] ∨ Persisted cipher s r data := by
  obtain ⟨secretKey, keys, hgenerate, hsecret, hpassword, heq⟩ := getDBPassword_eq h
  obtain ⟨key, hkey, hplain⟩ := decrypt_spec hpassword
  rw [heq]
  by_cases hstored : (s.stored data).sKey = []
  · obtain ⟨hnonce, harea⟩ := generateSecretKey_new hstored hgenerate hsecret
    have hsaves : (updateSecretMeta cipher (decryptSecretKey cipher keys r data secretKey).2
        r.updateResults (decryptSecretKey cipher keys r data secretKey).1 data secretKey
          r.time).1.2 = true ∧ r.saved = true ↔ Persisted cipher s r data := by
      rw [updateSecretMeta_saves_iff]
      constructor
      · rintro ⟨⟨hcond, hne⟩, hsaved⟩
        have hneg : secretKey.area < 0 := by
          by_contra hge
          exact hcond (.inr ⟨hnonce, by omega⟩)
        exact ⟨harea ▸ hneg, hsaved, secretKey, keys, hgenerate, hne⟩
      · rintro ⟨hneg, hsaved, secretKey', keys', hgenerate', hne⟩
        rw [hgenerate] at hgenerate'
        cases hgenerate'
        refine ⟨⟨?_, hne⟩, hsaved⟩
        rintro (hnil | ⟨-, hge⟩)
        · exact hpassword hnil
        · omega
    simp only [hstored, ne_eq, not_true_eq_false, false_or, ← hsaves]
    constructor
    · intro hrecover
      by_contra hnot
      refine not_recoverable_of_empty key ?_ hpassword hrecover
      rw [← Bool.and_eq_true] at hnot
      simp only [updateAndSave, stored, if_neg hnot]
      exact hstored
    · intro hsaved
      rw [← Bool.and_eq_true] at hsaved
      exact recoverable_of_holds (updateAndSave_holds (.inr hsaved))
  · rw [generateSecretKey, if_pos hstored] at hgenerate
    cases hgenerate
    simp only [ne_eq, hstored, not_false_eq_true, true_or, iff_true]
    exact recoverable_of_holds (updateAndSave_holds (.inl ⟨hstored, key, hkey, hplain⟩))

/-- The keystore of the runs below has the root key of the device level, and every call
of it succeeds. -/
def deviceKeys : Keystore UInt8 :=
  fun id => if id = keyId rootKeyAlias .de defaultUser then some 7 else none

def allWorking (saved : Bool) : PasswordResults UInt8 where
  randomKey := some ⟨List.replicate keySize 5, List.length_replicate⟩
  encryptResults := workingResults 7
  decryptResults := workingResults 7
  updateResults := workingResults 7
  saved := saved
  time := [1]

def encryptedStore : StoreMetaData :=
  { bundleName := "com.notes", storeId := "notes", user := "100", dataDir := "/data", area := 1
    isEncrypt := true }

theorem password_recoverable_when_saved :
    Recoverable tagCipher
      ((⟨deviceKeys, fun _ => none⟩ : PasswordState UInt8).getDBPassword tagCipher
        (allWorking true) encryptedStore true).2
      encryptedStore
      ((⟨deviceKeys, fun _ => none⟩ : PasswordState UInt8).getDBPassword tagCipher
        (allWorking true) encryptedStore true).1 :=
  (password_recoverable_iff tagCipher ⟨deviceKeys, fun _ => none⟩ (allWorking true) encryptedStore
    true (by decide +kernel)).mpr (.inr ⟨by decide, rfl, _, _, rfl, by decide +kernel⟩)

/-- A record without a key but with an area, as a failed restore leaves it. -/
def emptyRecord : String → Option SecretKeyMetaData :=
  fun key => if key = encryptedStore.getSecretKey then some { area := 1 } else none

/-- A new password is handed out and the next call finds none: first because its save
fails, then, with every step succeeding, because the record already has an area. -/
theorem created_password_lost :
    ((⟨deviceKeys, fun _ => none⟩ : PasswordState UInt8).getDBPassword tagCipher
        (allWorking false) encryptedStore true).1 = List.replicate keySize 5 ∧
      (((⟨deviceKeys, fun _ => none⟩ : PasswordState UInt8).getDBPassword tagCipher
        (allWorking false) encryptedStore true).2.getDBPassword tagCipher (allWorking true)
          encryptedStore false).1 = [] ∧
      ((⟨deviceKeys, emptyRecord⟩ : PasswordState UInt8).getDBPassword tagCipher
        (allWorking true) encryptedStore true).1 = List.replicate keySize 5 ∧
      (((⟨deviceKeys, emptyRecord⟩ : PasswordState UInt8).getDBPassword tagCipher
        (allWorking true) encryptedStore true).2.getDBPassword tagCipher (allWorking true)
          encryptedStore false).1 = [] := by
  decide +kernel

end DataMgr.Rdb
