import DataMgr.Metadata.StoreMetaData

/-! # The crypto manager

Passwords are encrypted by keys that never leave the keystore. A key is named by an
alias, a storage level and, above the device level, a user. The manager chooses the
level from the area of a store and generates a missing root key of that level before it
uses it. Each call of the keystore may fail; which of them do is part of the input. A
failed `Encrypt` or `Decrypt` returns the empty vector.
-/

namespace DataMgr.Crypto

open DataMgr.Utils DataMgr.Metadata

abbrev Bytes := List UInt8

/-- The keystore's algorithm: authenticated encryption under a nonce, and the import of
raw key bytes. -/
structure Cipher (Key : Type) where
  encrypt : Key → (nonce aad plain : Bytes) → Bytes
  decrypt : Key → (nonce aad cipherText : Bytes) → Option Bytes
  ofBytes : Bytes → Key
  decrypt_encrypt : ∀ key nonce aad plain,
    decrypt key nonce aad (encrypt key nonce aad plain) = some plain

/-- A cipher for concrete runs: the text is sent with the key in front, which decryption
compares. -/
def tagCipher : Cipher UInt8 where
  encrypt key _ _ plain := key :: plain
  decrypt key _ _
    | [] => none
    | tag :: plain => if tag = key then some plain else none
  ofBytes key := key.foldl (fun sum byte => sum + byte) 0
  decrypt_encrypt _ _ _ _ := if_pos rfl

/-- `HKS_AUTH_STORAGE_LEVEL_DE`, `CE` and `ECE`. -/
inductive StorageLevel where
  | de
  | ce
  | ece
deriving DecidableEq, Repr

structure KeyId where
  keyAlias : Bytes
  level : StorageLevel
  user : Option Int
deriving DecidableEq

abbrev Keystore (Key : Type) := KeyId → Option Key

def Keystore.Extends {Key : Type} (later keys : Keystore Key) : Prop :=
  ∀ id key, keys id = some key → later id = some key

def nonceSize : Nat := 12

abbrev Nonce := { nonce : Bytes // nonce.length = nonceSize }

/-- What the keystore answers during one `Encrypt` or `Decrypt`. A `false` or `none` is a
failed call. -/
structure HksResults (Key : Type) where
  rootKeyParams : Bool := true
  keyExist : Bool := true
  generateParams : Bool := true
  generatedKey : Option Key
  initParamSet : Bool := true
  randomNonce : Option Nonce
  addParams : Bool := true
  buildParamSet : Bool := true
  /-- `HksEncrypt` or `HksDecrypt`, given that the key is there. -/
  operation : Bool := true

structure HksResults.Working {Key : Type} (hks : HksResults Key) : Prop where
  rootKeyParams : hks.rootKeyParams = true
  keyExist : hks.keyExist = true
  generateParams : hks.generateParams = true
  generatedKey : hks.generatedKey.isSome = true
  initParamSet : hks.initParamSet = true
  randomNonce : hks.randomNonce.isSome = true
  addParams : hks.addParams = true
  buildParamSet : hks.buildParamSet = true
  operation : hks.operation = true

inductive ErrCode where
  | success
  | notExist
  | error
deriving DecidableEq, Repr

def el1 : Int := 1

def el2 : Int := 2

def el3 : Int := 3

def el4 : Int := 4

def el5 : Int := 5

def defaultUser : String := "0"

structure CryptoParams where
  area : Int := el1
  userId : String := defaultUser
  keyAlias : Bytes := []
  nonce : Bytes := []

def rootKeyAlias : Bytes := "distributed_db_root_key".toUTF8.data.toList

def vecNonce : Bytes := "Z5s0Bo571KoqwIi6".toUTF8.data.toList

def vecAad : Bytes := "distributeddata".toUTF8.data.toList

def getStorageLevel (area : Int) : StorageLevel :=
  if el4 ≤ area ∧ area ≤ el5 then .ece
  else if el2 ≤ area ∧ area ≤ el3 then .ce
  else .de

/-- The user is a parameter of a key only above the device level. -/
def keyId (keyAlias : Bytes) (level : StorageLevel) (userId : String) : KeyId :=
  ⟨keyAlias, level, if level = .de then none else some (atoi userId)⟩

section

variable {Key : Type}

variable (cipher : Cipher Key) (keys : Keystore Key)

def generateRootKey (hks : HksResults Key) (level : StorageLevel) (userId : String) :
    ErrCode × Keystore Key :=
  if hks.generateParams = false then (.error, keys)
  else
    match hks.generatedKey with
    | none => (.error, keys)
    | some key => (.success, Function.update keys (keyId rootKeyAlias level userId) (some key))

def checkRootKey (hks : HksResults Key) (level : StorageLevel) (userId : String) : ErrCode :=
  if hks.rootKeyParams = false then .error
  else if hks.keyExist = false then .error
  else if (keys (keyId rootKeyAlias level userId)).isSome then .success
  else .notExist

def prepareRootKey (hks : HksResults Key) (level : StorageLevel) (userId : String) :
    ErrCode × Keystore Key :=
  if level = .de then (.success, keys)
  else
    match checkRootKey keys hks level userId with
    | .success => (.success, keys)
    | .notExist =>
        match generateRootKey keys hks level userId with
        | (.success, keys) => (.success, keys)
        | (_, keys) => (.notExist, keys)
    | .error => (.error, keys)

/-- `AddHksParams`: the nonce used, a random one if none is given. -/
def addHksParams (hks : HksResults Key) (nonce : Bytes) : Option Bytes :=
  if nonce = [] then
    match hks.randomNonce with
    | none => none
    | some random => if hks.addParams then some random.val else none
  else if hks.addParams then some nonce else none

variable (params : CryptoParams)

def CryptoParams.alias : Bytes :=
  if params.keyAlias = [] then rootKeyAlias else params.keyAlias

def CryptoParams.keyId : KeyId :=
  Crypto.keyId params.alias (getStorageLevel params.area) params.userId

/-- The part of `Encrypt` and `Decrypt` between `PrepareRootKey` and the operation
itself: the nonce and the key to use. -/
def prepareOperation (hks : HksResults Key) (params : CryptoParams) (nonce : Bytes) :
    Option (Bytes × Key) :=
  if hks.initParamSet = false then none
  else
    match addHksParams hks nonce with
    | none => none
    | some nonce =>
        if hks.buildParamSet = false then none
        else
          match keys params.keyId with
          | none => none
          | some key => if hks.operation then some (nonce, key) else none

/-- The cipher text, the parameters as `Encrypt` leaves them, and the keystore. The alias
that it fills in is read by no caller and left out. -/
def encrypt (hks : HksResults Key) (password : Bytes) (params : CryptoParams) :
    Bytes × CryptoParams × Keystore Key :=
  let params := { params with area := if params.area < 0 then el1 else params.area }
  match prepareRootKey keys hks (getStorageLevel params.area) params.userId with
  | (.success, keys) =>
      match prepareOperation keys hks params params.nonce with
      | none => ([], params, keys)
      | some (nonce, key) =>
          (cipher.encrypt key nonce vecAad password,
            { params with nonce := nonce }, keys)
  | (_, keys) => ([], params, keys)

/-- The nonce that `Decrypt` uses. A text without a nonce of its own was written by an
older version, which used a fixed one. -/
def CryptoParams.decryptNonce : Bytes :=
  if params.nonce = [] then vecNonce else params.nonce

theorem CryptoParams.decryptNonce_ne_nil : params.decryptNonce ≠ [] := by
  unfold CryptoParams.decryptNonce
  split
  · decide +kernel
  · assumption

def decrypt (hks : HksResults Key) (source : Bytes) (params : CryptoParams) :
    Bytes × Keystore Key :=
  match prepareRootKey keys hks (getStorageLevel params.area) params.userId with
  | (.success, keys) =>
      match prepareOperation keys hks params params.decryptNonce with
      | none => ([], keys)
      | some (nonce, key) => ((cipher.decrypt key nonce vecAad source).getD [], keys)
  | (_, keys) => ([], keys)

def random {length : Nat} (value : Option { value : Bytes // value.length = length }) : Bytes :=
  match value with
  | none => []
  | some value => value.val

/-- The parameters under which `UpdateSecretMeta` encrypts. -/
def updateParams (metaData : StoreMetaData) (secretKey : SecretKeyMetaData) : CryptoParams :=
  { area := metaData.area, userId := metaData.user, nonce := secretKey.nonce }

/-- The record after `UpdateSecretMeta`, whether it was handed to the saver, and the
keystore. A record that has a nonce and an area is left alone. -/
def updateSecretMeta (hks : HksResults Key) (password : Bytes) (metaData : StoreMetaData)
    (secretKey : SecretKeyMetaData) (time : Bytes) : (SecretKeyMetaData × Bool) × Keystore Key :=
  if password = [] ∨ (secretKey.nonce ≠ [] ∧ 0 ≤ secretKey.area) then ((secretKey, false), keys)
  else
    let encrypted := encrypt cipher keys hks password (updateParams metaData secretKey)
    if encrypted.1 = [] then ((secretKey, false), encrypted.2.2)
    else
      (({ secretKey with
          sKey := encrypted.1
          nonce := encrypted.2.1.nonce
          area := metaData.area
          time := time }, true), encrypted.2.2)

/-- `ImportKey`. The flags are the outcomes of `BuildImportKeyParams` and of
`HksImportKey`, which replaces a key of the same name. -/
def importKey (built imported : Bool) (key keyAlias : Bytes) : Bool × Keystore Key :=
  if built = false then (false, keys)
  else if imported = false then (false, keys)
  else (true, Function.update keys ⟨keyAlias, .de, none⟩ (some (cipher.ofBytes key)))

def deleteKey (built deleted : Bool) (keyAlias : Bytes) : Bool × Keystore Key :=
  if built = false then (false, keys)
  else if deleted = false then (false, keys)
  else (true, Function.update keys ⟨keyAlias, .de, none⟩ none)

/-- No key is lost, and only a root key may be new. -/
structure Keystore.Keeps {Key : Type} (later keys : Keystore Key) : Prop where
  old : later.Extends keys
  other : ∀ id : KeyId, id.keyAlias ≠ rootKeyAlias → later id = keys id

theorem Keystore.Keeps.refl : keys.Keeps keys :=
  ⟨fun _ _ h => h, fun _ _ => rfl⟩

@[simp] theorem getStorageLevel_normal (area : Int) :
    getStorageLevel (if area < 0 then el1 else area) = getStorageLevel area := by
  by_cases h : area < 0
  · have hnot : ∀ low high : Int, 0 ≤ low → ¬ (low ≤ area ∧ area ≤ high) := by
      omega
    rw [if_pos h, getStorageLevel, getStorageLevel, if_neg (hnot el4 el5 (by decide)),
      if_neg (hnot el2 el3 (by decide))]
    rfl
  · rw [if_neg h]

theorem prepareRootKey_keeps (hks : HksResults Key) (level : StorageLevel) (userId : String) :
    (prepareRootKey keys hks level userId).2.Keeps keys := by
  unfold prepareRootKey
  split
  · exact .refl keys
  cases hcheck : checkRootKey keys hks level userId with
  | success => exact .refl keys
  | error => exact .refl keys
  | notExist =>
      have habsent : keys (keyId rootKeyAlias level userId) = none := by
        unfold checkRootKey at hcheck
        split at hcheck
        · cases hcheck
        split at hcheck
        · cases hcheck
        split at hcheck
        · cases hcheck
        · rename_i hnone
          simpa using hnone
      have hgenerated : (generateRootKey keys hks level userId).2.Keeps keys := by
        unfold generateRootKey
        split
        · exact .refl keys
        split
        · exact .refl keys
        constructor
        · intro id key hkey
          have hne : id ≠ keyId rootKeyAlias level userId := by
            rintro rfl
            rw [habsent] at hkey
            cases hkey
          exact (Function.update_of_ne hne _ _).trans hkey
        · intro id hid
          refine Function.update_of_ne ?_ _ _
          rintro rfl
          exact hid rfl
      dsimp only
      split <;> rename_i heq <;> rw [heq] at hgenerated <;> exact hgenerated

variable {id : KeyId} {hks : HksResults Key} {keys : Keystore Key} {params : CryptoParams}
  {key : Key} {cipher : Cipher Key} {password source plain : Bytes}

theorem prepareRootKey_working (keys : Keystore Key) (hwork : hks.Working) (level : StorageLevel)
    (userId : String) :
    (prepareRootKey keys hks level userId).1 = .success := by
  obtain ⟨key, hkey⟩ := Option.isSome_iff_exists.mp hwork.generatedKey
  have hgenerated : (generateRootKey keys hks level userId).1 = .success := by
    simp [generateRootKey, hwork.generateParams, hkey]
  unfold prepareRootKey
  split
  · rfl
  cases hcheck : checkRootKey keys hks level userId with
  | success => rfl
  | error =>
      unfold checkRootKey at hcheck
      simp only [hwork.rootKeyParams, hwork.keyExist, Bool.true_eq_false, if_false] at hcheck
      split at hcheck <;> cases hcheck
  | notExist =>
      dsimp only
      split
      · rfl
      · rename_i hne heq
        rw [heq] at hgenerated
        exact absurd hgenerated (by simpa using hne)

theorem prepareOperation_eq_some {given nonce : Bytes}
    (h : prepareOperation keys hks params given = some (nonce, key)) :
    keys params.keyId = some key ∧ nonce ≠ [] ∧ (given ≠ [] → nonce = given) := by
  unfold prepareOperation at h
  split at h
  · cases h
  cases hadd : addHksParams hks given with
  | none => simp [hadd] at h
  | some used =>
      rw [hadd] at h
      dsimp only at h
      split at h
      · cases h
      cases hkey : keys params.keyId with
      | none => simp [hkey] at h
      | some found =>
          simp only [hkey, Option.ite_none_right_eq_some, Option.some.injEq,
            Prod.mk.injEq] at h
          obtain ⟨-, rfl, rfl⟩ := h
          refine ⟨rfl, ?_⟩
          unfold addHksParams at hadd
          split at hadd
          · rename_i hempty
            cases hrandom : hks.randomNonce with
            | none => simp [hrandom] at hadd
            | some fresh =>
                simp only [hrandom, Option.ite_none_right_eq_some, Option.some.injEq] at hadd
                refine ⟨?_, fun hgiven => absurd hempty hgiven⟩
                rw [← hadd.2]
                intro hnil
                have := fresh.property
                rw [hnil] at this
                cases this
          · rename_i hgiven
            simp only [Option.ite_none_right_eq_some, Option.some.injEq] at hadd
            rw [← hadd.2]
            exact ⟨hgiven, fun _ => rfl⟩

theorem prepareOperation_working (hwork : hks.Working) {given : Bytes} (hgiven : given ≠ [])
    (hkey : keys params.keyId = some key) :
    prepareOperation keys hks params given = some (given, key) := by
  simp [prepareOperation, addHksParams, hwork.initParamSet, hwork.addParams, hwork.buildParamSet,
    hwork.operation, hgiven, hkey]

@[simp] theorem keyId_normal (params : CryptoParams) :
    ({ params with area := if params.area < 0 then el1 else params.area } : CryptoParams).keyId =
      params.keyId := by
  simp [CryptoParams.keyId, CryptoParams.alias]

theorem encrypt_spec (h : (encrypt cipher keys hks password params).1 ≠ []) :
    ∃ key, (encrypt cipher keys hks password params).2.2 params.keyId = some key ∧
      (encrypt cipher keys hks password params).2.1.nonce ≠ [] ∧
      (params.nonce ≠ [] →
        (encrypt cipher keys hks password params).2.1.nonce = params.nonce) ∧
      (encrypt cipher keys hks password params).1 =
        cipher.encrypt key (encrypt cipher keys hks password params).2.1.nonce vecAad password := by
  unfold encrypt at h ⊢
  dsimp only at h ⊢
  split at h
  · split at h
    · exact absurd rfl h
    · rename_i nonce key hoperation
      obtain ⟨hkey, hnonce, hgiven⟩ := prepareOperation_eq_some hoperation
      rw [keyId_normal] at hkey
      exact ⟨key, hkey, hnonce, hgiven, rfl⟩
  · exact absurd rfl h

theorem encrypt_keeps (cipher : Cipher Key) (keys : Keystore Key) (hks : HksResults Key)
    (password : Bytes) (params : CryptoParams) :
    (encrypt cipher keys hks password params).2.2.Keeps keys := by
  have hprepare := prepareRootKey_keeps keys hks
    (getStorageLevel (if params.area < 0 then el1 else params.area)) params.userId
  unfold encrypt
  dsimp only
  split <;> rename_i heq <;> rw [heq] at hprepare
  · split <;> exact hprepare
  · exact hprepare

theorem decrypt_spec (h : (decrypt cipher keys hks source params).1 ≠ []) :
    ∃ key, (decrypt cipher keys hks source params).2 params.keyId = some key ∧
      cipher.decrypt key params.decryptNonce vecAad source =
        some (decrypt cipher keys hks source params).1 := by
  unfold decrypt at h ⊢
  split at h
  · split at h
    · exact absurd rfl h
    · rename_i nonce key hoperation
      obtain ⟨hkey, -, hgiven⟩ := prepareOperation_eq_some hoperation
      obtain rfl := hgiven params.decryptNonce_ne_nil
      refine ⟨key, hkey, ?_⟩
      cases hplain : cipher.decrypt key params.decryptNonce vecAad source with
      | none => simp [hplain] at h
      | some plain => simp
  · exact absurd rfl h

theorem decrypt_keeps (cipher : Cipher Key) (keys : Keystore Key) (hks : HksResults Key)
    (source : Bytes) (params : CryptoParams) :
    (decrypt cipher keys hks source params).2.Keeps keys := by
  have hprepare := prepareRootKey_keeps keys hks (getStorageLevel params.area) params.userId
  unfold decrypt
  split <;> rename_i heq <;> rw [heq] at hprepare
  · split <;> exact hprepare
  · exact hprepare

theorem decrypt_working (cipher : Cipher Key) (hwork : hks.Working)
    (hkey : keys params.keyId = some key)
    (hplain : cipher.decrypt key params.decryptNonce vecAad source = some plain) :
    (decrypt cipher keys hks source params).1 = plain := by
  have hkeeps := prepareRootKey_keeps keys hks (getStorageLevel params.area) params.userId
  have hsuccess := prepareRootKey_working keys hwork (getStorageLevel params.area) params.userId
  unfold decrypt
  split
  · rename_i later heq
    rw [heq] at hkeeps
    rw [prepareOperation_working hwork params.decryptNonce_ne_nil (hkeeps.old _ _ hkey)]
    simp [hplain]
  · rename_i hne heq
    rw [heq] at hsuccess
    exact absurd hsuccess (by simpa using hne)

def Decrypts (cipher : Cipher Key) (keys : Keystore Key) (params : CryptoParams)
    (source plain : Bytes) : Prop :=
  ∃ key, keys params.keyId = some key ∧
    cipher.decrypt key params.decryptNonce vecAad source = some plain

theorem Decrypts.mono {later : Keystore Key} (h : Decrypts cipher keys params source plain)
    (hlater : later.Extends keys) : Decrypts cipher later params source plain := by
  obtain ⟨key, hkey, hplain⟩ := h
  exact ⟨key, hlater _ _ hkey, hplain⟩

theorem Decrypts.decrypt_eq (h : Decrypts cipher keys params source plain) (hwork : hks.Working) :
    (decrypt cipher keys hks source params).1 = plain := by
  obtain ⟨key, hkey, hplain⟩ := h
  exact decrypt_working cipher hwork hkey hplain

theorem encrypt_decrypts (h : (encrypt cipher keys hks password params).1 ≠ []) :
    Decrypts cipher (encrypt cipher keys hks password params).2.2
      { params with nonce := (encrypt cipher keys hks password params).2.1.nonce }
      (encrypt cipher keys hks password params).1 password := by
  obtain ⟨key, hkey, hnonce, -, hcipher⟩ := encrypt_spec h
  refine ⟨key, hkey, ?_⟩
  rw [CryptoParams.decryptNonce, if_neg hnonce]
  conv_lhs => rw [hcipher]
  exact cipher.decrypt_encrypt ..

/-- `UpdateSecretMeta` reaches the saver with a record that lacks a nonce or an area, if the
password can be encrypted. -/
theorem updateSecretMeta_saves_iff (cipher : Cipher Key) (keys : Keystore Key)
    (hks : HksResults Key) (password : Bytes) (metaData : StoreMetaData)
    (secretKey : SecretKeyMetaData) (time : Bytes) :
    (updateSecretMeta cipher keys hks password metaData secretKey time).1.2 = true ↔
      ¬ (password = [] ∨ (secretKey.nonce ≠ [] ∧ 0 ≤ secretKey.area)) ∧
        (encrypt cipher keys hks password (updateParams metaData secretKey)).1 ≠ [] := by
  unfold updateSecretMeta
  split
  · rename_i hcond
    simp [hcond]
  rename_i hcond
  dsimp only
  split
  · rename_i hempty
    simp [hempty]
  · rename_i hne
    simp only [true_iff]
    exact ⟨hcond, hne⟩

theorem updateSecretMeta_keeps (cipher : Cipher Key) (keys : Keystore Key) (hks : HksResults Key)
    (password : Bytes) (metaData : StoreMetaData) (secretKey : SecretKeyMetaData) (time : Bytes) :
    (updateSecretMeta cipher keys hks password metaData secretKey time).2.Keeps keys := by
  have hencrypt := encrypt_keeps cipher keys hks password (updateParams metaData secretKey)
  unfold updateSecretMeta
  split
  · exact .refl keys
  · dsimp only
    split <;> exact hencrypt

end

end DataMgr.Crypto
