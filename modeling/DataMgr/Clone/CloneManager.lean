import DataMgr.Crypto.CryptoManager
import DataMgr.Utils.Base64

/-! # Cloning a device

The secret keys of encrypted stores move to a new device under a clone key that both
sides import for the time of the call. `OnBackup` decrypts each key with the root key
and encrypts it with the clone key; `OnRestore` does the reverse and saves the result as
clone secret key metadata. What the input unmarshals to, and which calls of the keystore,
the metadata store and the file system succeed, is part of the input.
-/

namespace DataMgr.Clone

open DataMgr.Utils DataMgr.Metadata DataMgr.Crypto

def cloneKeyAlias : Bytes := "distributed_db_backup_key".toUTF8.data.toList

def cloneKeyId : KeyId := ⟨cloneKeyAlias, .de, none⟩

theorem cloneKeyId_ne_root : cloneKeyId.keyAlias ≠ rootKeyAlias := by
  decide +kernel

def keySize : Nat := 32

def aes256NonceSize : Nat := 32

structure CloneEncryptionInfo where
  symkey : String := ""
  algName : String := ""
  iv : String := ""

structure CloneBundleInfo where
  bundleName : String
  accessTokenId : Nat := 0

structure CloneBackupInfo where
  encryptionInfo : CloneEncryptionInfo
  bundleInfos : List CloneBundleInfo
  userId : String

structure BackupItem where
  bundleName : String
  dbName : String
  user : String
  sKey : String
  instanceId : Int
  storeType : Int
  area : Int := -1
  time : Bytes
deriving DecidableEq, Repr

variable (item : BackupItem)

def BackupItem.isValid : Bool :=
  item.bundleName != "" && item.dbName != "" && item.time != [] && item.sKey != "" &&
    item.user != ""

def convertDecStrToVec (inData : String) : Bytes :=
  (split inData ",").map fun token => UInt8.ofNat (atoi token % 256).toNat

def isNumber (str : String) : Bool := str != "" && str.toList.all Char.isDigit

/-- The local store metas, in the order in which the database returns them. -/
structure StoreMetaTable where
  entries : List (String × StoreMetaData)
  nodup : (entries.map Prod.fst).Nodup
  keyed : ∀ entry ∈ entries, entry.1 = entry.2.getKey

def noStores : StoreMetaTable := ⟨[], List.nodup_nil, by simp⟩

/-- `LoadMeta` of all records whose key starts with the given text. -/
def StoreMetaTable.loadMeta (table : StoreMetaTable) (start : String) : List StoreMetaData :=
  (table.entries.filter fun entry => HasPrefix start entry.1).map Prod.snd

structure CloneState (Key : Type) where
  keys : Keystore Key
  /-- The local metadata: secret keys and clone secret keys by key, and the store metas. -/
  secrets : String → Option SecretKeyMetaData
  storeMetas : StoreMetaTable

section

variable {Key : Type}

structure ReEncryptResults (Key : Type) where
  decryptResults : HksResults Key
  encryptResults : HksResults Key

/-- The clone key is used at the default area, under the nonce of the request. -/
def cloneParams (iv : Bytes) : CryptoParams := { keyAlias := cloneKeyAlias, nonce := iv }

theorem cloneParams_keyId (iv : Bytes) : (cloneParams iv).keyId = cloneKeyId := by
  have halias : cloneKeyAlias ≠ [] := by decide +kernel
  simp [CryptoParams.keyId, CryptoParams.alias, cloneParams, halias, keyId, getStorageLevel,
    el1, el2, el3, el4, el5, cloneKeyId]

def storeParams (metaData : StoreMetaData) (secretKeyMeta : SecretKeyMetaData) : CryptoParams :=
  { area := secretKeyMeta.area, userId := metaData.user, nonce := secretKeyMeta.nonce }

variable (cipher : Cipher Key) (keys : Keystore Key)

/-- The key encrypted with the clone key, the record it was read from, and the keystore. -/
def reEncryptKey (r : ReEncryptResults Key) (secrets : String → Option SecretKeyMetaData)
    (metaData : StoreMetaData) (iv : Bytes) : Bytes × SecretKeyMetaData × Keystore Key :=
  match secrets metaData.getSecretKey with
  | none => ([], {}, keys)
  | some secretKeyMeta =>
      let decrypted := decrypt cipher keys r.decryptResults secretKeyMeta.sKey
        (storeParams metaData secretKeyMeta)
      if decrypted.1 = [] then ([], secretKeyMeta, decrypted.2)
      else
        let encrypted := encrypt cipher decrypted.2 r.encryptResults decrypted.1 (cloneParams iv)
        (encrypted.1, secretKeyMeta, encrypted.2.2)

/-- The outcomes of a backup: which bundles' metadata can be read, and the re-encryption
of each store found under each bundle. -/
structure BackupResults (Key : Type) where
  loaded : String → Bool
  reEncrypt : String → StoreMetaData → ReEncryptResults Key

/-- One round of the inner loop. The label is the bundle and user of the request. -/
def backupStore (results : BackupResults Key) (secrets : String → Option SecretKeyMetaData)
    (userId : String) (iv : Bytes) (bundleName : String) (storeMeta : StoreMetaData) :
    Option BackupItem × Keystore Key :=
  if storeMeta.isEncrypt = false then (none, keys)
  else
    let reEncrypted := reEncryptKey cipher keys (results.reEncrypt bundleName storeMeta) secrets
      storeMeta iv
    if reEncrypted.1 = [] then (none, reEncrypted.2.2)
    else
      (some
        { time := reEncrypted.2.1.time
          bundleName := bundleName
          dbName := storeMeta.storeId
          instanceId := storeMeta.instanceId
          sKey := Base64.encode reEncrypted.1
          storeType := reEncrypted.2.1.storeType
          user := userId
          area := storeMeta.area }, reEncrypted.2.2)

/-- A store with the listed bundle under which it was found. -/
abbrev Attempt := String × StoreMetaData

/-- The stores that both loops visit, in order. -/
def backupAttempts (table : StoreMetaTable) (results : BackupResults Key)
    (bundleInfos : List CloneBundleInfo) (userId localDeviceId : String) : List Attempt :=
  bundleInfos.flatMap fun bundleInfo =>
    if results.loaded bundleInfo.bundleName then
      (table.loadMeta (StoreMetaData.getKeyOf
        [localDeviceId, userId, "default", bundleInfo.bundleName])).map fun storeMeta =>
          (bundleInfo.bundleName, storeMeta)
    else []

def backupRun (cipher : Cipher Key) (results : BackupResults Key)
    (secrets : String → Option SecretKeyMetaData) (userId : String) (iv : Bytes) :
    List Attempt → Keystore Key → List (Attempt × Option BackupItem) × Keystore Key
  | [], keys => ([], keys)
  | attempt :: rest, keys =>
      let one := backupStore cipher keys results secrets userId iv attempt.1 attempt.2
      let others := backupRun cipher results secrets userId iv rest one.2
      ((attempt, one.1) :: others.1, others.2)

def CloneState.backupVisits (s : CloneState Key) (cipher : Cipher Key)
    (results : BackupResults Key) (bundleInfos : List CloneBundleInfo) (userId : String)
    (iv : Bytes) (localDeviceId : String) : List (Attempt × Option BackupItem) × Keystore Key :=
  backupRun cipher results s.secrets userId iv
    (backupAttempts s.storeMetas results bundleInfos userId localDeviceId) s.keys

/-- The items of the backup, before they are marshalled. -/
def CloneState.getSecretKeyBackup (s : CloneState Key) (cipher : Cipher Key)
    (results : BackupResults Key) (bundleInfos : List CloneBundleInfo) (userId : String)
    (iv : Bytes) (localDeviceId : String) : List BackupItem × Keystore Key :=
  let visits := s.backupVisits cipher results bundleInfos userId iv localDeviceId
  (visits.1.filterMap Prod.snd, visits.2)

/-- The outcomes of `BuildImportKeyParams` and of the call of the keystore after it. -/
structure KeyCall where
  built : Bool := true
  done : Bool := true
deriving DecidableEq

def importCloneKey (call : KeyCall) (keyStr : String) : Bool × Keystore Key :=
  let key := convertDecStrToVec keyStr
  if key.length ≠ keySize then (false, keys)
  else importKey cipher keys call.built call.done key cloneKeyAlias

/-- The result of the deletion is not looked at. -/
def deleteCloneKey (call : KeyCall) : Keystore Key :=
  (deleteKey keys call.built call.done cloneKeyAlias).2

structure BackupOutcomes (Key : Type) where
  importCall : KeyCall := {}
  results : BackupResults Key
  deleteCall : KeyCall := {}
  /-- An empty path is a failure. -/
  clonePath : String
  fileWritten : Bool := true
  replyWritten : Bool := true

/-- `OnBackup`: the returned code, the items in the file handed out, and the state. -/
def CloneState.onBackup (s : CloneState Key) (cipher : Cipher Key) (o : BackupOutcomes Key)
    (data : Option CloneBackupInfo) (localDeviceId : String) :
    (Int × Option (List BackupItem)) × CloneState Key :=
  match data with
  | none => ((-1, none), s)
  | some backupInfo =>
      if backupInfo.bundleInfos = [] ∨ backupInfo.userId = "" then ((-1, none), s)
      else
        let cloned := importCloneKey cipher s.keys o.importCall backupInfo.encryptionInfo.symkey
        let s := { s with keys := cloned.2 }
        if cloned.1 = false then ((-1, none), s)
        else
          let iv := convertDecStrToVec backupInfo.encryptionInfo.iv
          -- this exit leaves the clone key in place
          if iv.length ≠ aes256NonceSize then ((-1, none), s)
          else
            let content := s.getSecretKeyBackup cipher o.results backupInfo.bundleInfos
              backupInfo.userId iv localDeviceId
            let s := { s with keys := deleteCloneKey content.2 o.deleteCall }
            if isNumber backupInfo.userId = false then ((-1, none), s)
            else if o.clonePath = "" then ((-1, none), s)
            else if o.fileWritten = false then ((-1, none), s)
            else if o.replyWritten = false then ((-1, none), s)
            else ((0, some content.1), s)

structure RestoreResults (Key : Type) where
  decryptResults : HksResults Key
  encryptResults : HksResults Key
  saved : Bool := true

/-- The store that the restored key is filed under. -/
def restoredMeta (userId : String) : StoreMetaData :=
  { bundleName := item.bundleName
    storeId := item.dbName
    user := if item.user = "0" then "0" else userId
    instanceId := item.instanceId }

def rawKey (r : RestoreResults Key) (item : BackupItem) (iv : Bytes) : Bytes × Keystore Key :=
  decrypt cipher keys r.decryptResults (Base64.decode item.sKey) (cloneParams iv)

def restoreParams (userId : String) : CryptoParams :=
  { area := item.area, userId := (restoredMeta item userId).user }

/-- `RestoreSecretKey`: the record that it saved, if any, and the state. A failed
encryption is logged, and the record saved without a key. -/
def CloneState.restoreSecretKey (s : CloneState Key) (cipher : Cipher Key) (r : RestoreResults Key)
    (item : BackupItem) (userId : String) (iv : Bytes) :
    Option SecretKeyMetaData × CloneState Key :=
  let raw := rawKey cipher s.keys r item iv
  if raw.1 = [] then (none, { s with keys := raw.2 })
  else
    let encrypted := encrypt cipher raw.2 r.encryptResults raw.1 (restoreParams item userId)
    let secretKey : SecretKeyMetaData :=
      { sKey := encrypted.1
        storeType := item.storeType
        nonce := encrypted.2.1.nonce
        area := item.area
        time := item.time }
    if r.saved then
      (some secretKey,
        { s with
          keys := encrypted.2.2
          secrets := Function.update s.secrets (restoredMeta item userId).getCloneSecretKey
            (some secretKey) })
    else (none, { s with keys := encrypted.2.2 })

/-- The loop of `OnRestore`; `index` is the place of the item. -/
def CloneState.restoreItems (s : CloneState Key) (cipher : Cipher Key)
    (results : Nat → RestoreResults Key) (userId : String) (iv : Bytes) (index : Nat) :
    List BackupItem → CloneState Key
  | [] => s
  | item :: rest =>
      if item.isValid then
        (s.restoreSecretKey cipher (results index) item userId iv).2.restoreItems cipher results
          userId iv (index + 1) rest
      else s.restoreItems cipher results userId iv (index + 1) rest

structure RestoreOutcomes (Key : Type) where
  importCall : KeyCall := {}
  results : Nat → RestoreResults Key
  deleteCall : KeyCall := {}
  replyWritten : Bool := true

def replyForRestore (replyWritten : Bool) (result : Int) : Int :=
  if replyWritten then result else -1

/-- `OnRestore`, from the items of the file and the request that came with it. -/
def CloneState.onRestore (s : CloneState Key) (cipher : Cipher Key) (o : RestoreOutcomes Key)
    (file : Option (List BackupItem)) (data : Option CloneBackupInfo) : Int × CloneState Key :=
  match file with
  | none => (replyForRestore o.replyWritten (-1), s)
  | some infos =>
      if infos = [] then (replyForRestore o.replyWritten (-1), s)
      else
        match data with
        | none => (replyForRestore o.replyWritten (-1), s)
        | some backupInfo =>
            if backupInfo.userId = "" then (replyForRestore o.replyWritten (-1), s)
            else
              let iv := convertDecStrToVec backupInfo.encryptionInfo.iv
              if iv.length ≠ aes256NonceSize then (replyForRestore o.replyWritten (-1), s)
              else
                let cloned := importCloneKey cipher s.keys o.importCall
                  backupInfo.encryptionInfo.symkey
                let s := { s with keys := cloned.2 }
                if cloned.1 = false then
                  (replyForRestore o.replyWritten (-1),
                    { s with keys := deleteCloneKey s.keys o.deleteCall })
                else
                  let s := s.restoreItems cipher o.results backupInfo.userId iv 0 infos
                  (replyForRestore o.replyWritten 0,
                    { s with keys := deleteCloneKey s.keys o.deleteCall })

end

end DataMgr.Clone
