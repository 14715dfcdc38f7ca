import DataMgr.Metadata.StoreMetaData

/-! # Serialised metadata

A record is written into a json node field by field. Whether a record has changed is decided
by `operator==`, a list of fields of its own.
-/

namespace DataMgr.Metadata

open DataMgr.Utils

/-- A json node. The entries of an object stand in the order in which `Marshal` sets them,
which is the same for all records of a type. -/
inductive Json
  | bool (value : Bool)
  | number (value : Int)
  | string (value : String)
  | array (values : List Json)
  | object (entries : List (String × Json))

theorem map_eq_map_iff_of_isEqv {α β γ : Type} {eqv : α → α → Bool} {f : α → β} {g : α → γ}
    (h : ∀ a b, eqv a b = true → (f a = f b ↔ g a = g b)) :
    ∀ {as bs : List α}, as.isEqv bs eqv = true → (as.map f = bs.map f ↔ as.map g = bs.map g)
  | [], [], _ => by simp
  | [], _ :: _, heqv => by simp at heqv
  | _ :: _, [], heqv => by simp at heqv
  | a :: as, b :: bs, heqv => by
      rw [List.isEqv_cons_cons, Bool.and_eq_true] at heqv
      rw [List.map_cons, List.map_cons, List.map_cons, List.map_cons, List.cons.injEq,
        List.cons.injEq, h a b heqv.1, map_eq_map_iff_of_isEqv h heqv.2]

theorem eq_of_isEqv {α : Type} {eqv : α → α → Bool} (h : ∀ a b, eqv a b = true → a = b) :
    ∀ {as bs : List α}, as.isEqv bs eqv = true → as = bs
  | [], [], _ => rfl
  | [], _ :: _, heqv => by simp at heqv
  | _ :: _, [], heqv => by simp at heqv
  | a :: as, b :: bs, heqv => by
      rw [List.isEqv_cons_cons, Bool.and_eq_true] at heqv
      rw [h a b heqv.1, eq_of_isEqv h heqv.2]

namespace StoreMetaData

def marshal (self : StoreMetaData) : Json :=
  .object
    [("version", .number self.version),
     ("isAutoSync", .bool self.isAutoSync),
     ("autoSyncSwitch", .bool self.autoSyncSwitch),
     ("isBackup", .bool self.isBackup),
     ("isEncrypt", .bool self.isEncrypt),
     ("isManualClean", .bool self.isManualClean),
     ("isManualCleanDevice", .bool self.isManualCleanDevice),
     ("isDirty", .bool self.isDirty),
     ("isSearchable", .bool self.isSearchable),
     ("isNeedCompress", .bool self.isNeedCompress),
     ("storeType", .number self.storeType),
     ("securityLevel", .number self.securityLevel),
     ("area", .number self.area),
     ("uid", .number self.uid),
     ("tokenId", .number self.tokenId),
     ("instanceId", .number self.instanceId),
     ("appId", .string self.appId),
     ("appType", .string self.appType),
     ("bundleName", .string self.bundleName),
     ("hapName", .string self.hapName),
     ("dataDir", .string self.dataDir),
     ("deviceId", .string self.deviceId),
     ("schema", .string self.schema),
     ("storeId", .string self.storeId),
     ("user", .string self.user),
     ("account", .string self.account),
     ("dataType", .number self.dataType),
     ("enableCloud", .bool self.enableCloud),
     ("customSwitch", .bool self.customSwitch),
     ("cloudAutoSync", .bool self.cloudAutoSync),
     ("asyncDownloadAsset", .bool self.asyncDownloadAsset),
     ("isNeedUpdateDeviceId", .bool self.isNeedUpdateDeviceId),
     ("assetConflictPolicy", .number self.assetConflictPolicy),
     ("assetTempPath", .string self.assetTempPath),
     ("assetDownloadOnDemand", .bool self.assetDownloadOnDemand),
     ("filterMode", .number self.filterMode),
     -- for versions before the fields were renamed
     ("kvStoreType", .number self.storeType),
     ("deviceAccountID", .string self.user),
     ("userId", .string self.account),
     ("UID", .number self.uid),
     ("customDir", .string self.customDir),
     ("authType", .number self.authType),
     ("haMode", .number self.haMode)]

/-- `operator==`. The filter mode is compared as a Boolean. -/
def equal (self other : StoreMetaData) : Bool :=
  if notEqual self.isAutoSync other.isAutoSync || notEqual self.isBackup other.isBackup ||
      notEqual self.isDirty other.isDirty || notEqual self.isEncrypt other.isEncrypt ||
      notEqual self.isSearchable other.isSearchable ||
      notEqual self.isNeedCompress other.isNeedCompress ||
      notEqual self.enableCloud other.enableCloud ||
      notEqual (self.filterMode != 0) (other.filterMode != 0) ||
      notEqual self.customSwitch other.customSwitch ||
      notEqual self.cloudAutoSync other.cloudAutoSync ||
      notEqual self.isManualClean other.isManualClean ||
      notEqual self.isManualCleanDevice other.isManualCleanDevice ||
      notEqual self.isNeedUpdateDeviceId other.isNeedUpdateDeviceId then false
  else
    self.version == other.version && self.storeType == other.storeType &&
      self.dataType == other.dataType && self.securityLevel == other.securityLevel &&
      self.area == other.area && self.uid == other.uid && self.tokenId == other.tokenId &&
      self.instanceId == other.instanceId && self.appId == other.appId &&
      self.appType == other.appType && self.bundleName == other.bundleName &&
      self.dataDir == other.dataDir && self.storeId == other.storeId &&
      self.user == other.user && self.deviceId == other.deviceId &&
      self.account == other.account && self.authType == other.authType &&
      self.haMode == other.haMode

/-- The fields that are written and that `operator==` does not compare, or not as written. -/
def uncompared (self : StoreMetaData) :
    Bool × String × String × String × Bool × Int × String × Bool × Nat :=
  (self.autoSyncSwitch, self.hapName, self.schema, self.customDir, self.asyncDownloadAsset,
    self.assetConflictPolicy, self.assetTempPath, self.assetDownloadOnDemand, self.filterMode)

/-- Metas that are taken as equal are written alike exactly if the fields that are not
compared are the same. -/
theorem marshal_eq_iff {a b : StoreMetaData} (h : a.equal b = true) :
    a.marshal = b.marshal ↔ a.uncompared = b.uncompared := by
  unfold equal at h
  split at h
  · cases h
  rename_i hflags
  simp only [Bool.or_eq_true, not_or, Bool.not_eq_true, notEqual_eq_false_iff] at hflags
  simp only [Bool.and_eq_true, beq_iff_eq] at h
  simp only [marshal, uncompared, Json.object.injEq, List.cons.injEq, Prod.mk.injEq, true_and,
    and_true, Json.bool.injEq, Json.number.injEq, Json.string.injEq, Int.natCast_inj, h, hflags]
  tauto

end StoreMetaData

end DataMgr.Metadata
