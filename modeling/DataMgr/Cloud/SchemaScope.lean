import DataMgr.Cloud.CloudInfo
import DataMgr.Cloud.SyncBookkeeping
import DataMgr.Foundation.PrefixStore

/-! # For whom a schema is looked up

The schemas of a user, or of one application of the user, are read by a prefix of their
keys. The last field of the prefix is not terminated, so a number or a name matches every
one it is a prefix of.
-/

namespace DataMgr.Cloud

open DataMgr.Utils DataMgr.Foundation CloudInfo

/-- A schema with the user, the bundle and the instance it was stored for. -/
structure SchemaRecord where
  user : Int
  bundleName : String
  instanceId : Int := 0
  schema : SchemaMeta
deriving DecidableEq, Repr

variable (record : SchemaRecord) (store : List SchemaRecord) (user : Int) (info : SyncInfo)
  (bundleName : String) (wanted : SchemaRecord → Prop)

namespace SchemaRecord

def key : String :=
  getSchemaKey record.user record.bundleName record.instanceId

def StoredFor : Prop :=
  record.user = user ∧ (bundleName ≠ "" → record.bundleName = bundleName)

instance (record : SchemaRecord) (user : Int) (bundleName : String) :
    Decidable (record.StoredFor user bundleName) :=
  inferInstanceAs (Decidable (_ ∧ _))

end SchemaRecord

def loadSchemas (start : String) : List SchemaRecord :=
  PrefixStore.under (fun record : SchemaRecord => record.key.toList) start.toList store

/-- The schema is left with the databases that are asked for. -/
def SchemaRecord.restrict : SchemaRecord :=
  { record with
    schema := { record.schema with
      databases := record.schema.databases.filter fun database => info.contains database.name } }

def getSchemaRecords : List SchemaRecord :=
  let schemas := loadSchemas store (getSchemaPrefix user info.bundleName)
  if info.bundleName = "" then schemas
  else (schemas.map fun record => record.restrict info).filter
    fun record => !record.schema.databases.isEmpty

/-- The schemas whose databases `QueryLastSyncInfo` asks about, if the user has the
application. -/
def queryLastSyncSchemas (cloudInfo : CloudInfo) (bundleName : String) : List SchemaRecord :=
  if (cloudInfo.apps.lookup bundleName).isNone then []
  else (loadSchemas store (getSchemaPrefix cloudInfo.user bundleName)).filter
    fun record => record.schema.bundleName = bundleName

theorem toList_keySeparator : keySeparator.toList = ['#', '#', '#'] := rfl

open SchemaRecord

/-- Without a bundle, the user number only has to begin like the one that is looked up. -/
theorem hasPrefix_user_iff :
    (getSchemaPrefix user "").toList <+: record.key.toList ↔
      (toString user).toList <+: (toString record.user).toList := by
  have hplain : '#' ∉ (toString user).toList := not_mem_number (by decide) (by decide) user
  simp only [getSchemaPrefix, if_true, key, getSchemaKey,
    toList_join, List.flatMap_cons, List.flatMap_nil, List.append_nil, List.prefix_append_right_inj,
    toList_keySeparator, List.cons_append, List.nil_append, List.cons_prefix_cons, true_and]
  exact prefix_last_field_iff hplain _

/-- What follows the user in a key. -/
def SchemaRecord.application : String :=
  record.bundleName ++ keySeparator ++ toString record.instanceId

/-- With a bundle, the user is matched as a whole, and the bundle name is a prefix. -/
theorem hasPrefix_bundle_iff {bundleName : String} (h : bundleName ≠ "") :
    (getSchemaPrefix user bundleName).toList <+: record.key.toList ↔
      record.user = user ∧ bundleName.toList <+: record.application.toList := by
  have hplain : ∀ n : Int, '#' ∉ (toString n).toList := not_mem_number (by decide) (by decide)
  have huser : (toString user).toList = (toString record.user).toList ↔ record.user = user := by
    rw [String.toList_inj]
    exact ⟨fun heq => toString_int_injective heq.symm, fun heq => by rw [heq]⟩
  simp only [getSchemaPrefix, if_neg h, key, getSchemaKey,
    toList_join, List.flatMap_cons, List.flatMap_nil, List.append_nil, List.prefix_append_right_inj,
    toList_keySeparator, List.append_assoc, List.cons_append, List.nil_append,
    application, String.toList_append, List.cons_prefix_cons, true_and]
  rw [prefix_field_iff (hplain user) (hplain record.user), huser, List.cons_prefix_cons,
    List.cons_prefix_cons]
  simp only [true_and]

/-- No schema that is wanted was stored for another user or bundle that the lookup takes for
the one it is made for: a user number that continues the one looked up, or a bundle whose
key continues the name. -/
def NoLookalike : Prop :=
  ∀ record ∈ store, wanted record →
    if bundleName = "" then
      record.user ≠ user → ¬ (toString user).toList <+: (toString record.user).toList
    else
      record.user = user → record.bundleName ≠ bundleName →
        ¬ bundleName.toList <+: record.application.toList

instance (store : List SchemaRecord) (user : Int) (bundleName : String)
    (wanted : SchemaRecord → Prop) [DecidablePred wanted] :
    Decidable (NoLookalike store user bundleName wanted) :=
  inferInstanceAs (Decidable (∀ _ ∈ _, _ → ite _ _ _))

/-- The records that a prefix lookup returns are exact if there is no lookalike. -/
theorem storedFor_iff_noLookalike :
    (∀ record ∈ loadSchemas store (getSchemaPrefix user bundleName), wanted record →
      record.StoredFor user bundleName) ↔ NoLookalike store user bundleName wanted := by
  simp only [loadSchemas, PrefixStore.mem_under, and_imp]
  refine forall_congr' fun record => forall_congr' fun _ => ?_
  by_cases hempty : bundleName = ""
  · subst hempty
    rw [if_pos rfl, hasPrefix_user_iff]
    constructor
    · intro h hwanted hne hstart
      exact hne (h hstart hwanted).1
    · intro h hstart hwanted
      refine ⟨?_, fun hne => absurd rfl hne⟩
      by_contra hne
      exact h hwanted hne hstart
  · rw [if_neg hempty, hasPrefix_bundle_iff record user hempty]
    constructor
    · intro h hwanted huser hne hstart
      exact hne ((h ⟨huser, hstart⟩ hwanted).2 hempty)
    · rintro h ⟨huser, hstart⟩ hwanted
      refine ⟨huser, fun _ => ?_⟩
      by_contra hne
      exact h hwanted huser hne hstart

/-- A schema that a synchronisation is asked for: without a bundle every one, with a bundle
those with a database that is asked for. -/
def SchemaRecord.Wanted (record : SchemaRecord) : Prop :=
  info.bundleName = "" ∨ ∃ database ∈ record.schema.databases, info.contains database.name

instance (info : SyncInfo) : DecidablePred (SchemaRecord.Wanted info) := fun record =>
  inferInstanceAs (Decidable (info.bundleName = "" ∨
    ∃ database ∈ record.schema.databases, info.contains database.name))

theorem mem_getSchemaRecords_iff (property : Int → String → Prop) :
    (∀ record ∈ getSchemaRecords store user info, property record.user record.bundleName) ↔
      ∀ record ∈ loadSchemas store (getSchemaPrefix user info.bundleName),
        record.Wanted info → property record.user record.bundleName := by
  unfold getSchemaRecords SchemaRecord.Wanted
  by_cases hempty : info.bundleName = ""
  · simp only [hempty, if_true, true_or, forall_const]
  simp only [hempty, if_false, false_or, List.mem_filter, List.mem_map, and_imp,
    forall_exists_index, forall_apply_eq_imp_iff₂]
  refine forall_congr' fun record => forall_congr' fun _ => ?_
  have hleft : (!(record.restrict info).schema.databases.isEmpty) = true ↔
      ∃ database ∈ record.schema.databases, info.contains database.name = true := by
    simp [restrict]
  rw [hleft]
  constructor
  · rintro h database hdatabase hcontains
    exact h ⟨database, hdatabase, hcontains⟩
  · rintro h ⟨database, hdatabase, hcontains⟩
    exact h database hdatabase hcontains

/-- Both lookups return only schemas of that user and bundle exactly if no other schema looks
like one of them. -/
theorem schema_lookup_exact_iff (store : List SchemaRecord) (cloudInfo : CloudInfo)
    (info : SyncInfo) (bundleName : String) :
    ((∀ record ∈ getSchemaRecords store cloudInfo.user info,
        record.StoredFor cloudInfo.user info.bundleName) ↔
      NoLookalike store cloudInfo.user info.bundleName fun record => record.Wanted info) ∧
    ((∀ record ∈ queryLastSyncSchemas store cloudInfo bundleName,
        record.StoredFor cloudInfo.user bundleName) ↔
      NoLookalike store cloudInfo.user bundleName fun record =>
        (cloudInfo.apps.lookup bundleName).isSome ∧ record.schema.bundleName = bundleName) := by
  constructor
  · rw [← storedFor_iff_noLookalike]
    exact mem_getSchemaRecords_iff store cloudInfo.user info fun user name =>
      user = cloudInfo.user ∧ (info.bundleName ≠ "" → name = info.bundleName)
  · rw [← storedFor_iff_noLookalike]
    unfold queryLastSyncSchemas
    cases happ : cloudInfo.apps.lookup bundleName with
    | none => simp
    | some app => simp

def oneDatabase : SchemaRecord :=
  ⟨user, bundleName, 0, ⟨bundleName, [{ name := bundleName }]⟩⟩

theorem schema_lookup_exact_two_users :
    let store := [oneDatabase 10 "com.notes", oneDatabase 10 "com.mail", oneDatabase 20 "com.notes"]
    let info : SyncInfo := ⟨1, 10, "com.notes", []⟩
    getSchemaRecords store 10 info = [oneDatabase 10 "com.notes"] ∧
      ∀ record ∈ getSchemaRecords store 10 info, record.StoredFor 10 "com.notes" := by
  intro store info
  constructor
  · decide +kernel
  · exact (schema_lookup_exact_iff store { user := 10 } info "com.notes").1.mpr (by decide +kernel)

/-- The cloud of user 10 is synchronised with the schemas of user 100, and an application
with those of one whose name continues its own. -/
theorem schema_lookup_of_others :
    (∃ record ∈ getSchemaRecords [oneDatabase 10 "com.notes", oneDatabase 100 "com.notes"] 10
      ⟨1, 10, "", []⟩, ¬ record.StoredFor 10 "") ∧
    ∃ record ∈ getSchemaRecords [oneDatabase 10 "com.notes", oneDatabase 10 "com.notespro"] 10
      ⟨1, 10, "com.notes", []⟩, ¬ record.StoredFor 10 "com.notes" := by
  constructor
  · exact ⟨oneDatabase 100 "com.notes", by decide +kernel, by decide⟩
  · exact ⟨oneDatabase 10 "com.notespro", by decide +kernel, by decide⟩

end DataMgr.Cloud
