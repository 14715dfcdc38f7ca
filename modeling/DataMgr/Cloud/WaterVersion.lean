import DataMgr.Cloud.CloudInfo
import DataMgr.Cloud.SchemaEquality

/-! # Schemas under a new water version

`CleanWaterVersion` loads the schema of each bundle and saves it again. Saving does not depend on
loading: a bundle without a schema is given an empty one.
-/

namespace DataMgr.Cloud

open Std Schema

def cleanWaterNumber : Nat := 0x10001

/-- The keys by bundle name; of two applications with one bundle name the last counts. -/
def CloudInfo.getSchemaKeys (info : CloudInfo) : ExtTreeMap String String :=
  info.apps.foldl (fun keys entry =>
    keys.insert entry.2.bundleName
      (getSchemaKey info.user entry.1 entry.2.instanceId)) ∅

abbrev Schemas := String → Option Schema.SchemaMeta

/-- The round of a key; `stores` are the bundles of the checker's stores. What
`DoAppLevelClean` does to the databases is left out. -/
def cleanWaterStep (stores : List String) (schemas : Schemas) (key : String) : Schemas :=
  match schemas key with
  | none => Function.update schemas key (some {})
  | some schemaMeta =>
      if schemaMeta.metaVersion < cleanWaterNumber then
        if schemaMeta.bundleName ∈ stores then
          Function.update schemas key (some { schemaMeta with metaVersion := cleanWaterNumber })
        else schemas
      else Function.update schemas key (some schemaMeta)

def cleanWaterVersion (stores : List String) (cloudInfo : Option CloudInfo) (schemas : Schemas) :
    Bool × Schemas :=
  match cloudInfo with
  | none => (false, schemas)
  | some info =>
      (true, (info.getSchemaKeys.toList.map Prod.snd).foldl (cleanWaterStep stores) schemas)

/-- Every schema is still there, with no other change than its version. -/
def OnlyVersions (schemas after : Schemas) : Prop :=
  ∀ key schemaMeta, schemas key = some schemaMeta →
    ∃ metaVersion, after key = some { schemaMeta with metaVersion := metaVersion }

theorem OnlyVersions.refl (schemas : Schemas) : OnlyVersions schemas schemas :=
  fun _ _ hkey => ⟨_, hkey⟩

theorem OnlyVersions.trans {schemas after later : Schemas} (h : OnlyVersions schemas after)
    (h' : OnlyVersions after later) : OnlyVersions schemas later := by
  intro key schemaMeta hkey
  obtain ⟨_, hafter⟩ := h key schemaMeta hkey
  obtain ⟨_, hlater⟩ := h' key _ hafter
  exact ⟨_, hlater⟩

variable (stores : List String)

theorem onlyVersions_update {schemas : Schemas} {key : String} {schemaMeta : Schema.SchemaMeta}
    (hkey : schemas key = some schemaMeta) (metaVersion : Nat) :
    OnlyVersions schemas
      (Function.update schemas key (some { schemaMeta with metaVersion := metaVersion })) := by
  intro other otherMeta hother
  by_cases heq : other = key
  · subst heq
    cases hkey.symm.trans hother
    exact ⟨metaVersion, Function.update_self ..⟩
  · exact ⟨otherMeta.metaVersion, (Function.update_of_ne heq ..).trans hother⟩

theorem cleanWaterStep_spec (schemas : Schemas) (key : String) :
    OnlyVersions schemas (cleanWaterStep stores schemas key) ∧
      ∀ other, (cleanWaterStep stores schemas key other).isSome ↔
        (schemas other).isSome ∨ other = key := by
  have hupdate : ∀ (value : Schema.SchemaMeta) (other : String),
      (Function.update schemas key (some value) other).isSome ↔
        (schemas other).isSome ∨ other = key := by
    intro value other
    by_cases heq : other = key
    · simp [heq]
    · simp [heq, Function.update_of_ne]
  unfold cleanWaterStep
  cases hkey : schemas key with
  | none =>
      refine ⟨fun other otherMeta hother => ⟨otherMeta.metaVersion, ?_⟩, hupdate _⟩
      have hne : other ≠ key := fun heq => by simp [heq, hkey] at hother
      exact (Function.update_of_ne hne ..).trans hother
  | some schemaMeta =>
      dsimp only
      split_ifs
      · exact ⟨onlyVersions_update hkey _, hupdate _⟩
      · refine ⟨.refl schemas, fun other => (or_iff_left_of_imp ?_).symm⟩
        rintro rfl
        rw [hkey]
        rfl
      · exact ⟨onlyVersions_update hkey schemaMeta.metaVersion, hupdate _⟩

theorem foldl_cleanWaterStep_spec (keys : List String) (schemas : Schemas) :
    OnlyVersions schemas (keys.foldl (cleanWaterStep stores) schemas) ∧
      ∀ key, (keys.foldl (cleanWaterStep stores) schemas key).isSome ↔
        (schemas key).isSome ∨ key ∈ keys := by
  induction keys generalizing schemas with
  | nil => exact ⟨.refl schemas, by simp⟩
  | cons key keys ih =>
      obtain ⟨hkept, hkeys⟩ := cleanWaterStep_spec stores schemas key
      obtain ⟨hkept', hkeys'⟩ := ih (cleanWaterStep stores schemas key)
      refine ⟨hkept.trans hkept', fun other => ?_⟩
      rw [List.foldl_cons, hkeys', hkeys, List.mem_cons, or_assoc]

/-- Only versions change, and no schema appears, exactly if every bundle has a schema. -/
theorem cleanWaterVersion_frame_iff (cloudInfo : Option CloudInfo) (schemas : Schemas) :
    ((∀ key, ((cleanWaterVersion stores cloudInfo schemas).2 key).isSome ↔ (schemas key).isSome) ∧
        OnlyVersions schemas (cleanWaterVersion stores cloudInfo schemas).2) ↔
      ∀ info ∈ cloudInfo, ∀ entry ∈ info.getSchemaKeys.toList, (schemas entry.2).isSome := by
  cases cloudInfo with
  | none => simp [cleanWaterVersion, OnlyVersions.refl]
  | some info =>
      obtain ⟨hkept, hkeys⟩ :=
        foldl_cleanWaterStep_spec stores (info.getSchemaKeys.toList.map Prod.snd) schemas
      simp only [cleanWaterVersion, hkeys, hkept, and_true, or_iff_left_iff_imp, List.mem_map,
        forall_exists_index, and_imp, forall_apply_eq_imp_iff₂, Option.mem_some_iff, forall_eq']

/-- A bundle without a schema is given one. -/
theorem cleanWaterVersion_creates :
    ((cleanWaterVersion [] (some { apps := [("note", { bundleName := "note" })] })
      (fun _ => none)).2 (CloudInfo.getSchemaKey 0 "note")).isSome = true := by
  obtain ⟨-, hkeys⟩ :=
    foldl_cleanWaterStep_spec [] [CloudInfo.getSchemaKey 0 "note"] (fun _ => none)
  exact (hkeys _).mpr (.inr (List.mem_singleton_self _))

end DataMgr.Cloud
