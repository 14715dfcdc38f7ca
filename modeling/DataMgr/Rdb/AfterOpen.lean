import DataMgr.Cloud.SchemaEquality
import DataMgr.Rdb.SyncerParam

/-! # Records that are not saved because they are equal

`AfterOpen` saves the meta of a store unless the stored one equals it, and a cloud schema is
saved unless the stored one equals it. What the equality does not compare is then not saved.
-/

namespace DataMgr.Rdb

open DataMgr.Metadata DataMgr.Cloud.Schema StoreMetaData

/-- The meta as `AfterOpen` compares it: three switches are those of the stored meta. -/
def keepSwitches (storeMeta old : StoreMetaData) : StoreMetaData :=
  { storeMeta with
    enableCloud := old.enableCloud
    customSwitch := old.customSwitch
    autoSyncSwitch := old.autoSyncSwitch }

structure Opened where
  status : RdbStatus
  storeMeta : StoreMetaData
  stored : String → Option StoreMetaData

def saveOpened (stored : String → Option StoreMetaData) (storeMeta : StoreMetaData) : Opened :=
  ⟨.ok, storeMeta, Function.update stored storeMeta.getKey (some storeMeta)⟩

/-- `AfterOpen`, as far as the store metas go. `permitted` says whether the checks of the call
are passed, `updated` what `TryUpdateDeviceId` returns. -/
def afterOpen (caller : Caller) (param : RdbSyncerParam) (permitted updated : Bool)
    (stored : String → Option StoreMetaData) : Opened :=
  let asked := getStoreMetaData caller param
  if permitted = false then ⟨.error, asked, stored⟩
  else
    match stored asked.getKey with
    | none => saveOpened stored { asked with isNeedUpdateDeviceId := false }
    | some old =>
        let storeMeta := keepSwitches asked old
        if storeMeta.equal old = false then
          saveOpened stored { storeMeta with isNeedUpdateDeviceId := !updated }
        else ⟨.ok, storeMeta, stored⟩

def Opened.Persisted (self : Opened) : Prop :=
  ∃ storeMeta, self.stored self.storeMeta.getKey = some storeMeta ∧
    storeMeta.marshal = self.storeMeta.marshal

theorem afterOpen_persisted_iff (caller : Caller) (param : RdbSyncerParam) (updated : Bool)
    (stored : String → Option StoreMetaData) :
    (afterOpen caller param true updated stored).Persisted ↔
      ∀ old, stored (getStoreMetaData caller param).getKey = some old →
        (keepSwitches (getStoreMetaData caller param) old).equal old = true →
        (keepSwitches (getStoreMetaData caller param) old).uncompared = old.uncompared := by
  have hsave : ∀ storeMeta, (saveOpened stored storeMeta).Persisted :=
    fun storeMeta => ⟨storeMeta, Function.update_self _ _ _, rfl⟩
  cases hstored : stored (getStoreMetaData caller param).getKey with
  | none =>
      simp only [afterOpen, hstored, Bool.true_eq_false, if_false]
      exact iff_of_true (hsave _) fun _ hsome => by cases hsome
  | some old =>
      cases hequal : (keepSwitches (getStoreMetaData caller param) old).equal old with
      | false =>
          simp only [afterOpen, hstored, hequal, Bool.true_eq_false, if_false, if_true]
          refine iff_of_true (hsave _) fun other hother hsame => ?_
          cases hother
          rw [hequal] at hsame
          cases hsame
      | true =>
          have hmarshal := marshal_eq_iff hequal
          have hkept :
              stored (keepSwitches (getStoreMetaData caller param) old).getKey = some old :=
            hstored
          simp only [afterOpen, hstored, hequal, Bool.true_eq_false, if_false, Opened.Persisted,
            hkept, Option.some.injEq]
          constructor
          · rintro ⟨_, rfl, hsame⟩ other rfl -
            exact hmarshal.mp hsame.symm
          · intro h
            exact ⟨old, rfl, (hmarshal.mpr (h old rfl hequal)).symm⟩

theorem updateSchema_iff (stored : Option SchemaMeta) (newSchemaMeta : SchemaMeta) :
    (newSchemaMeta.marshal ≠ (stored.getD {}).marshal →
      updateSchema stored newSchemaMeta = some newSchemaMeta) ↔
      (newSchemaMeta.equal (stored.getD {}) = true →
        newSchemaMeta.autoIncrements = (stored.getD {}).autoIncrements) := by
  unfold updateSchema
  cases hequal : newSchemaMeta.equal (stored.getD {}) with
  | false => simp
  | true =>
      rw [if_neg (by simp), ← schema_marshal_eq_iff _ _ hequal]
      constructor
      · intro hsaved _
        by_contra hne
        rw [hsaved hne] at hne
        exact hne rfl
      · intro hsame hne
        exact absurd (hsame rfl) hne

/-- Records that are taken as equal are written alike, an opened store's meta is persisted and
a changed schema is saved, each exactly if what the equality does not compare is the same. -/
theorem save_guards_sound_iff (a b : StoreMetaData) (x y : SchemaMeta) (caller : Caller)
    (param : RdbSyncerParam) (updated : Bool) (stored : String → Option StoreMetaData)
    (schema : Option SchemaMeta) :
    ((a.equal b = true → a.marshal = b.marshal) ↔
      (a.equal b = true → a.uncompared = b.uncompared)) ∧
    ((x.equal y = true → x.marshal = y.marshal) ↔
      (x.equal y = true → x.autoIncrements = y.autoIncrements)) ∧
    ((afterOpen caller param true updated stored).Persisted ↔
      ∀ old, stored (getStoreMetaData caller param).getKey = some old →
        (keepSwitches (getStoreMetaData caller param) old).equal old = true →
        (keepSwitches (getStoreMetaData caller param) old).uncompared = old.uncompared) ∧
    ((x.marshal ≠ (schema.getD {}).marshal → updateSchema schema x = some x) ↔
      (x.equal (schema.getD {}) = true →
        x.autoIncrements = (schema.getD {}).autoIncrements)) :=
  ⟨forall_congr' fun h => marshal_eq_iff h,
    forall_congr' fun h => schema_marshal_eq_iff x y h,
    afterOpen_persisted_iff caller param updated stored, updateSchema_iff schema x⟩

/-- Metas of different modules of an application are equal, and so are schemas of which one
has a column that increments by itself. -/
theorem equal_written_differently :
    (({ hapName := "entry" } : StoreMetaData).equal { hapName := "feature" } = true ∧
      ({ hapName := "entry" } : StoreMetaData).marshal ≠
        ({ hapName := "feature" } : StoreMetaData).marshal) ∧
    (({ databases := [{ tables := [{ fields := [{ autoIncrement := true }] }] }] } :
        SchemaMeta).equal { databases := [{ tables := [{ fields := [{}] }] }] } = true ∧
      ({ databases := [{ tables := [{ fields := [{ autoIncrement := true }] }] }] } :
        SchemaMeta).marshal ≠
          ({ databases := [{ tables := [{ fields := [{}] }] }] } : SchemaMeta).marshal) := by
  refine ⟨⟨by decide, ?_⟩, ⟨by decide, ?_⟩⟩
  · rw [ne_eq, marshal_eq_iff (by decide)]
    simp [uncompared]
  · rw [ne_eq, schema_marshal_eq_iff _ _ (by decide)]
    decide

end DataMgr.Rdb
