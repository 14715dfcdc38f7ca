import DataMgr.Metadata.Serializable

/-! # Cloud schemas and their equality

The schema of an application, with all that is written of it. `operator==` of a field leaves
out whether the column increments by itself; everything else is compared at every level.
-/

namespace DataMgr.Cloud.Schema

open DataMgr.Metadata

structure CompatibleConstraint where
  notNull : Bool := false
  hasDefault : Bool := false

structure FieldsPolicy where
  columnName : String := ""
  compatibleConstraints : List CompatibleConstraint := []

structure CompatiblePolicy where
  tableName : String := ""
  fieldsPolicy : List FieldsPolicy := []

structure Field where
  colName : String := ""
  /-- `alias`. -/
  aliasName : String := ""
  type : Int := 0
  primary : Bool := false
  autoIncrement : Bool := false
  nullable : Bool := true
  dupCheckCol : Bool := false

structure Table where
  name : String := ""
  sharedTableName : String := ""
  aliasName : String := ""
  fields : List Field := []
  deviceSyncFields : List String := []
  cloudSyncFields : List String := []

structure Database where
  name : String := ""
  aliasName : String := ""
  tables : List Table := []
  backwardCompatiblePolicies : List CompatiblePolicy := []
  autoSyncType : Nat := 0
  user : String := ""
  deviceId : String := ""
  version : Nat := 0
  bundleName : String := ""

structure SchemaMeta where
  metaVersion : Nat := 0x10001
  version : Int := 0
  bundleName : String := ""
  databases : List Database := []
  e2eeEnable : Bool := false

def CompatibleConstraint.marshal (self : CompatibleConstraint) : Json :=
  .object [("notNull", .bool self.notNull), ("hasDefault", .bool self.hasDefault)]

def CompatibleConstraint.equal (self other : CompatibleConstraint) : Bool :=
  self.notNull == other.notNull && self.hasDefault == other.hasDefault

def FieldsPolicy.marshal (self : FieldsPolicy) : Json :=
  .object [("columnName", .string self.columnName),
    ("compatibleConstraints", .array (self.compatibleConstraints.map CompatibleConstraint.marshal))]

def FieldsPolicy.equal (self other : FieldsPolicy) : Bool :=
  self.columnName == other.columnName &&
    self.compatibleConstraints.isEqv other.compatibleConstraints CompatibleConstraint.equal

def CompatiblePolicy.marshal (self : CompatiblePolicy) : Json :=
  .object [("tableName", .string self.tableName),
    ("fieldsPolicy", .array (self.fieldsPolicy.map FieldsPolicy.marshal))]

def CompatiblePolicy.equal (self other : CompatiblePolicy) : Bool :=
  self.tableName == other.tableName && self.fieldsPolicy.isEqv other.fieldsPolicy FieldsPolicy.equal

def Field.marshal (self : Field) : Json :=
  .object [("colName", .string self.colName), ("alias", .string self.aliasName),
    ("type", .number self.type), ("primary", .bool self.primary),
    ("autoIncrement", .bool self.autoIncrement), ("nullable", .bool self.nullable),
    ("dupCheckCol", .bool self.dupCheckCol)]

def Field.equal (self other : Field) : Bool :=
  self.colName == other.colName && self.aliasName == other.aliasName &&
    self.type == other.type && self.primary == other.primary &&
    self.nullable == other.nullable && self.dupCheckCol == other.dupCheckCol

def Table.marshal (self : Table) : Json :=
  .object [("name", .string self.name), ("sharedTableName", .string self.sharedTableName),
    ("alias", .string self.aliasName), ("fields", .array (self.fields.map Field.marshal)),
    ("deviceSyncFields", .array (self.deviceSyncFields.map Json.string)),
    ("cloudSyncFields", .array (self.cloudSyncFields.map Json.string))]

def Table.equal (self other : Table) : Bool :=
  self.name == other.name && self.aliasName == other.aliasName &&
    self.fields.isEqv other.fields Field.equal &&
    self.deviceSyncFields == other.deviceSyncFields &&
    self.cloudSyncFields == other.cloudSyncFields &&
    self.sharedTableName == other.sharedTableName

def Database.marshal (self : Database) : Json :=
  .object [("name", .string self.name), ("alias", .string self.aliasName),
    ("tables", .array (self.tables.map Table.marshal)), ("version", .number self.version),
    ("bundleName", .string self.bundleName), ("user", .string self.user),
    ("deviceId", .string self.deviceId), ("autoSyncType", .number self.autoSyncType),
    ("backwardCompatiblePolicies",
      .array (self.backwardCompatiblePolicies.map CompatiblePolicy.marshal))]

def Database.equal (self other : Database) : Bool :=
  self.name == other.name && self.aliasName == other.aliasName &&
    self.tables.isEqv other.tables Table.equal && self.version == other.version &&
    self.bundleName == other.bundleName && self.user == other.user &&
    self.deviceId == other.deviceId && self.autoSyncType == other.autoSyncType &&
    self.backwardCompatiblePolicies.isEqv other.backwardCompatiblePolicies CompatiblePolicy.equal

def SchemaMeta.marshal (self : SchemaMeta) : Json :=
  .object [("metaVersion", .number self.metaVersion), ("version", .number self.version),
    ("bundleName", .string self.bundleName),
    ("databases", .array (self.databases.map Database.marshal)),
    ("e2eeEnable", .bool self.e2eeEnable)]

def SchemaMeta.equal (self other : SchemaMeta) : Bool :=
  self.metaVersion == other.metaVersion && self.version == other.version &&
    self.bundleName == other.bundleName &&
    self.databases.isEqv other.databases Database.equal && self.e2eeEnable == other.e2eeEnable

def Table.autoIncrements (self : Table) : List Bool := self.fields.map Field.autoIncrement

def Database.autoIncrements (self : Database) : List (List Bool) :=
  self.tables.map Table.autoIncrements

/-- Of every column of the schema, whether it increments by itself. -/
def SchemaMeta.autoIncrements (self : SchemaMeta) : List (List (List Bool)) :=
  self.databases.map Database.autoIncrements

theorem eq_of_constraint_equal (a b : CompatibleConstraint) (h : a.equal b = true) : a = b := by
  cases a
  cases b
  simpa [CompatibleConstraint.equal] using h

theorem eq_of_fieldsPolicy_equal (a b : FieldsPolicy) (h : a.equal b = true) : a = b := by
  cases a
  simp only [FieldsPolicy.equal, Bool.and_eq_true, beq_iff_eq] at h
  rw [h.1, eq_of_isEqv eq_of_constraint_equal h.2]

theorem eq_of_policy_equal (a b : CompatiblePolicy) (h : a.equal b = true) : a = b := by
  cases a
  simp only [CompatiblePolicy.equal, Bool.and_eq_true, beq_iff_eq] at h
  rw [h.1, eq_of_isEqv eq_of_fieldsPolicy_equal h.2]

theorem field_marshal_eq_iff (a b : Field) (h : a.equal b = true) :
    a.marshal = b.marshal ↔ a.autoIncrement = b.autoIncrement := by
  simp only [Field.equal, Bool.and_eq_true, beq_iff_eq] at h
  simp [Field.marshal, h]

theorem table_marshal_eq_iff (a b : Table) (h : a.equal b = true) :
    a.marshal = b.marshal ↔ a.autoIncrements = b.autoIncrements := by
  simp only [Table.equal, Bool.and_eq_true, beq_iff_eq] at h
  have hfields := map_eq_map_iff_of_isEqv field_marshal_eq_iff h.1.1.1.2
  simp [Table.marshal, Table.autoIncrements, h, hfields]

theorem database_marshal_eq_iff (a b : Database) (h : a.equal b = true) :
    a.marshal = b.marshal ↔ a.autoIncrements = b.autoIncrements := by
  simp only [Database.equal, Bool.and_eq_true, beq_iff_eq] at h
  have htables := map_eq_map_iff_of_isEqv table_marshal_eq_iff h.1.1.1.1.1.1.2
  have hpolicies := eq_of_isEqv eq_of_policy_equal h.2
  simp [Database.marshal, Database.autoIncrements, h, htables, hpolicies]

/-- Schemas that are taken as equal are written alike exactly if the same columns increment
by themselves. -/
theorem schema_marshal_eq_iff (a b : SchemaMeta) (h : a.equal b = true) :
    a.marshal = b.marshal ↔ a.autoIncrements = b.autoIncrements := by
  simp only [SchemaMeta.equal, Bool.and_eq_true, beq_iff_eq] at h
  have hdatabases := map_eq_map_iff_of_isEqv database_marshal_eq_iff h.1.2
  simp [SchemaMeta.marshal, SchemaMeta.autoIncrements, h, hdatabases]

/-- The end of `UpdateSchemaFromHap`: the stored schema, or an empty one, is replaced by a
new schema that is not equal to it. -/
def updateSchema (stored : Option SchemaMeta) (newSchemaMeta : SchemaMeta) : Option SchemaMeta :=
  if newSchemaMeta.equal (stored.getD {}) = false then some newSchemaMeta else stored

end DataMgr.Cloud.Schema
