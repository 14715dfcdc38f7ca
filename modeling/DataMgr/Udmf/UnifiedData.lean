import Mathlib

/-! # Unified data

The values that the drag channel passes around. An object keeps the values its
functions look up, with `none` for one that is missing or of another type; a null
pointer is `none` too.
-/

namespace DataMgr.Udmf

abbrev Token := UInt32

inductive Status where
  | eOk
  | eError
  | eInvalidParameters
  | eNoPermission
  | eNotFound
  | eDbError
  | eDbCorrupted
  | eReadParcelError
deriving DecidableEq, Repr

def policyUnknow : Int := 0
def policyOnlyRead : Int := 1
def policyReadWrite : Int := 2
def policyNoPermission : Int := 3

def permissionPolicyModeLegacy : Int := 0
def permissionPolicyModeMask : Int := 1

/-- A `uint32_t` of permission flags. -/
abbrev Mask := BitVec 32

def generalFileUri : String := "general.file-uri"

structure Object where
  uniformDataType : Option String
  oriUri : Option String
  remoteUri : Option String
  permissionPolicy : Option Int
  uriPermissionMask : Option Int
  uriAuthorizationPolicies : Option Int
  details : Option (List (String × String))
  content : String
deriving DecidableEq, Repr

/-- The value of an entry: an object, possibly null, or another alternative. -/
inductive EntryValue where
  | object (obj : Option Object)
  | other (content : String)
deriving DecidableEq, Repr

/-- The entries of a record: those the service looks up by type, and the rest. -/
structure Entries where
  html : Option EntryValue
  fileUri : Option EntryValue
  rest : List (String × EntryValue)
deriving DecidableEq, Repr

structure UriInfo where
  oriUri : String
  authUri : String
  dfsUri : String
  permission : Int
  permissionMask : Mask
deriving DecidableEq, Repr

structure UnifiedRecord where
  entries : Option Entries
  uris : List UriInfo
deriving DecidableEq, Repr

structure Properties where
  tag : String
  uriAuthorizationPolicies : List Int
deriving DecidableEq, Repr

structure Privilege where
  tokenId : Token
  readPermission : String
deriving DecidableEq, Repr

inductive DataStatus where
  | working
  | waiting
deriving DecidableEq, Repr

structure Runtime where
  key : String
  privileges : List Privilege
  sourcePackage : String
  deviceId : String
  recordTotalNum : Nat
  tokenId : Token
  dataStatus : DataStatus
  permissionPolicyMode : Int
deriving DecidableEq, Repr

structure UnifiedData where
  runtime : Option Runtime
  properties : Option Properties
  records : List (Option UnifiedRecord)
deriving DecidableEq, Repr

def UnifiedData.empty : UnifiedData := ⟨none, none, []⟩

def Entries.fileObject? (entries : Entries) : Option Object :=
  match entries.fileUri with
  | some (.object obj) => obj
  | _ => none

variable (record : UnifiedRecord)

/-- The file object of a record, as `ProcessFileType` finds it but for the type test. -/
def UnifiedRecord.fileObject? : Option Object :=
  record.entries.bind Entries.fileObject?

/-- The object of an html entry: `none` without such an entry, `some none` for null. -/
def UnifiedRecord.htmlObject? : Option (Option Object) :=
  match record.entries.bind Entries.html with
  | some (.object obj) => some obj
  | _ => none

def UnifiedRecord.setFileObject (obj : Object) : UnifiedRecord :=
  { record with
    entries := record.entries.map fun entries =>
      { entries with fileUri := some (.object (some obj)) } }

def UnifiedData.mapRecords (data : UnifiedData) (f : UnifiedRecord → UnifiedRecord) :
    UnifiedData :=
  { data with records := data.records.map (Option.map f) }

open UnifiedRecord

section

variable {record : UnifiedRecord} {obj obj' : Object}

@[simp] theorem fileObject?_setFileObject (h : record.fileObject? = some obj) :
    (record.setFileObject obj').fileObject? = some obj' := by
  unfold fileObject? at h ⊢
  cases hentries : record.entries with
  | none => simp [hentries] at h
  | some entries => simp [setFileObject, hentries, Entries.fileObject?]

@[simp] theorem htmlObject?_setFileObject :
    (record.setFileObject obj').htmlObject? = record.htmlObject? := by
  unfold htmlObject? setFileObject
  cases record.entries <;> rfl

@[simp] theorem uris_setFileObject : (record.setFileObject obj').uris = record.uris := rfl

theorem mem_records_mapRecords {data : UnifiedData} {f : UnifiedRecord → UnifiedRecord}
    {record' : UnifiedRecord} :
    some record' ∈ (data.mapRecords f).records ↔
      ∃ record, some record ∈ data.records ∧ f record = record' := by
  unfold UnifiedData.mapRecords
  rw [List.mem_map]
  constructor
  · intro ⟨slot, hslot, heq⟩
    obtain ⟨record, rfl, hrecord⟩ := Option.map_eq_some_iff.mp heq
    exact ⟨record, hslot, hrecord⟩
  · intro ⟨record, hrecord, heq⟩
    exact ⟨some record, hrecord, by rw [Option.map_some, heq]⟩

end

end DataMgr.Udmf
