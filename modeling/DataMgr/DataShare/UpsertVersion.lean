import DataMgr.Foundation.Machine

/-! # Versions of a published document

`KvDelegate::Upsert` of a versioned value reads the stored version, and writes under a second
lock. Calls on one document are followed here step by step: what a call has read may be out of
date when it writes, a call that could not read writes all the same, and the flush after a write
may find the database damaged and bring back the backup.
-/

namespace DataMgr.DataShare

open DataMgr.Foundation

/-- The stored version of the document, the one in the backup files, and the versions that have
passed the test and are yet to be written, each with the number of writes before the test. -/
structure DocumentState where
  stored : Option Int
  backup : Option Int
  pending : List (Int × Nat)
  writes : Nat
deriving DecidableEq

/-- How an access to the database ends: `corrupt` is a status that `RestoreIfNeed` answers by
copying the backup files, which may fail. -/
inductive KvStatus
  | ok
  | failed
  | corrupt (copied : Bool)
deriving DecidableEq

inductive UpsertStep
  /-- `Upsert` up to the version test. -/
  | getVersion (version : Int) (status : KvStatus)
  /-- The upsert of the call at the index, and the flush if it succeeds. -/
  | upsert (i : Nat) (status flush : KvStatus)
  /-- The scheduled backup. -/
  | backup (copied : Bool)

namespace DocumentState

variable (s : DocumentState)

/-- `RestoreIfNeed`: the database files are those of the backup, or removed. -/
def restoreIfNeed : KvStatus → DocumentState
  | .corrupt copied => { s with stored := if copied then s.backup else none }
  | _ => s

def addPending (version : Int) : DocumentState :=
  { s with pending := s.pending ++ [(version, s.writes)] }

/-- The first half of `Upsert`. A document that is not there, or cannot be read, has no version to
compare with. -/
def getVersion (version : Int) (status : KvStatus) : DocumentState :=
  if version = 0 then s.addPending version
  else if status = .ok then
    match s.stored with
    | none => s.addPending version
    | some stored =>
        -- `E_VERSION_NOT_NEWER`
        if version ≤ stored then s else s.addPending version
  else (s.restoreIfNeed status).addPending version

/-- The second half. Once the document is written `E_OK` is returned, however the flush ends. -/
def upsert (i : Nat) (status flush : KvStatus) : Option DocumentState :=
  s.pending[i]?.map fun (version, _) =>
    let s := { s with pending := s.pending.eraseIdx i }
    if status = .ok then
      restoreIfNeed { s with stored := some version, writes := s.writes + 1 } flush
    else s.restoreIfNeed status

end DocumentState

def upsertMachine : Machine DocumentState UpsertStep where
  step s a :=
    match a with
    | .getVersion version status => some (s.getVersion version status)
    | .upsert i status flush => s.upsert i status flush
    | .backup copied => some { s with backup := if copied then s.stored else none }

/-- The stored version does not get smaller, and a call that returns `E_OK` has written a larger
one. -/
def KeepsVersion (s : DocumentState) (a : UpsertStep) : Prop :=
  ∀ s', upsertMachine.step s a = some s' →
    (∀ stored ∈ s.stored, ∃ stored' ∈ s'.stored, stored ≤ stored') ∧
    ∀ i flush, a = .upsert i .ok flush → ∀ call ∈ s.pending[i]?,
      s'.stored = some call.1 ∧ ∀ stored ∈ s.stored, stored < call.1

/-- The status is not one that `RestoreIfNeed` answers. -/
def KvStatus.Sound (status : KvStatus) : Prop := status = .ok ∨ status = .failed

/-- A versioned call reads the document if there is one, no other call writes between the two
halves of a call, and no access, the flush included, finds the database damaged. -/
def Undisturbed (s : DocumentState) : UpsertStep → Prop
  | .getVersion version status =>
      version ≠ 0 ∧ status.Sound ∧ (status = .failed → s.stored = none)
  | .upsert i status flush =>
      status.Sound ∧ flush.Sound ∧ ∀ call ∈ s.pending[i]?, call.2 = s.writes
  | .backup _ => True

open DocumentState

theorem restoreIfNeed_sound (s : DocumentState) {status : KvStatus} (h : status.Sound) :
    s.restoreIfNeed status = s := by
  rcases h with rfl | rfl <;> rfl

/-- A version that no write has overtaken is newer than the stored one. -/
def DocumentState.Tested (s : DocumentState) : Prop :=
  Fresh (fun version => ∀ stored ∈ s.stored, stored < version) s.pending s.writes

variable {s : DocumentState}

theorem getVersion_undisturbed {version : Int} {status : KvStatus} (hs : s.Tested)
    (h : Undisturbed s (.getVersion version status)) :
    (s.getVersion version status).stored = s.stored ∧ (s.getVersion version status).Tested := by
  obtain ⟨hversion, hsound, hread⟩ := h
  unfold getVersion
  rw [if_neg hversion, restoreIfNeed_sound s hsound]
  have hadd : (∀ stored ∈ s.stored, stored < version) → (s.addPending version).Tested := hs.read
  split
  · split
    · rename_i hnone
      exact ⟨rfl, hadd (by simp [hnone])⟩
    · rename_i stored hstored
      split
      · exact ⟨rfl, hs⟩
      · rename_i hnewer
        exact ⟨rfl, hadd (by simpa [hstored] using hnewer)⟩
  · rename_i hok
    exact ⟨rfl, hadd (by simp [hread (hsound.resolve_left hok)])⟩

theorem upsert_undisturbed {s' : DocumentState} {i : Nat} {status flush : KvStatus} (hs : s.Tested)
    (h : Undisturbed s (.upsert i status flush)) (hstep : s.upsert i status flush = some s') :
    s'.Tested ∧ (status = .failed → s'.stored = s.stored) ∧
      (status = .ok → ∀ call ∈ s.pending[i]?,
        s'.stored = some call.1 ∧ ∀ stored ∈ s.stored, stored < call.1) := by
  obtain ⟨hstatus, hflush, hdate⟩ := h
  obtain ⟨⟨version, date⟩, hcall, rfl⟩ := Option.map_eq_some_iff.mp hstep
  have hnewer := (hs (version, date) (List.mem_of_getElem? hcall)).2 (hdate (version, date) hcall)
  simp only [restoreIfNeed_sound _ hstatus, restoreIfNeed_sound _ hflush, hcall]
  rcases hstatus with rfl | rfl
  · refine ⟨(Fresh.retire hs i).write _, nofun, ?_⟩
    rintro - _ ⟨⟩
    exact ⟨rfl, hnewer⟩
  · exact ⟨Fresh.retire hs i, fun _ => rfl, nofun⟩

theorem step_undisturbed {s' : DocumentState} {a : UpsertStep} (hs : s.Tested)
    (h : Undisturbed s a) (hstep : upsertMachine.step s a = some s') : s'.Tested := by
  cases a with
  | getVersion version status =>
      cases hstep
      exact (getVersion_undisturbed hs h).2
  | upsert i status flush => exact (upsert_undisturbed hs h hstep).1
  | backup copied =>
      cases hstep
      exact hs

theorem keepsVersion_of_undisturbed {a : UpsertStep} (hs : s.Tested) (h : Undisturbed s a) :
    KeepsVersion s a := by
  have hrefl : ∀ stored ∈ s.stored, ∃ stored' ∈ s.stored, stored ≤ stored' :=
    fun stored h => ⟨stored, h, le_refl _⟩
  intro s' hstep
  cases a with
  | getVersion version status =>
      cases hstep
      rw [(getVersion_undisturbed hs h).1]
      exact ⟨hrefl, nofun⟩
  | upsert i status flush =>
      obtain ⟨-, hfailed, hok⟩ := upsert_undisturbed hs h hstep
      obtain ⟨call, hcall, -⟩ := Option.map_eq_some_iff.mp hstep
      rcases h.1 with rfl | rfl
      · obtain ⟨hstored, hnewer⟩ := hok rfl call hcall
        constructor
        · intro stored hold
          exact ⟨call.1, hstored, (hnewer stored hold).le⟩
        · rintro _ _ ⟨⟩
          exact hok rfl
      · rw [hfailed rfl]
        exact ⟨hrefl, nofun⟩
  | backup copied =>
      cases hstep
      exact ⟨hrefl, nofun⟩

instance (status : KvStatus) : Decidable status.Sound := inferInstanceAs (Decidable (_ ∨ _))

instance (s : DocumentState) : (a : UpsertStep) → Decidable (Undisturbed s a)
  | .getVersion _ _ => inferInstanceAs (Decidable (_ ∧ _))
  | .upsert _ _ _ => inferInstanceAs (Decidable (_ ∧ _))
  | .backup _ => inferInstanceAs (Decidable True)

end DataMgr.DataShare
