import Mathlib

/-! # Stores that are read and cleared by a prefix of the key

A store is a list of entries in the order in which a query returns them. The key of an
entry is a word over any alphabet.
-/

namespace DataMgr.Foundation.PrefixStore

variable {ε κ : Type} [DecidableEq κ] (key : ε → List κ)

def under (start : List κ) (store : List ε) : List ε := store.filter fun e => start <+: key e

def deleteKeys (keys : List (List κ)) (store : List ε) : List ε :=
  store.filter fun e => key e ∉ keys

/-- Entries are put in place of those with the same keys. -/
def putBatch (batch store : List ε) : List ε := deleteKeys key (batch.map key) store ++ batch

variable {key}

variable {store : List ε} {e : ε}

@[simp] theorem mem_under {start : List κ} :
    e ∈ under key start store ↔ e ∈ store ∧ start <+: key e := by
  simp [under]

@[simp] theorem mem_deleteKeys {keys : List (List κ)} :
    e ∈ deleteKeys key keys store ↔ e ∈ store ∧ key e ∉ keys := by
  simp [deleteKeys]

/-- Deleting what a query returned keeps exactly the entries the prefix does not match. -/
theorem mem_deleteKeys_under {start : List κ} :
    e ∈ deleteKeys key ((under key start store).map key) store ↔
      e ∈ store ∧ ¬ start <+: key e := by
  rw [mem_deleteKeys]
  refine and_congr_right fun hmem => not_congr ?_
  constructor
  · intro h
    obtain ⟨other, hother, hkey⟩ := List.mem_map.mp h
    rw [← hkey]
    exact (mem_under.mp hother).2
  · intro h
    exact List.mem_map_of_mem (mem_under.mpr ⟨hmem, h⟩)

theorem mem_putBatch_of_mem {batch : List ε} (h : e ∈ store)
    (hkey : ∀ new ∈ batch, key new ≠ key e) : e ∈ putBatch key batch store := by
  refine List.mem_append_left _ (mem_deleteKeys.mpr ⟨h, ?_⟩)
  intro hmem
  obtain ⟨new, hnew, hsame⟩ := List.mem_map.mp hmem
  exact hkey new hnew hsame

/-- A query does not see the removal of entries it does not match. -/
theorem under_filter {start : List κ} {keep : ε → Bool}
    (h : ∀ e ∈ store, keep e = false → ¬ start <+: key e) :
    under key start (store.filter keep) = under key start store := by
  unfold under
  rw [List.filter_filter]
  refine List.filter_congr fun e hmem => ?_
  cases hkeep : keep e with
  | false => simp [h e hmem hkeep]
  | true => simp

end DataMgr.Foundation.PrefixStore
