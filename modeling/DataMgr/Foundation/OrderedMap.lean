import Mathlib

/-! # Ordered maps

A map whose entries are listed in the order of their keys. The order is part of the value, so
the keys determine the list of keys, and a position in it is a position of an entry.
-/

namespace DataMgr.Foundation

universe u v w

/-- The entries in the order of their keys. -/
structure OrderedMap (κ : Type u) [LinearOrder κ] (α : Type v) where
  entries : List (κ × α)
  sorted : (entries.map Prod.fst).Pairwise (· < ·)

namespace OrderedMap

variable {κ : Type u} [LinearOrder κ] {α : Type v} {β : Type w}

variable (m : OrderedMap κ α)

def size : Nat := m.entries.length

def keys : List κ := m.entries.map Prod.fst

def values : List α := m.entries.map Prod.snd

def find (k : κ) : Option α := m.entries.lookup k

def mapValues (f : α → β) (m : OrderedMap κ α) : OrderedMap κ β where
  entries := m.entries.map fun entry => (entry.1, f entry.2)
  sorted := by
    rw [List.map_map]
    exact m.sorted

def filterValues (p : α → Bool) (m : OrderedMap κ α) : OrderedMap κ α where
  entries := m.entries.filter fun entry => p entry.2
  sorted := m.sorted.sublist (List.filter_sublist.map Prod.fst)

variable (m : OrderedMap κ α)

@[simp] theorem length_keys : m.keys.length = m.size := by simp [keys, size]

@[simp] theorem length_values : m.values.length = m.size := by
  simp [values, size]

theorem nodup_keys : m.keys.Nodup := m.sorted.imp fun hlt => hlt.ne

theorem lookup_eq_some_iff {entries : List (κ × α)} (hnodup : (entries.map Prod.fst).Nodup) {k : κ}
    {a : α} : entries.lookup k = some a ↔ (k, a) ∈ entries := by
  induction entries with
  | nil => simp
  | cons entry rest ih =>
      obtain ⟨key, value⟩ := entry
      rw [List.map_cons, List.nodup_cons] at hnodup
      by_cases hk : k = key
      · subst hk
        have hnot : (k, a) ∉ rest := fun hmem => hnodup.1 (List.mem_map.mpr ⟨(k, a), hmem, rfl⟩)
        simp [hnot, eq_comm]
      · rw [List.lookup_cons, beq_false_of_ne hk]
        simp [ih hnodup.2, hk]

theorem find_eq_some_iff {k : κ} {a : α} : m.find k = some a ↔ (k, a) ∈ m.entries :=
  lookup_eq_some_iff m.nodup_keys

theorem mem_keys_iff {k : κ} : k ∈ m.keys ↔ ∃ a, m.find k = some a := by
  simp [keys, find_eq_some_iff]

theorem find_eq_none_iff {k : κ} : m.find k = none ↔ k ∉ m.keys := by
  rw [mem_keys_iff, Option.eq_none_iff_forall_ne_some]
  push Not
  rfl

theorem find_of_keys {j : Nat} {k : κ} (hk : m.keys[j]? = some k) : m.find k = m.values[j]? := by
  simp only [keys, List.getElem?_map, Option.map_eq_some_iff] at hk
  obtain ⟨⟨key, value⟩, hentry, rfl⟩ := hk
  rw [m.find_eq_some_iff.mpr (List.mem_of_getElem? hentry), values, List.getElem?_map, hentry]
  rfl

@[simp] theorem find_mapValues (f : α → β) (m : OrderedMap κ α) (k : κ) :
    (m.mapValues f).find k = (m.find k).map f := by
  ext b
  simp only [find_eq_some_iff, mapValues, List.mem_map, Prod.mk.injEq, Option.map_eq_some_iff]
  constructor
  · rintro ⟨⟨key, value⟩, hmem, rfl, rfl⟩
    exact ⟨value, hmem, rfl⟩
  · rintro ⟨value, hmem, rfl⟩
    exact ⟨(k, value), hmem, rfl, rfl⟩

@[simp] theorem find_filterValues (p : α → Bool) (m : OrderedMap κ α) (k : κ) :
    (m.filterValues p).find k = (m.find k).filter p := by
  ext b
  simp [find_eq_some_iff, filterValues, Option.filter_eq_some_iff]

end OrderedMap

end DataMgr.Foundation
