import Mathlib

/-! # Keyed maps with atomic actions

A concurrent keyed map offers whole-entry actions that run under its own lock,
so each action is one function on the map. The action returns the new entry and
a verdict: keep or drop for the computing actions, erase or keep for the sweep.
Every lemma states the content of the resulting map key by key.
-/

namespace DataMgr.Foundation

open Std

universe u v

variable {K : Type u} {V : Type v} [Ord K] [TransOrd K]

/-- Run `action` on the entry of `k` if there is one; a `false` verdict drops the
whole entry. An absent key is left absent. -/
def computeIfPresent (m : ExtTreeMap K V) (k : K) (action : V → V × Bool) : ExtTreeMap K V :=
  m.alter k fun entry => entry.bind fun v => if (action v).2 then some (action v).1 else none

/-- Run `action` on the entry of `k`, created as `fresh` when absent; a `false`
verdict drops the whole entry. -/
def compute (m : ExtTreeMap K V) (k : K) (fresh : V) (action : V → V × Bool) : ExtTreeMap K V :=
  m.alter k fun entry =>
    if (action (entry.getD fresh)).2 then some (action (entry.getD fresh)).1 else none

/-- Run `action` on every entry; a `true` verdict erases the entry. -/
def eraseIf (m : ExtTreeMap K V) (action : K → V → V × Bool) : ExtTreeMap K V :=
  m.filterMap fun k v => if (action k v).2 then none else some (action k v).1

variable (m : ExtTreeMap K V)

@[simp] theorem getElem?_computeIfPresent_self (k : K) (action : V → V × Bool) :
    (computeIfPresent m k action)[k]? =
      m[k]?.bind fun v => if (action v).2 then some (action v).1 else none := by
  simp [computeIfPresent]

@[simp] theorem getElem?_compute_self (k : K) (fresh : V) (action : V → V × Bool) :
    (compute m k fresh action)[k]? =
      if (action (m[k]?.getD fresh)).2 then some (action (m[k]?.getD fresh)).1 else none := by
  simp [compute]

variable [LawfulEqOrd K]

theorem getElem?_computeIfPresent_of_ne {k k' : K} (action : V → V × Bool) (h : k' ≠ k) :
    (computeIfPresent m k action)[k']? = m[k']? := by
  simp [computeIfPresent, ExtTreeMap.getElem?_alter, Ne.symm h]

theorem getElem?_compute_of_ne {k k' : K} (fresh : V) (action : V → V × Bool) (h : k' ≠ k) :
    (compute m k fresh action)[k']? = m[k']? := by
  simp [compute, ExtTreeMap.getElem?_alter, Ne.symm h]

@[simp] theorem getElem?_eraseIf (action : K → V → V × Bool) (k : K) :
    (eraseIf m action)[k]? =
      m[k]?.bind fun v => if (action k v).2 then none else some (action k v).1 := by
  simp [eraseIf]

theorem isEmpty_iff_getElem? : m.isEmpty = true ↔ ∀ k : K, m[k]? = none := by
  rw [ExtTreeMap.isEmpty_iff]
  constructor
  · rintro rfl k
    simp
  · intro h
    exact ExtTreeMap.ext_getElem? (by simpa using h)

theorem isEmpty_computeIfPresent {m : ExtTreeMap K V} (h : m.isEmpty = true) (k : K)
    (action : V → V × Bool) : (computeIfPresent m k action).isEmpty = true := by
  rw [isEmpty_iff_getElem?] at h ⊢
  intro k'
  by_cases hk : k' = k
  · subst hk
    simp [h k']
  · rw [getElem?_computeIfPresent_of_ne m action hk, h k']

theorem isEmpty_eraseIf {m : ExtTreeMap K V} (h : m.isEmpty = true)
    (action : K → V → V × Bool) : (eraseIf m action).isEmpty = true := by
  rw [isEmpty_iff_getElem?] at h ⊢
  intro k
  simp [h k]

theorem nodup_toList : m.toList.Nodup := by
  refine ExtTreeMap.distinct_keys_toList.imp ?_
  rintro a b hab rfl
  exact hab compare_self

theorem countP_toList [DecidableEq K] [DecidableEq V] (k : K) (p : K × V → Bool)
    (hp : ∀ k' v, m[k']? = some v → p (k', v) = true → k' = k) :
    m.toList.countP p = if m[k]?.any fun v => p (k, v) then 1 else 0 := by
  have honly : ∀ a ∈ m.toList, p a = true → m[k]? = some a.2 ∧ a = (k, a.2) := by
    intro a ha hpa
    have hentry : m[a.1]? = some a.2 := ExtTreeMap.mem_toList_iff_getElem?_eq_some.mp ha
    have hk := hp a.1 a.2 hentry hpa
    exact ⟨hk ▸ hentry, by rw [← hk]⟩
  by_cases hany : ∃ v, m[k]? = some v ∧ p (k, v) = true
  · obtain ⟨v, hv, hpv⟩ := hany
    have hiff : ∀ a ∈ m.toList, p a = true ↔ (a == (k, v)) = true := by
      intro a ha
      rw [beq_iff_eq]
      constructor
      · intro hpa
        obtain ⟨hentry, hk⟩ := honly a ha hpa
        rw [hv] at hentry
        rw [hk, ← Option.some.inj hentry]
      · rintro rfl
        exact hpv
    rw [List.countP_congr hiff, hv, if_pos (by simpa using hpv)]
    exact List.count_eq_one_of_mem (nodup_toList m)
      (ExtTreeMap.mem_toList_iff_getElem?_eq_some.mpr hv)
  · have hnone : ¬ (m[k]?.any fun v => p (k, v)) = true := by
      rw [Option.any_eq_true]
      exact hany
    rw [if_neg hnone, List.countP_eq_zero]
    intro a ha hpa
    obtain ⟨hentry, hk⟩ := honly a ha hpa
    exact hany ⟨a.2, hentry, hk ▸ hpa⟩

/-! ## Maps of maps

An outer entry is dropped as soon as its inner map is empty, so what such a map
says is the lookup through both levels.
-/

section

variable {L : Type u} [Ord L] [TransOrd L]

def nested? (m : ExtTreeMap K (ExtTreeMap L V)) (k : K) (l : L) : Option V :=
  m[k]?.bind fun inner => inner[l]?

variable [LawfulEqOrd L]

/-- Dropping an entry when it is empty is invisible to lookups through it. -/
theorem bind_getElem?_dropEmpty (inner : ExtTreeMap L V) (l : L) :
    ((if inner.isEmpty then none else some inner).bind fun inner => inner[l]?) = inner[l]? := by
  split
  · rename_i h
    simp [(isEmpty_iff_getElem? inner).mp h l]
  · simp

theorem nested?_computeIfPresent_filter [DecidableEq K] (m : ExtTreeMap K (ExtTreeMap L V))
    (k k' : K) (l : L) (keep : L → V → Bool) :
    nested? (computeIfPresent m k fun inner =>
        (inner.filter keep, !(inner.filter keep).isEmpty)) k' l =
      if k' = k then (nested? m k' l).filter (keep l) else nested? m k' l := by
  by_cases hk : k' = k
  · subst hk
    cases h : m[k']? with
    | none => simp [nested?, h]
    | some inner =>
        have hdrop := bind_getElem?_dropEmpty (inner.filter keep) l
        simp only [nested?, getElem?_computeIfPresent_self, h, Option.bind_some, if_true]
        rw [← ExtTreeMap.getElem?_filter', ← hdrop]
        cases (inner.filter keep).isEmpty <;> rfl
  · simp [nested?, getElem?_computeIfPresent_of_ne m _ hk, hk]

theorem nested?_eraseIf_filter (m : ExtTreeMap K (ExtTreeMap L V)) (k : K) (l : L)
    (keep : K → L → V → Bool) :
    nested? (eraseIf m fun k inner => (inner.filter (keep k), (inner.filter (keep k)).isEmpty))
        k l = (nested? m k l).filter (keep k l) := by
  cases h : m[k]? with
  | none => simp [nested?, h]
  | some inner =>
      have hdrop := bind_getElem?_dropEmpty (inner.filter (keep k)) l
      simp only [nested?, getElem?_eraseIf, h, Option.bind_some]
      rw [hdrop, ExtTreeMap.getElem?_filter']

end

end DataMgr.Foundation
