import Mathlib

/-! # Sliding windows over a sorted history

A history of times is spaced when each entry lies at least a window length after
the entry a fixed number of places earlier. In a sorted spaced history no
half-open window holds more than that number of entries.
-/

namespace DataMgr.Foundation

universe u

variable {τ : Type u} [AddCommMonoid τ] [LinearOrder τ]

/-- Entries `limit` places apart are at least `window` apart. -/
def Spaced (limit : Nat) (window : τ) (history : List τ) : Prop :=
  ∀ k a b, history[k]? = some a → history[k + limit]? = some b → a + window ≤ b

theorem Spaced.nil (limit : Nat) (window : τ) : Spaced limit window [] := by
  intro k a b ha
  simp at ha

variable {limit : Nat} {window : τ}

theorem Spaced.tail {x : τ} {rest : List τ} (h : Spaced limit window (x :: rest)) :
    Spaced limit window rest := by
  intro k a b ha hb
  have hshift : k + 1 + limit = k + limit + 1 := by omega
  apply h (k + 1) a b
  · rw [List.getElem?_cons_succ, ha]
  · rw [hshift, List.getElem?_cons_succ, hb]

theorem Spaced.concat {t : τ} {history : List τ} (hlimit : 0 < limit)
    (h : Spaced limit window history)
    (hnew : ∀ k a, k + limit = history.length → history[k]? = some a → a + window ≤ t) :
    Spaced limit window (history ++ [t]) := by
  intro k a b ha hb
  have hbound : k + limit < history.length + 1 := by
    obtain ⟨hlt, -⟩ := List.getElem?_eq_some_iff.mp hb
    simpa using hlt
  have hk : k < history.length := by omega
  rw [List.getElem?_append_left hk] at ha
  rcases Nat.lt_succ_iff_lt_or_eq.mp hbound with hold | hlast
  · rw [List.getElem?_append_left hold] at hb
    exact h k a b ha hb
  · rw [hlast, List.getElem?_concat_length] at hb
    cases hb
    exact hnew k a hlast ha

variable [IsOrderedAddMonoid τ]

theorem Spaced.drop_outside {t x : τ} {rest : List τ} (hsorted : (x :: rest).Pairwise (· ≤ ·))
    (h : Spaced limit window (x :: rest)) (hx : t ≤ x) {y : τ} (hy : y ∈ (x :: rest).drop limit) :
    t + window ≤ y := by
  have hdrop : ((x :: rest).drop limit).Pairwise (· ≤ ·) := hsorted.sublist (List.drop_sublist _ _)
  cases hlist : (x :: rest).drop limit with
  | nil =>
      rw [hlist] at hy
      simp at hy
  | cons first later =>
      have hfirst : (x :: rest)[0 + limit]? = some first := by
        rw [Nat.zero_add, ← List.head?_drop, hlist, List.head?_cons]
      have hfirsty : first ≤ y := by
        rw [hlist] at hy hdrop
        rcases List.mem_cons.mp hy with rfl | hlater
        · exact le_refl _
        · exact (List.pairwise_cons.mp hdrop).1 y hlater
      calc t + window ≤ x + window := by gcongr
        _ ≤ first := h 0 x first rfl hfirst
        _ ≤ y := hfirsty

/-- No half-open window of the given length holds more than `limit` entries. -/
theorem Spaced.window_count_le {history : List τ} (hsorted : history.Pairwise (· ≤ ·))
    (h : Spaced limit window history) (t : τ) :
    (history.filter fun x => t ≤ x ∧ x < t + window).length ≤ limit := by
  induction history with
  | nil => simp
  | cons x rest ih =>
      by_cases hx : t ≤ x ∧ x < t + window
      · have hout : ((x :: rest).drop limit).filter (fun y => t ≤ y ∧ y < t + window) = [] := by
          rw [List.filter_eq_nil_iff]
          intro y hy hin
          have hbehind : t + window ≤ y := h.drop_outside hsorted hx.1 hy
          have hinside : y < t + window := (of_decide_eq_true hin).2
          exact absurd hinside (not_lt.mpr hbehind)
        rw [← List.take_append_drop limit (x :: rest), List.filter_append, hout, List.append_nil]
        exact le_trans (List.length_filter_le _ _) (List.length_take_le _ _)
      · rw [List.filter_cons_of_neg (by simpa using hx)]
        exact ih hsorted.of_cons h.tail

end DataMgr.Foundation
