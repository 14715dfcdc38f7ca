import Mathlib

/-! # Concatenated lists

A list put together from the lists of its items: which item an element comes from, if all lists
have one length, and when a single item supplies the whole.
-/

namespace DataMgr.Foundation

universe u v

variable {ι : Type u} {α : Type v} {f : ι → List α} {items : List ι}

section

variable {n : Nat} (h : ∀ item ∈ items, (f item).length = n)

include h

theorem length_flatMap_of_length : (items.flatMap f).length = items.length * n := by
  rw [List.length_flatMap, List.map_congr_left h, List.map_const', List.sum_replicate, smul_eq_mul]

theorem getElem?_flatMap_of_length (i : Nat) {j : Nat} (hj : j < n) :
    (items.flatMap f)[i * n + j]? = (items[i]?).bind fun item => (f item)[j]? := by
  induction items generalizing i with
  | nil => simp
  | cons item rest ih =>
      have hlength := h item List.mem_cons_self
      have hrest := ih fun other hother => h other (List.mem_cons_of_mem item hother)
      rw [List.flatMap_cons]
      cases i with
      | zero =>
          rw [Nat.zero_mul, Nat.zero_add, List.getElem?_append_left (by omega)]
          rfl
      | succ i =>
          have hindex : (i + 1) * n + j - (f item).length = i * n + j := by
            rw [hlength, Nat.succ_mul]
            omega
          have hle : (f item).length ≤ (i + 1) * n + j := by
            rw [hlength, Nat.succ_mul]
            omega
          rw [List.getElem?_append_right hle, hindex, hrest i]
          rfl

end

theorem flatMap_eq_of_nodup (hnodup : items.Nodup) {i : ι}
    (hother : ∀ j ∈ items, j ≠ i → f j = []) (hself : i ∉ items → f i = []) :
    items.flatMap f = f i := by
  induction items with
  | nil => exact (hself List.not_mem_nil).symm
  | cons j rest ih =>
      rw [List.nodup_cons] at hnodup
      rw [List.flatMap_cons]
      by_cases hj : j = i
      · subst hj
        have hrest : rest.flatMap f = [] := by
          rw [List.flatMap_eq_nil_iff]
          intro k hk
          refine hother k (List.mem_cons_of_mem j hk) ?_
          rintro rfl
          exact hnodup.1 hk
        rw [hrest, List.append_nil]
      · rw [hother j List.mem_cons_self hj, List.nil_append]
        refine ih hnodup.2 (fun k hk => hother k (List.mem_cons_of_mem j hk)) fun hi => hself ?_
        simpa [Ne.symm hj] using hi

theorem eq_nil_or_singleton_of_nodup {l : List α} {a : α} (hnodup : l.Nodup)
    (hall : ∀ x ∈ l, x = a) : l = [] ∨ l = [a] := by
  have heq := List.eq_replicate_of_mem hall
  rw [heq, List.nodup_replicate, Nat.le_one_iff_eq_zero_or_eq_one] at hnodup
  rw [heq]
  exact hnodup.imp (fun hzero => by rw [hzero]; rfl) fun hone => by rw [hone]; rfl

end DataMgr.Foundation
