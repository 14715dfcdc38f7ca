import Mathlib

/-! # Priority queues by least key

The entries are kept sorted by key, so the top is an entry of least key. Entries
of equal keys leave in the order they came: like a binary heap, a push never
displaces a top of the same key.
-/

namespace DataMgr.Foundation

universe u v

/-- Insert behind every entry whose key is not larger. -/
def insertByKey {α : Type u} {τ : Type v} [LinearOrder τ] (key : α → τ) (a : α) :
    List α → List α
  | [] => [a]
  | top :: rest => if key a < key top then a :: top :: rest else top :: insertByKey key a rest

section

variable {α : Type u} {τ : Type v} [LinearOrder τ] {key : α → τ}

theorem insertByKey_perm (a : α) (items : List α) :
    (insertByKey key a items).Perm (a :: items) := by
  induction items with
  | nil => exact List.Perm.refl _
  | cons top rest ih =>
      rw [insertByKey]
      split
      · exact List.Perm.refl _
      · exact (ih.cons top).trans (List.Perm.swap a top rest)

theorem insertByKey_sorted (a : α) {items : List α}
    (h : items.Pairwise fun x y => key x ≤ key y) :
    (insertByKey key a items).Pairwise fun x y => key x ≤ key y := by
  induction items with
  | nil => simp [insertByKey]
  | cons top rest ih =>
      have htop : ∀ y ∈ rest, key top ≤ key y := (List.pairwise_cons.mp h).1
      rw [insertByKey]
      split
      · rename_i hlt
        refine List.pairwise_cons.mpr ⟨?_, h⟩
        intro y hy
        rcases List.mem_cons.mp hy with rfl | hy
        · exact hlt.le
        · exact hlt.le.trans (htop y hy)
      · rename_i hge
        refine List.pairwise_cons.mpr ⟨?_, ih h.of_cons⟩
        intro y hy
        rcases List.mem_cons.mp ((insertByKey_perm a rest).mem_iff.mp hy) with rfl | hy
        · exact not_lt.mp hge
        · exact htop y hy

end

/-- A queue whose top is an entry of least key. -/
structure MinQueue (α : Type u) {τ : Type v} [LinearOrder τ] (key : α → τ) where
  items : List α
  sorted : items.Pairwise fun x y => key x ≤ key y

namespace MinQueue

variable {α : Type u} {τ : Type v} [LinearOrder τ] {key : α → τ}

def empty : MinQueue α key := ⟨[], List.Pairwise.nil⟩

variable (q : MinQueue α key) (keep : α → Bool)

def isEmpty : Bool := q.items.isEmpty

def top? : Option α := q.items.head?

def push (a : α) : MinQueue α key :=
  ⟨insertByKey key a q.items, insertByKey_sorted a q.sorted⟩

/-- What is left after popping down to a suffix. -/
def leave (left : List α) (h : left <:+ q.items) : MinQueue α key :=
  ⟨left, q.sorted.sublist h.sublist⟩

/-- Erase in place what the test does not keep. -/
def filter : MinQueue α key :=
  ⟨q.items.filter keep, q.sorted.filter keep⟩

@[simp] theorem empty_items : (empty : MinQueue α key).items = [] := rfl

@[simp] theorem filter_items :
    (q.filter keep).items = q.items.filter keep := rfl

@[simp] theorem leave_items (left : List α) (h : left <:+ q.items) :
    (q.leave left h).items = left := rfl

theorem push_perm (a : α) : (q.push a).items.Perm (a :: q.items) :=
  insertByKey_perm a q.items

variable {q : MinQueue α key}

theorem isEmpty_eq_true : q.isEmpty = true ↔ q.items = [] :=
  List.isEmpty_iff

theorem exists_top (h : q.items ≠ []) :
    ∃ a, q.top? = some a := by
  cases hitems : q.items with
  | nil => exact absurd hitems h
  | cons a rest => exact ⟨a, by rw [top?, hitems, List.head?_cons]⟩

theorem top_le {top : α} (htop : q.top? = some top) :
    ∀ a ∈ q.items, key top ≤ key a := by
  intro a ha
  have hsorted := q.sorted
  cases hitems : q.items with
  | nil =>
      rw [hitems] at ha
      simp at ha
  | cons first rest =>
      rw [top?, hitems, List.head?_cons] at htop
      cases htop
      rw [hitems] at ha hsorted
      rcases List.mem_cons.mp ha with rfl | ha
      · exact le_refl _
      · exact (List.pairwise_cons.mp hsorted).1 a ha

theorem top?_push (q : MinQueue α key) (a : α) :
    (q.push a).top? = some a ∨ q.items ≠ [] ∧ (q.push a).top? = q.top? := by
  cases hitems : q.items with
  | nil => exact .inl (by simp [top?, push, hitems, insertByKey])
  | cons top rest =>
      by_cases hlt : key a < key top
      · exact .inl (by simp [top?, push, hitems, insertByKey, hlt])
      · exact .inr ⟨by simp, by simp [top?, push, hitems, insertByKey, hlt]⟩

/-- Pop everything and push back what the test keeps. -/
def refill (q : MinQueue α key) (keep : α → Bool) : MinQueue α key :=
  q.items.foldl (fun kept a => if keep a then kept.push a else kept) empty

theorem foldl_push_perm (items : List α) (kept : MinQueue α key) :
    (items.foldl (fun kept a => if keep a then kept.push a else kept) kept).items.Perm
      (items.filter keep ++ kept.items) := by
  induction items generalizing kept with
  | nil => exact List.Perm.refl _
  | cons a rest ih =>
      rw [List.foldl_cons]
      by_cases ha : keep a = true
      · rw [if_pos ha, List.filter_cons_of_pos ha]
        have hpush : (rest.filter keep ++ (kept.push a).items).Perm
            (rest.filter keep ++ a :: kept.items) := (kept.push_perm a).append_left _
        exact (ih (kept.push a)).trans (hpush.trans List.perm_middle)
      · rw [if_neg ha, List.filter_cons_of_neg ha]
        exact ih kept

theorem refill_perm (q : MinQueue α key) (keep : α → Bool) :
    (q.refill keep).items.Perm (q.items.filter keep) := by
  have h := foldl_push_perm keep q.items (empty : MinQueue α key)
  rwa [empty_items, List.append_nil] at h

theorem mem_refill {keep : α → Bool} {a : α} :
    a ∈ (q.refill keep).items ↔ a ∈ q.items ∧ keep a = true := by
  rw [(q.refill_perm keep).mem_iff, List.mem_filter]

end MinQueue

end DataMgr.Foundation
