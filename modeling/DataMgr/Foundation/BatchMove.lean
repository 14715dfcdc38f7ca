import Mathlib

/-! # Moving records to new keys in batches

Each item names the old and the new key of a record, and several items may share an old
key. A batch reads the records under its old keys, puts them under the new ones in one
write, and then may delete the old keys. A record that is deleted with one batch is no
longer there for an item of a later one.
-/

namespace DataMgr.Foundation

universe u v w

section

variable {K : Type u} {V : Type v} [DecidableEq K]

variable (map : K → Option V)

def putAll (entries : List (K × V)) : K → Option V :=
  entries.foldl (fun map entry => Function.update map entry.1 (some entry.2)) map

def deleteAll (keys : List K) : K → Option V :=
  fun k => if k ∈ keys then none else map k

@[simp] theorem putAll_nil : putAll map [] = map := rfl

@[simp] theorem putAll_cons (entry : K × V) (entries : List (K × V)) :
    putAll map (entry :: entries) = putAll (Function.update map entry.1 (some entry.2)) entries :=
  rfl

theorem putAll_of_not_mem {map : K → Option V} {entries : List (K × V)} {k : K}
    (h : ∀ entry ∈ entries, entry.1 ≠ k) : putAll map entries k = map k := by
  induction entries generalizing map with
  | nil => rfl
  | cons entry rest ih =>
      simp only [List.mem_cons, forall_eq_or_imp] at h
      rw [putAll_cons, ih h.2, Function.update_of_ne h.1.symm]

theorem putAll_of_mem {map : K → Option V} {entries : List (K × V)} {k : K} {v : V}
    (hmem : ∃ entry ∈ entries, entry.1 = k) (h : ∀ entry ∈ entries, entry.1 = k → entry.2 = v) :
    putAll map entries k = some v := by
  induction entries generalizing map with
  | nil => simp at hmem
  | cons entry rest ih =>
      simp only [List.mem_cons, forall_eq_or_imp] at h
      rw [putAll_cons]
      by_cases hrest : ∃ other ∈ rest, other.1 = k
      · exact ih hrest h.2
      have hentry : entry.1 = k := by
        obtain ⟨other, hother, hkey⟩ := hmem
        rcases List.mem_cons.mp hother with hhead | htail
        · rw [← hhead, hkey]
        · exact absurd ⟨other, htail, hkey⟩ hrest
      have hnone : ∀ other ∈ rest, other.1 ≠ k := by
        intro other hother hkey
        exact hrest ⟨other, hother, hkey⟩
      rw [putAll_of_not_mem hnone, hentry, Function.update_self, h.1 hentry]

theorem ite_deleteAll_of_not_mem {map : K → Option V} {keys : List K} {k : K} {deleted : Bool}
    (h : k ∉ keys) : (if deleted then deleteAll map keys else map) k = map k := by
  cases deleted with
  | false => rfl
  | true => exact if_neg h

end

section

variable {α : Type u} {K : Type v} {V : Type w} [DecidableEq K] (old new : α → K)

/-- One batch. The flag says whether the deletion after the write succeeded. -/
def moveBatch (map : K → Option V) (batch : List α) (deleted : Bool) : K → Option V :=
  let saved := putAll map (batch.filterMap fun x => (map (old x)).map fun v => (new x, v))
  if deleted then deleteAll saved ((batch.filter fun x => (map (old x)).isSome).map old) else saved

def moveBatches (map : K → Option V) (trace : List (List α × Bool)) : K → Option V :=
  trace.foldl (fun map batch => moveBatch old new map batch.1 batch.2) map

/-- One batch of items that are the records themselves: each is put under its new key,
and the old keys are deleted. -/
def putBatch (map : K → Option α) (batch : List α) (deleted : Bool) : K → Option α :=
  let saved := putAll map (batch.map fun x => (new x, x))
  if deleted then deleteAll saved (batch.map old) else saved

def putBatches (map : K → Option α) (trace : List (List α × Bool)) : K → Option α :=
  trace.foldl (fun map batch => putBatch old new map batch.1 batch.2) map

/-- No new key is an old key of another item, and items with one new key have one old key. -/
structure KeysApart (items : List α) : Prop where
  apart : ∀ x ∈ items, ∀ y ∈ items, new x ≠ old y
  same : ∀ x ∈ items, ∀ y ∈ items, new x = new y → old x = old y

/-- The old key of the item has been deleted by one of the batches. -/
def Erased (x : α) (trace : List (List α × Bool)) : Prop :=
  ∃ batch ∈ trace, batch.2 = true ∧ ∃ y ∈ batch.1, old y = old x

/-- An item with the new key comes in a batch that is not after a deletion of the old key. -/
def Covered (x : α) : List (List α × Bool) → Prop
  | [] => False
  | batch :: rest =>
      (∃ y ∈ batch.1, new y = new x) ∨
        (¬ (batch.2 = true ∧ ∃ y ∈ batch.1, old y = old x) ∧ Covered x rest)

variable {old new} {items : List α}

omit [DecidableEq K] in
theorem mem_moved {map : K → Option V} {batch : List α} {entry : K × V} :
    entry ∈ (batch.filterMap fun x => (map (old x)).map fun v => (new x, v)) ↔
      ∃ x ∈ batch, map (old x) = some entry.2 ∧ new x = entry.1 := by
  simp only [List.mem_filterMap, Option.map_eq_some_iff]
  constructor
  · intro h
    obtain ⟨x, hx, v, hv, rfl⟩ := h
    exact ⟨x, hx, hv, rfl⟩
  · intro h
    obtain ⟨x, hx, hv, hkey⟩ := h
    exact ⟨x, hx, entry.2, hv, by rw [hkey]⟩

section

variable (hitems : KeysApart old new items) {batch : List α} (hbatch : ∀ y ∈ batch, y ∈ items)
  {x : α} (hx : x ∈ items)

include hitems hbatch hx

omit [DecidableEq K] in
theorem moved_value {map : K → Option V} {entry : K × V}
    (hentry : entry ∈ (batch.filterMap fun y => (map (old y)).map fun v => (new y, v)))
    (hkey : entry.1 = new x) : map (old x) = some entry.2 := by
  obtain ⟨y, hy, hv, hnew⟩ := mem_moved.mp hentry
  rw [← hitems.same y (hbatch y hy) x hx (hnew.trans hkey), hv]

variable (map : K → Option V) (deleted : Bool)

theorem moveBatch_old :
    moveBatch old new map batch deleted (old x) =
      if deleted = true ∧ ∃ y ∈ batch, old y = old x then none else map (old x) := by
  have hput : putAll map (batch.filterMap fun y => (map (old y)).map fun v => (new y, v)) (old x) =
      map (old x) := by
    apply putAll_of_not_mem
    intro entry hentry
    obtain ⟨y, hy, -, hkey⟩ := mem_moved.mp hentry
    rw [← hkey]
    exact hitems.apart y (hbatch y hy) x hx
  cases deleted with
  | false => simp [moveBatch, hput]
  | true =>
      simp only [moveBatch, if_true, true_and, deleteAll, hput]
      cases hold : map (old x) with
      | none => rw [ite_self, ite_self]
      | some v =>
          refine if_congr ?_ rfl rfl
          rw [List.mem_map]
          constructor
          · intro ⟨y, hy, hkey⟩
            exact ⟨y, List.mem_of_mem_filter hy, hkey⟩
          · intro ⟨y, hy, hkey⟩
            exact ⟨y, List.mem_filter.mpr ⟨hy, by rw [hkey, hold]; rfl⟩, hkey⟩

theorem moveBatch_new :
    moveBatch old new map batch deleted (new x) =
      if (∃ y ∈ batch, new y = new x) ∧ (map (old x)).isSome = true then map (old x)
      else map (new x) := by
  rw [moveBatch, ite_deleteAll_of_not_mem]
  · by_cases hcopied : (∃ y ∈ batch, new y = new x) ∧ (map (old x)).isSome = true
    · obtain ⟨⟨y, hy, hkey⟩, hsome⟩ := hcopied
      obtain ⟨v, hv⟩ := Option.isSome_iff_exists.mp hsome
      have hold : map (old y) = some v := by
        rw [hitems.same y (hbatch y hy) x hx hkey, hv]
      rw [if_pos ⟨⟨y, hy, hkey⟩, hsome⟩, hv]
      apply putAll_of_mem
      · exact ⟨(new y, v), mem_moved.mpr ⟨y, hy, hold, rfl⟩, hkey⟩
      · intro entry hentry hentryKey
        have hvalue := moved_value hitems hbatch hx hentry hentryKey
        rw [hv] at hvalue
        exact (Option.some.inj hvalue).symm
    · rw [if_neg hcopied]
      apply putAll_of_not_mem
      intro entry hentry hkey
      obtain ⟨y, hy, -, hnew⟩ := mem_moved.mp hentry
      have hvalue := moved_value hitems hbatch hx hentry hkey
      exact hcopied ⟨⟨y, hy, hnew.trans hkey⟩, by rw [hvalue]; rfl⟩
  · rw [List.mem_map]
    intro ⟨y, hy, hkey⟩
    exact hitems.apart x hx y (hbatch y (List.mem_of_mem_filter hy)) hkey.symm

end

def Within (trace : List (List α × Bool)) (items : List α) : Prop :=
  ∀ batch ∈ trace, ∀ y ∈ batch.1, y ∈ items

theorem within_cons {batch : List α × Bool} {rest : List (List α × Bool)} :
    Within (batch :: rest) items ↔ (∀ y ∈ batch.1, y ∈ items) ∧ Within rest items := by
  simp [Within]

@[simp] theorem moveBatches_nil (map : K → Option V) : moveBatches old new map [] = map := rfl

@[simp] theorem moveBatches_cons (map : K → Option V) (batch : List α × Bool)
    (rest : List (List α × Bool)) :
    moveBatches old new map (batch :: rest) =
      moveBatches old new (moveBatch old new map batch.1 batch.2) rest := rfl

omit [DecidableEq K] in
theorem erased_cons {x : α} {batch : List α × Bool} {rest : List (List α × Bool)} :
    Erased old x (batch :: rest) ↔
      (batch.2 = true ∧ ∃ y ∈ batch.1, old y = old x) ∨ Erased old x rest := by
  simp [Erased]

section

variable (hitems : KeysApart old new items) {trace : List (List α × Bool)}
  (htrace : Within trace items) {x : α} (hx : x ∈ items) {map : K → Option V}

include hitems htrace hx

theorem moveBatches_old_none (hnone : map (old x) = none) :
    moveBatches old new map trace (old x) = none := by
  induction trace generalizing map with
  | nil => exact hnone
  | cons batch rest ih =>
      rw [within_cons] at htrace
      rw [moveBatches_cons]
      apply ih htrace.2
      rw [moveBatch_old hitems htrace.1 hx, hnone, ite_self]

variable {v : V}

theorem moveBatches_old (hold : map (old x) = some v) :
    moveBatches old new map trace (old x) = some v ↔ ¬ Erased old x trace := by
  induction trace generalizing map with
  | nil => simp [Erased, hold]
  | cons batch rest ih =>
      rw [within_cons] at htrace
      have hbatch := moveBatch_old hitems htrace.1 hx map batch.2
      rw [moveBatches_cons, erased_cons]
      by_cases hnow : batch.2 = true ∧ ∃ y ∈ batch.1, old y = old x
      · rw [if_pos hnow] at hbatch
        rw [moveBatches_old_none hitems htrace.2 hx hbatch]
        simp [hnow]
      · rw [if_neg hnow, hold] at hbatch
        have hrest := ih htrace.2 hbatch
        rw [hrest, or_iff_right hnow]

theorem moveBatches_new_stays (hstate : map (old x) = none ∨ map (old x) = map (new x)) :
    moveBatches old new map trace (new x) = map (new x) := by
  induction trace generalizing map with
  | nil => rfl
  | cons batch rest ih =>
      rw [within_cons] at htrace
      have hnew : moveBatch old new map batch.1 batch.2 (new x) = map (new x) := by
        rw [moveBatch_new hitems htrace.1 hx map batch.2]
        cases hstate with
        | inl hnone => simp [hnone]
        | inr heq => rw [heq, ite_self]
      rw [moveBatches_cons, ih htrace.2, hnew]
      rw [hnew, moveBatch_old hitems htrace.1 hx]
      split
      · exact .inl rfl
      · exact hstate

/-- The new key has the record exactly if it had it before, or if an item with that key
came before the old key was deleted. -/
theorem moveBatches_new (hold : map (old x) = some v) :
    moveBatches old new map trace (new x) = some v ↔
      Covered old new x trace ∨ map (new x) = some v := by
  induction trace generalizing map with
  | nil => simp [Covered]
  | cons batch rest ih =>
      rw [within_cons] at htrace
      have holdNext := moveBatch_old hitems htrace.1 hx map batch.2
      have hnewNext := moveBatch_new hitems htrace.1 hx map batch.2
      rw [moveBatches_cons, Covered]
      by_cases hhere : ∃ y ∈ batch.1, new y = new x
      · rw [if_pos ⟨hhere, by simp [hold]⟩, hold] at hnewNext
        rw [moveBatches_new_stays hitems htrace.2 hx, hnewNext]
        · simp [hhere]
        rw [holdNext, hnewNext, hold]
        split
        · exact .inl rfl
        · exact .inr rfl
      · rw [if_neg (fun h => hhere h.1)] at hnewNext
        by_cases hnow : batch.2 = true ∧ ∃ y ∈ batch.1, old y = old x
        · rw [if_pos hnow] at holdNext
          rw [moveBatches_new_stays hitems htrace.2 hx (.inl holdNext), hnewNext]
          simp [hhere, hnow]
        · rw [if_neg hnow, hold] at holdNext
          have hrest := ih htrace.2 holdNext
          rw [hrest, hnewNext, or_iff_right hhere, and_iff_right hnow]

end

@[simp] theorem putBatches_nil (map : K → Option α) : putBatches old new map [] = map := rfl

@[simp] theorem putBatches_cons (map : K → Option α) (batch : List α × Bool)
    (rest : List (List α × Bool)) :
    putBatches old new map (batch :: rest) =
      putBatches old new (putBatch old new map batch.1 batch.2) rest := rfl

theorem putBatches_new (hapart : ∀ x ∈ items, ∀ y ∈ items, new x ≠ old y)
    (hunique : ∀ x ∈ items, ∀ y ∈ items, new x = new y → x = y)
    {trace : List (List α × Bool)} (htrace : Within trace items) {x : α}
    (hx : x ∈ items) {map : K → Option α}
    (h : map (new x) = some x ∨ ∃ batch ∈ trace, x ∈ batch.1) :
    putBatches old new map trace (new x) = some x := by
  induction trace generalizing map with
  | nil => simpa using h
  | cons batch rest ih =>
      rw [within_cons] at htrace
      rw [putBatches_cons]
      apply ih htrace.2
      have hkept : new x ∉ batch.1.map old := by
        rw [List.mem_map]
        intro ⟨y, hy, hkey⟩
        exact hapart x hx y (htrace.1 y hy) hkey.symm
      rw [putBatch, ite_deleteAll_of_not_mem hkept]
      by_cases hmem : x ∈ batch.1
      · left
        apply putAll_of_mem
        · exact ⟨(new x, x), List.mem_map.mpr ⟨x, hmem, rfl⟩, rfl⟩
        · intro entry hentry hkey
          obtain ⟨y, hy, rfl⟩ := List.mem_map.mp hentry
          exact hunique y (htrace.1 y hy) x hx hkey
      · cases h with
        | inl hbefore =>
            left
            rw [putAll_of_not_mem, hbefore]
            intro entry hentry hkey
            obtain ⟨y, hy, rfl⟩ := List.mem_map.mp hentry
            rw [hunique y (htrace.1 y hy) x hx hkey] at hy
            exact hmem hy
        | inr hlater =>
            right
            obtain ⟨other, hother, hin⟩ := hlater
            cases List.mem_cons.mp hother with
            | inl heq => exact absurd (heq ▸ hin) hmem
            | inr hrest => exact ⟨other, hrest, hin⟩

end

end DataMgr.Foundation
