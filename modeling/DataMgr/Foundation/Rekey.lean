import Mathlib

/-! # Renaming the keys of a map

A renaming takes each source key to a target key, and no target is a source. Records are
moved one at a time: a step names candidates, and the first of them that has a record is
moved. Whether a record is moved in the end depends only on the map at the start and on
the candidates, since a step never puts anything under a source key.
-/

namespace DataMgr.Foundation

universe u v w

structure Renaming (R : Type u) (K : Type v) where
  src : R → K
  dst : R → K
  apart : ∀ r r', dst r ≠ src r'
  same : ∀ r r', src r = src r' ↔ dst r = dst r'

section

variable {K : Type v} {V : Type w} [DecidableEq K]

/-- A record, if there is one, is saved under its new key and then deleted under the old
one. -/
def moveRecord (f : V → V) (map : K → Option V) (old new : K) : K → Option V :=
  match map old with
  | none => map
  | some v => Function.update (Function.update map new (some (f v))) old none

/-- The first of the old keys that has a record is deleted, and the record is saved under
its new key. -/
def moveFirst (f : V → V) (map : K → Option V) : List (K × K) → K → Option V
  | [] => map
  | (old, new) :: rest =>
      match map old with
      | none => moveFirst f map rest
      | some v => Function.update (Function.update map old none) new (some (f v))

/-- A record whose keys are known is saved under the new one and deleted under the old. -/
def replaceRecord (map : K → Option V) (old new : K) (v : V) : K → Option V :=
  Function.update (Function.update map new (some v)) old none

variable {old : K}

theorem moveFirst_of_none {f : V → V} {map : K → Option V} (h : map old = none) (new : K)
    (rest : List (K × K)) : moveFirst f map ((old, new) :: rest) = moveFirst f map rest := by
  rw [moveFirst, h]

theorem moveFirst_of_some {f : V → V} {map : K → Option V} {v : V} (h : map old = some v) (new : K)
    (rest : List (K × K)) :
    moveFirst f map ((old, new) :: rest) =
      Function.update (Function.update map old none) new (some (f v)) := by
  rw [moveFirst, h]

/-- The two writes are to different keys, so their order does not matter. -/
theorem moveRecord_eq_moveFirst (f : V → V) (map : K → Option V) {new : K} (h : new ≠ old) :
    moveRecord f map old new = moveFirst f map [(old, new)] := by
  simp only [moveRecord, moveFirst]
  split
  · rfl
  · exact Function.update_comm h _ _ _

end

section

variable {R : Type u} {K : Type v} {V : Type w}

/-- A search through the candidates comes to the key of `r`. -/
def Reaches (src : R → K) (gone : R → Prop) : List R → R → Prop
  | [], _ => False
  | candidate :: rest, r => src candidate = src r ∨ (gone candidate ∧ Reaches src gone rest r)

/-- The record of `r` is moved by one of the steps, given with the last one first. A
candidate is passed over if it had no record or if its record is moved before. -/
def Taken (src : R → K) (map : K → Option V) : List (List R) → R → Prop
  | [], _ => False
  | candidates :: earlier, r =>
      Taken src map earlier r ∨
        Reaches src (fun c => map (src c) = none ∨ Taken src map earlier c) candidates r

/-- Every record is under its new key, changed by `f`, and nothing is under an old one. -/
def Renaming.Done (ρ : Renaming R K) (f : V → V) (map map' : K → Option V) : Prop :=
  (∀ r v, map (ρ.src r) = some v → map' (ρ.dst r) = some (f v)) ∧ ∀ r, map' (ρ.src r) = none

theorem reaches_congr (src : R → K) {gone gone' : R → Prop} (h : ∀ c, gone c ↔ gone' c)
    (candidates : List R) (r : R) :
    Reaches src gone candidates r ↔ Reaches src gone' candidates r := by
  induction candidates with
  | nil => rfl
  | cons candidate rest ih => rw [Reaches, Reaches, h, ih]

theorem taken_singletons (src : R → K) (map : K → Option V) (tails : List R) (r : R) :
    Taken src map (tails.map fun t => [t]) r ↔ ∃ t ∈ tails, src t = src r := by
  induction tails with
  | nil => simp [Taken]
  | cons t rest ih =>
      rw [List.map_cons, Taken, ih]
      simp only [Reaches, and_false, or_false, List.mem_cons, exists_eq_or_imp]
      exact or_comm

end

open Renaming

section

variable {R : Type u} {K : Type v} {V : Type w} [DecidableEq K] (ρ : Renaming R K) (f : V → V)

def Renaming.pair (r : R) : K × K := (ρ.src r, ρ.dst r)

def Renaming.moveFirsts (map : K → Option V) (steps : List (List R)) : K → Option V :=
  steps.foldl (fun map candidates => moveFirst f map (candidates.map ρ.pair)) map

variable {ρ f} {map : K → Option V} {r : R}

omit [DecidableEq K] in
theorem Renaming.pair_cons (candidate : R) (rest : List R) :
    (candidate :: rest).map ρ.pair = (ρ.src candidate, ρ.dst candidate) :: rest.map ρ.pair := rfl

variable {candidates : List R}

theorem moveFirst_src :
    (Reaches ρ.src (fun c => map (ρ.src c) = none) candidates r →
        moveFirst f map (candidates.map ρ.pair) (ρ.src r) = none) ∧
      (¬ Reaches ρ.src (fun c => map (ρ.src c) = none) candidates r →
        moveFirst f map (candidates.map ρ.pair) (ρ.src r) = map (ρ.src r)) := by
  induction candidates with
  | nil => exact ⟨False.elim, fun _ => rfl⟩
  | cons candidate rest ih =>
      rw [pair_cons, Reaches]
      cases hc : map (ρ.src candidate) with
      | none =>
          rw [moveFirst_of_none hc, and_iff_right rfl]
          refine ⟨fun h => ?_, fun h => ih.2 fun hrest => h (.inr hrest)⟩
          by_cases hrest : Reaches ρ.src (fun c => map (ρ.src c) = none) rest r
          · exact ih.1 hrest
          · rw [ih.2 hrest, ← h.resolve_right hrest, hc]
      | some v =>
          rw [moveFirst_of_some hc, Function.update_of_ne (ρ.apart _ _).symm]
          refine ⟨fun h => ?_,
            fun h => Function.update_of_ne (fun hsame => h (.inl hsame.symm)) _ _⟩
          rw [h.resolve_right nofun, Function.update_self]

theorem moveFirst_src_of_none (candidates : List R) (h : map (ρ.src r) = none) :
    moveFirst f map (candidates.map ρ.pair) (ρ.src r) = none := by
  by_cases hreaches : Reaches ρ.src (fun c => map (ρ.src c) = none) candidates r
  · exact moveFirst_src.1 hreaches
  · rw [moveFirst_src.2 hreaches, h]

theorem moveFirst_dst_of_none (candidates : List R) (h : map (ρ.src r) = none) :
    moveFirst f map (candidates.map ρ.pair) (ρ.dst r) = map (ρ.dst r) := by
  induction candidates with
  | nil => rfl
  | cons candidate rest ih =>
      rw [pair_cons]
      cases hc : map (ρ.src candidate) with
      | none => rw [moveFirst_of_none hc, ih]
      | some v =>
          have hne : ρ.dst r ≠ ρ.dst candidate := by
            intro hsame
            rw [(ρ.same r candidate).mpr hsame, hc] at h
            cases h
          rw [moveFirst_of_some hc, Function.update_of_ne hne, Function.update_of_ne (ρ.apart _ _)]

theorem moveFirst_dst_of_reaches {v : V} (hv : map (ρ.src r) = some v)
    (h : Reaches ρ.src (fun c => map (ρ.src c) = none) candidates r) :
    moveFirst f map (candidates.map ρ.pair) (ρ.dst r) = some (f v) := by
  induction candidates with
  | nil => cases h
  | cons candidate rest ih =>
      cases h with
      | inl hsame =>
          have hc : map (ρ.src candidate) = some v := by rw [hsame, hv]
          rw [pair_cons, moveFirst_of_some hc, (ρ.same candidate r).mp hsame,
            Function.update_self]
      | inr hrest => rw [pair_cons, moveFirst_of_none hrest.1, ih hrest.2]

variable (map)

variable (steps : List (List R))

theorem Renaming.moveFirsts_append (candidates : List R) :
    ρ.moveFirsts f map (steps ++ [candidates]) =
      moveFirst f (ρ.moveFirsts f map steps) (candidates.map ρ.pair) := by
  simp [moveFirsts]

theorem Renaming.moveFirsts_src (r : R) :
    (Taken ρ.src map steps.reverse r → ρ.moveFirsts f map steps (ρ.src r) = none) ∧
      (¬ Taken ρ.src map steps.reverse r →
        ρ.moveFirsts f map steps (ρ.src r) = map (ρ.src r)) := by
  induction steps using List.reverseRecOn generalizing r with
  | nil => simp [Taken, moveFirsts]
  | append_singleton earlier candidates ih =>
      have hgone : ∀ c, ρ.moveFirsts f map earlier (ρ.src c) = none ↔
          map (ρ.src c) = none ∨ Taken ρ.src map earlier.reverse c := by
        intro c
        by_cases htaken : Taken ρ.src map earlier.reverse c
        · simp [(ih c).1 htaken, htaken]
        · simp [(ih c).2 htaken, htaken]
      have hreaches := reaches_congr ρ.src hgone candidates r
      rw [List.reverse_append, List.reverse_singleton, List.singleton_append, Taken,
        moveFirsts_append, ← hreaches]
      constructor
      · intro h
        cases h with
        | inl hearlier => exact moveFirst_src_of_none candidates ((ih r).1 hearlier)
        | inr hnow => exact moveFirst_src.1 hnow
      · intro h
        rw [not_or] at h
        rw [moveFirst_src.2 h.2, (ih r).2 h.1]

theorem Renaming.moveFirsts_src_eq_none (r : R) :
    ρ.moveFirsts f map steps (ρ.src r) = none ↔
      map (ρ.src r) = none ∨ Taken ρ.src map steps.reverse r := by
  have hsrc := moveFirsts_src (ρ := ρ) (f := f) map steps r
  by_cases htaken : Taken ρ.src map steps.reverse r
  · simp [hsrc.1 htaken, htaken]
  · simp [hsrc.2 htaken, htaken]

theorem Renaming.moveFirsts_dst {r : R} {v : V} (hv : map (ρ.src r) = some v)
    (h : Taken ρ.src map steps.reverse r) : ρ.moveFirsts f map steps (ρ.dst r) = some (f v) := by
  induction steps using List.reverseRecOn with
  | nil => simp [Taken] at h
  | append_singleton earlier candidates ih =>
      have hgone := moveFirsts_src_eq_none (ρ := ρ) (f := f) map earlier
      have hreaches := reaches_congr ρ.src hgone candidates r
      rw [List.reverse_append, List.reverse_singleton, List.singleton_append, Taken,
        ← hreaches] at h
      rw [moveFirsts_append]
      by_cases hearlier : Taken ρ.src map earlier.reverse r
      · rw [moveFirst_dst_of_none candidates ((hgone r).mpr (.inr hearlier)), ih hearlier]
      · have hthere := (moveFirsts_src (ρ := ρ) (f := f) map earlier r).2 hearlier
        rw [hv] at hthere
        exact moveFirst_dst_of_reaches hthere (h.resolve_left hearlier)

theorem Renaming.done_moveFirsts_iff :
    ρ.Done f map (ρ.moveFirsts f map steps) ↔
      ∀ r, map (ρ.src r) ≠ none → Taken ρ.src map steps.reverse r := by
  constructor
  · intro h r hsome
    exact ((moveFirsts_src_eq_none map steps r).mp (h.2 r)).resolve_left hsome
  · intro h
    constructor
    · intro r v hv
      exact moveFirsts_dst map steps hv (h r (by simp [hv]))
    · intro r
      rw [moveFirsts_src_eq_none]
      by_cases hnone : map (ρ.src r) = none
      · exact .inl hnone
      · exact .inr (h r hnone)

/-- If the run changes the records by `g`, then it has changed them by `f` exactly if it is
the same for the records that were there. -/
theorem Renaming.done_moveFirsts_congr (f g : V → V) (steps : List (List R)) :
    ρ.Done f map (ρ.moveFirsts g map steps) ↔
      ρ.Done g map (ρ.moveFirsts g map steps) ∧ ∀ r v, map (ρ.src r) = some v → g v = f v := by
  have hdst : (∀ r, ρ.moveFirsts g map steps (ρ.src r) = none) → ∀ r v,
      map (ρ.src r) = some v → ρ.moveFirsts g map steps (ρ.dst r) = some (g v) := by
    intro hgone r v hv
    have htaken := (moveFirsts_src_eq_none map steps r).mp (hgone r)
    exact moveFirsts_dst map steps hv (htaken.resolve_left (by simp [hv]))
  constructor
  · intro h
    refine ⟨⟨hdst h.2, h.2⟩, ?_⟩
    intro r v hv
    have hboth := h.1 r v hv
    rw [hdst h.2 r v hv] at hboth
    exact Option.some.inj hboth
  · intro h
    refine ⟨?_, h.1.2⟩
    intro r v hv
    rw [h.1.1 r v hv, h.2 r v hv]

end

/-! ## Records that know their keys

Each record has its key in it. A query finds the records and every one is saved under its
new key and deleted under its old one.
-/

section

variable {R : Type u} {K : Type v} {V : Type w} [DecidableEq K] (ρ : Renaming R K) (tail : V → R)
  (f : V → V)

def Renaming.replaceAll (map : K → Option V) (found : List V) : K → Option V :=
  found.foldl (fun map v => replaceRecord map (ρ.src (tail v)) (ρ.dst (tail v)) (f v)) map

variable {ρ tail f} (map : K → Option V)

theorem Renaming.replaceAll_cons (v : V) (rest : List V) :
    ρ.replaceAll tail f map (v :: rest) =
      ρ.replaceAll tail f (replaceRecord map (ρ.src (tail v)) (ρ.dst (tail v)) (f v)) rest := rfl

theorem replaceRecord_src (t r : R) (v : V) :
    replaceRecord map (ρ.src t) (ρ.dst t) v (ρ.src r) =
      if ρ.src t = ρ.src r then none else map (ρ.src r) := by
  rw [replaceRecord]
  by_cases hsame : ρ.src t = ρ.src r
  · rw [if_pos hsame, hsame, Function.update_self]
  · rw [if_neg hsame, Function.update_of_ne (Ne.symm hsame),
      Function.update_of_ne (ρ.apart _ _).symm]

theorem replaceRecord_dst (t r : R) (v : V) :
    replaceRecord map (ρ.src t) (ρ.dst t) v (ρ.dst r) =
      if ρ.src t = ρ.src r then some v else map (ρ.dst r) := by
  rw [replaceRecord, Function.update_of_ne (ρ.apart _ _)]
  by_cases hsame : ρ.src t = ρ.src r
  · rw [if_pos hsame, (ρ.same t r).mp hsame, Function.update_self]
  have hne : ρ.dst r ≠ ρ.dst t := by
    intro h
    exact hsame ((ρ.same r t).mpr h).symm
  rw [if_neg hsame, Function.update_of_ne hne]

theorem Renaming.replaceAll_append (earlier : List V) (v : V) :
    ρ.replaceAll tail f map (earlier ++ [v]) =
      replaceRecord (ρ.replaceAll tail f map earlier) (ρ.src (tail v)) (ρ.dst (tail v)) (f v) := by
  simp [replaceAll]

theorem Renaming.replaceAll_src_eq_none (found : List V) (r : R) :
    ρ.replaceAll tail f map found (ρ.src r) = none ↔
      map (ρ.src r) = none ∨ ∃ v ∈ found, ρ.src (tail v) = ρ.src r := by
  induction found using List.reverseRecOn with
  | nil => simp [replaceAll]
  | append_singleton earlier v ih =>
      rw [replaceAll_append, replaceRecord_src]
      by_cases hsame : ρ.src (tail v) = ρ.src r
      · simp [hsame]
      · rw [if_neg hsame, ih]
        simp [hsame]

theorem Renaming.replaceAll_dst {found : List V} {r : R}
    (h : ∃ v ∈ found, ρ.src (tail v) = ρ.src r) :
    ∃ v ∈ found, ρ.src (tail v) = ρ.src r ∧
      ρ.replaceAll tail f map found (ρ.dst r) = some (f v) := by
  induction found using List.reverseRecOn with
  | nil => simp at h
  | append_singleton earlier v ih =>
      rw [replaceAll_append, replaceRecord_dst]
      by_cases hsame : ρ.src (tail v) = ρ.src r
      · exact ⟨v, by simp, hsame, by rw [if_pos hsame]⟩
      have hearlier : ∃ x ∈ earlier, ρ.src (tail x) = ρ.src r := by
        obtain ⟨x, hx, hkey⟩ := h
        cases List.mem_append.mp hx with
        | inl hin => exact ⟨x, hin, hkey⟩
        | inr hlast =>
            rw [List.mem_singleton.mp hlast] at hkey
            exact absurd hkey hsame
      obtain ⟨x, hx, hkey, hvalue⟩ := ih hearlier
      exact ⟨x, by simp [hx], hkey, by rw [if_neg hsame, hvalue]⟩

variable {map}

/-- If the query finds exactly the records under source keys that it asks for, among them
every record under its own key, then everything is renamed exactly if every record is
under its own key. -/
theorem Renaming.done_replaceAll_iff {found : List V} (asked : K → Prop)
    (hasked : ∀ k, asked k → ∃ r, k = ρ.src r) (hown : ∀ v, asked (ρ.src (tail v)))
    (htail : ∀ v v', f v = f v' → tail v = tail v')
    (hfound : ∀ v, v ∈ found ↔ ∃ k, asked k ∧ map k = some v) :
    ρ.Done f map (ρ.replaceAll tail f map found) ↔
      ∀ r v, map (ρ.src r) = some v → ρ.src (tail v) = ρ.src r := by
  constructor
  · intro h r v hv
    have hdeleted := ((replaceAll_src_eq_none map found r).mp (h.2 r)).resolve_left
      (by simp [hv])
    obtain ⟨x, -, hkey, hvalue⟩ := replaceAll_dst (f := f) map hdeleted
    rw [h.1 r v hv] at hvalue
    rw [htail v x (Option.some.inj hvalue), hkey]
  · intro hkeys
    have hmem : ∀ r v, map (ρ.src r) = some v → v ∈ found := by
      intro r v hv
      refine (hfound v).mpr ⟨ρ.src r, ?_, hv⟩
      rw [← hkeys r v hv]
      exact hown v
    constructor
    · intro r v hv
      obtain ⟨x, hx, hkey, hvalue⟩ :=
        replaceAll_dst (f := f) map ⟨v, hmem r v hv, hkeys r v hv⟩
      obtain ⟨k, hk, hxk⟩ := (hfound x).mp hx
      obtain ⟨r', rfl⟩ := hasked k hk
      rw [← hkeys r' x hxk, hkey, hv] at hxk
      rw [hvalue, Option.some.inj hxk]
    · intro r
      rw [replaceAll_src_eq_none]
      cases hv : map (ρ.src r) with
      | none => exact .inl rfl
      | some v => exact .inr ⟨v, hmem r v hv, hkeys r v hv⟩

end

end DataMgr.Foundation
