import Mathlib

/-! # Caches keyed by a part of the request

A cache keeps, under the key of a request, what was obtained for it. Another request with the same
key is answered with it, which is right if the two agree on what matters. The request an entry
was obtained for is kept beside the entry.
-/

namespace DataMgr.Foundation

universe u v w

/-- What is kept under each key, with the request it was obtained for. -/
abbrev RequestCache (κ : Type u) (ρ : Type v) (ν : Type w) := κ → Option (ρ × ν)

namespace RequestCache

variable {κ : Type u} {ρ : Type v} {ν : Type w} {key : ρ → κ} {R : Set ρ}
  {cache : RequestCache κ ρ ν}

/-- Every entry was obtained for a request of the set and is kept under its key. -/
def Filed (key : ρ → κ) (R : Set ρ) (cache : RequestCache κ ρ ν) : Prop :=
  ∀ k r v, cache k = some (r, v) → r ∈ R ∧ key r = k

theorem filed_empty : Filed key R (fun _ => none : RequestCache κ ρ ν) :=
  fun _ _ _ h => nomatch h

variable (h : Filed key R cache)

include h

theorem Filed.update [DecidableEq κ] {k : κ} {entry : Option (ρ × ν)}
    (hentry : ∀ r v, entry = some (r, v) → r ∈ R ∧ key r = k) :
    Filed key R (Function.update cache k entry) := by
  intro k' r v hfound
  by_cases hk : k' = k
  · subst hk
    rw [Function.update_self] at hfound
    exact hentry r v hfound
  · rw [Function.update_of_ne hk] at hfound
    exact h k' r v hfound

theorem Filed.insert [DecidableEq κ] {r : ρ} (hr : r ∈ R) (v : ν) :
    Filed key R (Function.update cache (key r) (some (r, v))) := by
  apply h.update
  rintro r' v' ⟨⟩
  exact ⟨hr, rfl⟩

theorem Filed.erase [DecidableEq κ] (k : κ) : Filed key R (Function.update cache k none) :=
  h.update fun _ _ hnone => nomatch hnone

theorem Filed.filter (keep : κ → ρ × ν → Bool) : Filed key R fun k => (cache k).filter (keep k) :=
  fun k r v hfound => h k r v (Option.filter_eq_some_iff.mp hfound).1

/-- If the key decides what matters, a hit is as good as the request's own answer. -/
theorem Filed.agree {π : Type*} {part : ρ → π}
    (hkey : ∀ r ∈ R, ∀ r' ∈ R, key r = key r' → part r = part r') {r r' : ρ} {v : ν} (hr : r ∈ R)
    (hfound : cache (key r) = some (r', v)) : part r' = part r :=
  hkey r' (h _ _ _ hfound).1 r hr (h _ _ _ hfound).2

end RequestCache

end DataMgr.Foundation
