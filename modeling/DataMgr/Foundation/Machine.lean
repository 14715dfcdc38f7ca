import Mathlib

/-! # Interleaved machines

A machine takes labelled steps; `none` says that a label is not enabled in the
state. Runs are finite schedules of labels, so every statement about a run is a
statement about every interleaving. A guard restricts a run to schedules each of
whose steps meets a condition on its own pre-state.
-/

namespace DataMgr.Foundation

universe u v

structure Machine (σ : Type u) (α : Type v) where
  step : σ → α → Option σ

namespace Machine

variable {σ : Type u} {α : Type v} (M : Machine σ α)

def exec : σ → List α → Option σ
  | s, [] => some s
  | s, a :: rest => (M.step s a).bind fun s' => exec s' rest

/-- Every step of the schedule meets the guard in the state it is taken from. -/
def Guarded (guard : σ → α → Prop) : σ → List α → Prop
  | _, [] => True
  | s, a :: rest => guard s a ∧ ∀ s', M.step s a = some s' → Guarded guard s' rest

@[simp] theorem exec_nil (s : σ) : M.exec s [] = some s := rfl

theorem exec_cons_eq_some {s s' : σ} {a : α} {rest : List α} :
    M.exec s (a :: rest) = some s' ↔ ∃ t, M.step s a = some t ∧ M.exec t rest = some s' := by
  simp [exec, Option.bind_eq_some_iff]

theorem guarded_cons {guard : σ → α → Prop} {s t : σ} {a : α} {rest : List α} (hg : guard s a)
    (hstep : M.step s a = some t) (hrest : M.Guarded guard t rest) :
    M.Guarded guard s (a :: rest) := by
  constructor
  · exact hg
  · intro u hu
    rw [hstep] at hu
    cases hu
    exact hrest

theorem guarded_of_forall {guard : σ → α → Prop} (h : ∀ s a, guard s a) (s : σ)
    (schedule : List α) : M.Guarded guard s schedule := by
  induction schedule generalizing s with
  | nil => trivial
  | cons a rest ih => exact ⟨h s a, fun t _ => ih t⟩

theorem guarded_of_mem {allowed : α → Prop} {schedule : List α}
    (h : ∀ a ∈ schedule, allowed a) (s : σ) : M.Guarded (fun _ a => allowed a) s schedule := by
  induction schedule generalizing s with
  | nil => trivial
  | cons a rest ih =>
      constructor
      · exact h a List.mem_cons_self
      · intro t _
        exact ih (fun b hb => h b (List.mem_cons_of_mem a hb)) t

variable {M} in
theorem Guarded.and {g₁ g₂ : σ → α → Prop} {s : σ} {schedule : List α}
    (h₁ : M.Guarded g₁ s schedule) (h₂ : M.Guarded g₂ s schedule) :
    M.Guarded (fun s a => g₁ s a ∧ g₂ s a) s schedule := by
  induction schedule generalizing s with
  | nil => trivial
  | cons a rest ih => exact ⟨⟨h₁.1, h₂.1⟩, fun t ht => ih (h₁.2 t ht) (h₂.2 t ht)⟩

variable {M} in
theorem Guarded.mono {g₁ g₂ : σ → α → Prop} (h : ∀ s a, g₁ s a → g₂ s a) {s : σ}
    {schedule : List α} (hg : M.Guarded g₁ s schedule) : M.Guarded g₂ s schedule := by
  induction schedule generalizing s with
  | nil => trivial
  | cons a rest ih => exact ⟨h s a hg.1, fun t ht => ih (hg.2 t ht)⟩

variable {M} in
theorem Guarded.mono_of_invariant {g₁ g₂ : σ → α → Prop} {inv : σ → Prop}
    (hstep : ∀ s a s', inv s → g₁ s a → M.step s a = some s' → inv s')
    (h : ∀ s a, inv s → g₁ s a → g₂ s a) {s : σ} (hs : inv s) {schedule : List α}
    (hg : M.Guarded g₁ s schedule) : M.Guarded g₂ s schedule := by
  induction schedule generalizing s with
  | nil => trivial
  | cons a rest ih => exact ⟨h s a hs hg.1, fun t ht => ih (hstep s a t hs hg.1 ht) (hg.2 t ht)⟩

instance decidableGuarded (guard : σ → α → Prop) [∀ s a, Decidable (guard s a)] :
    (s : σ) → (schedule : List α) → Decidable (M.Guarded guard s schedule)
  | _, [] => isTrue trivial
  | s, a :: rest =>
      match h : M.step s a with
      | none => decidable_of_iff (guard s a) (by simp [Guarded, h])
      | some t =>
          have := decidableGuarded guard t rest
          decidable_of_iff (guard s a ∧ M.Guarded guard t rest) (by simp [Guarded, h])

/-- A property that every guarded step preserves holds at the end of every
guarded run, whatever the schedule. -/
theorem exec_guarded_invariant {guard : σ → α → Prop} {inv : σ → Prop}
    (hstep : ∀ s a s', inv s → guard s a → M.step s a = some s' → inv s')
    {s s' : σ} {schedule : List α} (hs : inv s) (hg : M.Guarded guard s schedule)
    (hrun : M.exec s schedule = some s') : inv s' := by
  induction schedule generalizing s with
  | nil =>
      cases hrun
      exact hs
  | cons a rest ih =>
      obtain ⟨t, ht, hrest⟩ := (M.exec_cons_eq_some).1 hrun
      exact ih (hstep s a t hs hg.1 ht) (hg.2 t ht) hrest

theorem exec_invariant {inv : σ → Prop}
    (hstep : ∀ s a s', inv s → M.step s a = some s' → inv s')
    {s s' : σ} {schedule : List α} (hs : inv s) (hrun : M.exec s schedule = some s') :
    inv s' :=
  M.exec_guarded_invariant (fun t a t' ht _ => hstep t a t' ht) hs
    (M.guarded_of_forall (fun _ _ => trivial) s schedule) hrun

end Machine

/-! ## Calls in progress

A pool is the list of calls that have started and not returned. One step moves
the call at an index to its next stage, or retires it.
-/

section

variable {κ : Type u}

/-- A call has joined the pool. -/
theorem mem_concat {calls : List κ} {c d : κ} : d ∈ calls ++ [c] ↔ d ∈ calls ∨ d = c := by
  simp

/-- Move the call at `i` to `next`, or retire it when `next` is `none`. -/
def advance (calls : List κ) (i : Nat) : Option κ → List κ
  | some c => calls.set i c
  | none => calls.eraseIdx i

theorem mem_advance {calls : List κ} {i : Nat} {next : Option κ} {c : κ}
    (h : c ∈ advance calls i next) : next = some c ∨ c ∈ calls := by
  cases next with
  | none => exact .inr (List.mem_of_mem_eraseIdx h)
  | some d =>
      rcases List.mem_or_eq_of_mem_set h with h | h
      · exact .inr h
      · exact .inl (by rw [h])

theorem mem_advance_self {calls : List κ} {i : Nat} {c d : κ} (h : calls[i]? = some c) :
    d ∈ advance calls i (some d) := by
  obtain ⟨hi, -⟩ := List.getElem?_eq_some_iff.mp h
  exact List.mem_set hi d

theorem mem_advance_of_ne {calls : List κ} {i : Nat} {next : Option κ} {c d : κ}
    (h : calls[i]? = some c) (hd : d ∈ calls) (hne : d ≠ c) : d ∈ advance calls i next := by
  obtain ⟨j, hj⟩ := List.getElem?_of_mem hd
  have hij : i ≠ j := by
    rintro rfl
    exact hne (Option.some.inj (hj.symm.trans h))
  cases next with
  | none =>
      rw [advance, List.mem_eraseIdx_iff_getElem?]
      exact ⟨j, Ne.symm hij, hj⟩
  | some e =>
      rw [advance, List.mem_iff_getElem?]
      exact ⟨j, by rw [List.getElem?_set_ne hij, hj]⟩

theorem exists_advance {calls : List κ} {i : Nat} {c : κ} (h : calls[i]? = some c) :
    ∃ before after, calls = before ++ c :: after ∧
      ∀ next, advance calls i next = before ++ (next.toList ++ after) := by
  induction calls generalizing i with
  | nil => cases h
  | cons d rest ih =>
      cases i with
      | zero =>
          cases h
          refine ⟨[], rest, rfl, fun next => ?_⟩
          cases next <;> rfl
      | succ i =>
          obtain ⟨before, after, hrest, hadvance⟩ := ih h
          refine ⟨d :: before, after, by rw [hrest, List.cons_append], fun next => ?_⟩
          rw [List.cons_append, ← hadvance next]
          cases next <;> rfl

/-- What the calls hold together: a move takes away what the call held and adds what
its next stage holds. -/
theorem sum_advance (w : κ → Nat) {calls : List κ} {i : Nat} {c : κ} (next : Option κ)
    (h : calls[i]? = some c) :
    ((advance calls i next).map w).sum + w c = (calls.map w).sum + next.elim 0 w := by
  obtain ⟨before, after, rfl, hadvance⟩ := exists_advance h
  have hnext : (next.toList.map w).sum = next.elim 0 w := by
    cases next <;> simp
  rw [hadvance next]
  simp only [List.map_append, List.sum_append, List.map_cons, List.sum_cons, hnext]
  omega

theorem add_le_sum_of_mem [DecidableEq κ] (w : κ → Nat) {calls : List κ} {c d : κ} (hc : c ∈ calls)
    (hd : d ∈ calls) (hne : d ≠ c) : w c + w d ≤ (calls.map w).sum := by
  have hsum := ((List.perm_cons_erase hc).map w).sum_eq
  have hrest : d ∈ calls.erase c := (List.mem_erase_of_ne hne).mpr hd
  have hle := List.le_sum_of_mem (List.mem_map_of_mem (f := w) hrest)
  rw [hsum, List.map_cons, List.sum_cons]
  omega

/-! ### Dated reads

A call that reads and writes later is dated with the number of writes before its read. As long as
the count stands, what it has read is up to date.
-/

variable {P Q : κ → Prop} {calls : List (κ × Nat)} {writes : Nat}

/-- The calls no write has overtaken still have the property. -/
def Fresh (P : κ → Prop) (calls : List (κ × Nat)) (writes : Nat) : Prop :=
  ∀ c ∈ calls, c.2 ≤ writes ∧ (c.2 = writes → P c.1)

theorem Fresh.mono (hPQ : ∀ c, P c → Q c) (h : Fresh P calls writes) : Fresh Q calls writes :=
  fun c hc => ⟨(h c hc).1, fun hdate => hPQ c.1 ((h c hc).2 hdate)⟩

theorem Fresh.read (h : Fresh P calls writes) {c : κ} (hc : P c) :
    Fresh P (calls ++ [(c, writes)]) writes := by
  intro d hd
  rcases mem_concat.mp hd with hd | rfl
  · exact h d hd
  · exact ⟨le_refl _, fun _ => hc⟩

theorem Fresh.retire (h : Fresh P calls writes) (i : Nat) : Fresh P (calls.eraseIdx i) writes :=
  fun c hc => h c (List.mem_of_mem_eraseIdx hc)

/-- A write overtakes every other call. -/
theorem Fresh.write (h : Fresh P calls writes) (Q : κ → Prop) : Fresh Q calls (writes + 1) :=
  fun c hc => ⟨Nat.le_succ_of_le (h c hc).1, fun hdate => absurd (h c hc).1 (by omega)⟩

end

end DataMgr.Foundation
