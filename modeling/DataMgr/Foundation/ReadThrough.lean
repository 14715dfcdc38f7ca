import DataMgr.Foundation.Machine

/-! # Read-through caches with invalidation

A reader that misses fetches from the store and fills the cache, in two steps. A
writer is a program of store writes and cache invalidations. Calls interleave
freely, so a fill can land after the value it carries has been overwritten; the
coherence rule says which fills are harmless.
-/

namespace DataMgr.Foundation.ReadThrough

universe u v w

variable {γ : Type u} {K : Type v} {V : Type v} {R : Type w}

/-- A bounded cache: `content` is what it holds, and any operation may evict. -/
structure CacheOps (γ : Type u) (K V : Type v) where
  get : γ → K → Option V × γ
  set : γ → K → V → γ
  delete : γ → K → γ
  content : γ → K → Option V

structure CacheOps.Lawful (ops : CacheOps γ K V) : Prop where
  get_result : ∀ c k, (ops.get c k).1 = ops.content c k
  get_content : ∀ {c k l v}, ops.content (ops.get c k).2 l = some v → ops.content c l = some v
  set_content : ∀ {c k v l v'}, ops.content (ops.set c k v) l = some v' →
    l = k ∧ v' = v ∨ l ≠ k ∧ ops.content c l = some v'
  delete_content : ∀ {c k l v}, ops.content (ops.delete c k) l = some v →
    l ≠ k ∧ ops.content c l = some v

/-- What one atomic store write does to each key: nothing, remove, or put. -/
abbrev Write (K V : Type v) := K → Option (Option V)

def Write.apply (write : Write K V) (store : K → Option V) : K → Option V :=
  fun k => (write k).getD (store k)

inductive Op (K V : Type v) where
  | drop (k : K)
  | write (w : Write K V)

/-- A reader before its lookup, its fetch or its fill, or the rest of a writer. -/
inductive Call (K V : Type v) where
  | lookup (k : K)
  | fetch (k : K)
  | fill (k : K) (v : V)
  | mutate (ops : List (Op K V))

structure State (γ : Type u) (K V : Type v) where
  store : K → Option V
  cache : γ
  calls : List (Call K V)

variable (ops : CacheOps γ K V) (s : State γ K V)

/-- Run the next action of a call; `none` says that the call returns. -/
def Call.run (store : K → Option V) (cache : γ) :
    Call K V → (K → Option V) × γ × Option (Call K V)
  | .lookup k =>
      let (found, cache) := ops.get cache k
      (store, cache, if found.isSome then none else some (.fetch k))
  | .fetch k => (store, cache, (store k).map (.fill k))
  | .fill k v => (store, ops.set cache k v, none)
  | .mutate [] => (store, cache, none)
  | .mutate (.drop k :: rest) => (store, ops.delete cache k, some (.mutate rest))
  | .mutate (.write w :: rest) => (w.apply store, cache, some (.mutate rest))

inductive Action (R : Type w) where
  | start (request : R)
  | step (i : Nat)

def machine (entry : R → Call K V) : Machine (State γ K V) (Action R) where
  step s
    | .start request => some { s with calls := s.calls ++ [entry request] }
    | .step i =>
        match s.calls[i]? with
        | none => none
        | some call =>
            let (store, cache, next) := call.run ops s.store s.cache
            some { store := store, cache := cache, calls := advance s.calls i next }

def Call.WillDrop (k : K) : Call K V → Prop
  | .mutate ops => .drop k ∈ ops
  | _ => False

def Call.WillWrite (k : K) : Call K V → Prop
  | .mutate ops => ∃ w, .write w ∈ ops ∧ w k ≠ none
  | _ => False

open Call

theorem willWrite_cons {k : K} {rest : List (Op K V)} (op : Op K V)
    (h : (mutate rest).WillWrite k) : (mutate (op :: rest)).WillWrite k := by
  obtain ⟨w, hmem, hw⟩ := h
  exact ⟨w, List.mem_cons_of_mem _ hmem, hw⟩

theorem willDrop_of_willWrite {program : List (Op K V)} {write : Write K V}
    (honly : ∀ w, .write w ∈ program → w = write)
    (hdrops : ∀ k, write k ≠ none → .drop k ∈ program) {k : K}
    (h : (mutate program).WillWrite k) : (mutate program).WillDrop k := by
  obtain ⟨w, hmem, hw⟩ := h
  rw [honly w hmem] at hw
  exact hdrops k hw

namespace State

/-- A cached pair is harmless if a call in progress will still drop the key, or if
the store holds the value and no call in progress will still write the key. -/
def Harmless (k : K) (v : V) : Prop :=
  (∃ call ∈ s.calls, call.WillDrop k) ∨
    s.store k = some v ∧ ∀ call ∈ s.calls, ¬ call.WillWrite k

def Coherent : Prop :=
  ∀ k v, ops.content s.cache k = some v → s.Harmless k v

/-- The condition on one step: a fill carries a harmless pair. -/
def FillGuard : Action R → Prop
  | .start _ => True
  | .step i => ∀ k v, s.calls[i]? = some (.fill k v) → s.Harmless k v

variable {s : State γ K V} {k : K} {v : V} {i : Nat}

theorem Coherent.idle {ops : CacheOps γ K V} (h : s.Coherent ops) (hidle : s.calls = [])
    (hcached : ops.content s.cache k = some v) :
    s.store k = some v := by
  rcases h k v hcached with ⟨call, hmem, -⟩ | ⟨hstore, -⟩
  · rw [hidle] at hmem
    cases hmem
  · exact hstore

theorem Harmless.start (h : s.Harmless k v) {call : Call K V}
    (hdiscipline : call.WillWrite k → call.WillDrop k) :
    Harmless { s with calls := s.calls ++ [call] } k v := by
  by_cases hdrop : call.WillDrop k
  · exact .inl ⟨call, by simp, hdrop⟩
  rcases h with ⟨other, hmem, hother⟩ | ⟨hstore, hwrite⟩
  · exact .inl ⟨other, List.mem_append_left _ hmem, hother⟩
  refine .inr ⟨hstore, fun other hmem => ?_⟩
  rcases List.mem_append.mp hmem with hmem | hmem
  · exact hwrite other hmem
  · rw [List.mem_singleton.mp hmem]
    exact fun hw => hdrop (hdiscipline hw)

/-- A moved call keeps a pair harmless if it keeps its promise to drop the key and
touches the key in the store only where it had announced to. -/
theorem Harmless.advance (h : s.Harmless k v) {call : Call K V} (hcall : s.calls[i]? = some call)
    {store : K → Option V} {cache : γ} {next : Option (Call K V)}
    (hdrop : call.WillDrop k → ∃ after, next = some after ∧ after.WillDrop k)
    (hstore : ¬ call.WillWrite k → store k = s.store k)
    (hwrite : ∀ after, next = some after → after.WillWrite k → call.WillWrite k) :
    Harmless ⟨store, cache, advance s.calls i next⟩ k v := by
  rcases h with ⟨other, hmem, hother⟩ | ⟨hvalue, hquiet⟩
  · by_cases heq : other = call
    · subst heq
      obtain ⟨after, rfl, hafter⟩ := hdrop hother
      exact .inl ⟨after, mem_advance_self hcall, hafter⟩
    · exact .inl ⟨other, mem_advance_of_ne hcall hmem heq, hother⟩
  · have hcallQuiet := hquiet call (List.mem_of_getElem? hcall)
    refine .inr ⟨(hstore hcallQuiet).trans hvalue, fun other hmem => ?_⟩
    rcases mem_advance hmem with hnext | hmem
    · exact fun hw => hcallQuiet (hwrite other hnext hw)
    · exact hquiet other hmem

theorem Harmless.drop (h : s.Harmless k v) {l : K} {rest : List (Op K V)}
    (hcall : s.calls[i]? = some (.mutate (.drop l :: rest))) (hne : k ≠ l) {cache : γ} :
    Harmless ⟨s.store, cache, Foundation.advance s.calls i (some (.mutate rest))⟩ k v := by
  refine h.advance hcall ?_ (fun _ => rfl) ?_
  · intro hd
    rcases List.mem_cons.mp hd with heq | hd
    · cases heq
      exact absurd rfl hne
    · exact ⟨_, rfl, hd⟩
  · intro after hnext hw
    cases hnext
    exact willWrite_cons _ hw

/-- A write keeps a pair harmless: it was announced, so the key was to be dropped. -/
theorem Harmless.write (h : s.Harmless k v) {w : Write K V} {rest : List (Op K V)}
    (hcall : s.calls[i]? = some (.mutate (.write w :: rest))) :
    Harmless ⟨w.apply s.store, s.cache, Foundation.advance s.calls i (some (.mutate rest))⟩
      k v := by
  refine h.advance hcall ?_ ?_ ?_
  · intro hd
    rcases List.mem_cons.mp hd with heq | hd
    · cases heq
    · exact ⟨_, rfl, hd⟩
  · intro hquiet
    have hnone : w k = none := by
      by_contra hw
      exact hquiet ⟨w, List.mem_cons_self, hw⟩
    simp [Write.apply, hnone]
  · intro after hnext hw
    cases hnext
    exact willWrite_cons _ hw

variable {ops : CacheOps γ K V}

theorem step_coherent (hops : ops.Lawful) {entry : R → Call K V}
    (hentry : ∀ request k, (entry request).WillWrite k → (entry request).WillDrop k)
    (s : State γ K V) (a : Action R) (s' : State γ K V) (h : s.Coherent ops)
    (hguard : s.FillGuard a) (hstep : (machine ops entry).step s a = some s') :
    s'.Coherent ops := by
  cases a with
  | start request =>
      cases hstep
      intro k v hcached
      exact (h k v hcached).start (hentry request k)
  | step i =>
      simp only [machine] at hstep
      split at hstep
      · cases hstep
      rename_i call hcall
      cases hstep
      intro k v hcached
      cases call with
      | lookup l =>
          have hold := hops.get_content hcached
          refine (h k v hold).advance hcall (fun hd => hd.elim) (fun _ => rfl) ?_
          intro after hnext hw
          simp only [run] at hnext
          split at hnext
          · cases hnext
          · cases hnext
            exact hw.elim
      | fetch l =>
          refine (h k v hcached).advance hcall (fun hd => hd.elim) (fun _ => rfl) ?_
          intro after hnext hw
          obtain ⟨data, -, rfl⟩ := Option.map_eq_some_iff.mp hnext
          exact hw.elim
      | fill l data =>
          have hpair : s.Harmless k v := by
            rcases hops.set_content hcached with ⟨rfl, rfl⟩ | ⟨-, hold⟩
            · exact hguard k v hcall
            · exact h k v hold
          exact hpair.advance hcall (fun hd => hd.elim) (fun _ => rfl) (by simp [run])
      | mutate program =>
          cases program with
          | nil =>
              exact (h k v hcached).advance hcall (fun hd => by cases hd) (fun _ => rfl)
                (by simp [run])
          | cons op rest =>
              cases op with
              | drop l =>
                  obtain ⟨hne, hold⟩ := hops.delete_content hcached
                  exact (h k v hold).drop hcall hne
              | write w => exact (h k v hcached).write hcall

/-- The rule: if every request drops each key it writes, then every run whose
fills are harmless, from a coherent state, ends in a coherent state. -/
theorem exec_coherent (hops : ops.Lawful) {entry : R → Call K V}
    (hentry : ∀ request k, (entry request).WillWrite k → (entry request).WillDrop k)
    {s' : State γ K V} {schedule : List (Action R)} (h : s.Coherent ops)
    (hguard : (machine ops entry).Guarded FillGuard s schedule)
    (hrun : (machine ops entry).exec s schedule = some s') : s'.Coherent ops :=
  (machine ops entry).exec_guarded_invariant (step_coherent hops hentry) h hguard hrun

end State

end DataMgr.Foundation.ReadThrough
