import DataMgr.Store.AutoCacheRuns

/-! # Disabled stores

`Disable` first marks the key and then closes the store, while `GetDBStore` first
tests the mark and then opens the store. The mark keeps the store closed in every
interleaving in which no store is opened while its key is marked, and no `Enable`
takes the mark away from a `Disable` under way.
-/

namespace DataMgr.Store

open Std DataMgr.Foundation Call AutoCache

namespace CacheState

/-- A `Disable` of the key has set its mark, and no matching `Enable` has started
since it returned. -/
def Disabling (s : CacheState) (token : UInt32) (key : String) : Prop :=
  (token, key) ∈ s.shut ∨ .closeRead token key true ∈ s.calls ∨
    ∃ locked, .closeSweep token key locked true ∈ s.calls

/-- The condition on one step: the screen is unlocked, a store is opened only
while its key is not marked, and `Enable` clears no mark of a `Disable` that is
under way or has returned since the `Enable` started. -/
def DisableGuard (s : CacheState) : CacheAction → Prop
  | .start _ | .fire _ => True
  | .step i env =>
      env.locked = false ∧
        match s.calls[i]? with
        | some (.insert m _) => s.cache.isDisabled m.tokenId m.storeKey = false
        | some (.enable tokenId storeKey) =>
            ∀ key, s.Disabling tokenId key → ¬ Matches storeKey key
        | _ => True

structure DisableInv (s : CacheState) : Prop where
  closed : ∀ {token key}, (token, key) ∈ s.shut → s.cache.delegate? token key = none
  marked : ∀ {token key}, s.Disabling token key → s.cache.isDisabled token key = true
  unlocked : ∀ {token key locked disabling},
    .closeSweep token key locked disabling ∈ s.calls → locked = false

section

variable {s : CacheState} {i : Nat} {next : Option Call} {c : AutoCache}
  {shut : List (UInt32 × String)}

/-- What a step must show: a key shut by it was being disabled and has no
delegate, a call that goes on to close has its mark and read an unlocked screen,
no closed key is opened and no mark is cleared. -/
theorem DisableInv.advance (h : s.DisableInv)
    (hshut : ∀ {token key}, (token, key) ∈ shut →
      (token, key) ∈ s.shut ∨ s.Disabling token key ∧ c.delegate? token key = none)
    (hread : ∀ {token key}, next = some (.closeRead token key true) →
      c.isDisabled token key = true)
    (hsweep : ∀ {token key locked disabling},
      next = some (.closeSweep token key locked disabling) →
        locked = false ∧ (disabling = true → s.Disabling token key))
    (hclosed : ∀ {token key}, s.Disabling token key →
      s.cache.delegate? token key = none → c.delegate? token key = none)
    (hmarked : ∀ {token key}, s.Disabling token key → s.cache.isDisabled token key = true →
      c.isDisabled token key = true) :
    DisableInv ⟨c, advance s.calls i next, shut⟩ where
  closed {token key} hmem := by
    rcases hshut hmem with hold | hnew
    · exact hclosed (.inl hold) (h.closed hold)
    · exact hnew.2
  marked {token key} hdis := by
    have hkeep : s.Disabling token key → c.isDisabled token key = true :=
      fun hdis => hmarked hdis (h.marked hdis)
    rcases hdis with hmem | hmem | ⟨locked, hmem⟩
    · rcases hshut hmem with hold | hnew
      · exact hkeep (.inl hold)
      · exact hkeep hnew.1
    · rcases mem_advance hmem with heq | hmem
      · exact hread heq
      · exact hkeep (.inr (.inl hmem))
    · rcases mem_advance hmem with heq | hmem
      · exact hkeep ((hsweep heq).2 rfl)
      · exact hkeep (.inr (.inr ⟨locked, hmem⟩))
  unlocked hmem := by
    rcases mem_advance hmem with heq | hmem
    · exact (hsweep heq).1
    · exact h.unlocked hmem

theorem DisableInv.other (h : s.DisableInv)
    (hread : ∀ token key, next ≠ some (.closeRead token key true))
    (hsweep : ∀ token key locked disabling, next ≠ some (.closeSweep token key locked disabling))
    (hclosed : ∀ {token key}, s.Disabling token key →
      s.cache.delegate? token key = none → c.delegate? token key = none)
    (hmarked : ∀ {token key}, s.Disabling token key → s.cache.isDisabled token key = true →
      c.isDisabled token key = true) :
    DisableInv ⟨c, Foundation.advance s.calls i next, s.shut⟩ :=
  h.advance .inl (fun heq => absurd heq (hread _ _)) (fun heq => absurd heq (hsweep _ _ _ _))
    hclosed hmarked

theorem disableInv_insert (h : s.DisableInv) {m : StoreMetaData} (watchers : List Watcher)
    (env : Env) (hguard : s.cache.isDisabled m.tokenId m.storeKey = false) :
    DisableInv ⟨(s.cache.openStore m watchers env.created env.now).1,
      advance s.calls i (if (s.cache.openStore m watchers env.created env.now).2.2 then
        some .startTimer else none), s.shut⟩ := by
  apply h.other
  · split <;> simp
  · split <;> simp
  · intro token key hdis hnone
    have hother : ¬ (token = m.tokenId ∧ key = m.storeKey) := by
      intro ⟨ht, hk⟩
      have hmark := h.marked hdis
      rw [ht, hk, hguard] at hmark
      cases hmark
    rw [delegate?_openStore_of_ne _ _ _ _ _ hother]
    exact hnone
  · intro token key _ hmark
    exact hmark

variable {locked : Bool} {tokenId : UInt32} {storeKey : String}

theorem disableInv_closeRead (h : s.DisableInv) (hlocked : locked = false) {disabling : Bool}
    (hcall : s.calls[i]? = some (.closeRead tokenId storeKey disabling)) :
    DisableInv ⟨s.cache, advance s.calls i (some (.closeSweep tokenId storeKey locked disabling)),
      s.shut⟩ := by
  have hmem := List.mem_of_getElem? hcall
  apply h.advance .inl (by simp) _ (fun _ hnone => hnone) (fun _ hmark => hmark)
  intro token key other closing heq
  cases heq
  constructor
  · exact hlocked
  · intro hdis
    subst hdis
    exact .inr (.inl hmem)

theorem delegate?_closeStore_eq_none {token : UInt32} {key : String}
    (h : c.delegate? token key = none) :
    (c.closeStore tokenId storeKey locked).delegate? token key = none := by
  rw [delegate?_closeStore, h]
  split <;> rfl

theorem disableInv_closeSweep (h : s.DisableInv) {disabling : Bool}
    (hcall : s.calls[i]? = some (.closeSweep tokenId storeKey locked disabling)) :
    DisableInv ⟨s.cache.closeStore tokenId storeKey locked, advance s.calls i none,
      shutAfterStep s.shut (.closeSweep tokenId storeKey locked disabling)⟩ := by
  have hmem := List.mem_of_getElem? hcall
  refine h.advance ?_ (by simp) (by simp) (fun _ hnone => delegate?_closeStore_eq_none hnone)
    fun _ hmark => hmark
  intro token key hshut
  cases disabling with
  | false => exact .inl hshut
  | true =>
      rcases List.mem_cons.mp hshut with heq | hshut
      · cases heq
        refine .inr ⟨.inr (.inr ⟨locked, hmem⟩), ?_⟩
        rw [delegate?_closeStore]
        simp [h.unlocked hmem]
      · exact .inl hshut

end

theorem disableInv_startCall {s : CacheState} (h : s.DisableInv) (c : AutoCache) {call : Call}
    {shut : List (UInt32 × String)} (hshut : ∀ entry ∈ shut, entry ∈ s.shut)
    (hread : ∀ token key, call ≠ .closeRead token key true)
    (hsweep : ∀ token key locked disabling, call ≠ .closeSweep token key locked disabling)
    (hstores : c.stores = s.cache.stores) (hdisables : c.disables = s.cache.disables) :
    DisableInv ⟨c, s.calls ++ [call], shut⟩ := by
  have hold : ∀ {other}, other ∈ s.calls ++ [call] → other ∈ s.calls ∨ other = call := by
    intro other hmem
    rcases List.mem_append.mp hmem with hmem | hmem
    · exact .inl hmem
    · exact .inr (List.mem_singleton.mp hmem)
  constructor
  · intro token key hmem
    unfold delegate?
    rw [hstores]
    exact h.closed (hshut _ hmem)
  · intro token key hdis
    have hdis' : s.Disabling token key := by
      rcases hdis with hmem | hmem | ⟨locked, hmem⟩
      · exact .inl (hshut _ hmem)
      · rcases hold hmem with hmem | heq
        · exact .inr (.inl hmem)
        · exact absurd heq.symm (hread token key)
      · rcases hold hmem with hmem | heq
        · exact .inr (.inr ⟨locked, hmem⟩)
        · exact absurd heq.symm (hsweep token key locked true)
    have hmark := h.marked hdis'
    unfold isDisabled at hmark ⊢
    rw [hdisables]
    exact hmark
  · intro token key locked disabling hmem
    rcases hold hmem with hmem | heq
    · exact h.unlocked hmem
    · exact absurd heq.symm (hsweep token key locked disabling)

theorem mem_of_mem_shutAfterStart {shut : List (UInt32 × String)} {request : Request}
    {entry : UInt32 × String} (h : entry ∈ shutAfterStart shut request) : entry ∈ shut := by
  cases request with
  | enable tokenId path storeId => exact (List.mem_filter.mp h).1
  | _ => exact h

theorem step_disableInv (s : CacheState) (a : CacheAction) (s' : CacheState) (h : s.DisableInv)
    (hguard : s.DisableGuard a) (hstep : cacheMachine.step s a = some s') : s'.DisableInv := by
  rcases cacheMachine_step_cases hstep with
    ⟨request, rfl, rfl⟩ | ⟨task, pool, rfl, -, -, rfl⟩ | ⟨i, env, call, rfl, hcall, rfl⟩
  · apply disableInv_startCall h s.cache (fun _ => mem_of_mem_shutAfterStart) _ _ rfl rfl
    · cases request <;> simp [Request.call]
    · cases request <;> simp [Request.call]
  · exact disableInv_startCall h _ (fun _ hmem => hmem) (by simp) (by simp) rfl rfl
  · simp only [DisableGuard, hcall] at hguard
    obtain ⟨hlocked, hguard⟩ := hguard
    cases call with
    | check m watchers | status m watchers =>
        apply h.other _ _ (fun _ hnone => hnone) fun _ hmark => hmark
        · simp only [run]
          split <;> simp
        · simp only [run]
          split <;> simp
    | insert m watchers => exact disableInv_insert h watchers env hguard
    | startTimer =>
        refine h.other (by simp [run]) (by simp [run]) ?_ ?_
        · intro token key _ hnone
          simpa [run, delegate?, startTimer_stores] using hnone
        · intro token key _ hmark
          simpa [run, isDisabled, startTimer_disables] using hmark
    | closeRead tokenId storeKey disabling => exact disableInv_closeRead h hlocked hcall
    | closeSweep tokenId storeKey locked disabling => exact disableInv_closeSweep h hcall
    | closeFilter filter =>
        refine h.other (by simp [run]) (by simp [run]) ?_ fun _ hmark => hmark
        intro token key _ hnone
        simp only [run, delegate?_closeStoreIf, hnone, Option.filter_none]
    | disable tokenId storeKey =>
        refine h.advance .inl ?_ (by simp [run]) (fun _ hnone => hnone) ?_
        · intro token key heq
          cases heq
          simp [run, isDisabled_disable]
        · intro token key _ hmark
          simp [run, isDisabled_disable, hmark]
    | enable tokenId storeKey =>
        refine h.other (by simp [run]) (by simp [run]) (fun _ hnone => hnone) ?_
        intro token key hdis hmark
        refine (isDisabled_enable_of_unmatched _ _ _ _ _ ?_).trans hmark
        rintro ⟨ht, hmatch⟩
        exact hguard key (ht ▸ hdis) hmatch
    | collectSweep isForce timer current locked =>
        refine h.other ?_ ?_ ?_ fun _ hmark => hmark
        · cases timer <;> simp [run]
        · cases timer <;> simp [run]
        · intro token key _ hnone
          simp only [run, delegate?_garbageCollect, hnone, Option.filter_none]
    | collectRead | resetTimer =>
        exact h.other (by simp [run]) (by simp [run]) (fun _ hnone => hnone)
          fun _ hmark => hmark

end CacheState

open CacheState

/-- In every run that opens no store under a mark and clears no mark of a
`Disable` under way, a key stays closed from the return of its `Disable` to the
start of the next matching `Enable`. -/
theorem disabled_store_stays_closed (garbageInterval firstTask : Nat) (creators : Int → Bool)
    (schedule : List CacheAction) (s : CacheState)
    (hguard : cacheMachine.Guarded CacheState.DisableGuard
      (start garbageInterval firstTask creators) schedule)
    (hrun : cacheMachine.exec (start garbageInterval firstTask creators) schedule =
      some s) (token : UInt32) (key : String) (hshut : (token, key) ∈ s.shut) :
    s.cache.delegate? token key = none := by
  have hinit : (start garbageInterval firstTask creators).DisableInv := by
    constructor
    · intro token key hmem
      cases hmem
    · intro token key hdis
      simp [CacheState.Disabling, start] at hdis
    · intro token key locked disabling hmem
      cases hmem
  have hinv := cacheMachine.exec_guarded_invariant step_disableInv hinit hguard hrun
  exact hinv.closed hshut

/-- Witness: a store is opened and then disabled. -/
theorem disabled_store_stays_closed_after_open :
    ∃ s, cacheMachine.exec (start 60000 1 fun _ => true)
        [.start (.getDBStore ⟨1, "100", "", "a", 0, 2⟩ []), .step 0 (.ready 5 7),
          .step 0 (.ready 5 7), .step 0 (.ready 5 7), .start (.disable 1 "" "a"),
          .step 1 (.ready 6 7), .step 1 (.ready 6 7), .step 1 (.ready 6 7)] = some s ∧
      (1, "a") ∈ s.shut ∧ s.cache.delegate? 1 "a" = none := by
  have hguard : cacheMachine.Guarded CacheState.DisableGuard
      (start 60000 1 fun _ => true)
      [.start (.getDBStore ⟨1, "100", "", "a", 0, 2⟩ []), .step 0 (.ready 5 7),
        .step 0 (.ready 5 7), .step 0 (.ready 5 7), .start (.disable 1 "" "a"),
        .step 1 (.ready 6 7), .step 1 (.ready 6 7), .step 1 (.ready 6 7)] := by
    apply cacheMachine.guarded_cons trivial rfl
    apply cacheMachine.guarded_cons ⟨rfl, trivial⟩ rfl
    apply cacheMachine.guarded_cons ⟨rfl, trivial⟩ rfl
    apply cacheMachine.guarded_cons ⟨rfl, rfl⟩ rfl
    apply cacheMachine.guarded_cons trivial rfl
    apply cacheMachine.guarded_cons ⟨rfl, trivial⟩ rfl
    apply cacheMachine.guarded_cons ⟨rfl, trivial⟩ rfl
    exact cacheMachine.guarded_cons ⟨rfl, trivial⟩ rfl trivial
  have hshut : (1, "a") ∈ [((1 : UInt32), "a")] := List.mem_singleton.mpr rfl
  exact ⟨_, rfl, hshut, disabled_store_stays_closed 60000 1 _ _ _ hguard rfl 1 "a" hshut⟩

/-- The request for a store passes the check, the store is disabled, and only then
does the request open it: the disabled store is open after `Disable` has returned. -/
theorem disabled_store_opened_after_check :
    ∃ s, cacheMachine.exec (start 60000 1 fun _ => true)
        [.start (.getDBStore ⟨1, "100", "", "a", 0, 2⟩ []), .step 0 (.ready 5 7),
          .step 0 (.ready 5 7), .start (.disable 1 "" "a"), .step 1 (.ready 6 7),
          .step 1 (.ready 6 7), .step 1 (.ready 6 7), .step 0 (.ready 7 7)] = some s ∧
      (1, "a") ∈ s.shut ∧ s.cache.delegate? 1 "a" ≠ none := by
  have hshut : (1, "a") ∈ [((1 : UInt32), "a")] := List.mem_singleton.mpr rfl
  exact ⟨_, rfl, hshut, by decide +kernel⟩

end DataMgr.Store
