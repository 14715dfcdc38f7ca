import DataMgr.Store.AutoCacheRuns

/-! # The garbage-collection timer

No wake-up is lost: whenever stores are open and every call has returned, a
collection is scheduled. The invariant follows the responsibility for the next
collection as it passes from an insertion to the timer, from the timer to its
callback and from the callback back to the timer.
-/

namespace DataMgr.Store

open Std DataMgr.Foundation

/-- The callback of a fired timer, before it gives its id back. -/
def Call.HoldsTimer : Call → Prop
  | .collectRead _ true | .collectSweep _ true _ _ | .resetTimer => True
  | _ => False

open Call

open CacheState

namespace CacheState

variable (s : CacheState)

def TimerScheduled : Prop :=
  ∃ pool task, s.cache.executor = some pool ∧ s.cache.taskId = some task ∧ task ∈ pool.scheduled

def CallbackRunning : Prop := ∃ call ∈ s.calls, call.HoldsTimer

/-- `armed`: a valid task id is a waiting timer or one whose callback still runs.
`owed`: open stores are covered by that timer or by a `StartTimer` still to come. -/
structure TimerInv (s : CacheState) : Prop where
  bound : s.cache.executor ≠ none
  armed : s.cache.taskId ≠ none → s.TimerScheduled ∨ s.CallbackRunning
  owed : s.cache.stores.isEmpty = false →
    s.TimerScheduled ∨ s.CallbackRunning ∨ startTimer ∈ s.calls

theorem timerInv_start (garbageInterval firstTask : Nat) (creators : Int → Bool) :
    (start garbageInterval firstTask creators).TimerInv where
  bound := by simp [start]
  armed h := absurd rfl h
  owed h := by simp [start] at h

theorem TimerInv.frame {s s' : CacheState} (h : s.TimerInv)
    (hexecutor : s'.cache.executor = s.cache.executor)
    (htask : s'.cache.taskId = s.cache.taskId)
    (hstores : s.cache.stores.isEmpty = true → s'.cache.stores.isEmpty = true)
    (hcallback : s.CallbackRunning → s'.CallbackRunning)
    (hstart : startTimer ∈ s.calls → startTimer ∈ s'.calls) : s'.TimerInv := by
  have hscheduled : s.TimerScheduled → s'.TimerScheduled := by
    intro ⟨pool, task, hp, ht, hmem⟩
    exact ⟨pool, task, hexecutor.trans hp, htask.trans ht, hmem⟩
  constructor
  · rw [hexecutor]
    exact h.bound
  · intro ht
    rw [htask] at ht
    exact (h.armed ht).imp hscheduled hcallback
  · intro hopen
    have hbefore : s.cache.stores.isEmpty = false := by
      cases hs : s.cache.stores.isEmpty with
      | false => rfl
      | true => rw [hstores hs] at hopen; cases hopen
    rcases h.owed hbefore with h | h | h
    · exact .inl (hscheduled h)
    · exact .inr (.inl (hcallback h))
    · exact .inr (.inr (hstart h))

theorem CallbackRunning.append {s s' : CacheState} (h : s.CallbackRunning) {more : List Call}
    (hcalls : s'.calls = s.calls ++ more) : s'.CallbackRunning := by
  obtain ⟨call, hmem, hholds⟩ := h
  exact ⟨call, by rw [hcalls]; exact List.mem_append_left _ hmem, hholds⟩

section

variable {s : CacheState} {i : Nat} {call : Call} {next : Option Call} {c : AutoCache}
  {shut : List (UInt32 × String)}

theorem CallbackRunning.other (h : s.CallbackRunning) (hcall : s.calls[i]? = some call)
    (hnot : ¬ call.HoldsTimer) : CallbackRunning ⟨c, advance s.calls i next, shut⟩ := by
  obtain ⟨other, hmem, hholds⟩ := h
  have hne : other ≠ call := fun heq => hnot (heq ▸ hholds)
  exact ⟨other, mem_advance_of_ne hcall hmem hne, hholds⟩

theorem TimerInv.other (h : s.TimerInv) (hcall : s.calls[i]? = some call)
    (hnot : ¬ call.HoldsTimer) (hne : call ≠ .startTimer)
    (hexecutor : c.executor = s.cache.executor) (htask : c.taskId = s.cache.taskId)
    (hstores : s.cache.stores.isEmpty = true → c.stores.isEmpty = true) :
    TimerInv ⟨c, advance s.calls i next, shut⟩ := by
  apply h.frame hexecutor htask hstores
  · intro hrunning
    exact hrunning.other hcall hnot
  · intro hstart
    exact mem_advance_of_ne hcall hstart (Ne.symm hne)

theorem TimerInv.callback (h : s.TimerInv) (hcall : s.calls[i]? = some call)
    (hne : call ≠ .startTimer) {after : Call} (hholds : after.HoldsTimer)
    (hexecutor : c.executor = s.cache.executor) (htask : c.taskId = s.cache.taskId)
    (hstores : s.cache.stores.isEmpty = true → c.stores.isEmpty = true) :
    TimerInv ⟨c, advance s.calls i (some after), shut⟩ := by
  apply h.frame hexecutor htask hstores
  · intro _
    exact ⟨after, mem_advance_self hcall, hholds⟩
  · intro hstart
    show startTimer ∈ advance s.calls i (some after)
    exact mem_advance_of_ne hcall hstart (Ne.symm hne)

end

theorem timerInv_startTimer {s : CacheState} (h : s.TimerInv) {shut : List (UInt32 × String)}
    {i : Nat} (hcall : s.calls[i]? = some .startTimer) :
    TimerInv ⟨s.cache.startTimer, advance s.calls i none, shut⟩ := by
  obtain ⟨pool, hpool⟩ := Option.ne_none_iff_exists'.mp h.bound
  have hcallback : s.CallbackRunning →
      CallbackRunning ⟨s.cache, advance s.calls i none, shut⟩ := by
    intro hrunning
    exact hrunning.other hcall (by simp [Call.HoldsTimer])
  have hscheduled : s.TimerScheduled →
      TimerScheduled ⟨s.cache, advance s.calls i none, shut⟩ := id
  unfold AutoCache.startTimer
  rw [hpool]
  dsimp only
  split
  · rename_i hskip
    refine ⟨h.bound, fun ht => (h.armed ht).imp hscheduled hcallback, fun hopen => ?_⟩
    have htask : s.cache.taskId ≠ none := by
      intro hnone
      simp only [hnone, Option.isSome_none, Bool.false_or] at hskip
      have hopen' : s.cache.stores.isEmpty = false := hopen
      rw [hopen'] at hskip
      cases hskip
    exact ((h.armed htask).imp hscheduled hcallback).imp_right .inl
  · have hnew : TimerScheduled
        ⟨{ s.cache with taskId := some pool.schedule.1, executor := some pool.schedule.2 },
          advance s.calls i none, shut⟩ :=
      ⟨pool.schedule.2, pool.schedule.1, rfl, rfl, by simp [ExecutorPool.schedule]⟩
    exact ⟨by simp, fun _ => .inl hnew, fun _ => .inl hnew⟩

theorem timerInv_fire (pool : ExecutorPool) :
    TimerInv { s with
      cache := { s.cache with executor := some pool }
      calls := s.calls ++ [.collectRead false true] } := by
  have hrunning : CallbackRunning { s with
      cache := { s.cache with executor := some pool }
      calls := s.calls ++ [.collectRead false true] } :=
    ⟨.collectRead false true, by simp, trivial⟩
  exact ⟨by simp, fun _ => .inr hrunning, fun _ => .inr (.inl hrunning)⟩

theorem timerInv_insert {s : CacheState} (h : s.TimerInv) {m : StoreMetaData}
    {watchers : List Watcher} {env : Env} {i : Nat}
    (hcall : s.calls[i]? = some (.insert m watchers)) :
    TimerInv ⟨(s.cache.openStore m watchers env.created env.now).1,
      advance s.calls i (if (s.cache.openStore m watchers env.created env.now).2.2 then
        some .startTimer else none), s.shut⟩ := by
  have hnot : ¬ (insert m watchers).HoldsTimer := by simp [Call.HoldsTimer]
  split
  · refine ⟨h.bound, fun ht => ?_, fun _ => .inr (.inr (mem_advance_self hcall))⟩
    exact (h.armed ht).imp id fun hrunning => hrunning.other hcall hnot
  rename_i htimer
  refine h.other hcall hnot (by simp) rfl rfl ?_
  intro hempty
  exact AutoCache.openStore_isEmpty hempty (by simpa using htimer)

theorem step_timerInv (a : CacheAction) (s' : CacheState) (h : s.TimerInv)
    (hstep : cacheMachine.step s a = some s') : s'.TimerInv := by
  rcases cacheMachine_step_cases hstep with
    ⟨request, -, rfl⟩ | ⟨task, pool, -, -, -, rfl⟩ | ⟨i, env, call, -, hcall, rfl⟩
  · exact h.frame rfl rfl id (fun hrunning => hrunning.append rfl) (List.mem_append_left _)
  · exact timerInv_fire s _
  · cases call with
    | check | status | closeRead | disable | enable =>
        exact h.other hcall (by simp [Call.HoldsTimer]) (by simp) rfl rfl id
    | insert m watchers => exact timerInv_insert h hcall
    | startTimer => exact timerInv_startTimer h hcall
    | closeSweep tokenId storeKey locked disabling =>
        exact h.other hcall (by simp [Call.HoldsTimer]) (by simp) rfl rfl fun hempty =>
          isEmpty_computeIfPresent hempty _ _
    | closeFilter filter =>
        exact h.other hcall (by simp [Call.HoldsTimer]) (by simp) rfl rfl fun hempty =>
          isEmpty_eraseIf hempty _
    | collectRead isForce timer =>
        cases timer with
        | false => exact h.other hcall (by simp [Call.HoldsTimer]) (by simp) rfl rfl id
        | true =>
            have hholds : (collectSweep isForce true env.now env.locked).HoldsTimer := trivial
            exact h.callback hcall (by simp) hholds rfl rfl id
    | collectSweep isForce timer current locked =>
        have hempty : s.cache.stores.isEmpty = true →
            (s.cache.garbageCollect isForce current locked env.closeStatus).stores.isEmpty = true :=
          fun hempty => isEmpty_eraseIf hempty _
        cases timer with
        | false => exact h.other hcall (by simp [Call.HoldsTimer]) (by simp) rfl rfl hempty
        | true =>
            have hholds : resetTimer.HoldsTimer := trivial
            exact h.callback hcall (by simp) hholds rfl rfl hempty
    | resetTimer =>
        have hstart : startTimer ∈ advance s.calls i (some startTimer) :=
          mem_advance_self hcall
        exact ⟨h.bound, fun ht => absurd rfl ht, fun _ => .inr (.inr hstart)⟩

end CacheState

open CacheState in
/-- In every interleaving, open stores with no call in progress have a collection
scheduled; and a sweep of `GarbageCollect(false)` drops a delegate only if it had
expired at the time the collection read, its `Close` succeeded, and it is not an
EL4 store with the screen read as locked. -/
theorem garbageCollection_safe (garbageInterval firstTask : Nat) (creators : Int → Bool)
    (schedule : List CacheAction) (s : CacheState)
    (hrun : cacheMachine.exec (start garbageInterval firstTask creators) schedule =
      some s) :
    (s.calls = [] → s.cache.stores.isEmpty = false → s.TimerScheduled) ∧
    ∀ (i : Nat) (env : Env) (timer : Bool) (current : Nat) (locked : Bool) (s' : CacheState),
      s.calls[i]? = some (.collectSweep false timer current locked) →
      cacheMachine.step s (.step i env) = some s' →
      ∀ (token : UInt32) (key : String) (d : Delegate),
        s.cache.delegate? token key = some d → s'.cache.delegate? token key ≠ some d →
          d.time < current ∧ env.closeStatus d.store ≠ .eBusy ∧
            ¬ (locked = true ∧ d.storeMeta.area = Area.el4.code) := by
  constructor
  · intro hidle hopen
    have hinv := cacheMachine.exec_invariant step_timerInv
      (timerInv_start garbageInterval firstTask creators) hrun
    rcases hinv.owed hopen with h | ⟨call, hmem, -⟩ | hmem
    · exact h
    · rw [hidle] at hmem
      cases hmem
    · rw [hidle] at hmem
      cases hmem
  · intro i env timer current locked s' hcall hstep token key d hd hgone
    simp only [cacheMachine, hcall, Option.some.injEq] at hstep
    subst hstep
    have hdropped : ((!locked || !d.storeMeta.isEl4) && (false || decide (d.time < current)) &&
        d.close env.closeStatus) = true := by
      by_contra hkept
      apply hgone
      simp only [run, AutoCache.delegate?_garbageCollect, hd, Option.filter_some]
      rw [Bool.eq_false_iff.mpr hkept]
      rfl
    simp only [Bool.and_eq_true, Bool.or_eq_true, Bool.not_eq_true', Bool.false_or,
      decide_eq_true_eq, Delegate.close, StoreMetaData.isEl4, decide_eq_false_iff_not] at hdropped
    obtain ⟨⟨hscreen, hexpired⟩, hclosed⟩ := hdropped
    refine ⟨hexpired, hclosed, ?_⟩
    rintro ⟨hlocked, harea⟩
    rcases hscreen with hunlocked | hother
    · rw [hunlocked] at hlocked
      cases hlocked
    · exact hother harea

def el4Delegate : Delegate := ⟨7, 60005, [], ⟨1, "100", "", "a", 0, 4⟩, 60000⟩

/-- An EL4 store is opened, and every call returns. -/
def el4Opened : List CacheAction :=
  [.start (.getDBStore el4Delegate.storeMeta []), .step 0 (.ready 5 7), .step 0 (.ready 5 7),
    .step 0 (.ready 5 7), .step 0 (.ready 5 7)]

/-- The store has expired when a collection reads the time, and that the screen is unlocked. -/
def el4Collecting : List CacheAction :=
  el4Opened ++ [.start (.garbageCollect false), .step 0 (.ready 100000 7)]

open CacheState

/-- Whatever the screen is when the collection sweeps, the store is dropped. -/
theorem el4Collecting_sweeps (env : Env) (hclose : env.closeStatus 7 = .eOk) :
    ∃ s s', cacheMachine.exec (start 60000 1 fun _ => true) el4Collecting = some s ∧
      s.calls[0]? = some (.collectSweep false false 100000 false) ∧
      cacheMachine.step s (.step 0 env) = some s' ∧
      s.cache.delegate? 1 "a" = some el4Delegate ∧ s'.cache.delegate? 1 "a" = none := by
  have hrun : (cacheMachine.exec (start 60000 1 fun _ => true) el4Collecting).map
      (fun s => s.calls) = some [.collectSweep false false 100000 false] := by rfl
  have hopen : (cacheMachine.exec (start 60000 1 fun _ => true) el4Collecting).map
      (fun s => s.cache.delegate? 1 "a") = some (some el4Delegate) := by decide +kernel
  obtain ⟨s, hs, hcalls⟩ := Option.map_eq_some_iff.mp hrun
  rw [hs, Option.map_some, Option.some.injEq] at hopen
  have hcall : s.calls[0]? = some (.collectSweep false false 100000 false) := by rw [hcalls]; rfl
  have hstep : cacheMachine.step s (.step 0 env) =
      some ⟨s.cache.garbageCollect false 100000 false env.closeStatus, advance s.calls 0 none,
        s.shut⟩ := by
    simp only [cacheMachine, hcall]
    rfl
  refine ⟨s, _, hs, hcall, hstep, hopen, ?_⟩
  rw [AutoCache.delegate?_garbageCollect, hopen, Option.filter_some, Delegate.close,
    show el4Delegate.store = 7 from rfl, hclose]
  rfl

/-- The timer is scheduled after the opening, and the collection drops the store. -/
theorem garbageCollection_safe_after_open :
    (∃ s, cacheMachine.exec (start 60000 1 fun _ => true) el4Opened = some s ∧
      s.cache.stores.isEmpty = false ∧ s.TimerScheduled) ∧
    ∃ s s', cacheMachine.exec (start 60000 1 fun _ => true) el4Collecting = some s ∧
      cacheMachine.step s (.step 0 (.ready 100001 7)) = some s' ∧
      s'.cache.delegate? 1 "a" = none ∧ el4Delegate.time < 100000 ∧
      (Env.ready 100001 7).closeStatus 7 ≠ .eBusy := by
  constructor
  · have hrun : (cacheMachine.exec (start 60000 1 fun _ => true) el4Opened).map
        (fun s => (s.calls.isEmpty, s.cache.stores.isEmpty)) = some (true, false) := by
      decide +kernel
    obtain ⟨s, hs, hfields⟩ := Option.map_eq_some_iff.mp hrun
    have hidle : s.calls.isEmpty = true := congrArg Prod.fst hfields
    have hopen : s.cache.stores.isEmpty = false := congrArg Prod.snd hfields
    exact ⟨s, hs, hopen, (garbageCollection_safe 60000 1 _ _ s hs).1
      (List.isEmpty_iff.mp hidle) hopen⟩
  · obtain ⟨s, s', hs, hcall, hstep, hopen, hgone⟩ := el4Collecting_sweeps (.ready 100001 7) rfl
    have hdropped := (garbageCollection_safe 60000 1 _ _ s hs).2 0 _ _ _ _ s' hcall hstep 1 "a"
      el4Delegate hopen (by rw [hgone]; nofun)
    exact ⟨s, s', hs, hstep, hgone, hdropped.1, hdropped.2.1⟩

/-- The screen is locked between the reading and the sweep, and an EL4 store is dropped. -/
theorem garbageCollection_drops_el4_when_locked :
    ∃ s s' env, cacheMachine.exec (start 60000 1 fun _ => true) el4Collecting = some s ∧
      s.calls[0]? = some (.collectSweep false false 100000 false) ∧ env.locked = true ∧
      cacheMachine.step s (.step 0 env) = some s' ∧
      s.cache.delegate? 1 "a" = some el4Delegate ∧
      el4Delegate.storeMeta.area = Area.el4.code ∧ s'.cache.delegate? 1 "a" = none := by
  obtain ⟨s, s', hs, hcall, hstep, hopen, hgone⟩ :=
    el4Collecting_sweeps { Env.ready 100001 7 with locked := true } rfl
  exact ⟨s, s', _, hs, hcall, rfl, hstep, hopen, rfl, hgone⟩

end DataMgr.Store
