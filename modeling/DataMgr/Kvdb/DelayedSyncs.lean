import DataMgr.Kvdb.KvStoreSyncManager

/-! # Delayed synchronisations are neither lost nor early

A delayed operation is in one place at a time: with the call that adds it, in the queue,
with the `Schedule` that took it, or done with. As long as the queue is not empty, either
a `Schedule` is in progress, which looks at the queue before it ends, or the timer of
`nextScheduleTime_` is outstanding. So a timer that covers the time of every operation is
outstanding, whichever of them arms the timers.
-/

namespace DataMgr.Kvdb

open DataMgr.Foundation KvSyncOperation MinQueue

variable (s : KvStoreSyncManager) (k : Nat)

def AddCall.holds : AddCall → Nat
  | .insert op => if op.id = k then 1 else 0
  | _ => 0

def ScheduleCall.holds : ScheduleCall → Nat
  | .collect _ => 0
  | .run _ _ syncOps => syncOps.countP fun op => op.id = k

open ScheduleCall

namespace KvStoreSyncManager

def invocations : Nat := s.invoked.countP fun call => call.1.id = k

def removals : Nat := s.removed.countP fun op => op.id = k

/-- In how many places an operation still waits for its function to be called. -/
def waiting : Nat :=
  (s.adding.map (AddCall.holds k)).sum + s.scheduleSyncOps.items.countP (fun op => op.id = k) +
    (s.schedules.map (holds k)).sum

/-- A `Schedule` is in progress, or a timer with the property is outstanding. -/
def WakesUp (covers : Timer → Prop) : Prop :=
  s.schedules ≠ [] ∨ ∃ timer ∈ s.timers, covers timer

/-- A timer that is due early enough for the operation, or one that tries again. -/
def Covers (op : KvSyncOperation) (timer : Timer) : Prop :=
  timer.time ≤ op.latest ∨ timer.retry = true

structure DelayInv (s : KvStoreSyncManager) : Prop where
  ids : ∀ k ∈ s.delayed, k ≤ s.calls
  nodup : s.delayed.Nodup
  ledger : ∀ k, s.waiting k + s.invocations k + s.removals k = s.delayed.count k
  taken : ∀ time delaySchedule syncOps, .run time delaySchedule syncOps ∈ s.schedules →
    ∀ op ∈ syncOps, op.due time = true
  invoked : ∀ call ∈ s.invoked, call.1.due call.2 = true
  armed : s.scheduleSyncOps.items ≠ [] →
    s.WakesUp fun timer => timer.time = s.nextScheduleTime
  covered : ∀ op ∈ s.scheduleSyncOps.items, s.WakesUp (Covers op)
  retries : ∀ timer ∈ s.timers, timer.retry = true →
    timer.time ≤ s.now + milliseconds syncMinDelayMs

variable {s : KvStoreSyncManager} {covers : Timer → Prop}

theorem wakesUp_addTimer {expireTime : Nat} {retry : Bool} (h : covers ⟨expireTime, retry⟩) :
    (s.addTimer expireTime retry).WakesUp covers :=
  .inr ⟨⟨expireTime, retry⟩, by simp [addTimer], h⟩

theorem WakesUp.addTimer (h : s.WakesUp covers) (expireTime : Nat) (retry : Bool) :
    (s.addTimer expireTime retry).WakesUp covers := by
  rcases h with h | ⟨timer, htimer, hcovers⟩
  · exact .inl h
  · exact .inr ⟨timer, by simp [KvStoreSyncManager.addTimer, htimer], hcovers⟩

theorem WakesUp.of_eq {s' : KvStoreSyncManager} (h : s.WakesUp covers)
    (htimers : s'.timers = s.timers) (hschedules : s'.schedules = s.schedules) :
    s'.WakesUp covers := by
  rcases h with h | ⟨timer, htimer, hcovers⟩
  · exact .inl (hschedules ▸ h)
  · exact .inr ⟨timer, htimers ▸ htimer, hcovers⟩

theorem WakesUp.mono {covers' : Timer → Prop} (h : s.WakesUp covers)
    (himp : ∀ timer, covers timer → covers' timer) : s.WakesUp covers' := by
  rcases h with h | ⟨timer, htimer, hcovers⟩
  · exact .inl h
  · exact .inr ⟨timer, htimer, himp timer hcovers⟩

section

variable {s : KvStoreSyncManager}

theorem delayInv_syncing (h : s.DelayInv) (realtime delay : List KvSyncOperation) :
    ({ s with realtimeSyncingOps := realtime, delaySyncingOps := delay } :
      KvStoreSyncManager).DelayInv where
  ids := h.ids
  nodup := h.nodup
  ledger := h.ledger
  taken := h.taken
  invoked := h.invoked
  armed := h.armed
  covered := h.covered
  retries := h.retries

variable {i time : Nat} {call : AddCall}

theorem delayInv_adding (h : s.DelayInv) (hcall : s.adding[i]? = some call) (next : Option AddCall)
    (hnone : ∀ k, call.holds k = 0) (hnext : ∀ k, next.elim 0 (AddCall.holds k) = 0) :
    ({ s with adding := advance s.adding i next } : KvStoreSyncManager).DelayInv where
  ids := h.ids
  nodup := h.nodup
  ledger := by
    intro k
    have hsum := sum_advance (AddCall.holds k) next hcall
    have hledger := h.ledger k
    rw [hnone, hnext] at hsum
    simp only [waiting, invocations, removals] at hledger ⊢
    omega
  taken := h.taken
  invoked := h.invoked
  armed := h.armed
  covered := h.covered
  retries := h.retries

theorem delayInv_started (h : s.DelayInv) (hnone : ∀ k, call.holds k = 0) :
    ({ s with calls := s.calls + 1, adding := s.adding ++ [call] } :
      KvStoreSyncManager).DelayInv where
  ids := fun k hk => (h.ids k hk).trans (Nat.le_succ _)
  nodup := h.nodup
  ledger := by
    intro k
    have hledger := h.ledger k
    simpa [waiting, invocations, removals, hnone k] using hledger
  taken := h.taken
  invoked := h.invoked
  armed := h.armed
  covered := h.covered
  retries := h.retries

theorem delayInv_addSyncOperation (h : s.DelayInv) (syncId delayMs : Nat)
    (hasSyncFunc hasSyncEnd : Bool) :
    (s.addSyncOperation syncId delayMs hasSyncFunc hasSyncEnd).DelayInv := by
  unfold addSyncOperation
  split
  · exact h
  split
  · refine delayInv_started h ?_
    intro k
    cases hasSyncEnd <;> rfl
  exact
    { ids := by
        intro k hk
        rcases mem_concat.mp hk with hk | rfl
        · exact (h.ids k hk).trans (Nat.le_succ _)
        · rfl
      nodup := by
        have hfresh : s.calls + 1 ∉ s.delayed := by
          intro hmem
          have hle := h.ids _ hmem
          omega
        exact h.nodup.append (List.nodup_singleton _) (by simpa using hfresh)
      ledger := by
        intro k
        have hledger := h.ledger k
        simp only [waiting, invocations, removals, List.map_append, List.map_cons, List.map_nil,
          List.sum_append, List.sum_cons, List.sum_nil, List.count_append, AddCall.holds,
          List.count_singleton, beq_iff_eq] at hledger ⊢
        omega
      taken := h.taken
      invoked := h.invoked
      armed := h.armed
      covered := h.covered
      retries := h.retries }

theorem countP_push (q : MinQueue KvSyncOperation beginTime) (op : KvSyncOperation)
    (p : KvSyncOperation → Bool) :
    (q.push op).items.countP p = q.items.countP p + if p op then 1 else 0 := by
  rw [(q.push_perm op).countP_eq, List.countP_cons]

/-- The timer that `AddSyncOperation` arms, or the one that makes it unnecessary. -/
theorem wakesUp_emplace (h : s.DelayInv) (op : KvSyncOperation) :
    (s.emplace op).WakesUp (fun timer => timer.time = (s.emplace op).nextScheduleTime) ∧
      (s.emplace op).WakesUp (Covers op) ∧
      ∀ covers, s.WakesUp covers → (s.emplace op).WakesUp covers := by
  unfold emplace
  dsimp only
  split
  · refine ⟨wakesUp_addTimer rfl, wakesUp_addTimer (.inl ?_), ?_⟩
    · simp [latest]
    · intro covers hcovers
      exact WakesUp.addTimer (hcovers.of_eq rfl rfl) _ _
  · rename_i hcond
    rw [not_or, Nat.not_lt] at hcond
    have hitems : s.scheduleSyncOps.items ≠ [] := by
      intro hempty
      apply hcond.1
      simp [push, hempty, insertByKey]
    have harmed := h.armed hitems
    refine ⟨harmed.of_eq rfl rfl, ?_, fun covers hcovers => hcovers.of_eq rfl rfl⟩
    refine (harmed.mono ?_).of_eq rfl rfl
    intro timer htimer
    exact .inl (htimer ▸ hcond.2)

theorem emplace_frame (s : KvStoreSyncManager) (op : KvSyncOperation) :
    (s.emplace op).scheduleSyncOps = s.scheduleSyncOps.push op ∧
      (s.emplace op).delayed = s.delayed ∧ (s.emplace op).calls = s.calls ∧
      (s.emplace op).invoked = s.invoked ∧ (s.emplace op).removed = s.removed ∧
      (s.emplace op).adding = s.adding ∧ (s.emplace op).schedules = s.schedules ∧
      (s.emplace op).now = s.now ∧
      ∀ timer ∈ (s.emplace op).timers, timer ∈ s.timers ∨ timer.retry = false := by
  unfold emplace
  dsimp only
  split
  · simp [addTimer]
    intro timer htimer
    rcases htimer with htimer | rfl
    · exact .inl htimer
    · exact .inr rfl
  · simp
    exact fun timer htimer => .inl htimer

theorem delayInv_insert (h : s.DelayInv) {op : KvSyncOperation}
    (hcall : s.adding[i]? = some (.insert op)) :
    ({ s.emplace op with adding := advance s.adding i none } : KvStoreSyncManager).DelayInv := by
  obtain ⟨hqueue, hdelayed, hcalls, hinvoked, hremoved, -, hschedules, hnow, htimers⟩ :=
    emplace_frame s op
  obtain ⟨harmed, hcovered, hkept⟩ := wakesUp_emplace h op
  exact
    { ids := by
        intro k hk
        rw [hdelayed] at hk
        rw [hcalls]
        exact h.ids k hk
      nodup := by
        rw [hdelayed]
        exact h.nodup
      ledger := by
        intro k
        have hsum := sum_advance (AddCall.holds k) none hcall
        have hledger := h.ledger k
        simp only [waiting, invocations, removals, hqueue, hdelayed, hinvoked, hremoved, hschedules,
          countP_push, decide_eq_true_eq, AddCall.holds, Option.elim_none] at hsum hledger ⊢
        omega
      taken := by
        intro time delaySchedule syncOps hmem
        exact h.taken time delaySchedule syncOps (hschedules ▸ hmem)
      invoked := by
        intro call hmem
        exact h.invoked call (hinvoked ▸ hmem)
      armed := fun _ => harmed.of_eq rfl rfl
      covered := by
        intro other hmem
        rw [hqueue, (s.scheduleSyncOps.push_perm op).mem_iff, List.mem_cons] at hmem
        rcases hmem with rfl | hmem
        · exact hcovered.of_eq rfl rfl
        · exact (hkept _ (h.covered other hmem)).of_eq rfl rfl
      retries := by
        intro timer htimer hretry
        rw [hnow]
        rcases htimers timer htimer with hold | hnew
        · exact h.retries timer hold hretry
        · rw [hnew] at hretry
          cases hretry }

theorem delayInv_advanceAdd (h : s.DelayInv) (success : Bool) (hcall : s.adding[i]? = some call) :
    (s.advanceAdd i success call).DelayInv := by
  cases call with
  | insert op => exact delayInv_insert h hcall
  | push op =>
      have hadding := delayInv_adding h hcall (some (.sync op)) (fun _ => rfl) fun _ => rfl
      exact delayInv_syncing hadding _ _
  | sync op =>
      refine delayInv_adding h hcall _ (fun _ => rfl) ?_
      intro k
      cases success <;> rfl
  | drop opSeq =>
      exact delayInv_syncing (delayInv_adding h hcall none (fun _ => rfl) fun _ => rfl) _ _

theorem delayInv_removeSyncOperation (h : s.DelayInv) (syncId : Nat) :
    (s.removeSyncOperation syncId).DelayInv where
  ids := h.ids
  nodup := h.nodup
  ledger := by
    intro k
    have hledger := h.ledger k
    have hsplit := List.countP_eq_countP_filter_add s.scheduleSyncOps.items
      (fun op => decide (op.id = k)) (fun op => syncId == op.syncId)
    simp only [removeSyncOperation, waiting, invocations, removals, filter_items,
      List.countP_append] at hledger ⊢
    omega
  taken := h.taken
  invoked := h.invoked
  armed := by
    intro hitems
    refine (h.armed ?_).of_eq rfl rfl
    intro hempty
    exact hitems (by simp [removeSyncOperation, hempty])
  covered := by
    intro op hmem
    exact (h.covered op (List.mem_of_mem_filter hmem)).of_eq rfl rfl
  retries := h.retries

theorem delayInv_fire (h : s.DelayInv) (timer : Timer) :
    (s.fire i timer).DelayInv where
  ids := h.ids
  nodup := h.nodup
  ledger := by
    intro k
    have hledger := h.ledger k
    simpa [fire, waiting, invocations, removals, holds] using hledger
  taken := by
    intro time delaySchedule syncOps hmem
    rcases mem_concat.mp hmem with hmem | ⟨⟨⟩⟩
    · exact h.taken time delaySchedule syncOps hmem
  invoked := h.invoked
  armed := fun _ => .inl (by simp [fire])
  covered := fun _ _ => .inl (by simp [fire])
  retries := fun other hmem => h.retries other (List.mem_of_mem_eraseIdx hmem)

theorem advance_ne_nil {calls : List ScheduleCall} {call : ScheduleCall} (h : calls[i]? = some call)
    (next : ScheduleCall) : advance calls i (some next) ≠ [] :=
  List.ne_nil_of_mem (mem_advance_self h)

theorem getTimeoutSyncOps_spec (s : KvStoreSyncManager) (time : Nat) :
    ∃ queue delaySyncingOps, (s.getTimeoutSyncOps time).2 =
        { s with scheduleSyncOps := queue, delaySyncingOps := delaySyncingOps } ∧
      (s.getTimeoutSyncOps time).1.2 ++ queue.items = s.scheduleSyncOps.items ∧
      (∀ op ∈ (s.getTimeoutSyncOps time).1.2, op.due time = true) ∧
      ((s.getTimeoutSyncOps time).1.1 = false →
        ∀ op, queue.top? = some op → op.due time = false) := by
  unfold getTimeoutSyncOps
  split
  · refine ⟨s.scheduleSyncOps, s.delaySyncingOps, rfl, rfl, by simp, ?_⟩
    intro hfalse
    cases hfalse
  refine ⟨_, _, rfl, List.takeWhile_append_dropWhile, ?_, ?_⟩
  · intro op hop
    exact List.mem_takeWhile_imp (p := fun op : KvSyncOperation => op.due time) hop
  intro _ op hop
  have hhead : (s.scheduleSyncOps.items.dropWhile fun op => op.due time).head? = some op := hop
  have hnot := List.head?_dropWhile_not (fun op : KvSyncOperation => op.due time)
    s.scheduleSyncOps.items
  rw [hhead] at hnot
  simpa using hnot

theorem delayInv_collect (h : s.DelayInv) (hcall : s.schedules[i]? = some (.collect time)) :
    (s.advanceSchedule i (.collect time)).DelayInv := by
  have hbusy := fun next => advance_ne_nil hcall next
  obtain ⟨queue, delaySyncingOps, hstate, hsplit, hdue, -⟩ := getTimeoutSyncOps_spec s time
  rcases hresult : s.getTimeoutSyncOps time with ⟨⟨delaySchedule, syncOps⟩, s'⟩
  rw [hresult] at hstate hsplit hdue
  subst hstate
  simp only [advanceSchedule, hresult]
  exact
    { ids := h.ids
      nodup := h.nodup
      ledger := by
        intro k
        have hsum := sum_advance (holds k) (some (.run time delaySchedule syncOps)) hcall
        have hledger := h.ledger k
        have hcount := congrArg (List.countP fun op => decide (op.id = k)) hsplit
        simp only [waiting, invocations, removals, holds, Option.elim_some,
          List.countP_append] at hsum hledger hcount ⊢
        omega
      taken := by
        intro time' delaySchedule' syncOps' hmem
        dsimp only at hmem
        rcases mem_advance hmem with hnew | hold
        · cases hnew
          exact hdue
        · exact h.taken time' delaySchedule' syncOps' hold
      invoked := h.invoked
      armed := fun _ => .inl (hbusy _)
      covered := fun _ _ => .inl (hbusy _)
      retries := h.retries }

theorem delayInv_invoke (h : s.DelayInv) {delaySchedule : Bool} {op : KvSyncOperation}
    {rest : List KvSyncOperation}
    (hcall : s.schedules[i]? = some (.run time delaySchedule (op :: rest))) :
    (s.advanceSchedule i (.run time delaySchedule (op :: rest))).DelayInv where
  ids := h.ids
  nodup := h.nodup
  ledger := by
    intro k
    have hsum := sum_advance (holds k) (some (.run time delaySchedule rest)) hcall
    have hledger := h.ledger k
    simp only [advanceSchedule, waiting, invocations, removals, holds,
      Option.elim_some, List.countP_append, List.countP_cons, List.countP_nil] at hsum hledger ⊢
    omega
  taken := by
    have hdue := h.taken time delaySchedule (op :: rest) (List.mem_of_getElem? hcall)
    intro time' delaySchedule' syncOps hmem
    have hmoved : .run time' delaySchedule' syncOps ∈
        advance s.schedules i (some (.run time delaySchedule rest)) := hmem
    rcases mem_advance hmoved with hnew | hold
    · cases hnew
      exact fun other hother => hdue other (List.mem_cons_of_mem op hother)
    · exact h.taken time' delaySchedule' syncOps hold
  invoked := by
    have hdue := h.taken time delaySchedule (op :: rest) (List.mem_of_getElem? hcall)
    intro call hmem
    rcases mem_concat.mp hmem with hmem | rfl
    · exact h.invoked call hmem
    · exact hdue op List.mem_cons_self
  armed := fun _ => .inl (advance_ne_nil hcall _)
  covered := fun _ _ => .inl (advance_ne_nil hcall _)
  retries := h.retries

theorem wakesUp_rearm (s : KvStoreSyncManager) (delaySchedule : Bool)
    (h : s.scheduleSyncOps.items ≠ []) :
    ∃ timer, (s.rearm delaySchedule).timers = s.timers ++ [timer] ∧
      timer.time = (s.rearm delaySchedule).nextScheduleTime ∧
      (timer.retry = true → timer.time ≤ s.now + milliseconds syncMinDelayMs) ∧
      ∀ op ∈ s.scheduleSyncOps.items, Covers op timer := by
  obtain ⟨top, htop⟩ := exists_top h
  simp only [rearm, htop, addTimer]
  refine ⟨_, rfl, rfl, ?_, ?_⟩
  · intro hretry
    dsimp only at hretry ⊢
    rw [hretry, if_pos rfl]
  · intro op hop
    cases delaySchedule with
    | true => exact .inr rfl
    | false =>
        have hle := top_le htop op hop
        refine .inl ?_
        simp only [Bool.false_eq_true, if_false, latest]
        omega

theorem rearm_frame (s : KvStoreSyncManager) (delaySchedule : Bool) :
    (s.rearm delaySchedule).scheduleSyncOps = s.scheduleSyncOps ∧
      (s.rearm delaySchedule).delayed = s.delayed ∧ (s.rearm delaySchedule).calls = s.calls ∧
      (s.rearm delaySchedule).invoked = s.invoked ∧ (s.rearm delaySchedule).removed = s.removed ∧
      (s.rearm delaySchedule).adding = s.adding ∧ (s.rearm delaySchedule).now = s.now ∧
      (s.scheduleSyncOps.items = [] → (s.rearm delaySchedule).timers = s.timers) := by
  unfold rearm
  dsimp only
  split
  · simp
  rename_i top htop
  refine ⟨rfl, rfl, rfl, rfl, rfl, rfl, rfl, ?_⟩
  intro hempty
  rw [top?, hempty] at htop
  cases htop

theorem delayInv_rearm (h : s.DelayInv) {delaySchedule : Bool}
    (hcall : s.schedules[i]? = some (.run time delaySchedule [])) :
    (s.advanceSchedule i (.run time delaySchedule [])).DelayInv := by
  obtain ⟨hqueue, hdelayed, hcalls, hinvoked, hremoved, hadding, hnow, htimers⟩ :=
    rearm_frame s delaySchedule
  exact
    { ids := by
        intro k hk
        exact hcalls ▸ h.ids k (hdelayed ▸ hk)
      nodup := hdelayed ▸ h.nodup
      ledger := by
        intro k
        have hsum := sum_advance (holds k) none hcall
        have hledger := h.ledger k
        simp only [advanceSchedule, waiting, invocations, removals, holds, hqueue,
          hdelayed, hinvoked, hremoved, hadding, Option.elim_none, List.countP_nil]
          at hsum hledger ⊢
        omega
      taken := by
        intro time' delaySchedule' syncOps hmem
        have hmoved : .run time' delaySchedule' syncOps ∈ advance s.schedules i none := hmem
        rcases mem_advance hmoved with hnew | hold
        · cases hnew
        · exact h.taken time' delaySchedule' syncOps hold
      invoked := fun call hmem => h.invoked call (hinvoked ▸ hmem)
      armed := by
        intro hitems
        obtain ⟨timer, htimer, htime, -, -⟩ := wakesUp_rearm s delaySchedule (hqueue ▸ hitems)
        exact .inr ⟨timer, by simp [advanceSchedule, htimer], htime⟩
      covered := by
        intro op hop
        have hmem : op ∈ s.scheduleSyncOps.items := hqueue ▸ hop
        obtain ⟨timer, htimer, -, -, hcovers⟩ :=
          wakesUp_rearm s delaySchedule (List.ne_nil_of_mem hmem)
        exact .inr ⟨timer, by simp [advanceSchedule, htimer], hcovers op hmem⟩
      retries := by
        intro other hmem hretry
        have hnow' : (s.advanceSchedule i (.run time delaySchedule [])).now = s.now := hnow
        rw [hnow']
        by_cases hitems : s.scheduleSyncOps.items = []
        · exact h.retries other (htimers hitems ▸ hmem) hretry
        obtain ⟨timer, htimer, -, hbound, -⟩ := wakesUp_rearm s delaySchedule hitems
        have hmem' : other ∈ s.timers ++ [timer] := htimer ▸ hmem
        rcases mem_concat.mp hmem' with hold | rfl
        · exact h.retries other hold hretry
        · exact hbound hretry }

end

theorem delayInv_step (s : KvStoreSyncManager) (a : SyncAction) (s' : KvStoreSyncManager)
    (h : s.DelayInv) (hstep : syncMachine.step s a = some s') : s'.DelayInv := by
  cases a with
  | tick elapsed =>
      cases hstep
      refine { h with retries := fun timer htimer hretry => ?_ }
      have hbound := h.retries timer htimer hretry
      dsimp only
      omega
  | addSyncOperation syncId delayMs hasSyncFunc hasSyncEnd =>
      cases hstep
      exact delayInv_addSyncOperation h syncId delayMs hasSyncFunc hasSyncEnd
  | advanceAdd i success =>
      obtain ⟨call, hcall, rfl⟩ := Option.map_eq_some_iff.mp hstep
      exact delayInv_advanceAdd h success hcall
  | removeSyncOperation syncId =>
      cases hstep
      exact delayInv_removeSyncOperation h syncId
  | syncEnd opSeq realtime =>
      cases hstep
      cases realtime with
      | true => exact delayInv_syncing h _ _
      | false => exact delayInv_syncing h _ _
  | fire i =>
      obtain ⟨timer, -, rfl⟩ := Option.map_eq_some_iff.mp hstep
      exact delayInv_fire h timer
  | advanceSchedule i =>
      obtain ⟨call, hcall, rfl⟩ := Option.map_eq_some_iff.mp hstep
      cases call with
      | collect time => exact delayInv_collect h hcall
      | run time delaySchedule syncOps =>
          cases syncOps with
          | nil => exact delayInv_rearm h hcall
          | cons op rest => exact delayInv_invoke h hcall

theorem delayInv_start : ({} : KvStoreSyncManager).DelayInv where
  ids := by simp
  nodup := List.nodup_nil
  ledger := fun _ => rfl
  taken := by simp
  invoked := by simp
  armed := fun h => absurd rfl h
  covered := by simp
  retries := by simp

theorem DelayInv.settled (h : s.DelayInv) (hadding : s.adding = []) (htimers : s.timers = [])
    (hschedules : s.schedules = []) (k : Nat) : s.waiting k = 0 := by
  have hitems : s.scheduleSyncOps.items = [] := by
    by_contra hne
    rcases h.armed hne with hbusy | ⟨timer, htimer, -⟩
    · exact hbusy hschedules
    · rw [htimers] at htimer
      cases htimer
  simp [waiting, hadding, hschedules, hitems]

/-- While operations wait in the queue, a `Schedule` is in progress, or a timer is
outstanding that is due early enough for the first of them or tries again shortly after
the schedule was deferred. Every delayed operation is in one place: it still waits, its
function has been called once, or it was removed; and nothing waits when no call is in
progress and no timer outstanding. Only a timer of the right time calls a function, and a
`Schedule` that is not deferred takes all that is due. -/
theorem delayed_syncs_kept (schedule : List SyncAction) (s : KvStoreSyncManager)
    (hrun : syncMachine.exec {} schedule = some s) :
    (∀ op, s.scheduleSyncOps.top? = some op → s.schedules ≠ [] ∨
      ∃ timer ∈ s.timers, timer.time ≤ op.latest ∨
        timer.retry = true ∧ timer.time ≤ s.now + milliseconds syncMinDelayMs) ∧
    (∀ k ∈ s.delayed, s.waiting k + s.invocations k + s.removals k = 1) ∧
    (s.adding = [] → s.timers = [] → s.schedules = [] →
      ∀ k ∈ s.delayed, s.invocations k + s.removals k = 1) ∧
    (∀ call ∈ s.invoked, call.1.id ∈ s.delayed ∧
      ¬ call.2 + milliseconds (getExpireTimeRange call.1.delayMs) < call.1.beginTime) ∧
    ∀ i time, s.schedules[i]? = some (.collect time) → s.deferred time = false →
      ∀ op, (s.advanceSchedule i (.collect time)).scheduleSyncOps.top? = some op →
        time + milliseconds (getExpireTimeRange op.delayMs) < op.beginTime := by
  have h := syncMachine.exec_invariant delayInv_step delayInv_start hrun
  have hone : ∀ k ∈ s.delayed, s.waiting k + s.invocations k + s.removals k = 1 := by
    intro k hk
    rw [h.ledger k]
    exact List.count_eq_one_of_mem h.nodup hk
  refine ⟨?_, hone, ?_, ?_, ?_⟩
  · intro op htop
    have hmem : op ∈ s.scheduleSyncOps.items := List.mem_of_mem_head? htop
    rcases h.covered op hmem with hbusy | ⟨timer, htimer, hcovers⟩
    · exact .inl hbusy
    refine .inr ⟨timer, htimer, ?_⟩
    rcases hcovers with htime | hretry
    · exact .inl htime
    · exact .inr ⟨hretry, h.retries timer htimer hretry⟩
  · intro hadding htimers hschedules k hk
    have hsettled := h.settled hadding htimers hschedules k
    have hledger := hone k hk
    omega
  · intro call hcall
    constructor
    · by_contra hfresh
      have hledger := h.ledger call.1.id
      have hcount : 0 < s.invocations call.1.id :=
        List.countP_pos_iff.mpr ⟨call, hcall, by simp⟩
      rw [List.count_eq_zero_of_not_mem hfresh] at hledger
      omega
    · simpa [due] using h.invoked call hcall
  · intro i time _ hdeferred op htop
    obtain ⟨queue, delaySyncingOps, hstate, -, -, hleft⟩ := getTimeoutSyncOps_spec s time
    have hnot : (s.getTimeoutSyncOps time).1.1 = false := by simp [getTimeoutSyncOps, hdeferred]
    have hqueue : (s.advanceSchedule i (.collect time)).scheduleSyncOps = queue := by
      simp [advanceSchedule, hstate]
    rw [hqueue] at htop
    simpa [due] using hleft hnot op htop

/-- One operation with a delay of 200 ms, added, taken by its timer and called. -/
def oneDelayed : List SyncAction :=
  [.addSyncOperation 1 200 true true, .advanceAdd 0 true, .tick (milliseconds 200), .fire 0,
    .advanceSchedule 0, .advanceSchedule 0, .advanceSchedule 0]

theorem delayed_syncs_kept_one : ∃ s, syncMachine.exec {} oneDelayed = some s ∧
    s.delayed = [1] ∧ s.invocations 1 + s.removals 1 = 1 := by
  refine ⟨_, rfl, rfl, ?_⟩
  exact (delayed_syncs_kept oneDelayed _ rfl).2.2.1 rfl rfl rfl 1 (by decide)

end KvStoreSyncManager

end DataMgr.Kvdb
