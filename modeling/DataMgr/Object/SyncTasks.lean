import DataMgr.Object.SequenceSync

/-! # The numbers the tasks hold

What a task can do is said once; from it follows that a sequence number is held by one
task at most, that its callback is invoked at most once, and that the manager knows every
number that is held, under the user it was registered for.
-/

namespace DataMgr.Object

open DataMgr.Foundation SequenceSyncManager

def SyncStage.Prepares : SyncStage → Prop
  | .registered | .commonMeta | .storeMeta | .doSync _ => True
  | .mark | .dataSync | .lowering _ => False

def SyncStage.Holds : SyncStage → Prop
  | .registered | .commonMeta | .storeMeta | .doSync _ | .dataSync => True
  | .mark | .lowering _ => False

instance : DecidablePred SyncStage.Holds
  | .registered | .commonMeta | .storeMeta | .doSync _ | .dataSync => isTrue trivial
  | .mark | .lowering _ => isFalse id

theorem SyncStage.Prepares.holds {stage : SyncStage} (h : stage.Prepares) : stage.Holds := by
  cases stage <;> trivial

namespace ObjectSync

variable {s s' : ObjectSync}

/-- The store is open when `DoSync` begins, and the metadata of the store can be synchronised
after the common ones. -/
def Carries (s : ObjectSync) : SyncMove → Prop
  | .start _ => s.opened = true
  | .commonDone succeeded storeStarts => succeeded = true → storeStarts = true
  | .syncMeta _ | .storeDone | .mark | .complete _ | .lower => True

inductive Did (s : ObjectSync) (i : Nat) (task : SyncTask) : SyncMove → ObjectSync → Prop where
  | moves {move : SyncMove} {stage : SyncStage} (hbefore : task.stage.Prepares)
      (hafter : stage.Prepares) : Did s i task move (s.move i task stage)
  | abandons {move : SyncMove} (inCall : Bool) (hbefore : task.stage.Prepares)
      (hlost : ¬ s.Carries move) : Did s i task move (s.failed i task inCall)
  | fails (inCall : Bool) (hbefore : task.stage.Prepares) : Did s i task (.start false)
      { s.failed i task inCall with manager := (s.manager.deleteNotifier task.sequenceId).2 }
  | starts (hbefore : task.stage.Prepares) : Did s i task (.start true)
      { s with
        tasks := advance s.tasks i (some { task with stage := .mark }) ++
          [{ task with stage := .dataSync }] }
  | marks (hbefore : task.stage = .mark) : Did s i task .mark { s.retire i with isSyncing := true }
  | processes {empty : Bool} (hbefore : task.stage = .dataSync) :
      Did s i task (.complete empty) (s.process i task)
  | lowers {result : SyncResult × String} (hbefore : task.stage = .lowering result) :
      Did s i task .lower (s.syncCompleted i result)

variable {i sequenceId : Nat} {task : SyncTask} {move : SyncMove} {action : SyncAction}

theorem did_of_act (h : s.act i task move = some s') :
    Did s i task move s' := by
  cases move with
  | syncMeta answer =>
      simp only [act] at h
      split at h
      · rename_i hstage
        have hbefore : task.stage.Prepares := hstage ▸ trivial
        cases answer with
        | started =>
            cases h
            exact .moves hbefore trivial
        | notNeeded | failed =>
            cases h
            exact .moves hbefore trivial
      · cases h
  | commonDone succeeded storeStarts =>
      simp only [act] at h
      split at h
      · rename_i hstage
        have hbefore : task.stage.Prepares := hstage ▸ trivial
        split at h
        · cases h
          exact .moves hbefore trivial
        rename_i hsucceeded
        split at h
        · cases h
          exact .moves hbefore trivial
        rename_i hstarts
        cases h
        exact .abandons false hbefore fun hcarries =>
          hstarts (hcarries (by simpa using hsucceeded))
      · cases h
  | storeDone =>
      simp only [act] at h
      split at h
      · rename_i hstage
        have hbefore : task.stage.Prepares := hstage ▸ trivial
        cases h
        exact .moves hbefore trivial
      · cases h
  | start starts =>
      simp only [act] at h
      split at h
      · rename_i inCall hstage
        have hbefore : task.stage.Prepares := hstage ▸ trivial
        cases h
        unfold doSync
        split
        · rename_i hclosed
          refine .abandons inCall hbefore fun hcarries => ?_
          have hopened : s.opened = true := hcarries
          rw [hclosed] at hopened
          cases hopened
        · cases starts with
          | true => exact .starts hbefore
          | false => exact .fails inCall hbefore
      · cases h
  | mark =>
      simp only [act] at h
      split at h
      · rename_i hstage
        cases h
        exact .marks hstage
      · cases h
  | complete empty =>
      simp only [act] at h
      split at h
      · rename_i hstage
        cases h
        exact .processes hstage.1
      · cases h
  | lower =>
      simp only [act] at h
      split at h
      · rename_i result hstage
        cases h
        exact .lowers hstage
      · cases h

/-- What a step is: a request, a task that does something, or the user or the store changes. -/
inductive Stepped (s : ObjectSync) : SyncAction → ObjectSync → Prop where
  | requests (kind : SyncKind) (syncs : Bool) :
      Stepped s (.request kind syncs) (s.request kind syncs)
  | acts {i : Nat} {task : SyncTask} {move : SyncMove} {s' : ObjectSync}
      (htask : s.tasks[i]? = some task) (hdid : Did s i task move s') : Stepped s (.task i move) s'
  | sets (userId : String) : Stepped s (.setData userId) { s with userId }
  | turns {action : SyncAction} (opened isSyncing : Bool)
      (hflag : isSyncing = true → s.isSyncing = true) :
      Stepped s action { s with opened, isSyncing }

theorem stepped_of_step (h : s.step action = some s') :
    Stepped s action s' := by
  cases action with
  | request kind syncs =>
      cases h
      exact .requests kind syncs
  | task i move =>
      obtain ⟨task, htask, hact⟩ := Option.bind_eq_some_iff.mp h
      exact .acts htask (did_of_act hact)
  | setData userId =>
      cases h
      exact .sets userId
  | openStore =>
      simp only [step] at h
      split at h
      · cases h
      · cases h
        exact .turns true s.isSyncing id
  | flush =>
      simp only [step] at h
      split at h
      · cases h
      · cases h
        exact .turns false s.isSyncing id
  | forceClose =>
      simp only [step] at h
      split at h
      · cases h
      · cases h
        exact .turns false false fun hfalse => by cases hfalse

theorem mem_tasks_move {other : SyncTask} (h : s.tasks[i]? = some task) (hother : other ∈ s.tasks)
    (hne : other ≠ task) (stage : SyncStage) :
    other ∈ (s.move i task stage).tasks := by
  change other ∈ advance s.tasks i (some { task with stage })
  exact mem_advance_of_ne h hother hne

theorem mem_tasks_retire {other : SyncTask} (h : s.tasks[i]? = some task) (hother : other ∈ s.tasks)
    (hne : other ≠ task) : other ∈ (s.retire i).tasks := by
  change other ∈ advance s.tasks i none
  exact mem_advance_of_ne h hother hne

def holding (id : Nat) (task : SyncTask) : Nat :=
  if task.sequenceId = id ∧ task.stage.Holds then 1 else 0

def holders (s : ObjectSync) (id : Nat) : Nat := (s.tasks.map (holding id)).sum

def credit (s : ObjectSync) (id : Nat) : Nat := s.holders id + s.completed.count id

theorem holding_of_not_holds (h : ¬ task.stage.Holds) (id : Nat) :
    holding id task = 0 := if_neg fun hholds => h hholds.2

theorem holding_of_holds (h : task.stage.Holds) (id : Nat) :
    holding id task = if task.sequenceId = id then 1 else 0 := by
  simp only [holding, h, and_true]

theorem holders_advance (h : s.tasks[i]? = some task) (next : Option SyncTask) (id : Nat) :
    ((advance s.tasks i next).map (holding id)).sum + holding id task =
      s.holders id + next.elim 0 (holding id) :=
  sum_advance (holding id) next h

theorem holders_pos_iff {id : Nat} :
    0 < s.holders id ↔ ∃ task ∈ s.tasks, task.sequenceId = id ∧ task.stage.Holds := by
  unfold holders
  rw [Nat.pos_iff_ne_zero, Ne, List.sum_eq_zero_iff]
  simp only [List.mem_map, forall_exists_index, and_imp, forall_apply_eq_imp_iff₂, holding,
    ite_eq_right_iff, one_ne_zero, imp_false, not_forall, not_not]
  constructor
  · rintro ⟨task, htask, hholds⟩
    exact ⟨task, htask, hholds⟩
  · rintro ⟨task, htask, hholds⟩
    exact ⟨task, htask, hholds⟩

variable (h : s.tasks[i]? = some task)

include h

theorem holders_move {stage : SyncStage} (hbefore : task.stage.Holds) (hafter : stage.Holds)
    (id : Nat) : (s.move i task stage).holders id = s.holders id := by
  have hsum := holders_advance h (some { task with stage }) id
  have hsame : holding id { task with stage } = holding id task := by
    rw [holding_of_holds hbefore, holding_of_holds hafter]
  rw [Option.elim_some, hsame] at hsum
  exact Nat.add_right_cancel hsum

theorem holders_retire (id : Nat) : (s.retire i).holders id + holding id task = s.holders id :=
  holders_advance h none id

theorem holders_retire_of_not_holds (hnot : ¬ task.stage.Holds) (id : Nat) :
    (s.retire i).holders id = s.holders id := by
  have hsum := holders_retire h id
  rw [holding_of_not_holds hnot, Nat.add_zero] at hsum
  exact hsum

theorem holders_release (stage : SyncStage) (hafter : ¬ stage.Holds) (id : Nat) :
    (s.move i task stage).holders id + holding id task = s.holders id := by
  have hsum := holders_advance h (some { task with stage }) id
  have hnone : holding id { task with stage } = 0 := holding_of_not_holds hafter id
  rw [Option.elim_some, hnone, Nat.add_zero] at hsum
  exact hsum

theorem holders_start (hbefore : task.stage.Holds) (id : Nat) :
    ({ s with
      tasks := advance s.tasks i (some { task with stage := .mark }) ++
        [{ task with stage := .dataSync }] } : ObjectSync).holders id = s.holders id := by
  have hsum := holders_release h .mark not_false id
  have hdata : SyncStage.dataSync.Holds := trivial
  have hnew : holding id { task with stage := .dataSync } = holding id task := by
    rw [holding_of_holds hbefore, holding_of_holds hdata]
  rw [← hsum, ← hnew]
  unfold holders
  rw [List.map_append, List.sum_append]
  rfl

omit h

theorem count_append_le (id other : Nat) (completed : List Nat) (invoked : Prop)
    [Decidable invoked] :
    (if invoked then completed ++ [other] else completed).count id ≤
      completed.count id + if other = id then 1 else 0 := by
  split
  · rw [List.count_append, List.count_singleton]
    simp only [beq_iff_eq]
    exact Nat.le_refl _
  · exact Nat.le_add_right _ _

theorem credit_le_of_release (hholds : task.stage.Holds) (id : Nat)
    (hsum : s'.holders id + holding id task = s.holders id) {invoked : Prop} [Decidable invoked]
    (hcompleted : s'.completed =
      if invoked then s.completed ++ [task.sequenceId] else s.completed) :
    s'.credit id ≤ s.credit id := by
  have hcount := count_append_le id task.sequenceId s.completed invoked
  rw [← hcompleted] at hcount
  rw [holding_of_holds hholds] at hsum
  unfold credit
  omega

theorem Did.credit_le (hdid : Did s i task move s') (h : s.tasks[i]? = some task) (id : Nat) :
    s'.credit id ≤ s.credit id := by
  cases hdid with
  | moves hbefore hafter =>
      exact Nat.add_le_add_right (holders_move h hbefore.holds hafter.holds id).le _
  | abandons inCall hbefore | fails inCall hbefore =>
      exact credit_le_of_release hbefore.holds id (holders_retire h id) rfl
  | starts hbefore => exact Nat.add_le_add_right (holders_start h hbefore.holds id).le _
  | processes hbefore =>
      have hholds : task.stage.Holds := hbefore ▸ trivial
      have hsum := holders_release h
        (.lowering (s.manager.deleteNotifier task.sequenceId).1) not_false id
      exact credit_le_of_release hholds id hsum rfl
  | marks hbefore | lowers hbefore =>
      have hnot : ¬ task.stage.Holds := hbefore ▸ not_false
      exact Nat.add_le_add_right (holders_retire_of_not_holds h hnot id).le _

theorem Did.nextId_eq (hdid : Did s i task move s') :
    s'.nextId = s.nextId := by
  cases hdid <;> rfl

/-- Every request has at most one credit, and those to come have none. -/
structure Credited (s : ObjectSync) : Prop where
  once : ∀ id, s.credit id ≤ 1
  fresh : ∀ id, s.nextId ≤ id → s.credit id = 0

theorem credit_request (s : ObjectSync) (kind : SyncKind) (syncs : Bool) (id : Nat) :
    (s.request kind syncs).credit id = s.credit id + if s.nextId = id then 1 else 0 := by
  unfold request
  cases syncs with
  | true =>
      have hregistered : SyncStage.registered.Holds := trivial
      have hnew : holding id ⟨s.nextId, s.userId, kind, .registered⟩ =
          if s.nextId = id then 1 else 0 := holding_of_holds hregistered id
      simp only [if_true, credit, holders, List.map_append, List.map_singleton, List.sum_append,
        List.sum_singleton, hnew]
      omega
  | false =>
      simp only [credit, holders, Bool.false_eq_true, if_false, List.count_append,
        List.count_singleton, beq_iff_eq]
      omega

theorem credited_step (h : s.Credited) (hstep : Stepped s action s') :
    s'.Credited := by
  cases hstep with
  | requests kind syncs =>
      have hnext : (s.request kind syncs).nextId = s.nextId + 1 := by
        cases syncs <;> rfl
      constructor
      · intro id
        rw [credit_request]
        split
        · rename_i heq
          rw [h.fresh id heq.le]
        · exact h.once id
      · intro id hid
        rw [credit_request, if_neg (by omega), h.fresh id (by omega)]
  | acts htask hdid =>
      constructor
      · intro id
        exact (hdid.credit_le htask id).trans (h.once id)
      · intro id hid
        rw [hdid.nextId_eq] at hid
        exact Nat.le_zero.mp ((hdid.credit_le htask id).trans (h.fresh id hid).le)
  | sets userId => exact ⟨h.once, h.fresh⟩
  | turns opened isSyncing hflag => exact ⟨h.once, h.fresh⟩

/-- The tasks hold numbers that the manager knows, each for one user. -/
structure Listed (s : ObjectSync) : Prop where
  holder : ∀ task ∈ s.tasks, task.stage.Holds →
    (task.userId, task.sequenceId) ∈ s.manager.pairs ∧ s.manager.has task.sequenceId
  distinct : (s.manager.pairs.map Prod.snd).Nodup
  fresh : ∀ pair ∈ s.manager.pairs, pair.2 < s.nextId

/-- The numbers held are among those held before. -/
def Descends (s s' : ObjectSync) : Prop :=
  ∀ task ∈ s'.tasks, task.stage.Holds → ∃ old ∈ s.tasks, old.stage.Holds ∧
    old.userId = task.userId ∧ old.sequenceId = task.sequenceId

theorem descends_retire (s : ObjectSync) (i : Nat) : s.Descends (s.retire i) :=
  fun task htask hholds => ⟨task, List.mem_of_mem_eraseIdx htask, hholds, rfl, rfl⟩

theorem descends_move (h : s.tasks[i]? = some task) {stage : SyncStage}
    (hbefore : stage.Holds → task.stage.Holds) : s.Descends (s.move i task stage) := by
  intro other hother hholds
  change other ∈ advance s.tasks i (some { task with stage }) at hother
  rcases mem_advance hother with heq | hold
  · cases heq
    exact ⟨task, List.mem_of_getElem? h, hbefore hholds, rfl, rfl⟩
  · exact ⟨other, hold, hholds, rfl, rfl⟩

theorem Listed.keep (h : s.Listed) (hdescends : s.Descends s') (hmanager : s'.manager = s.manager)
    (hnext : s'.nextId = s.nextId) : s'.Listed := by
  constructor
  · intro task htask hholds
    obtain ⟨old, hold, holds, huser, hid⟩ := hdescends task htask hholds
    rw [hmanager, ← huser, ← hid]
    exact h.holder old hold holds
  · rw [hmanager]
    exact h.distinct
  · rw [hmanager, hnext]
    exact h.fresh

theorem has_deleteNotifier_iff {manager : SequenceSyncManager} {id : Nat} :
    (manager.deleteNotifier sequenceId).2.has id ↔ manager.has id ∧ id ≠ sequenceId := by
  unfold deleteNotifier
  split
  · simp only [has, deleteNotifierNoLock, List.mem_map,
      List.mem_filter, decide_eq_true_eq]
    constructor
    · rintro ⟨entry, ⟨hentry, hne⟩, rfl⟩
      exact ⟨⟨entry, hentry, rfl⟩, hne⟩
    · rintro ⟨⟨entry, hentry, rfl⟩, hne⟩
      exact ⟨entry, ⟨hentry, hne⟩, rfl⟩
  · rename_i hnot
    constructor
    · intro hid
      refine ⟨hid, ?_⟩
      rintro rfl
      exact hnot hid
    · exact And.left

theorem pairs_deleteNotifier {manager : SequenceSyncManager} (hhas : manager.has sequenceId)
    (h : (manager.pairs.map Prod.snd).Nodup) :
    (manager.deleteNotifier sequenceId).2.pairs =
      manager.pairs.filter fun pair => pair.2 ≠ sequenceId := by
  unfold deleteNotifier
  rw [if_pos hhas]
  exact sequencePairs_release sequenceId manager.userIdSeqIdRelations h

theorem Listed.release (h : s.Listed) (hdescends : s.Descends s') (hhas : s.manager.has sequenceId)
    (hmanager : s'.manager = (s.manager.deleteNotifier sequenceId).2) (hnext : s'.nextId = s.nextId)
    (hheld : s'.holders sequenceId = 0) : s'.Listed := by
  have hpairs := pairs_deleteNotifier hhas h.distinct
  rw [← hmanager] at hpairs
  constructor
  · intro task htask hholds
    obtain ⟨old, hold, holds, huser, hid⟩ := hdescends task htask hholds
    have hne : task.sequenceId ≠ sequenceId := by
      rintro rfl
      exact (holders_pos_iff.mpr ⟨task, htask, rfl, hholds⟩).ne' hheld
    obtain ⟨hpair, hlisted⟩ := h.holder old hold holds
    rw [huser, hid] at hpair
    rw [hid] at hlisted
    rw [hpairs, hmanager, has_deleteNotifier_iff]
    exact ⟨List.mem_filter.mpr ⟨hpair, by simpa using hne⟩, hlisted, hne⟩
  · rw [hpairs]
    exact h.distinct.sublist (List.filter_sublist.map Prod.snd)
  · rw [hpairs, hnext]
    exact fun pair hpair => h.fresh pair (List.mem_of_mem_filter hpair)

theorem listed_request (h : s.Listed) (kind : SyncKind) (syncs : Bool) :
    (s.request kind syncs).Listed := by
  cases syncs with
  | false =>
      have hbelow : ∀ pair ∈ s.manager.pairs, pair.2 < s.nextId + 1 :=
        fun pair hpair => Nat.lt_succ_of_lt (h.fresh pair hpair)
      exact ⟨h.holder, h.distinct, hbelow⟩
  | true =>
      have hperm := sequencePairs_add s.userId s.nextId s.manager.userIdSeqIdRelations
      have hpairs : ((s.request kind true).manager.pairs).Perm
          ((s.userId, s.nextId) :: s.manager.pairs) := hperm
      have hlisted : ∀ id, (s.request kind true).manager.has id ↔
          s.manager.has id ∨ id = s.nextId := by
        intro id
        change id ∈ (s.manager.seqIdCallbackRelations ++ [(s.nextId, kind)]).map Prod.fst ↔ _
        rw [List.map_append, List.mem_append, List.map_singleton, List.mem_singleton]
        rfl
      constructor
      · intro task htask hholds
        rw [hpairs.mem_iff, hlisted]
        rcases mem_concat.mp htask with hold | rfl
        · obtain ⟨hpair, hhas⟩ := h.holder task hold hholds
          exact ⟨List.mem_cons_of_mem _ hpair, .inl hhas⟩
        · exact ⟨List.mem_cons_self, .inr rfl⟩
      · rw [(hpairs.map Prod.snd).nodup_iff, List.map_cons, List.nodup_cons]
        refine ⟨fun hmem => ?_, h.distinct⟩
        obtain ⟨pair, hpair, heq⟩ := List.mem_map.mp hmem
        have := h.fresh pair hpair
        omega
      · intro pair hpair
        rcases List.mem_cons.mp (hpairs.mem_iff.mp hpair) with rfl | hold
        · exact Nat.lt_succ_self _
        · exact Nat.lt_succ_of_lt (h.fresh pair hold)

theorem holders_eq_zero_of_release (hcredited : s.Credited) (hholds : task.stage.Holds)
    (hsum : s'.holders task.sequenceId + holding task.sequenceId task =
      s.holders task.sequenceId) : s'.holders task.sequenceId = 0 := by
  have honce := hcredited.once task.sequenceId
  rw [holding_of_holds hholds, if_pos rfl] at hsum
  unfold credit at honce
  omega

theorem listed_did (h : s.Listed) (hcredited : s.Credited) (htask : s.tasks[i]? = some task)
    (hdid : Did s i task move s') :
    s'.Listed := by
  have hmem : task ∈ s.tasks := List.mem_of_getElem? htask
  cases hdid with
  | moves hbefore hafter => exact h.keep (descends_move htask fun _ => hbefore.holds) rfl rfl
  | abandons inCall hbefore hlost => exact h.keep (s.descends_retire i) rfl rfl
  | fails inCall hbefore =>
      have hsum := holders_retire htask task.sequenceId
      have hzero := holders_eq_zero_of_release hcredited hbefore.holds hsum
      exact h.release (s.descends_retire i) (h.holder task hmem hbefore.holds).2 rfl rfl hzero
  | starts hbefore =>
      refine h.keep (fun other hother hholds => ?_) rfl rfl
      rcases mem_concat.mp hother with hold | rfl
      · have hmark : SyncStage.mark.Holds → task.stage.Holds := fun hmark => hmark.elim
        exact descends_move htask hmark other hold hholds
      · exact ⟨task, hmem, hbefore.holds, rfl, rfl⟩
  | marks hbefore => exact h.keep (s.descends_retire i) rfl rfl
  | processes hbefore =>
      have hholds : task.stage.Holds := by
        rw [hbefore]
        trivial
      have hsum := holders_release htask
        (.lowering (s.manager.deleteNotifier task.sequenceId).1) not_false task.sequenceId
      have hzero := holders_eq_zero_of_release hcredited hholds hsum
      exact h.release (descends_move htask fun hlowering => hlowering.elim)
        (h.holder task hmem hholds).2 rfl rfl hzero
  | lowers hbefore => exact h.keep (s.descends_retire i) rfl rfl

theorem listed_step (h : s.Listed) (hcredited : s.Credited) (hstep : Stepped s action s') :
    s'.Listed := by
  cases hstep with
  | requests kind syncs => exact listed_request h kind syncs
  | acts htask hdid => exact listed_did h hcredited htask hdid
  | sets userId => exact ⟨h.holder, h.distinct, h.fresh⟩
  | turns opened isSyncing hflag => exact ⟨h.holder, h.distinct, h.fresh⟩

structure Kept (s : ObjectSync) : Prop where
  credited : s.Credited
  listed : s.Listed

theorem kept_step (h : s.Kept) (hstep : Stepped s action s') : s'.Kept :=
  ⟨credited_step h.credited hstep, listed_step h.listed h.credited hstep⟩

theorem kept_init (userId : String) : ({ userId } : ObjectSync).Kept := by
  refine ⟨⟨fun _ => Nat.zero_le 1, fun _ _ => rfl⟩, ?_, List.nodup_nil, ?_⟩
  · exact fun _ h => absurd h List.not_mem_nil
  · exact fun _ h => absurd h List.not_mem_nil

end ObjectSync

end DataMgr.Object
