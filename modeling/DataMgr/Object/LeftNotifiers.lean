import DataMgr.Object.SyncTasks

/-! # Notifiers that are left behind

A notifier is released by the synchronisation of the data, or when that cannot start. Two
exits release nothing: `DoSync` on a store that was closed, and the metadata of the store
that cannot be synchronised after the common ones.
-/

namespace DataMgr.Object

open DataMgr.Foundation

namespace ObjectSync

variable {s s' : ObjectSync}

/-- Every number the manager holds is of a synchronisation that is not over. -/
def NotifiersHeld (s : ObjectSync) : Prop :=
  ∀ id, s.manager.has id → ∃ task ∈ s.tasks, task.sequenceId = id ∧ task.stage.Holds

/-- The synchronisation a step is about is carried on. -/
def CarriesOn (s : ObjectSync) : SyncAction → Prop
  | .task _ move => s.Carries move
  | .request .. | .setData _ | .openStore | .flush | .forceClose => True

instance (s : ObjectSync) (move : SyncMove) : Decidable (s.Carries move) :=
  match move with
  | .start _ => inferInstanceAs (Decidable (s.opened = true))
  | .commonDone succeeded storeStarts =>
      inferInstanceAs (Decidable (succeeded = true → storeStarts = true))
  | .syncMeta _ | .storeDone | .mark | .complete _ | .lower => inferInstanceAs (Decidable True)

instance (s : ObjectSync) (action : SyncAction) : Decidable (s.CarriesOn action) :=
  match action with
  | .task _ move => inferInstanceAs (Decidable (s.Carries move))
  | .request .. | .setData _ | .openStore | .flush | .forceClose => inferInstanceAs (Decidable True)

theorem notifiersHeld_iff : s.NotifiersHeld ↔ ∀ id, s.manager.has id → 0 < s.holders id := by
  unfold NotifiersHeld
  simp only [holders_pos_iff]

variable (h : s.NotifiersHeld)

include h

theorem notifiersHeld_keep (hmanager : s'.manager = s.manager)
    (hholders : ∀ id, s'.holders id = s.holders id) : s'.NotifiersHeld := by
  rw [notifiersHeld_iff] at h ⊢
  intro id hhas
  rw [hmanager] at hhas
  rw [hholders]
  exact h id hhas

theorem notifiersHeld_release {task : SyncTask}
    (hmanager : s'.manager = (s.manager.deleteNotifier task.sequenceId).2)
    (hsum : ∀ id, s'.holders id + holding id task = s.holders id) : s'.NotifiersHeld := by
  rw [notifiersHeld_iff] at h ⊢
  intro id hhas
  rw [hmanager, has_deleteNotifier_iff] at hhas
  have hother : holding id task = 0 := if_neg fun heq => hhas.2 heq.1.symm
  have hheld := hsum id
  rw [hother, Nat.add_zero] at hheld
  rw [hheld]
  exact h id hhas.1

theorem notifiersHeld_did {i : Nat} {task : SyncTask} {move : SyncMove}
    (htask : s.tasks[i]? = some task) (hcarries : s.Carries move) (hdid : Did s i task move s') :
    s'.NotifiersHeld := by
  cases hdid with
  | moves hbefore hafter =>
      exact notifiersHeld_keep h rfl (holders_move htask hbefore.holds hafter.holds)
  | abandons inCall hbefore hlost => exact absurd hcarries hlost
  | fails inCall hbefore => exact notifiersHeld_release h rfl (holders_retire htask)
  | starts hbefore => exact notifiersHeld_keep h rfl (holders_start htask hbefore.holds)
  | processes hbefore =>
      exact notifiersHeld_release h rfl (holders_release htask _ not_false)
  | marks hbefore | lowers hbefore =>
      have hnot : ¬ task.stage.Holds := hbefore ▸ not_false
      exact notifiersHeld_keep h rfl (holders_retire_of_not_holds htask hnot)

theorem notifiersHeld_step {action : SyncAction} (hcarries : s.CarriesOn action)
    (hstep : Stepped s action s') : s'.NotifiersHeld := by
  cases hstep with
  | requests kind syncs =>
      cases syncs with
      | false => exact h
      | true =>
          intro id hhas
          change id ∈ (s.manager.seqIdCallbackRelations ++ [(s.nextId, kind)]).map Prod.fst at hhas
          rw [List.map_append, List.mem_append, List.map_singleton, List.mem_singleton] at hhas
          rcases hhas with hold | rfl
          · obtain ⟨task, htask, hholds⟩ := h id hold
            exact ⟨task, List.mem_append_left _ htask, hholds⟩
          · exact ⟨_, List.mem_append_right _ (List.mem_singleton_self _), rfl, trivial⟩
  | acts htask hdid => exact notifiersHeld_did h htask hcarries hdid
  | sets userId => exact h
  | turns opened isSyncing hflag => exact h

omit h

/-- A synchronisation that is not carried on leaves its number with nobody. -/
theorem not_notifiersHeld_of_lost (h : s.Kept) {action : SyncAction} (hlost : ¬ s.CarriesOn action)
    (hstep : s.step action = some s') : ¬ s'.NotifiersHeld := by
  cases action with
  | request | setData | openStore | flush | forceClose => exact absurd trivial hlost
  | task i move =>
      obtain ⟨task, htask, hact⟩ := Option.bind_eq_some_iff.mp hstep
      have hretired : task.stage.Holds ∧ s'.manager = s.manager ∧
          s'.tasks = (s.retire i).tasks := by
        cases move with
        | syncMeta | storeDone | mark | complete | lower => exact absurd trivial hlost
        | start starts =>
            have hclosed : s.opened = false := by
              cases hopened : s.opened with
              | false => rfl
              | true => exact absurd hopened hlost
            simp only [act] at hact
            split at hact
            · rename_i inCall hstage
              cases hact
              rw [doSync, if_pos hclosed, hstage]
              exact ⟨trivial, rfl, rfl⟩
            · cases hact
        | commonDone succeeded storeStarts =>
            simp only [CarriesOn, Carries, Classical.not_imp, Bool.not_eq_true] at hlost
            simp only [act, hlost.1, hlost.2] at hact
            split at hact
            · rename_i hstage
              cases hact
              rw [hstage]
              exact ⟨trivial, rfl, rfl⟩
            · cases hact
      obtain ⟨hholds, hmanager, htasks⟩ := hretired
      intro hheld
      have hlisted := (h.listed.holder task (List.mem_of_getElem? htask) hholds).2
      rw [← hmanager] at hlisted
      have hpos := notifiersHeld_iff.mp hheld task.sequenceId hlisted
      have hzero : s'.holders task.sequenceId = 0 := by
        refine holders_eq_zero_of_release h.credited hholds ?_
        rw [holders, htasks]
        exact holders_retire htask task.sequenceId
      omega

end ObjectSync

open ObjectSync

/-- The callback of a request is invoked at most once in every run. No notifier is left
behind as long as every synchronisation is carried on; one that is not leaves its notifier
behind. -/
theorem notifiers_released (userId : String) :
    (∀ schedule s, objectSyncMachine.exec { userId } schedule = some s →
      ∀ id, s.completed.count id ≤ 1) ∧
    (∀ schedule s, objectSyncMachine.exec { userId } schedule = some s →
      objectSyncMachine.Guarded ObjectSync.CarriesOn { userId } schedule → s.NotifiersHeld) ∧
    (∀ schedule s action s', objectSyncMachine.exec { userId } schedule = some s →
      objectSyncMachine.step s action = some s' → ¬ s.CarriesOn action → ¬ s'.NotifiersHeld) := by
  have hkept : ∀ schedule s, objectSyncMachine.exec { userId } schedule = some s → s.Kept := by
    intro schedule s hrun
    exact objectSyncMachine.exec_invariant
      (fun _ _ _ h hstep => kept_step h (stepped_of_step hstep))
      (kept_init userId) hrun
  refine ⟨?_, ?_, ?_⟩
  · intro schedule s hrun id
    exact (Nat.le_add_left _ _).trans ((hkept schedule s hrun).credited.once id)
  · intro schedule s hrun hcarries
    have hinit : ({ userId } : ObjectSync).NotifiersHeld := fun _ h => absurd h List.not_mem_nil
    exact objectSyncMachine.exec_guarded_invariant
      (fun _ _ _ h hcarries hstep =>
        notifiersHeld_step h hcarries (stepped_of_step hstep))
      hinit hcarries hrun
  · intro schedule s action s' hrun hstep hlost
    exact not_notifiersHeld_of_lost (hkept schedule s hrun) hlost hstep

/-- An object is saved after its metadata were synchronised, and revoked while the database
does not accept the synchronisation. -/
def saveThenRevoke : List SyncAction :=
  [.request .save true, .task 0 (.syncMeta .started), .task 0 (.commonDone true true),
    .task 0 .storeDone, .task 0 (.start true), .task 0 .mark, .request .revoke true,
    .task 1 (.syncMeta .failed), .task 1 (.start false)]

theorem notifiers_released_saveThenRevoke :
    ∃ s, objectSyncMachine.exec { userId := "100" } saveThenRevoke = some s ∧
      s.completed = [1] ∧ s.manager.has 0 ∧ (∀ id, s.completed.count id ≤ 1) ∧
      s.NotifiersHeld := by
  have hrun : objectSyncMachine.exec { userId := "100" } saveThenRevoke =
      some { manager := ⟨[("100", [0])], [(0, .save)]⟩, userId := "100", isSyncing := true,
             tasks := [⟨0, "100", .save, .dataSync⟩], nextId := 2, completed := [1] } := by
    decide +kernel
  have hcarries : objectSyncMachine.Guarded ObjectSync.CarriesOn { userId := "100" }
      saveThenRevoke := by
    decide +kernel
  obtain ⟨honce, hheld, -⟩ := notifiers_released "100"
  exact ⟨_, hrun, rfl, by decide, honce _ _ hrun, hheld _ _ hrun hcarries⟩

/-- An object is saved after its metadata were synchronised, while the store is closed after
the metadata of the store; when they are done, the notifier of the object stays. -/
theorem notifier_left_behind :
    ∃ s, objectSyncMachine.exec { userId := "100" }
        [.request .save true, .task 0 (.syncMeta .started), .task 0 (.commonDone true true),
          .flush, .task 0 .storeDone, .task 0 (.start true)] = some s ∧
      s.tasks = [] ∧ s.manager.has 0 ∧ s.completed = [] ∧ ¬ s.NotifiersHeld := by
  have hrun : objectSyncMachine.exec { userId := "100" }
      [.request .save true, .task 0 (.syncMeta .started), .task 0 (.commonDone true true),
        .flush, .task 0 .storeDone, .task 0 (.start true)] =
      some { manager := ⟨[("100", [0])], [(0, .save)]⟩, userId := "100", opened := false,
             nextId := 1 } := by
    decide +kernel
  refine ⟨_, hrun, rfl, by decide, rfl, fun hheld => ?_⟩
  obtain ⟨task, htask, -⟩ := hheld 0 (by decide)
  exact absurd htask List.not_mem_nil

end DataMgr.Object
