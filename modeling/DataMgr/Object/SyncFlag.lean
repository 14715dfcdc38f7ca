import DataMgr.Object.SyncTasks

/-! # The flag of the synchronisation

The flag is raised after the database has accepted a synchronisation, and lowered by a
completion that finds no other number of its user. It stays up when the completion was
faster than the one who raises it, or when a number was left over.
-/

namespace DataMgr.Object

open DataMgr.Foundation

def SyncStage.Awaits : SyncStage → Prop
  | .dataSync | .lowering _ => True
  | .registered | .commonMeta | .storeMeta | .doSync _ | .mark => False

namespace ObjectSync

variable {s s' : ObjectSync}

/-- Without a synchronisation of the current user that awaits its completion, the flag is
down. -/
def FlagRight (s : ObjectSync) : Prop :=
  (∀ task ∈ s.tasks, task.userId = s.userId → ¬ task.stage.Awaits) → s.isSyncing = false

def Syncs (s : ObjectSync) (userId : String) : Prop :=
  ∃ task ∈ s.tasks, task.userId = userId ∧ task.stage = .dataSync

/-- The flag is raised while data of the user are being synchronised; a completion finds no
other number of its user, or one that is being synchronised; and the user changes while the
flag is down, or to one whose data are being synchronised. -/
def InOrder (s : ObjectSync) : SyncAction → Prop
  | .task _ .mark => s.Syncs s.userId
  | .task i (.complete _) => ∀ task ∈ s.tasks[i]?,
      (∀ pair ∈ s.manager.pairs, pair.1 = task.userId → pair.2 = task.sequenceId) ∨
      ∃ other ∈ s.tasks, other.userId = task.userId ∧ other.sequenceId ≠ task.sequenceId ∧
        other.stage = .dataSync
  | .setData userId => s.isSyncing = false ∨ s.Syncs userId
  | .task _ (.syncMeta _) | .task _ (.commonDone ..) | .task _ .storeDone | .task _ (.start _)
  | .task _ .lower | .request .. | .openStore | .flush | .forceClose => True

instance (s : ObjectSync) (userId : String) : Decidable (s.Syncs userId) :=
  inferInstanceAs (Decidable (∃ task ∈ s.tasks, task.userId = userId ∧ task.stage = .dataSync))

instance (s : ObjectSync) (action : SyncAction) : Decidable (s.InOrder action) :=
  match action with
  | .task _ .mark => inferInstanceAs (Decidable (s.Syncs s.userId))
  | .task _ (.complete _) => inferInstanceAs (Decidable (∀ _ ∈ _, _))
  | .setData userId => inferInstanceAs (Decidable (s.isSyncing = false ∨ s.Syncs userId))
  | .task _ (.syncMeta _) | .task _ (.commonDone ..) | .task _ .storeDone | .task _ (.start _)
  | .task _ .lower | .request .. | .openStore | .flush | .forceClose =>
      inferInstanceAs (Decidable True)

/-- The completion that will lower the flag is to come, or has found that it may. -/
def Lowers (userId : String) (task : SyncTask) : Prop :=
  task.userId = userId ∧
    (task.stage = .dataSync ∨ task.stage = .lowering (.successUserHasFinished, userId))

def Raised (s : ObjectSync) : Prop := s.isSyncing = true → ∃ task ∈ s.tasks, Lowers s.userId task

theorem flagRight_of_raised (h : s.Raised) : s.FlagRight := by
  intro hnone
  cases hflag : s.isSyncing with
  | false => rfl
  | true =>
      obtain ⟨task, htask, huser, hstage⟩ := h hflag
      refine absurd ?_ (hnone task htask huser)
      rcases hstage with hstage | hstage
      · rw [hstage]
        trivial
      · rw [hstage]
        trivial

theorem Lowers.ne {userId : String} {task other : SyncTask} (h : Lowers userId other)
    (hdata : task.stage ≠ .dataSync)
    (hlowering : task.stage ≠ .lowering (.successUserHasFinished, userId)) : other ≠ task := by
  rintro rfl
  exact h.2.elim hdata hlowering

theorem deleteNotifier_result (h : s.Listed) {task : SyncTask} (htask : task ∈ s.tasks)
    (hholds : task.stage.Holds) :
    (s.manager.deleteNotifier task.sequenceId).1 = (.successUserHasFinished, task.userId) ∨
      ∃ other, other ≠ task.sequenceId ∧ (task.userId, other) ∈ s.manager.pairs := by
  obtain ⟨hpair, hhas⟩ := h.holder task htask hholds
  rw [SequenceSyncManager.deleteNotifier, if_pos hhas]
  exact releaseSequenceId_result h.distinct hpair

theorem raised_of_prepares (h : s.Raised) {task : SyncTask} (hbefore : task.stage.Prepares)
    (hflag : s'.isSyncing = s.isSyncing) (huser : s'.userId = s.userId)
    (hstays : ∀ other ∈ s.tasks, other ≠ task → other ∈ s'.tasks) : s'.Raised := by
  intro hraised
  rw [hflag] at hraised
  obtain ⟨other, hother, hlowers⟩ := h hraised
  have hne : other ≠ task := hlowers.ne (fun hstage => by rw [hstage] at hbefore; exact hbefore)
    fun hstage => by rw [hstage] at hbefore; exact hbefore
  rw [← huser] at hlowers
  exact ⟨other, hstays other hother hne, hlowers⟩

theorem raised_did (hkept : s.Kept) (h : s.Raised) {i : Nat} {task : SyncTask} {move : SyncMove}
    (htask : s.tasks[i]? = some task) (horder : s.InOrder (.task i move))
    (hdid : Did s i task move s') : s'.Raised := by
  cases hdid with
  | moves hbefore hafter =>
      exact raised_of_prepares h hbefore rfl rfl fun other hother hne =>
        mem_tasks_move htask hother hne _
  | abandons inCall hbefore | fails inCall hbefore =>
      exact raised_of_prepares h hbefore rfl rfl fun other hother hne =>
        mem_tasks_retire htask hother hne
  | starts hbefore =>
      exact raised_of_prepares h hbefore rfl rfl fun other hother hne =>
        List.mem_append_left _ (mem_tasks_move htask hother hne .mark)
  | marks hbefore =>
      intro _
      obtain ⟨other, hother, huser, hdata⟩ := horder
      have hne : other ≠ task := by
        rintro rfl
        rw [hbefore] at hdata
        cases hdata
      exact ⟨other, mem_tasks_retire htask hother hne, huser, .inl hdata⟩
  | processes hbefore =>
      intro hflag
      obtain ⟨other, hother, hlowers⟩ := h hflag
      by_cases heq : other = task
      · subst heq
        have hholds : other.stage.Holds := by
          rw [hbefore]
          trivial
        rcases deleteNotifier_result hkept.listed hother hholds with hfinished |
          ⟨id, hne, hpair⟩
        · have huser : other.userId = s.userId := hlowers.1
          refine ⟨_, mem_advance_self htask, huser, .inr ?_⟩
          rw [hfinished, huser]
          rfl
        · rcases horder other htask with hnone | ⟨later, hlater, hsame, hid, hdata⟩
          · exact absurd (hnone _ hpair rfl) hne
          · have hdistinct : later ≠ other := by
              rintro rfl
              exact hid rfl
            exact ⟨later, mem_tasks_move htask hlater hdistinct _, hsame.trans hlowers.1,
              .inl hdata⟩
      · exact ⟨other, mem_tasks_move htask hother heq _, hlowers⟩
  | @lowers result hbefore =>
      intro hflag
      change (if result.1 = .successUserHasFinished ∧ result.2 = s.userId then false
        else s.isSyncing) = true at hflag
      split at hflag
      · cases hflag
      rename_i hnot
      obtain ⟨other, hother, hlowers⟩ := h hflag
      have hne : other ≠ task := by
        refine hlowers.ne (by rw [hbefore]; exact SyncStage.noConfusion) ?_
        rw [hbefore]
        intro hresult
        cases hresult
        exact hnot ⟨rfl, rfl⟩
      exact ⟨other, mem_tasks_retire htask hother hne, hlowers⟩

theorem raised_step (hkept : s.Kept) (h : s.Raised) {action : SyncAction}
    (horder : s.InOrder action) (hstep : Stepped s action s') : s'.Raised := by
  cases hstep with
  | requests kind syncs =>
      cases syncs with
      | false => exact h
      | true =>
          intro hflag
          obtain ⟨task, htask, hlowers⟩ := h hflag
          exact ⟨task, List.mem_append_left _ htask, hlowers⟩
  | acts htask hdid => exact raised_did hkept h htask horder hdid
  | sets userId =>
      intro hflag
      rcases horder with hdown | ⟨task, htask, huser, hdata⟩
      · exact absurd (hflag.symm.trans hdown) (by decide)
      · exact ⟨task, htask, huser, .inl hdata⟩
  | turns opened isSyncing hkeeps => exact fun hflag => h (hkeeps hflag)

end ObjectSync

open ObjectSync

/-- In every run whose steps are in order the flag is down whenever no synchronisation of the
current user awaits its completion. -/
theorem sync_flag_right (userId : String) {schedule : List SyncAction} {s : ObjectSync}
    (horder : objectSyncMachine.Guarded ObjectSync.InOrder { userId } schedule)
    (hrun : objectSyncMachine.exec { userId } schedule = some s) : s.FlagRight := by
  have hinit : ({ userId } : ObjectSync).Kept ∧ ({ userId } : ObjectSync).Raised :=
    ⟨kept_init userId, fun hflag => absurd hflag Bool.false_ne_true⟩
  have hkeeps : ∀ (s : ObjectSync) action s', s.Kept ∧ s.Raised → s.InOrder action →
      s.step action = some s' → s'.Kept ∧ s'.Raised := by
    intro s action s' h horder hstep
    have hstepped := stepped_of_step hstep
    exact ⟨kept_step h.1 hstepped, raised_step h.1 h.2 horder hstepped⟩
  exact flagRight_of_raised
    (objectSyncMachine.exec_guarded_invariant hkeeps hinit horder hrun).2

/-- Two objects are saved. The first is synchronised while the second is still being
synchronised, which lowers the flag. -/
def twoSaves : List SyncAction :=
  [.request .save true, .task 0 (.syncMeta .notNeeded), .task 0 (.start true), .task 0 .mark,
    .request .save true, .task 1 (.syncMeta .notNeeded), .task 1 (.start true), .task 1 .mark,
    .task 0 (.complete false), .task 0 .lower, .task 0 (.complete false), .task 0 .lower]

theorem sync_flag_right_twoSaves :
    ∃ s, objectSyncMachine.exec { userId := "100" } twoSaves = some s ∧ s.tasks = [] ∧
      s.completed = [0, 1] ∧ s.isSyncing = false ∧ s.FlagRight := by
  have hrun : objectSyncMachine.exec { userId := "100" } twoSaves =
      some { userId := "100", nextId := 2, completed := [0, 1] } := by
    decide +kernel
  have horder : objectSyncMachine.Guarded ObjectSync.InOrder { userId := "100" } twoSaves := by
    decide +kernel
  exact ⟨_, hrun, rfl, rfl, rfl, sync_flag_right "100" horder hrun⟩

/-- The data are synchronised before the flag is raised, or a number was left over because
the metadata could not be synchronised: the flag stays up with nothing to lower it. -/
theorem sync_flag_stays_up :
    (∃ s, objectSyncMachine.exec { userId := "100" }
        [.request .revoke true, .task 0 (.syncMeta .notNeeded), .task 0 (.start true),
          .task 1 (.complete false), .task 1 .lower, .task 0 .mark] = some s ∧
      s.tasks = [] ∧ s.isSyncing = true ∧ ¬ s.FlagRight) ∧
    ∃ s, objectSyncMachine.exec { userId := "100" }
        [.request .save true, .task 0 (.syncMeta .started), .task 0 (.commonDone true false),
          .request .save true, .task 0 (.syncMeta .notNeeded), .task 0 (.start true),
          .task 0 .mark, .task 0 (.complete false), .task 0 .lower] = some s ∧
      s.tasks = [] ∧ s.isSyncing = true ∧ ¬ s.FlagRight := by
  have hstuck : ∀ s : ObjectSync, s.tasks = [] → s.isSyncing = true → ¬ s.FlagRight := by
    intro s htasks hflag hright
    have hdown := hright fun task htask => by simp [htasks] at htask
    rw [hflag] at hdown
    cases hdown
  constructor
  · have hrun : objectSyncMachine.exec { userId := "100" }
        [.request .revoke true, .task 0 (.syncMeta .notNeeded), .task 0 (.start true),
          .task 1 (.complete false), .task 1 .lower, .task 0 .mark] =
        some { userId := "100", isSyncing := true, nextId := 1, completed := [0] } := by
      decide +kernel
    exact ⟨_, hrun, rfl, rfl, hstuck _ rfl rfl⟩
  · have hrun : objectSyncMachine.exec { userId := "100" }
        [.request .save true, .task 0 (.syncMeta .started), .task 0 (.commonDone true false),
          .request .save true, .task 0 (.syncMeta .notNeeded), .task 0 (.start true),
          .task 0 .mark, .task 0 (.complete false), .task 0 .lower] =
        some { manager := ⟨[("100", [0])], [(0, .save)]⟩, userId := "100", isSyncing := true,
               nextId := 2, completed := [1] } := by
      decide +kernel
    exact ⟨_, hrun, rfl, rfl, hstuck _ rfl rfl⟩

end DataMgr.Object
