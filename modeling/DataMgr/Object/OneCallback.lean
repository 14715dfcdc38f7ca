import DataMgr.Object.AssetLoader

/-! # Each callback is invoked at most once

A call that has not been called back holds one credit, as a call in progress or as a task
that waits for some uri. A callback takes the credit away, so it comes once, as long as no
sweep finds a task that waits for nothing: such a task has been called back already, by an
earlier sweep or because all its assets were downloaded.
-/

namespace DataMgr.Object

open DataMgr.Foundation

namespace Loader

variable (s : Loader) (id : Nat)

def invocations (call : Nat) : Nat := s.told.countP fun entry => entry.1 = call

def AtMostOnce : Prop := ∀ call, s.invocations call ≤ 1

/-- A sweep finds only tasks that still wait for some uri. -/
def SweepsWaiting : LoaderAction → Prop
  | .run i _ => ∀ run, s.runs[i]? = some run → ∀ asset success, run.stage = .finish asset success →
      ∀ entry ∈ s.tasks, entry.2.downloadAssets ≠ ∅
  | _ => True

def stageCredit : CallStage → Nat
  | .check _ _ _ => 1
  | .insert uris _ => if uris = ∅ then 0 else 1
  | .execute _ => 0

def callCredit (call : LoaderCall) : Nat :=
  if call.call = id then stageCredit call.stage else 0

def taskCredit (entry : BitVec 32 × TransferTask) : Nat :=
  if entry.2.call = id ∧ entry.2.downloadAssets ≠ ∅ then 1 else 0

/-- The callbacks of a call so far and those it still has a credit for. -/
def credit : Nat :=
  s.invocations id + (s.calls.map (callCredit id)).sum + (s.tasks.map (taskCredit id)).sum

abbrev CreditInv : Prop := HeldOnce credit s

variable {s s' : Loader} {i : Nat}

theorem atMostOnce_of_credit (h : s.CreditInv) : s.AtMostOnce := by
  intro call
  have hbound := h.bounded call
  unfold credit at hbound
  omega

theorem sweep_credit (uri : String) (tasks : List (BitVec 32 × TransferTask))
    (h : ∀ entry ∈ tasks, entry.2.downloadAssets ≠ ∅) :
    ((tasks.filter fun entry => entry.2.downloadAssets.erase uri = ∅).countP
        fun entry => entry.2.call = id) +
      ((tasks.map (sweepTask uri)).map (taskCredit id)).sum = (tasks.map (taskCredit id)).sum := by
  induction tasks with
  | nil => rfl
  | cons entry rest ih =>
      have hrest := ih fun other hother => h other (List.mem_cons_of_mem entry hother)
      have hwaits := h entry List.mem_cons_self
      simp only [List.map_cons, List.sum_cons]
      by_cases hfinished : entry.2.downloadAssets.erase uri = ∅
      · rw [List.filter_cons_of_pos (by simpa using hfinished), List.countP_cons]
        by_cases hcall : entry.2.call = id
        · simp only [taskCredit, sweepTask, hcall, hfinished, hwaits, ne_eq, not_true,
            not_false_eq_true, and_true, and_false, if_true, if_false, decide_true]
          omega
        · simp only [taskCredit, sweepTask, hcall, false_and, if_false, decide_false,
            Bool.false_eq_true]
          omega
      · rw [List.filter_cons_of_neg (by simpa using hfinished)]
        by_cases hcall : entry.2.call = id
        · simp only [taskCredit, sweepTask, hcall, hfinished, hwaits, ne_eq, not_false_eq_true,
            and_true, if_true]
          omega
        · simp only [taskCredit, sweepTask, hcall, false_and, if_false]
          omega

theorem credit_sweep (h : ∀ entry ∈ s.tasks, entry.2.downloadAssets ≠ ∅) (uri : String)
    (result : Bool) (id : Nat) : (s.sweep uri result).credit id = s.credit id := by
  have hsweep := sweep_credit id uri s.tasks h
  have htold : (s.sweep uri result).invocations id = s.invocations id +
      (s.finishedTasks uri).countP fun entry => entry.2.call = id := by
    unfold invocations sweep
    rw [List.countP_append, List.countP_map]
    rfl
  unfold credit
  rw [htold]
  unfold finishedTasks
  simp only [sweep]
  omega

theorem credit_insertTask (s : Loader) (task : TransferTask) (id : Nat) :
    (s.insertTask task).credit id ≤ s.credit id + taskCredit id (0#32, task) := by
  unfold insertTask credit
  dsimp only
  split
  · exact Nat.le_add_right _ _
  · rw [List.map_append, List.sum_append]
    simp only [List.map_cons, List.map_nil, List.sum_cons, List.sum_nil, taskCredit]
    exact Nat.le_of_eq (by simp only [invocations]; omega)

theorem credit_setCalls (s : Loader) (calls : List LoaderCall) (id : Nat) :
    ({ s with calls } : Loader).credit id + (s.calls.map (callCredit id)).sum =
      s.credit id + (calls.map (callCredit id)).sum := by
  simp only [credit, invocations]
  omega

theorem credit_advanceCall {call : LoaderCall} (hi : s.calls[i]? = some call) (id : Nat) :
    (s.advanceCall i call).credit id ≤ s.credit id := by
  have hsum := fun next => sum_advance (callCredit id) next hi
  unfold advanceCall
  split
  · rename_i asset todo uris downloadAssets hstage
    split
    · have hmove := hsum (some ⟨call.call, .check todo uris downloadAssets⟩)
      simp only [Option.elim_some, callCredit, hstage, stageCredit] at hmove
      simp only [credit, invocations]
      omega
    · have hmove := hsum
        (some ⟨call.call, .check todo (insert asset.uri uris) (downloadAssets ++ [asset])⟩)
      simp only [Option.elim_some, callCredit, hstage, stageCredit] at hmove
      simp only [credit, invocations]
      omega
  · rename_i uris downloadAssets hstage
    have hmove := hsum (some ⟨call.call, .insert uris downloadAssets⟩)
    simp only [Option.elim_some, callCredit, hstage, stageCredit] at hmove
    simp only [credit, invocations]
    by_cases huris : uris = ∅
    · rw [if_pos huris, List.countP_append, List.countP_singleton]
      rw [if_pos huris] at hmove
      by_cases hcall : call.call = id
      · simp only [hcall, if_true, decide_true] at hmove ⊢
        omega
      · simp only [hcall, if_false, decide_false, Bool.false_eq_true] at hmove ⊢
        omega
    · rw [if_neg huris] at hmove ⊢
      omega
  · rename_i uris downloadAssets hstage
    have hmove := hsum (some ⟨call.call, .execute downloadAssets⟩)
    have htask := credit_insertTask s ⟨call.call, uris⟩ id
    have hcalls := credit_setCalls (s.insertTask ⟨call.call, uris⟩)
      (advance s.calls i (some ⟨call.call, .execute downloadAssets⟩)) id
    have hsame : (s.insertTask ⟨call.call, uris⟩).calls = s.calls := rfl
    have hcredit : taskCredit id (0#32, ⟨call.call, uris⟩) = callCredit id call := by
      simp only [taskCredit, callCredit, hstage, stageCredit, ite_not, ite_and]
    have hzero : callCredit id ⟨call.call, .execute downloadAssets⟩ = 0 := by
      simp [callCredit, stageCredit]
    rw [hsame] at hcalls
    rw [Option.elim_some, hzero] at hmove
    dsimp only
    omega
  · rename_i downloadAssets hstage
    have hmove := hsum none
    simp only [Option.elim_none, callCredit, hstage, stageCredit] at hmove
    simp only [credit, invocations]
    omega

theorem credit_moveRun (s : Loader) (i : Nat) (run : LoaderRun) (id : Nat) :
    (s.moveRun i run).credit id = s.credit id := rfl

theorem credit_filterTasks (s : Loader) (keep : BitVec 32 × TransferTask → Bool) (id : Nat) :
    ({ s with tasks := s.tasks.filter keep } : Loader).credit id ≤ s.credit id := by
  have hkept : List.Sublist (s.tasks.filter keep) s.tasks := List.filter_sublist
  have hsum := (hkept.map (taskCredit id)).sum_le_sum fun _ _ => Nat.zero_le _
  simp only [credit, invocations]
  omega

/-- A step of a run makes no credit if its sweep finds only tasks that wait. -/
theorem credit_advanceRun {run : LoaderRun} (hi : s.runs[i]? = some run) (success : Bool)
    (hguard : s.SweepsWaiting (.run i success)) (id : Nat) :
    (s.advanceRun i run success).credit id ≤ s.credit id := by
  unfold advanceRun
  repeat' split
  case h_8 =>
    obtain ⟨downloaded, assetQueue, hevict⟩ := s.evictDownloaded_eq
    rw [hevict]
    exact Nat.le_refl _
  case h_9 asset found hstage =>
    rw [credit_moveRun, credit_sweep (hguard run hi asset found hstage)]
  case h_11 => exact credit_filterTasks s _ id
  all_goals exact Nat.le_refl _

theorem creditInv_start (h : s.CreditInv) (assets : List LoadAsset) :
    (s.start assets).CreditInv := by
  refine h.start fun id => ?_
  unfold start
  extract_lets call s₁
  split
  · simp only [credit, invocations, List.countP_append, List.countP_singleton,
      decide_eq_true_eq, s₁, call]
    omega
  · simp only [credit, invocations, List.map_append, List.sum_append, List.map_cons,
      List.map_nil, List.sum_cons, List.sum_nil, callCredit, stageCredit, s₁, call]
    omega

theorem creditInv_step (h : s.CreditInv) {a : LoaderAction} (hguard : s.SweepsWaiting a)
    (hstep : s.step a = some s') : s'.CreditInv := by
  cases a with
  | start assets =>
      cases hstep
      exact creditInv_start h assets
  | call i =>
      obtain ⟨call, hi, rfl⟩ := Option.map_eq_some_iff.mp hstep
      exact h.of_le (credit_advanceCall hi) (nextCall_advanceCall s i call)
  | run i success =>
      obtain ⟨run, hi, -, rfl⟩ := run_of_step hstep
      exact h.of_le (credit_advanceRun hi success hguard) (advanceRun_frame s i run success).1

def Called (s : Loader) (id : Nat) : Prop := id ∈ s.told.map Prod.fst

/-- A task that waits for nothing, in the table or about to get there, has been called
back. This holds in every run. -/
structure DoneCalled (s : Loader) : Prop where
  tasks : ∀ entry ∈ s.tasks, entry.2.downloadAssets = ∅ → s.Called entry.2.call
  calls : ∀ call ∈ s.calls, ∀ downloadAssets, call.stage = .insert ∅ downloadAssets →
    s.Called call.call

theorem Called.append {id : Nat} (h : s.Called id) {more : List (Nat × Bool)}
    (htold : s'.told = s.told ++ more) : s'.Called id := by
  rw [Called, htold, List.map_append]
  exact List.mem_append_left _ h

/-- A step that tells more, leaves no task emptier and moves no call to its insertion. -/
theorem DoneCalled.of_subset (h : s.DoneCalled) {more : List (Nat × Bool)}
    (htold : s'.told = s.told ++ more) (htasks : s'.tasks ⊆ s.tasks)
    (hcalls : ∀ call ∈ s'.calls, ∀ downloadAssets, call.stage = .insert ∅ downloadAssets →
      call ∈ s.calls) : s'.DoneCalled := by
  constructor
  · intro entry hentry hempty
    exact (h.tasks entry (htasks hentry) hempty).append htold
  · intro call hcall downloadAssets hstage
    exact (h.calls call (hcalls call hcall downloadAssets hstage) downloadAssets hstage).append
      htold

theorem doneCalled_sweep (h : s.DoneCalled) (uri : String) (result : Bool) :
    (s.sweep uri result).DoneCalled := by
  constructor
  · intro entry hentry hempty
    obtain ⟨old, hold, rfl⟩ := List.mem_map.mp hentry
    have hfinished : old ∈ s.finishedTasks uri :=
      List.mem_filter.mpr ⟨hold, decide_eq_true hempty⟩
    rw [Called, sweep, List.map_append, List.mem_append, List.map_map]
    exact .inr (List.mem_map_of_mem hfinished)
  · intro call hcall downloadAssets hstage
    exact (h.calls call hcall downloadAssets hstage).append rfl

theorem mem_calls_of_insert {next : Option LoaderCall} {other : LoaderCall}
    {downloadAssets : List LoadAsset}
    (hnext : ∀ moved, next = some moved → moved.stage ≠ .insert ∅ downloadAssets)
    (hother : other ∈ advance s.calls i next) (hstage : other.stage = .insert ∅ downloadAssets) :
    other ∈ s.calls := by
  rcases mem_advance hother with hmoved | hold
  · exact absurd hstage (hnext other hmoved)
  · exact hold

variable (h : s.DoneCalled)

include h

theorem doneCalled_advanceCall {call : LoaderCall} (hi : s.calls[i]? = some call) :
    (s.advanceCall i call).DoneCalled := by
  have hnil : s.told = s.told ++ [] := (List.append_nil _).symm
  unfold advanceCall
  split
  · split
    all_goals
      refine h.of_subset hnil (List.Subset.refl _) fun other hother waiting hinsert => ?_
      dsimp only at hother
      refine mem_calls_of_insert (fun moved hmoved => ?_) hother hinsert
      cases hmoved
      exact CallStage.noConfusion
  · rename_i uris downloadAssets hstage
    by_cases huris : uris = ∅
    · rw [if_pos huris]
      constructor
      · intro entry hentry hempty
        exact (h.tasks entry hentry hempty).append rfl
      · intro other hother waiting hinsert
        dsimp only at hother
        rcases mem_advance hother with hmoved | hold
        · cases hmoved
          simp [Called]
        · exact (h.calls other hold waiting hinsert).append rfl
    · rw [if_neg huris]
      refine h.of_subset hnil (List.Subset.refl _) fun other hother waiting hinsert => ?_
      dsimp only at hother
      refine mem_calls_of_insert (fun moved hmoved => ?_) hother hinsert
      cases hmoved
      intro hempty
      exact huris (CallStage.insert.inj hempty).1
  · rename_i uris downloadAssets hstage
    constructor
    · intro entry hentry hempty
      rcases mem_insertTask hentry with hold | hnew
      · exact h.tasks entry hold hempty
      rw [hnew] at hempty ⊢
      dsimp only at hempty
      rw [hempty] at hstage
      exact h.calls call (List.mem_of_getElem? hi) downloadAssets hstage
    · intro other hother waiting hinsert
      dsimp only at hother
      refine h.calls other (mem_calls_of_insert (fun moved hmoved => ?_) hother hinsert) waiting
        hinsert
      cases hmoved
      exact CallStage.noConfusion
  · refine h.of_subset hnil (List.Subset.refl _) fun other hother waiting hinsert => ?_
    dsimp only at hother
    refine mem_calls_of_insert (fun moved hmoved => ?_) hother hinsert
    cases hmoved

theorem doneCalled_advanceRun (i : Nat) (run : LoaderRun) (success : Bool) :
    (s.advanceRun i run success).DoneCalled := by
  unfold advanceRun
  repeat' split
  case h_8 =>
    obtain ⟨downloaded, assetQueue, hevict⟩ := s.evictDownloaded_eq
    rw [hevict]
    exact ⟨h.tasks, h.calls⟩
  case h_9 asset found hstage =>
    have hswept := doneCalled_sweep h asset.uri run.result
    exact ⟨hswept.tasks, hswept.calls⟩
  case h_11 =>
    exact h.of_subset (List.append_nil _).symm (fun _ hentry => List.mem_of_mem_filter hentry)
      fun _ hcall _ _ => hcall
  all_goals exact ⟨h.tasks, h.calls⟩

theorem doneCalled_step {a : LoaderAction} (hstep : s.step a = some s') : s'.DoneCalled := by
  cases a with
  | start assets =>
      cases hstep
      unfold start
      extract_lets call s₁
      split
      · exact h.of_subset rfl (List.Subset.refl _) fun _ hcall _ _ => hcall
      refine h.of_subset (List.append_nil _).symm (List.Subset.refl _) ?_
      intro other hother downloadAssets hinsert
      rcases mem_concat.mp hother with hold | rfl
      · exact hold
      · cases hinsert
  | call i =>
      obtain ⟨call, hi, rfl⟩ := Option.map_eq_some_iff.mp hstep
      exact doneCalled_advanceCall h hi
  | run i success =>
      obtain ⟨run, -, -, rfl⟩ := run_of_step hstep
      exact doneCalled_advanceRun h i run success

theorem called_again {a : LoaderAction} (hguard : ¬ s.SweepsWaiting a)
    (hstep : s.step a = some s') : ¬ s'.AtMostOnce := by
  cases a with
  | start assets => exact absurd trivial hguard
  | call i => exact absurd trivial hguard
  | run i success =>
      simp only [SweepsWaiting, not_forall, not_not] at hguard
      obtain ⟨run, hi, asset, found, hstage, entry, hentry, hempty⟩ := hguard
      have hswept : s.step (.run i success) = some ((s.sweep asset.uri run.result).moveRun i
          { run with stage := .erase ((s.finishedTasks asset.uri).map Prod.fst) }) := by
        simp [step, hi, blocked, advanceRun, hstage]
      cases hswept.symm.trans hstep
      intro honce
      have hold : 0 < s.invocations entry.2.call := by
        obtain ⟨told, htold, hcall⟩ := List.mem_map.mp (h.tasks entry hentry hempty)
        exact List.countP_pos_iff.mpr ⟨told, htold, decide_eq_true hcall⟩
      have hnew : 0 < ((s.finishedTasks asset.uri).map fun entry => (entry.2.call,
          run.result)).countP fun told => told.1 = entry.2.call := by
        refine List.countP_pos_iff.mpr ⟨_, List.mem_map_of_mem (a := entry) ?_, decide_eq_true rfl⟩
        refine List.mem_filter.mpr ⟨hentry, decide_eq_true ?_⟩
        rw [hempty, Finset.erase_empty]
      have hcount := honce entry.2.call
      simp only [invocations, moveRun, sweep, List.countP_append] at hcount hold
      omega

end Loader

open Loader

/-- Every callback comes at most once in a run whose sweeps find only tasks that wait, and
in any run a sweep that finds another task invokes a callback again. -/
theorem callback_at_most_once (executors : Bool) :
    (∀ schedule s, loaderMachine.exec { executors } schedule = some s →
      loaderMachine.Guarded Loader.SweepsWaiting { executors } schedule → s.AtMostOnce) ∧
    ∀ schedule s a s', loaderMachine.exec { executors } schedule = some s →
      loaderMachine.step s a = some s' → ¬ s.SweepsWaiting a → ¬ s'.AtMostOnce := by
  constructor
  · intro schedule s hrun hguard
    have hinit : ({ executors } : Loader).CreditInv := ⟨fun _ => Nat.zero_le 1, fun _ _ => rfl⟩
    exact atMostOnce_of_credit (loaderMachine.exec_guarded_invariant
      (fun s a s' h hg hstep => creditInv_step h hg hstep) hinit hguard hrun)
  · intro schedule s a s' hrun hstep hguard
    have hinit : ({ executors } : Loader).DoneCalled :=
      ⟨fun _ h => absurd h List.not_mem_nil, fun _ h => absurd h List.not_mem_nil⟩
    exact called_again (loaderMachine.exec_invariant
      (fun s a s' h hstep => doneCalled_step h hstep) hinit hrun) hguard hstep

/-- One call and, as far as `steps` goes, its run with transfers that succeed. -/
def loadAlone (assets : List LoadAsset) (steps : Nat) : List LoaderAction :=
  loadCall assets ++ List.replicate steps (.run 0 true)

theorem callback_at_most_once_alone :
    ∃ s, loaderMachine.exec { executors := true } (loadAlone [⟨"a", "1"⟩] 8) = some s ∧
      s.told = [(0, true)] ∧ s.AtMostOnce := by
  have hwaiting : loaderMachine.Guarded
      (fun s _ => ∀ entry ∈ s.tasks, entry.2.downloadAssets ≠ ∅) { executors := true }
      (loadAlone [⟨"a", "1"⟩] 8) := by decide +kernel
  have hguard : loaderMachine.Guarded Loader.SweepsWaiting { executors := true }
      (loadAlone [⟨"a", "1"⟩] 8) := by
    refine hwaiting.mono fun s a h => ?_
    cases a with
    | run i success => exact fun _ _ _ _ _ => h
    | start | call => trivial
  have htold : (loaderMachine.exec { executors := true } (loadAlone [⟨"a", "1"⟩] 8)).map told =
      some [(0, true)] := by decide +kernel
  obtain ⟨s, hrun, hs⟩ := Option.map_eq_some_iff.mp htold
  exact ⟨s, hrun, hs, (callback_at_most_once true).1 _ s hrun hguard⟩

/-- The second call finds its asset downloaded and is called back at once; the sweep of
the third call finds its task and calls it back again. -/
theorem callback_after_synchronous_callback :
    ∃ s, loaderMachine.exec { executors := true }
        (loadAlone [⟨"a", "1"⟩] 11 ++ loadAlone [⟨"a", "1"⟩] 1 ++ loadAlone [⟨"b", "2"⟩] 8) =
          some s ∧
      s.told = [(0, true), (1, true), (1, true), (2, true)] ∧ ¬ s.AtMostOnce := by
  have htold : (loaderMachine.exec { executors := true }
      (loadAlone [⟨"a", "1"⟩] 11 ++ loadAlone [⟨"a", "1"⟩] 1 ++ loadAlone [⟨"b", "2"⟩] 8)).map
        told = some [(0, true), (1, true), (1, true), (2, true)] := by decide +kernel
  obtain ⟨s, hrun, hs⟩ := Option.map_eq_some_iff.mp htold
  refine ⟨s, hrun, hs, ?_⟩
  intro honce
  have htwice := honce 1
  rw [invocations, hs] at htwice
  exact absurd htwice (by decide)

end DataMgr.Object
