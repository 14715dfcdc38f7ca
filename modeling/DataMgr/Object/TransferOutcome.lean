import DataMgr.Object.AssetLoader

/-! # What a callback is told

The run that finishes the last uri of a task tells the task its own result, whoever the
task belongs to. So a call is told the outcome of its own assets only if no uri is taken
out of a task by a run that had another asset, another failure or another success in mind.
What the loader knows of each call is kept beside its tasks and runs: an asset that is no
longer waited for has been fetched, or the call's own run has failed.
-/

namespace DataMgr.Object

open DataMgr.Foundation

/-- The asset a run is about to finish and whether it is there. -/
def RunStage.finished? : RunStage → Option (LoadAsset × Bool)
  | .finish asset success => some (asset, success)
  | _ => none

namespace Loader

variable (s : Loader) (id : Nat)

/-- The asset was found recorded as downloaded, or a transfer of it succeeded. -/
def Fetched (asset : LoadAsset) : Prop :=
  asset ∈ s.recorded ∨ (asset, true) ∈ s.transfers

def HasFailure : Prop := ∃ asset ∈ s.assets id, (asset, false) ∈ s.transfers

def Right : Bool → Prop
  | true => ∀ asset ∈ s.assets id, s.Fetched asset
  | false => s.HasFailure id

def ToldRight : Prop := ∀ entry ∈ s.told, s.Right entry.1 entry.2

/-- The sweep of a run with an asset does the task no wrong. -/
@[mk_iff]
structure FairTo (s : Loader) (run : LoaderRun) (asset : LoadAsset) (success : Bool)
    (task : TransferTask) : Prop where
  /-- A task that waits for nothing is told what it was told before. -/
  done : task.downloadAssets = ∅ → (task.call, run.result) ∈ s.told
  /-- The uri stands for the same asset in both calls. -/
  same : asset.uri ∈ task.downloadAssets → asset ∈ s.assets task.call ∧
    ∀ other ∈ s.assets task.call, other.uri = asset.uri → other = asset
  /-- A failure is not taken out of a task of another call that goes on waiting. -/
  kept : asset.uri ∈ task.downloadAssets → task.downloadAssets ≠ {asset.uri} →
    task.call ≠ run.call → success = true ∨ task.call ∈ s.failed
  /-- The result of the run is not told to a call with another outcome. -/
  last : task.downloadAssets = {asset.uri} → task.call ≠ run.call →
    if run.result = true then task.call ∉ s.failed else success = false ∨ task.call ∈ s.failed

set_option synthInstance.maxSize 256 in
instance (s : Loader) (run : LoaderRun) (asset : LoadAsset) (success : Bool)
    (task : TransferTask) : Decidable (s.FairTo run asset success task) :=
  decidable_of_iff' _ (fairTo_iff s run asset success task)

/-- Calls find an executor, and every sweep is fair to the tasks it finds. -/
def SweepsFair : LoaderAction → Prop
  | .start _ => s.executors = true
  | .call _ => True
  | .run i _ => ∀ run ∈ s.runs[i]?, ∀ done ∈ run.stage.finished?, ∀ entry ∈ s.tasks,
      s.FairTo run done.1 done.2 entry.2

instance (s : Loader) : ∀ a, Decidable (s.SweepsFair a)
  | .start _ => inferInstanceAs (Decidable (s.executors = true))
  | .call _ => isTrue trivial
  | .run _ _ => inferInstanceAs (Decidable (∀ _ ∈ _, ∀ _ ∈ _, ∀ _ ∈ _, _))

variable {s s' : Loader} {i : Nat}

def callHolds (call : LoaderCall) : Nat := if call.call = id then 1 else 0

def runHolds (run : LoaderRun) : Nat := if run.call = id then 1 else 0

def holders (s : Loader) (id : Nat) : Nat :=
  (s.calls.map (callHolds id)).sum + (s.runs.map (runHolds id)).sum

abbrev Single (s : Loader) : Prop := HeldOnce holders s

variable {call : LoaderCall} {run : LoaderRun} {id : Nat}

theorem HeldOnce.call_lt (h : s.Single) (hcall : call ∈ s.calls) :
    call.call < s.nextCall := by
  by_contra hlt
  have hzero := h.fresh call.call (Nat.le_of_not_lt hlt)
  have hone := List.le_sum_of_mem (List.mem_map_of_mem (f := callHolds call.call) hcall)
  simp only [callHolds, if_true] at hone
  unfold holders at hzero
  omega

theorem HeldOnce.run_lt (h : s.Single) (hrun : run ∈ s.runs) :
    run.call < s.nextCall := by
  by_contra hlt
  have hzero := h.fresh run.call (Nat.le_of_not_lt hlt)
  have hone := List.le_sum_of_mem (List.mem_map_of_mem (f := runHolds run.call) hrun)
  simp only [runHolds, if_true] at hone
  unfold holders at hzero
  omega

theorem HeldOnce.run_unique (h : s.Single) {other : LoaderRun} (hrun : run ∈ s.runs)
    (hother : other ∈ s.runs) (hcall : other.call = run.call) : other = run := by
  by_contra hne
  have htwo := add_le_sum_of_mem (runHolds run.call) hrun hother hne
  have hone := h.bounded run.call
  simp only [runHolds, hcall, if_true] at htwo
  unfold holders at hone
  omega

theorem HeldOnce.call_ne (h : s.Single) (hcall : call ∈ s.calls) (hrun : run ∈ s.runs) :
    call.call ≠ run.call := by
  intro hsame
  have hone := h.bounded run.call
  have hc := List.le_sum_of_mem (List.mem_map_of_mem (f := callHolds run.call) hcall)
  have hr := List.le_sum_of_mem (List.mem_map_of_mem (f := runHolds run.call) hrun)
  simp only [callHolds, hsame, if_true] at hc
  simp only [runHolds, if_true] at hr
  unfold holders at hone
  omega

theorem holders_advanceCall (hi : s.calls[i]? = some call) (id : Nat) :
    (s.advanceCall i call).holders id ≤ s.holders id := by
  have hsame : ∀ stage, ((advance s.calls i (some ⟨call.call, stage⟩)).map (callHolds id)).sum =
      (s.calls.map (callHolds id)).sum := by
    intro stage
    have hmove := sum_advance (callHolds id) (some ⟨call.call, stage⟩) hi
    simp only [Option.elim_some, callHolds] at hmove ⊢
    omega
  unfold advanceCall
  split
  · split
    · exact Nat.le_of_eq (congrArg (· + _) (hsame _))
    · exact Nat.le_of_eq (congrArg (· + _) (hsame _))
  · exact Nat.le_of_eq (congrArg (· + _) (hsame _))
  · exact Nat.le_of_eq (congrArg (· + _) (hsame _))
  have hmove := sum_advance (callHolds id) none hi
  simp only [holders, List.map_append, List.sum_append, List.map_cons, List.map_nil,
    List.sum_cons, List.sum_nil, Option.elim_none, callHolds, runHolds] at hmove ⊢
  omega

theorem holders_advanceRun (hi : s.runs[i]? = some run) (success : Bool) (id : Nat) :
    (s.advanceRun i run success).holders id ≤ s.holders id := by
  obtain ⟨-, hcalls, next, hruns, hnext⟩ := advanceRun_frame s i run success
  have hmove := sum_advance (runHolds id) next hi
  unfold holders
  rw [hcalls, hruns]
  cases next with
  | none =>
      rw [Option.elim_none] at hmove
      omega
  | some moved =>
      have hcall := hnext moved rfl
      simp only [Option.elim_some, runHolds, hcall] at hmove ⊢
      omega

theorem single_step (h : s.Single) {a : LoaderAction} (hstep : s.step a = some s') :
    s'.Single := by
  cases a with
  | start assets =>
      cases hstep
      refine h.start fun id => ?_
      unfold start
      extract_lets call s₁
      split
      · exact Nat.le_add_right _ _
      · simp only [holders, List.map_append, List.sum_append, List.map_cons, List.map_nil,
          List.sum_cons, List.sum_nil, callHolds, s₁, call]
        omega
  | call i =>
      obtain ⟨call, hi, rfl⟩ := Option.map_eq_some_iff.mp hstep
      exact h.of_le (holders_advanceCall hi) (nextCall_advanceCall s i call)
  | run i success =>
      obtain ⟨run, hi, -, rfl⟩ := run_of_step hstep
      exact h.of_le (holders_advanceRun hi success) (advanceRun_frame s i run success).1

def TaskKnows (s : Loader) (task : TransferTask) : Prop :=
  task.downloadAssets ≠ ∅ → ∀ asset ∈ s.assets task.call,
    asset.uri ∈ task.downloadAssets ∨ s.Fetched asset ∨ task.call ∈ s.failed

def CallKnows (s : Loader) (call : LoaderCall) : Prop :=
  match call.stage with
  | .check todo uris downloadAssets =>
      todo ⊆ s.assets call.call ∧ downloadAssets ⊆ s.assets call.call ∧
        ∀ asset ∈ s.assets call.call, asset ∈ todo ∨ asset.uri ∈ uris ∨ s.Fetched asset
  | .insert uris downloadAssets =>
      downloadAssets ⊆ s.assets call.call ∧
        ∀ asset ∈ s.assets call.call, asset.uri ∈ uris ∨ s.Fetched asset
  | .execute downloadAssets => downloadAssets ⊆ s.assets call.call

/-- What is known of the asset at hand; `result` is that of the run so far. -/
def StageKnows (s : Loader) (id : Nat) (result : Bool) : RunStage → Prop
  | .next | .erase _ => True
  | .isDownloading asset | .markDownloading asset | .transfer asset => asset ∈ s.assets id
  | .transferred asset success => asset ∈ s.assets id ∧ (asset, success) ∈ s.transfers
  | .update asset | .evict asset => asset ∈ s.assets id ∧ (asset, true) ∈ s.transfers
  | .finish asset true => asset ∈ s.assets id ∧ s.Fetched asset
  | .finish asset false => asset ∈ s.assets id ∧ (asset, false) ∈ s.transfers ∧ result = false

def RunKnows (s : Loader) (run : LoaderRun) : Prop :=
  run.todo ⊆ s.assets run.call ∧ s.StageKnows run.call run.result run.stage

/-- The assets of calls, the records and the transfers stay. -/
structure Grows (s s' : Loader) : Prop where
  nextCall : s.nextCall ≤ s'.nextCall
  assets : ∀ id < s.nextCall, s'.assets id = s.assets id
  recorded : s.recorded ⊆ s'.recorded
  transfers : s.transfers ⊆ s'.transfers
  failed : s.failed ⊆ s'.failed

theorem Grows.of_same (hnext : s'.nextCall = s.nextCall) (hassets : s'.assets = s.assets)
    (hrecorded : s.recorded ⊆ s'.recorded) (htransfers : s.transfers ⊆ s'.transfers)
    (hfailed : s'.failed = s.failed) : Grows s s' where
  nextCall := Nat.le_of_eq hnext.symm
  assets _ _ := by rw [hassets]
  recorded := hrecorded
  transfers := htransfers
  failed := by
    rw [hfailed]
    exact List.Subset.refl _

theorem Grows.of_eq (hnext : s'.nextCall = s.nextCall) (hassets : s'.assets = s.assets)
    (hrecorded : s'.recorded = s.recorded) (htransfers : s'.transfers = s.transfers)
    (hfailed : s'.failed = s.failed) : Grows s s' :=
  .of_same hnext hassets (hrecorded ▸ List.Subset.refl _) (htransfers ▸ List.Subset.refl _) hfailed

variable (hg : Grows s s')

include hg

theorem Fetched.mono {asset : LoadAsset} (h : s.Fetched asset) :
    s'.Fetched asset := h.imp (@hg.recorded asset) (@hg.transfers (asset, true))

theorem HasFailure.mono (hid : id < s.nextCall) (h : s.HasFailure id) : s'.HasFailure id := by
  obtain ⟨asset, hasset, hfailed⟩ := h
  exact ⟨asset, by rwa [hg.assets id hid], hg.transfers hfailed⟩

theorem Right.mono (hid : id < s.nextCall) {result : Bool} (h : s.Right id result) :
    s'.Right id result := by
  cases result with
  | true =>
      intro asset hasset
      rw [hg.assets id hid] at hasset
      exact (h asset hasset).mono hg
  | false => exact HasFailure.mono hg hid h

theorem TaskKnows.mono {task : TransferTask} (hid : task.call < s.nextCall) (h : s.TaskKnows task) :
    s'.TaskKnows task := by
  intro hwaits asset hasset
  rw [hg.assets task.call hid] at hasset
  exact (h hwaits asset hasset).imp_right (Or.imp (Fetched.mono hg) (@hg.failed task.call))

theorem CallKnows.mono (hid : call.call < s.nextCall) (h : s.CallKnows call) :
    s'.CallKnows call := by
  have hassets := hg.assets call.call hid
  obtain ⟨id, stage⟩ := call
  cases stage with
  | check todo uris downloadAssets =>
      obtain ⟨htodo, hwanted, hknown⟩ := h
      dsimp only [CallKnows] at hassets ⊢
      rw [hassets]
      exact ⟨htodo, hwanted, fun asset hasset =>
        (hknown asset hasset).imp_right (Or.imp_right (Fetched.mono hg))⟩
  | insert uris downloadAssets =>
      obtain ⟨hwanted, hknown⟩ := h
      dsimp only [CallKnows] at hassets ⊢
      rw [hassets]
      exact ⟨hwanted, fun asset hasset => (hknown asset hasset).imp_right (Fetched.mono hg)⟩
  | execute downloadAssets =>
      dsimp only [CallKnows] at hassets ⊢
      rw [hassets]
      exact h

theorem StageKnows.mono (hid : id < s.nextCall) {result : Bool} {stage : RunStage}
    (h : s.StageKnows id result stage) : s'.StageKnows id result stage := by
  have hassets := hg.assets id hid
  cases stage with
  | next | erase => trivial
  | isDownloading | markDownloading | transfer => rwa [StageKnows, hassets]
  | transferred | update | evict =>
      rw [StageKnows, hassets]
      exact ⟨h.1, hg.transfers h.2⟩
  | finish asset success =>
      cases success with
      | true =>
          rw [StageKnows, hassets]
          exact ⟨h.1, Fetched.mono hg h.2⟩
      | false =>
          rw [StageKnows, hassets]
          exact ⟨h.1, hg.transfers h.2.1, h.2.2⟩

theorem RunKnows.mono (hid : run.call < s.nextCall) (h : s.RunKnows run) : s'.RunKnows run := by
  constructor
  · rw [hg.assets run.call hid]
    exact h.1
  · exact h.2.mono hg hid

omit hg

structure Knows (s : Loader) : Prop where
  told : ∀ entry ∈ s.told, entry.1 < s.nextCall ∧ s.Right entry.1 entry.2
  failed : ∀ id ∈ s.failed, id < s.nextCall ∧ s.HasFailure id
  tasks : ∀ entry ∈ s.tasks, entry.2.call < s.nextCall ∧ s.TaskKnows entry.2
  calls : ∀ call ∈ s.calls, s.CallKnows call ∧ call.call ∉ s.failed
  runs : ∀ run ∈ s.runs, s.RunKnows run ∧ (run.result = false ↔ run.call ∈ s.failed)

variable (h : s.Knows)

include h

theorem Knows.toldRight : s.ToldRight := fun entry hentry => (h.told entry hentry).2

theorem Knows.of_grows (hg : Grows s s')
    (htold : ∀ entry ∈ s'.told, entry ∈ s.told ∨ entry.1 < s'.nextCall ∧ s'.Right entry.1 entry.2)
    (hfailed : ∀ id ∈ s'.failed, id ∈ s.failed ∨ id < s'.nextCall ∧ s'.HasFailure id)
    (htasks : ∀ entry ∈ s'.tasks, entry ∈ s.tasks ∨
      entry.2.call < s'.nextCall ∧ s'.TaskKnows entry.2)
    (hcalls : ∀ call ∈ s'.calls, s'.CallKnows call ∧ call.call ∉ s'.failed)
    (hruns : ∀ run ∈ s'.runs, s'.RunKnows run ∧ (run.result = false ↔ run.call ∈ s'.failed)) :
    s'.Knows where
  told entry hentry := by
    rcases htold entry hentry with hold | hnew
    · obtain ⟨hid, hright⟩ := h.told entry hold
      exact ⟨hid.trans_le hg.nextCall, hright.mono hg hid⟩
    · exact hnew
  failed id hid := by
    rcases hfailed id hid with hold | hnew
    · obtain ⟨hlt, hfailure⟩ := h.failed id hold
      exact ⟨hlt.trans_le hg.nextCall, hfailure.mono hg hlt⟩
    · exact hnew
  tasks entry hentry := by
    rcases htasks entry hentry with hold | hnew
    · obtain ⟨hid, hknown⟩ := h.tasks entry hold
      exact ⟨hid.trans_le hg.nextCall, hknown.mono hg hid⟩
    · exact hnew
  calls := hcalls
  runs := hruns

theorem Knows.call_of_mem (hs : s.Single) (hg : Grows s s') (hfailed : s'.failed = s.failed)
    (hcall : call ∈ s.calls) : s'.CallKnows call ∧ call.call ∉ s'.failed := by
  obtain ⟨hknown, hnot⟩ := h.calls call hcall
  rw [hfailed]
  exact ⟨hknown.mono hg (hs.call_lt hcall), hnot⟩

theorem Knows.run_of_mem (hs : s.Single) (hg : Grows s s') (hfailed : s'.failed = s.failed)
    (hrun : run ∈ s.runs) : s'.RunKnows run ∧ (run.result = false ↔ run.call ∈ s'.failed) := by
  obtain ⟨hknown, hresult⟩ := h.runs run hrun
  rw [hfailed]
  exact ⟨hknown.mono hg (hs.run_lt hrun), hresult⟩

theorem Knows.moveCall (hs : s.Single) (hg : Grows s s') (hi : s.calls[i]? = some call)
    {stage : CallStage}
    (htold : ∀ entry ∈ s'.told, entry ∈ s.told ∨ entry.1 < s'.nextCall ∧ s'.Right entry.1 entry.2)
    (hfailed : s'.failed = s.failed)
    (htasks : ∀ entry ∈ s'.tasks, entry ∈ s.tasks ∨
      entry.2.call < s'.nextCall ∧ s'.TaskKnows entry.2)
    (hcalls : s'.calls = advance s.calls i (some ⟨call.call, stage⟩)) (hruns : s'.runs = s.runs)
    (hstage : s'.CallKnows ⟨call.call, stage⟩) : s'.Knows := by
  refine h.of_grows hg htold ?_ htasks ?_ ?_
  · intro id hid
    rw [hfailed] at hid
    exact .inl hid
  · intro other hother
    rw [hcalls] at hother
    rcases mem_advance hother with hmoved | hold
    · cases hmoved
      rw [hfailed]
      exact ⟨hstage, (h.calls call (List.mem_of_getElem? hi)).2⟩
    · exact h.call_of_mem hs hg hfailed hold
  · intro run hrun
    rw [hruns] at hrun
    exact h.run_of_mem hs hg hfailed hrun

omit h

section

variable {call : LoaderCall} {asset : LoadAsset} {todo downloadAssets : List LoadAsset}
  {uris : Finset String} (h : s.Knows) (hs : s.Single) (hi : s.calls[i]? = some call)

include h hs hi

theorem knows_check (hstage : call.stage = .check (asset :: todo) uris downloadAssets) :
    (s.advanceCall i call).Knows := by
  obtain ⟨hknown, -⟩ := h.calls call (List.mem_of_getElem? hi)
  simp only [CallKnows, hstage] at hknown
  obtain ⟨htodo, hwanted, hknown⟩ := hknown
  have hlater : todo ⊆ s.assets call.call := fun _ hother => htodo (List.mem_cons_of_mem _ hother)
  simp only [advanceCall, hstage]
  split
  · refine h.moveCall hs (.of_same rfl rfl (List.subset_cons_self _ _) (List.Subset.refl _) rfl) hi
      (fun _ => .inl) rfl (fun _ => .inl) rfl rfl ⟨hlater, hwanted, ?_⟩
    intro other hother
    rcases hknown other hother with htodo | huri | hfetched
    · rcases List.mem_cons.mp htodo with rfl | hlater
      · exact .inr (.inr (.inl List.mem_cons_self))
      · exact .inl hlater
    · exact .inr (.inl huri)
    · exact .inr (.inr (hfetched.imp_left (List.mem_cons_of_mem _)))
  · refine h.moveCall hs (.of_eq rfl rfl rfl rfl rfl) hi
      (fun _ => .inl) rfl (fun _ => .inl) rfl rfl ⟨hlater, ?_, ?_⟩
    · intro other hother
      rcases mem_concat.mp hother with hold | rfl
      · exact hwanted hold
      · exact htodo List.mem_cons_self
    · intro other hother
      rcases hknown other hother with htodo | huri | hfetched
      · rcases List.mem_cons.mp htodo with rfl | hlater
        · exact .inr (.inl (Finset.mem_insert_self _ _))
        · exact .inl hlater
      · exact .inr (.inl (Finset.mem_insert_of_mem huri))
      · exact .inr (.inr hfetched)

theorem knows_checked (hstage : call.stage = .check [] uris downloadAssets) :
    (s.advanceCall i call).Knows := by
  have hmem := List.mem_of_getElem? hi
  obtain ⟨hknown, -⟩ := h.calls call hmem
  simp only [CallKnows, hstage] at hknown
  obtain ⟨-, hwanted, hknown⟩ := hknown
  have hrest : ∀ asset ∈ s.assets call.call, asset.uri ∈ uris ∨ s.Fetched asset := by
    intro asset hasset
    exact (hknown asset hasset).resolve_left List.not_mem_nil
  simp only [advanceCall, hstage]
  refine h.moveCall hs (.of_eq rfl rfl rfl rfl rfl) hi ?_ rfl
    (fun _ => .inl) rfl rfl ⟨hwanted, hrest⟩
  intro entry hentry
  split at hentry
  · rename_i huris
    rcases List.mem_append.mp hentry with hold | hnew
    · exact .inl hold
    rw [List.mem_singleton.mp hnew]
    refine .inr ⟨hs.call_lt hmem, fun asset hasset => ?_⟩
    refine (hrest asset hasset).resolve_left ?_
    rw [huris]
    exact Finset.notMem_empty _
  · exact .inl hentry

theorem knows_insert (hstage : call.stage = .insert uris downloadAssets) :
    (s.advanceCall i call).Knows := by
  have hmem := List.mem_of_getElem? hi
  obtain ⟨hknown, -⟩ := h.calls call hmem
  simp only [CallKnows, hstage] at hknown
  simp only [advanceCall, hstage]
  refine h.moveCall hs (.of_eq rfl rfl rfl rfl rfl) hi
    (fun _ => .inl) rfl ?_ rfl rfl hknown.1
  intro entry hentry
  rcases mem_insertTask hentry with hold | hnew
  · exact .inl hold
  · rw [hnew]
    refine .inr ⟨hs.call_lt hmem, fun _ asset hasset => ?_⟩
    exact (hknown.2 asset hasset).imp_right .inl

theorem knows_execute (hstage : call.stage = .execute downloadAssets) :
    (s.advanceCall i call).Knows := by
  obtain ⟨hknown, hnot⟩ := h.calls call (List.mem_of_getElem? hi)
  simp only [CallKnows, hstage] at hknown
  simp only [advanceCall, hstage]
  have hg : Grows s { s with
      calls := advance s.calls i none
      runs := s.runs ++ [{ call := call.call, todo := downloadAssets }] } :=
    .of_eq rfl rfl rfl rfl rfl
  refine h.of_grows hg (fun _ => .inl) (fun _ => .inl) (fun _ => .inl) ?_ ?_
  · intro other hother
    dsimp only at hother
    rcases mem_advance hother with hmoved | hold
    · cases hmoved
    · exact h.call_of_mem hs hg rfl hold
  · intro run hrun
    rcases mem_concat.mp hrun with hold | rfl
    · exact h.run_of_mem hs hg rfl hold
    · exact ⟨⟨hknown, trivial⟩, fun hfalse => Bool.noConfusion hfalse, fun hfailed =>
        absurd hfailed hnot⟩

theorem knows_advanceCall : (s.advanceCall i call).Knows := by
  cases hstage : call.stage with
  | check todo uris downloadAssets =>
      cases todo with
      | nil => exact knows_checked h hs hi hstage
      | cons asset todo => exact knows_check h hs hi hstage
  | insert uris downloadAssets => exact knows_insert h hs hi hstage
  | execute downloadAssets => exact knows_execute h hs hi hstage

end

theorem Knows.moveRun (h : s.Knows) (hs : s.Single) (hg : Grows s s') (hi : s.runs[i]? = some run)
    {todo : List LoadAsset} {stage : RunStage} (htold : s'.told = s.told)
    (hfailed : s'.failed = s.failed) (htasks : s'.tasks ⊆ s.tasks) (hcalls : s'.calls = s.calls)
    (hruns : s'.runs = advance s.runs i (some { run with todo, stage })) (htodo : todo ⊆ run.todo)
    (hstage : s'.StageKnows run.call run.result stage) : s'.Knows := by
  have hmem := List.mem_of_getElem? hi
  refine h.of_grows hg ?_ ?_ (fun entry hentry => .inl (htasks hentry)) ?_ ?_
  · intro entry hentry
    rw [htold] at hentry
    exact .inl hentry
  · intro id hid
    rw [hfailed] at hid
    exact .inl hid
  · intro call hcall
    rw [hcalls] at hcall
    exact h.call_of_mem hs hg hfailed hcall
  · intro other hother
    rw [hruns] at hother
    rcases mem_advance hother with hmoved | hold
    · cases hmoved
      obtain ⟨hknown, hresult⟩ := h.run_of_mem hs hg hfailed hmem
      exact ⟨⟨fun _ hasset => hknown.1 (htodo hasset), hstage⟩, hresult⟩
    · exact h.run_of_mem hs hg hfailed hold

theorem Knows.toStage (h : s.Knows) (hs : s.Single) (hi : s.runs[i]? = some run) {stage : RunStage}
    (heq : s' = { s with
      downloaded := s'.downloaded, assetQueue := s'.assetQueue, downloading := s'.downloading
      locked := s'.locked, runs := advance s.runs i (some { run with stage }) })
    (hstage : s.StageKnows run.call run.result stage) : s'.Knows := by
  rw [heq]
  exact h.moveRun hs (.of_eq rfl rfl rfl rfl rfl) hi rfl rfl (List.Subset.refl _) rfl rfl
    (List.Subset.refl _) hstage

/-- A failed transfer marks the call of the run, which is nobody else's. -/
theorem Knows.failRun (h : s.Knows) (hs : s.Single) {asset : LoadAsset} (hi : s.runs[i]? = some run)
    (hasset : asset ∈ s.assets run.call) (hfailure : (asset, false) ∈ s.transfers)
    (downloading : String → Option String) :
    let s' : Loader := { s with
      downloading
      runs := advance s.runs i (some { run with result := false, stage := .finish asset false })
      failed := run.call :: s.failed }
    s'.Single → s'.Knows := by
  intro s' hs'
  have hmem := List.mem_of_getElem? hi
  have hg : Grows s s' := ⟨Nat.le_refl _, fun _ _ => rfl, List.Subset.refl _, List.Subset.refl _,
    List.subset_cons_self _ _⟩
  refine h.of_grows hg (fun _ => .inl) ?_ (fun _ => .inl) ?_ ?_
  · intro id hfail
    rcases List.mem_cons.mp hfail with rfl | hold
    · exact .inr ⟨hs.run_lt hmem, asset, hasset, hfailure⟩
    · exact .inl hold
  · intro call hold
    obtain ⟨hknown, hnot⟩ := h.calls call hold
    refine ⟨hknown.mono hg (hs.call_lt hold), fun hfail => ?_⟩
    rcases List.mem_cons.mp hfail with hsame | hfail
    · exact hs.call_ne hold hmem hsame
    · exact hnot hfail
  · intro other hother
    by_cases hsame : other.call = run.call
    · rw [hs'.run_unique (mem_advance_self hi) hother hsame]
      exact ⟨⟨(h.runs run hmem).1.1, hasset, hfailure, rfl⟩, fun _ => List.mem_cons_self,
        fun _ => rfl⟩
    · dsimp only [s'] at hother
      rcases mem_advance hother with hmoved | hold
      · cases hmoved
        exact absurd rfl hsame
      · obtain ⟨hknown, hresult⟩ := h.runs other hold
        refine ⟨hknown.mono hg (hs.run_lt hold), ?_⟩
        rw [hresult, List.mem_cons, or_iff_right hsame]

section

variable {run : LoaderRun} {asset : LoadAsset} {success : Bool} {task : TransferTask}

theorem FairTo.right (hfair : s.FairTo run asset success task) (h : s.Knows)
    (hstage : s.StageKnows run.call run.result (.finish asset success))
    (hresult : run.result = false ↔ run.call ∈ s.failed) (htask : s.TaskKnows task)
    (hfinished : task.downloadAssets.erase asset.uri = ∅) : s.Right task.call run.result := by
  rcases Finset.erase_eq_empty_iff _ _ |>.mp hfinished with hempty | hlast
  · exact (h.told _ (hfair.done hempty)).2
  have hwaits : asset.uri ∈ task.downloadAssets := by
    rw [hlast]
    exact Finset.mem_singleton_self _
  obtain ⟨hasset, honly⟩ := hfair.same hwaits
  cases hr : run.result with
  | true =>
      have hnot : task.call ∉ s.failed := by
        by_cases hown : task.call = run.call
        · rw [hown, ← hresult, hr]
          exact Bool.noConfusion
        · have hother := hfair.last hlast hown
          rwa [hr, if_pos rfl] at hother
      intro other hother
      rcases htask (Finset.ne_empty_of_mem hwaits) other hother with huri | hfetched | hfailed
      · rw [hlast, Finset.mem_singleton] at huri
        rw [honly other hother huri]
        cases success with
        | true => exact hstage.2
        | false => exact absurd (hr.symm.trans hstage.2.2) Bool.noConfusion
      · exact hfetched
      · exact absurd hfailed hnot
  | false =>
      by_cases hown : task.call = run.call
      · exact (h.failed task.call (by rw [hown]; exact hresult.mp hr)).2
      have hother := hfair.last hlast hown
      rw [hr, if_neg Bool.false_ne_true] at hother
      rcases hother with rfl | hfailed
      · exact ⟨asset, hasset, hstage.2.1⟩
      · exact (h.failed task.call hfailed).2

theorem FairTo.taskKnows (hfair : s.FairTo run asset success task)
    (hstage : s.StageKnows run.call run.result (.finish asset success))
    (hresult : run.result = false ↔ run.call ∈ s.failed) (htask : s.TaskKnows task) :
    s.TaskKnows { task with downloadAssets := task.downloadAssets.erase asset.uri } := by
  intro hwaiting other hother
  have hne : task.downloadAssets ≠ ∅ := by
    intro hempty
    exact hwaiting (by rw [hempty]; exact Finset.erase_empty _)
  rcases htask hne other hother with huri | hknown
  · by_cases hsame : other.uri = asset.uri
    · rw [hsame] at huri
      rw [(hfair.same huri).2 other hother hsame]
      cases success with
      | true => exact .inr (.inl hstage.2)
      | false =>
          refine .inr (.inr ?_)
          by_cases hown : task.call = run.call
          · rw [hown]
            exact hresult.mp hstage.2.2
          · refine (hfair.kept huri ?_ hown).resolve_left Bool.false_ne_true
            intro hlast
            exact hwaiting (by rw [hlast]; exact Finset.erase_singleton _)
    · exact .inl (Finset.mem_erase.mpr ⟨hsame, huri⟩)
  · exact .inr hknown

theorem knows_sweep (h : s.Knows) (hrun : run ∈ s.runs)
    (hfinish : run.stage = .finish asset success)
    (hfair : ∀ entry ∈ s.tasks, s.FairTo run asset success entry.2) :
    (s.sweep asset.uri run.result).Knows := by
  obtain ⟨hknown, hresult⟩ := h.runs run hrun
  have hstage := hknown.2
  rw [hfinish] at hstage
  have hg : Grows s (s.sweep asset.uri run.result) :=
    .of_eq rfl rfl rfl rfl rfl
  refine h.of_grows hg ?_ (fun _ => .inl) ?_ h.calls h.runs
  · intro entry hentry
    rcases List.mem_append.mp hentry with hold | hnew
    · exact .inl hold
    obtain ⟨done, hdone, rfl⟩ := List.mem_map.mp hnew
    obtain ⟨hmem, hfinished⟩ := List.mem_filter.mp hdone
    obtain ⟨hid, htask⟩ := h.tasks done hmem
    exact .inr ⟨hid, (hfair done hmem).right h hstage hresult htask (of_decide_eq_true hfinished)⟩
  · intro entry hentry
    obtain ⟨old, hold, rfl⟩ := List.mem_map.mp hentry
    obtain ⟨hid, htask⟩ := h.tasks old hold
    exact .inr ⟨hid, (hfair old hold).taskKnows hstage hresult htask⟩

end

theorem knows_advanceRun (h : s.Knows) (hs : s.Single) {success : Bool} (hi : s.runs[i]? = some run)
    (hs' : (s.advanceRun i run success).Single) (hfair : s.SweepsFair (.run i success)) :
    (s.advanceRun i run success).Knows := by
  have hmem := List.mem_of_getElem? hi
  obtain ⟨⟨htodo, hknown⟩, -⟩ := h.runs run hmem
  unfold advanceRun
  split
  · split
    · refine h.of_grows (.of_eq rfl rfl rfl rfl rfl)
        (fun _ => .inl) (fun _ => .inl) (fun _ => .inl) h.calls ?_
      intro other hother
      dsimp only at hother
      rcases mem_advance hother with hmoved | hold
      · cases hmoved
      · exact h.runs other hold
    · rename_i asset todo hlist
      rw [hlist] at htodo
      have hlater : todo ⊆ run.todo := by
        rw [hlist]
        exact List.subset_cons_self _ _
      split
      · exact h.moveRun hs (.of_same rfl rfl (List.subset_cons_self _ _) (List.Subset.refl _) rfl)
          hi rfl rfl (List.Subset.refl _) rfl rfl hlater
          ⟨htodo List.mem_cons_self, .inl List.mem_cons_self⟩
      · exact h.moveRun hs (.of_eq rfl rfl rfl rfl rfl) hi
          rfl rfl (List.Subset.refl _) rfl rfl hlater (htodo List.mem_cons_self)
  · rename_i asset hstage
    rw [hstage] at hknown
    refine h.toStage hs hi rfl ?_
    split
    · trivial
    · exact hknown
  · rename_i asset hstage
    rw [hstage] at hknown
    exact h.toStage hs hi rfl hknown
  · rename_i asset hstage
    rw [hstage] at hknown
    refine h.moveRun hs (.of_same rfl rfl (List.Subset.refl _) (List.subset_append_left _ _) rfl) hi
      rfl rfl (List.Subset.refl _) rfl rfl (List.Subset.refl _) ⟨hknown, ?_⟩
    exact List.mem_append_right _ (List.mem_singleton_self _)
  · rename_i asset hstage
    rw [hstage] at hknown
    exact h.toStage hs hi rfl hknown
  · rename_i asset hstage
    rw [hstage] at hknown
    rw [advanceRun, hstage] at hs'
    exact h.failRun hs hi hknown.1 hknown.2 (Function.update s.downloading asset.uri none) hs'
  · rename_i asset hstage
    rw [hstage] at hknown
    exact h.toStage hs hi rfl hknown
  · rename_i asset hstage
    rw [hstage] at hknown
    obtain ⟨downloaded, assetQueue, hevict⟩ := s.evictDownloaded_eq
    rw [hevict]
    exact h.toStage hs hi rfl ⟨hknown.1, .inr hknown.2⟩
  · rename_i asset found hstage
    have hswept := knows_sweep h hmem hstage fun entry hentry =>
      hfair run hi (asset, found) (by rw [hstage]; rfl) entry hentry
    have hsingle : (s.sweep asset.uri run.result).Single := ⟨hs.bounded, hs.fresh⟩
    exact hswept.toStage hsingle hi rfl trivial
  · exact h.toStage hs hi rfl trivial
  · exact h.moveRun hs (.of_eq rfl rfl rfl rfl rfl) hi
      rfl rfl (fun _ hentry => List.mem_of_mem_filter hentry) rfl rfl (List.Subset.refl _) trivial

theorem knows_start (h : s.Knows) (hs : s.Single) (hexecutors : s.executors = true)
    (assets : List LoadAsset) : (s.start assets).Knows := by
  have hstart : s.start assets = { s with
      nextCall := s.nextCall + 1
      assets := Function.update s.assets s.nextCall assets
      calls := s.calls ++ [⟨s.nextCall, .check assets ∅ []⟩] } := by
    simp [start, hexecutors]
  rw [hstart]
  have hg : Grows s { s with
      nextCall := s.nextCall + 1
      assets := Function.update s.assets s.nextCall assets
      calls := s.calls ++ [⟨s.nextCall, .check assets ∅ []⟩] } := by
    refine ⟨Nat.le_succ _, fun id hid => ?_, List.Subset.refl _, List.Subset.refl _,
      List.Subset.refl _⟩
    exact Function.update_of_ne (Nat.ne_of_lt hid) _ _
  refine h.of_grows hg (fun _ => .inl) (fun _ => .inl) (fun _ => .inl) ?_ ?_
  · intro call hcall
    rcases List.mem_append.mp hcall with hold | hnew
    · exact h.call_of_mem hs hg rfl hold
    rw [List.mem_singleton.mp hnew]
    constructor
    · simp only [CallKnows, Function.update_self]
      exact ⟨List.Subset.refl _, List.nil_subset _, fun _ hasset => .inl hasset⟩
    · intro hfailed
      exact Nat.lt_irrefl _ (h.failed s.nextCall hfailed).1
  · intro run hrun
    exact h.run_of_mem hs hg rfl hrun

theorem knows_step (h : s.Knows ∧ s.Single) {a : LoaderAction} (hfair : s.SweepsFair a)
    (hstep : s.step a = some s') : s'.Knows ∧ s'.Single := by
  have hsingle := single_step h.2 hstep
  refine ⟨?_, hsingle⟩
  cases a with
  | start assets =>
      cases hstep
      exact knows_start h.1 h.2 hfair assets
  | call i =>
      obtain ⟨call, hi, rfl⟩ := Option.map_eq_some_iff.mp hstep
      exact knows_advanceCall h.1 h.2 hi
  | run i success =>
      obtain ⟨run, hi, -, rfl⟩ := run_of_step hstep
      exact knows_advanceRun h.1 h.2 hi hsingle hfair

theorem knows_init (executors : Bool) :
    ({ executors } : Loader).Knows ∧ ({ executors } : Loader).Single := by
  refine ⟨⟨?_, ?_, ?_, ?_, ?_⟩, fun _ => Nat.zero_le 1, fun _ _ => rfl⟩
  all_goals
    intro x hx
    cases hx

end Loader

/-- Every callback is told what is right in a run whose sweeps are fair. -/
theorem callback_told_right (executors : Bool) (schedule : List LoaderAction) (s : Loader)
    (hrun : loaderMachine.exec { executors } schedule = some s)
    (hfair : loaderMachine.Guarded Loader.SweepsFair { executors } schedule) : s.ToldRight :=
  (loaderMachine.exec_guarded_invariant
    (fun _ _ _ h hguard hstep => Loader.knows_step h hguard hstep)
    (Loader.knows_init executors) hfair hrun).1.toldRight

/-- Two calls share an asset; the second leaves it to the run of the first. -/
def sharedLoad : List LoaderAction :=
  loadCall [⟨"a", "1"⟩] ++ loadCall [⟨"a", "1"⟩, ⟨"b", "2"⟩] ++ List.replicate 3 (.run 0 true) ++
    List.replicate 10 (.run 1 true) ++ List.replicate 5 (.run 0 true)

theorem callback_told_right_shared :
    ∃ s, loaderMachine.exec { executors := true } sharedLoad = some s ∧
      s.told = [(0, true), (1, true)] ∧ s.ToldRight := by
  have hfair : loaderMachine.Guarded Loader.SweepsFair { executors := true } sharedLoad := by
    decide +kernel
  have htold : (loaderMachine.exec { executors := true } sharedLoad).map Loader.told =
      some [(0, true), (1, true)] := by decide +kernel
  obtain ⟨s, hrun, hs⟩ := Option.map_eq_some_iff.mp htold
  exact ⟨s, hrun, hs, callback_told_right true sharedLoad s hrun hfair⟩

/-- The first call's other asset fails before the asset both calls wait for is transferred. -/
def leakedFailure : List LoaderAction :=
  loadCall [⟨"b", "2"⟩, ⟨"a", "1"⟩] ++ loadCall [⟨"a", "1"⟩] ++ List.replicate 7 (.run 0 false) ++
    List.replicate 8 (.run 0 true)

/-- The transfer of the shared asset fails while the second call leaves it to the first. -/
def leakedSuccess : List LoaderAction :=
  loadCall [⟨"a", "1"⟩] ++ loadCall [⟨"a", "1"⟩, ⟨"b", "2"⟩] ++ List.replicate 3 (.run 0 false) ++
    List.replicate 2 (.run 1 true) ++ List.replicate 4 (.run 0 false) ++
    List.replicate 8 (.run 1 true)

/-- A call is told that it failed though its one asset was transferred, or that it
succeeded though its first asset was not. -/
theorem callback_told_other_outcome :
    (∃ s, loaderMachine.exec { executors := true } leakedFailure = some s ∧
      (1, false) ∈ s.told ∧ s.assets 1 = [⟨"a", "1"⟩] ∧
      s.transfers = [(⟨"b", "2"⟩, false), (⟨"a", "1"⟩, true)] ∧ ¬ s.ToldRight) ∧
    ∃ s, loaderMachine.exec { executors := true } leakedSuccess = some s ∧
      (1, true) ∈ s.told ∧ s.assets 1 = [⟨"a", "1"⟩, ⟨"b", "2"⟩] ∧ s.recorded = [] ∧
      s.transfers = [(⟨"a", "1"⟩, false), (⟨"b", "2"⟩, true)] ∧ ¬ s.ToldRight := by
  constructor
  · have hend : (loaderMachine.exec { executors := true } leakedFailure).map
        (fun s => (s.told, s.assets 1, s.transfers)) =
          some ([(0, false), (1, false)], [⟨"a", "1"⟩],
            [(⟨"b", "2"⟩, false), (⟨"a", "1"⟩, true)]) := by decide +kernel
    obtain ⟨s, hrun, hs⟩ := Option.map_eq_some_iff.mp hend
    simp only [Prod.mk.injEq] at hs
    obtain ⟨htold, hassets, htransfers⟩ := hs
    have htrue : (1, false) ∈ s.told := by simp [htold]
    refine ⟨s, hrun, htrue, hassets, htransfers, fun hright => ?_⟩
    obtain ⟨asset, hasset, hfailed⟩ := hright _ htrue
    rw [hassets, List.mem_singleton] at hasset
    rw [htransfers, hasset] at hfailed
    exact absurd hfailed (by decide)
  · have hend : (loaderMachine.exec { executors := true } leakedSuccess).map
        (fun s => (s.told, s.assets 1, s.recorded, s.transfers)) =
          some ([(0, false), (1, true)], [⟨"a", "1"⟩, ⟨"b", "2"⟩], [],
            [(⟨"a", "1"⟩, false), (⟨"b", "2"⟩, true)]) := by decide +kernel
    obtain ⟨s, hrun, hs⟩ := Option.map_eq_some_iff.mp hend
    simp only [Prod.mk.injEq] at hs
    obtain ⟨htold, hassets, hrecorded, htransfers⟩ := hs
    have htrue : (1, true) ∈ s.told := by simp [htold]
    refine ⟨s, hrun, htrue, hassets, hrecorded, htransfers, fun hright => ?_⟩
    have hfetched : s.Fetched ⟨"a", "1"⟩ := hright _ htrue _ (by simp [hassets])
    rw [Loader.Fetched, hrecorded, htransfers] at hfetched
    exact absurd hfetched (by decide)

end DataMgr.Object
