import DataMgr.Foundation.Machine

/-! # The asset loader

`TransferAssetsAsync` records which assets a call waits for in a table of tasks and leaves
the transfers to an executor. The run of any call that is done with a uri takes the uri
out of every task and calls back those that wait for nothing more. A step is one access to
a table, one transfer, or one step of a call between them; what follows a transfer that
succeeded is done under `mutex_`, which the checks do not take. Calls are numbered here; the
assets of each call, what was found recorded, what was transferred and who was called back
are kept beside the state of the code.
-/

namespace DataMgr.Object

open DataMgr.Foundation

structure LoadAsset where
  uri : String
  hash : String
deriving DecidableEq, Repr

def lastDownloadAssetSize : Nat := 200

structure TransferTask where
  call : Nat
  downloadAssets : Finset String
deriving DecidableEq

inductive CallStage where
  | check (todo : List LoadAsset) (uris : Finset String) (downloadAssets : List LoadAsset)
  | insert (uris : Finset String) (downloadAssets : List LoadAsset)
  | execute (downloadAssets : List LoadAsset)
deriving DecidableEq

structure LoaderCall where
  call : Nat
  stage : CallStage
deriving DecidableEq

/-- Where a run on the executor stands with the asset at hand; `success` says whether the
asset is there. -/
inductive RunStage where
  | next
  | isDownloading (asset : LoadAsset)
  | markDownloading (asset : LoadAsset)
  | transfer (asset : LoadAsset)
  | transferred (asset : LoadAsset) (success : Bool)
  | update (asset : LoadAsset)
  | evict (asset : LoadAsset)
  | finish (asset : LoadAsset) (success : Bool)
  | erase (finishedTasks : List (BitVec 32))
deriving DecidableEq

structure LoaderRun where
  call : Nat
  todo : List LoadAsset
  result : Bool := true
  stage : RunStage := .next
deriving DecidableEq

structure Loader where
  executors : Bool
  downloaded : String → Option String := fun _ => none
  assetQueue : List String := []
  downloading : String → Option String := fun _ => none
  locked : Bool := false
  taskSeq : BitVec 32 := 0#32
  tasks : List (BitVec 32 × TransferTask) := []
  calls : List LoaderCall := []
  runs : List LoaderRun := []
  nextCall : Nat := 0
  /-- The assets each call was given. -/
  assets : Nat → List LoadAsset := fun _ => []
  /-- The assets some check found recorded as downloaded, and the outcomes of transfers. -/
  recorded : List LoadAsset := []
  transfers : List (LoadAsset × Bool) := []
  /-- The calls whose own run had a transfer that failed. -/
  failed : List Nat := []
  /-- The callbacks that were invoked. -/
  told : List (Nat × Bool) := []

variable (s : Loader) (uri : String) (i : Nat) (run : LoaderRun) (asset : LoadAsset)
  (assets : List LoadAsset)

namespace Loader

def isDownloaded : Bool := s.downloaded asset.uri = some asset.hash

def isDownloading : Bool :=
  s.downloading asset.uri = some asset.hash

def computeIfAbsent (map : String → Option String) (key value : String) : String → Option String :=
  Function.update map key (some ((map key).getD value))

/-- A new call; without an executor it is called back at once. -/
def start : Loader :=
  let call := s.nextCall
  let s := { s with nextCall := call + 1, assets := Function.update s.assets call assets }
  if s.executors = false then { s with told := s.told ++ [(call, false)] }
  else { s with calls := s.calls ++ [⟨call, .check assets ∅ []⟩] }

/-- The table entry of a new task, unless its number is in use. -/
def insertTask (task : TransferTask) : Loader :=
  let taskSeq := s.taskSeq + 1
  { s with
    taskSeq
    tasks := if (s.tasks.lookup taskSeq).isSome then s.tasks else s.tasks ++ [(taskSeq, task)] }

theorem mem_insertTask {s : Loader} {task : TransferTask} {entry : BitVec 32 × TransferTask}
    (h : entry ∈ (s.insertTask task).tasks) : entry ∈ s.tasks ∨ entry.2 = task := by
  dsimp only [insertTask] at h
  split at h
  · exact .inl h
  rcases mem_concat.mp h with hold | rfl
  · exact .inl hold
  · exact .inr rfl

def advanceCall (call : LoaderCall) : Loader :=
  match call.stage with
  | .check (asset :: todo) uris downloadAssets =>
      if s.isDownloaded asset then
        { s with
          recorded := asset :: s.recorded
          calls := advance s.calls i (some ⟨call.call, .check todo uris downloadAssets⟩) }
      else
        { s with
          calls := advance s.calls i
            (some ⟨call.call, .check todo (insert asset.uri uris) (downloadAssets ++ [asset])⟩) }
  | .check [] uris downloadAssets =>
      { s with
        told := if uris = ∅ then s.told ++ [(call.call, true)] else s.told
        calls := advance s.calls i (some ⟨call.call, .insert uris downloadAssets⟩) }
  | .insert uris downloadAssets =>
      { s.insertTask ⟨call.call, uris⟩ with
        calls := advance s.calls i (some ⟨call.call, .execute downloadAssets⟩) }
  | .execute downloadAssets =>
      { s with
        calls := advance s.calls i none
        runs := s.runs ++ [{ call := call.call, todo := downloadAssets }] }

def sweepTask (entry : BitVec 32 × TransferTask) : BitVec 32 × TransferTask :=
  (entry.1, { entry.2 with downloadAssets := entry.2.downloadAssets.erase uri })

/-- The tasks that wait for nothing more once the uri is taken out. -/
def finishedTasks : List (BitVec 32 × TransferTask) :=
  s.tasks.filter fun entry => entry.2.downloadAssets.erase uri = ∅

/-- The sweep over the table; finished tasks are erased one by one afterwards. -/
def sweep (result : Bool) : Loader :=
  { s with
    tasks := s.tasks.map (sweepTask uri)
    told := s.told ++ (s.finishedTasks uri).map fun entry => (entry.2.call, result) }

def updateDownloaded : Loader :=
  { s with
    downloaded := computeIfAbsent s.downloaded asset.uri asset.hash
    assetQueue := s.assetQueue ++ [asset.uri] }

/-- The rest of `UpdateDownloaded`: a queue that is too long loses its front. -/
def evictDownloaded : Loader :=
  match s.assetQueue with
  | [] => s
  | oldAsset :: later =>
      if s.assetQueue.length > lastDownloadAssetSize then
        { s with downloaded := Function.update s.downloaded oldAsset none, assetQueue := later }
      else s

def moveRun : Loader :=
  { s with runs := advance s.runs i (some run) }

/-- One step of the `i`-th run; `success` is the outcome if the step is a transfer. -/
def advanceRun (success : Bool) : Loader :=
  match run.stage with
  | .next =>
      match run.todo with
      | [] => { s with runs := advance s.runs i none }
      | asset :: todo =>
          if s.isDownloaded asset then
            { s.moveRun i { run with todo, stage := .finish asset true } with
              recorded := asset :: s.recorded }
          else s.moveRun i { run with todo, stage := .isDownloading asset }
  | .isDownloading asset =>
      s.moveRun i { run with
        stage := if s.isDownloading asset then .next else .markDownloading asset }
  | .markDownloading asset =>
      { s.moveRun i { run with stage := .transfer asset } with
        downloading := computeIfAbsent s.downloading asset.uri asset.hash }
  | .transfer asset =>
      { s.moveRun i { run with stage := .transferred asset success } with
        transfers := s.transfers ++ [(asset, success)] }
  | .transferred asset true =>
      { s.moveRun i { run with stage := .update asset } with
        locked := true
        downloading := Function.update s.downloading asset.uri none }
  | .transferred asset false =>
      { s.moveRun i { run with result := false, stage := .finish asset false } with
        downloading := Function.update s.downloading asset.uri none
        failed := run.call :: s.failed }
  | .update asset =>
      (s.updateDownloaded asset).moveRun i { run with stage := .evict asset }
  | .evict asset =>
      { s.evictDownloaded.moveRun i { run with stage := .finish asset true } with locked := false }
  | .finish asset _ =>
      (s.sweep asset.uri run.result).moveRun i
        { run with stage := .erase ((s.finishedTasks asset.uri).map Prod.fst) }
  | .erase [] => s.moveRun i { run with stage := .next }
  | .erase (taskId :: rest) =>
      { s.moveRun i { run with stage := .erase rest } with
        tasks := s.tasks.filter fun entry => entry.1 ≠ taskId }

/-- The run is at the section under `mutex_`, which another run is in. -/
def blocked : Bool :=
  match run.stage with
  | .transferred _ true => s.locked
  | _ => false

theorem evictDownloaded_eq :
    ∃ downloaded assetQueue, s.evictDownloaded = { s with downloaded, assetQueue } := by
  unfold evictDownloaded
  split
  · exact ⟨s.downloaded, s.assetQueue, rfl⟩
  · split
    · exact ⟨_, _, rfl⟩
    · exact ⟨s.downloaded, s.assetQueue, rfl⟩

theorem nextCall_start : (s.start assets).nextCall = s.nextCall + 1 := by
  unfold start
  extract_lets call s₁
  split <;> rfl

theorem nextCall_advanceCall (call : LoaderCall) :
    (s.advanceCall i call).nextCall = s.nextCall := by
  unfold advanceCall
  split
  · split <;> rfl
  · rfl
  · rfl
  · rfl

theorem advanceRun_frame (success : Bool) :
    (s.advanceRun i run success).nextCall = s.nextCall ∧
      (s.advanceRun i run success).calls = s.calls ∧
      ∃ next : Option LoaderRun, (s.advanceRun i run success).runs = advance s.runs i next ∧
        ∀ moved, next = some moved → moved.call = run.call := by
  have hmoved : ∀ moved : LoaderRun, moved.call = run.call →
      ∀ other, some moved = some other → other.call = run.call := by
    intro moved hcall other hother
    cases hother
    exact hcall
  unfold advanceRun
  repeat' split
  · exact ⟨rfl, rfl, none, rfl, fun _ h => absurd h (Option.some_ne_none _).symm⟩
  case h_8 =>
    obtain ⟨downloaded, assetQueue, hevict⟩ := s.evictDownloaded_eq
    rw [hevict]
    exact ⟨rfl, rfl, some _, rfl, hmoved _ rfl⟩
  all_goals exact ⟨rfl, rfl, some _, rfl, hmoved _ rfl⟩

/-- Every call holds at most one of something, and none before it starts. -/
structure HeldOnce (held : Loader → Nat → Nat) (s : Loader) : Prop where
  bounded : ∀ id, held s id ≤ 1
  fresh : ∀ id, s.nextCall ≤ id → held s id = 0

theorem HeldOnce.of_le {held : Loader → Nat → Nat} {s s' : Loader} (h : HeldOnce held s)
    (hheld : ∀ id, held s' id ≤ held s id) (hnext : s'.nextCall = s.nextCall) :
    HeldOnce held s' := by
  constructor
  · intro id
    exact (hheld id).trans (h.bounded id)
  · intro id hid
    rw [hnext] at hid
    have hzero := h.fresh id hid
    have hle := hheld id
    omega

theorem HeldOnce.start {held : Loader → Nat → Nat} {s : Loader} (h : HeldOnce held s)
    {assets : List LoadAsset}
    (hheld : ∀ id, held (s.start assets) id ≤ held s id + if s.nextCall = id then 1 else 0) :
    HeldOnce held (s.start assets) := by
  constructor
  · intro id
    refine (hheld id).trans ?_
    split
    · rename_i hid
      rw [h.fresh id (Nat.le_of_eq hid)]
    · exact h.bounded id
  · intro id hid
    rw [nextCall_start] at hid
    have hle := hheld id
    rw [h.fresh id (by omega), if_neg (by omega)] at hle
    omega

end Loader

inductive LoaderAction where
  | start (assets : List LoadAsset)
  | call (i : Nat)
  | run (i : Nat) (success : Bool)

def Loader.step : LoaderAction → Option Loader
  | .start assets => some (s.start assets)
  | .call i => (s.calls[i]?).map (s.advanceCall i)
  | .run i success =>
      match s.runs[i]? with
      | some run => if s.blocked run then none else some (s.advanceRun i run success)
      | none => none

theorem Loader.run_of_step {s s' : Loader} {i : Nat} {success : Bool}
    (h : s.step (.run i success) = some s') :
    ∃ run, s.runs[i]? = some run ∧ s.blocked run = false ∧ s' = s.advanceRun i run success := by
  rw [Loader.step] at h
  split at h
  · rename_i run hi
    split at h
    · cases h
    · rename_i hfree
      cases h
      exact ⟨run, hi, Bool.eq_false_of_not_eq_true hfree, rfl⟩
  · cases h

def loaderMachine : Machine Loader LoaderAction := ⟨Loader.step⟩

def loadCall : List LoaderAction :=
  .start assets :: List.replicate (assets.length + 3) (.call 0)

end DataMgr.Object
