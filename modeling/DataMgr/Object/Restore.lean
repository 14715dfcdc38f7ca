import DataMgr.Foundation.Machine
import DataMgr.Object.ObjectNotify

/-! # Restoring one object

The data of a save and its assets arrive independently. One status word and one timer are
kept for the object, whatever save they are about. A step is one section under the lock of
the status word; `Retrieve` reads the store, looks at the status word and deletes what is
stored in separate steps, and a timer pulls the assets before it notifies. The save that a
step is about is known here and not to the code.
-/

namespace DataMgr.Object

open DataMgr.Foundation

/-- A save: whether it has properties of assets, and whether the sender pushes assets for
it, which takes a complete asset and the device id. -/
structure Save where
  id : Nat
  hasAsset : Bool
  pushed : Bool
  assets_of_pushed : pushed = true → hasAsset = true
deriving DecidableEq

def assetSave (id : Nat) : Save := ⟨id, true, true, fun _ => rfl⟩

/-- Someone is told about the data of a save; `ready` is whether its assets have finished
arriving or its wait has timed out at that moment. -/
structure Telling where
  save : Save
  allReady : Bool
  ready : Bool
deriving DecidableEq

inductive RetrieveCall where
  | read (save : Save)
  | checked (save : Save) (allReady : Bool)
deriving DecidableEq

structure Restore where
  executors : Bool
  status : Option RestoreStatus := none
  objectTimer : Option Nat := none
  /-- The waits that are scheduled, by task, and those that have fired and pull assets. -/
  tasks : List (Nat × Save) := []
  nextTask : Nat := 0
  pulling : List Save := []
  /-- The observers of the object. -/
  observers : Nat := 0
  /-- The save whose data is in the store, and the saves whose data has got there. -/
  stored : Option Save := none
  arrived : List Save := []
  retrieves : List RetrieveCall := []
  /-- The last save whose data was notified. -/
  current : Option Save := none
  done : List Save := []
  timedOut : List Save := []
  told : List Telling := []

variable (s : Restore) (i : Nat) (save : Save)

namespace Restore

/-- The assets of the save have finished arriving, or the wait has timed out. A save for
which nothing is pushed has no assets to wait for. -/
def Ready : Prop :=
  save.pushed = false ∨ save ∈ s.done ∨ save ∈ s.timedOut

instance (s : Restore) (save : Save) : Decidable (s.Ready save) :=
  inferInstanceAs (Decidable (_ ∨ _))

def setStatus (status : Option RestoreStatus) : Restore := { s with status }

def tell (allReady : Bool) (count : Nat) : Restore :=
  { s with told := s.told ++ List.replicate count ⟨save, allReady, s.Ready save⟩ }

/-- The observers are told that all is ready, with an empty record: it is about the data
they have. -/
def tellCurrent : Restore :=
  match s.current with
  | none => s
  | some save => s.tell save true s.observers

def removeTimer : Restore :=
  match s.objectTimer with
  | none => s
  | some taskId =>
      { s with tasks := s.tasks.filter fun task => task.1 ≠ taskId, objectTimer := none }

/-- The loop over the observers when the assets are there or the wait is over; it does
nothing if there are none. -/
def notifyEmpty : Restore := (s.tellCurrent.setStatus none).removeTimer

def waitAssets : Restore :=
  if s.executors = false then s
  else
    { s with
      tasks := s.tasks ++ [(s.nextTask, save)]
      nextTask := s.nextTask + 1
      objectTimer := some (s.objectTimer.getD s.nextTask) }

def notifyChange : Restore :=
  let s := { s with current := some save }
  if save.hasAsset = false then
    (s.tell save true s.observers).setStatus
      (if s.observers = 0 then s.status else statusAfterNotify true s.status)
  else
    let (status, allReady) := statusAfterData (s.observers ≠ 0) s.status
    let s := (s.tell save allReady s.observers).setStatus status
    if allReady then s else s.waitAssets save

def notifyAssetsStart : Restore := s.setStatus (some (s.status.getD .none))

/-- `NotifyAssetsReady` when the assets of a save have finished arriving. -/
def notifyAssetsReady : Restore :=
  let s := { s with done := save :: s.done }
  if s.executors = false then s
  else
    match s.status with
    | some .dataNotified =>
        if s.observers = 0 then s.setStatus (some .allReady) else s.notifyEmpty
    | some .dataReady => (s.setStatus (some .allReady)).removeTimer
    | _ => s.setStatus (some .assetsReady)

def fire : Option Restore :=
  match s.tasks[i]? with
  | none => none
  | some (_, save) =>
      some { s with
        tasks := s.tasks.eraseIdx i, pulling := s.pulling ++ [save]
        timedOut := save :: s.timedOut }

def doNotifyWaitAssetTimeout : Option Restore :=
  match s.pulling[i]? with
  | none => none
  | some _ =>
      let s := { s with pulling := s.pulling.eraseIdx i }
      if s.executors = false ∨ s.observers = 0 then some s else some s.notifyEmpty

def retrieveFromStore : Option Restore :=
  s.stored.map fun save => { s with retrieves := s.retrieves ++ [.read save] }

def checked (allReady : Bool) : Restore :=
  { s with retrieves := s.retrieves.set i (.checked save allReady) }

def retrieveStatus : Option Restore :=
  match s.retrieves[i]? with
  | some (.read save) =>
      if save.pushed = false then some (s.checked i save true)
      else
        match s.status with
        | some .allReady => some ((s.checked i save true).setStatus none)
        | some .dataReady => some ((s.checked i save false).setStatus (some .dataNotified))
        | _ => some (s.checked i save false)
  | _ => none

/-- The end of a `Retrieve`: what is stored is deleted and the caller is told, or the
deletion fails and the caller gets nothing. -/
def retrieveEnd (deleted : Bool) : Option Restore :=
  match s.retrieves[i]? with
  | some (.checked save allReady) =>
      let s := { s with retrieves := s.retrieves.eraseIdx i }
      if deleted = false then some s else some { s.tell save allReady 1 with stored := none }
  | _ => none

end Restore

inductive RestoreAction where
  | arrive (save : Save)
  | notifyChange (save : Save)
  | assetsStart
  | assetsReady (save : Save)
  | observe (observers : Nat)
  | fire (i : Nat)
  | timeout (i : Nat)
  | retrieveRead
  | retrieveStatus (i : Nat)
  | retrieveEnd (i : Nat) (deleted : Bool)

namespace Restore

def step : RestoreAction → Option Restore
  | .arrive save => some { s with stored := some save, arrived := save :: s.arrived }
  | .notifyChange save => if save ∈ s.arrived then some (s.notifyChange save) else none
  | .assetsStart => some s.notifyAssetsStart
  | .assetsReady save => some (s.notifyAssetsReady save)
  | .observe observers => some { s with observers }
  | .fire i => s.fire i
  | .timeout i => s.doNotifyWaitAssetTimeout i
  | .retrieveRead => s.retrieveFromStore
  | .retrieveStatus i => s.retrieveStatus i
  | .retrieveEnd i deleted => s.retrieveEnd i deleted

end Restore

def restoreMachine : Machine Restore RestoreAction := ⟨Restore.step⟩

end DataMgr.Object
