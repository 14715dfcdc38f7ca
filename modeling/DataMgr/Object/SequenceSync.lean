import DataMgr.Foundation.Machine

/-! # Synchronising the object store

A request to save an object, or to revoke it, is synchronised with other devices. Its
callback is registered under a sequence number before the synchronisation of the metadata,
if one is needed, and that of the data begin; the number is released when the data are
synchronised or could not be. A flag keeps the store open as long as data are being
synchronised. A task stands for each thing that is still to happen for a sequence number.
-/

namespace DataMgr.Object

open DataMgr.Foundation

inductive SyncResult where
  | successUserHasFinished
  | successUserInUse
  | errSidNotExist
deriving DecidableEq, Repr

/-- Whose callback it is: that of `SaveInternal` opens the store. -/
inductive SyncKind where
  | save
  | revoke
deriving DecidableEq, Repr

structure SequenceSyncManager where
  userIdSeqIdRelations : List (String × List Nat) := []
  seqIdCallbackRelations : List (Nat × SyncKind) := []
deriving DecidableEq, Repr

/-- The number is appended to those of the user, who is new at the end. -/
def addSequenceId (userId : String) (sequenceId : Nat) :
    List (String × List Nat) → List (String × List Nat)
  | [] => [(userId, [sequenceId])]
  | (user, ids) :: rest =>
      if user = userId then (user, ids ++ [sequenceId]) :: rest
      else (user, ids) :: addSequenceId userId sequenceId rest

/-- The loop of `DeleteNotifierNoLock`: the result, the user it reports and the numbers left. -/
def releaseSequenceId (sequenceId : Nat) :
    List (String × List Nat) → (SyncResult × String) × List (String × List Nat)
  | [] => ((.successUserHasFinished, ""), [])
  | (user, ids) :: rest =>
      if sequenceId ∈ ids then
        if ids.erase sequenceId = [] then ((.successUserHasFinished, user), rest)
        else ((.successUserInUse, ""), (user, ids.erase sequenceId) :: rest)
      else
        let released := releaseSequenceId sequenceId rest
        (released.1, (user, ids) :: released.2)

variable (manager : SequenceSyncManager) (userId : String) (sequenceId : Nat)
  (relations : List (String × List Nat))

def sequencePairs : List (String × Nat) :=
  relations.flatMap fun entry => entry.2.map fun id => (entry.1, id)

namespace SequenceSyncManager

def has : Prop :=
  sequenceId ∈ manager.seqIdCallbackRelations.map Prod.fst

instance (manager : SequenceSyncManager) (sequenceId : Nat) : Decidable (manager.has sequenceId) :=
  inferInstanceAs (Decidable (sequenceId ∈ manager.seqIdCallbackRelations.map Prod.fst))

def addNotifier (callback : SyncKind) : SequenceSyncManager where
  userIdSeqIdRelations := addSequenceId userId sequenceId manager.userIdSeqIdRelations
  seqIdCallbackRelations := manager.seqIdCallbackRelations ++ [(sequenceId, callback)]

def deleteNotifierNoLock : (SyncResult × String) × SequenceSyncManager :=
  let released := releaseSequenceId sequenceId manager.userIdSeqIdRelations
  (released.1, {
    userIdSeqIdRelations := released.2
    seqIdCallbackRelations :=
      manager.seqIdCallbackRelations.filter fun entry => entry.1 ≠ sequenceId })

/-- `DeleteNotifier`, and `Process` beside the callback it invokes. -/
def deleteNotifier : (SyncResult × String) × SequenceSyncManager :=
  if manager.has sequenceId then manager.deleteNotifierNoLock sequenceId
  else ((.errSidNotExist, ""), manager)

def pairs : List (String × Nat) :=
  sequencePairs manager.userIdSeqIdRelations

end SequenceSyncManager

inductive SyncStage where
  /-- `SyncOnStore` has registered the callback. -/
  | registered
  /-- The metadata that all stores share, then those of the store, are being synchronised. -/
  | commonMeta
  | storeMeta
  /-- `DoSync` begins; `inCall` says that its result reaches the request. -/
  | doSync (inCall : Bool)
  /-- `DoSync` has started the synchronisation and will set the flag. -/
  | mark
  /-- The data are being synchronised. -/
  | dataSync
  /-- The number was processed with this result, the flag is looked at next. -/
  | lowering (result : SyncResult × String)
deriving DecidableEq, Repr

structure SyncTask where
  sequenceId : Nat
  userId : String
  kind : SyncKind
  stage : SyncStage
deriving DecidableEq, Repr

structure ObjectSync where
  manager : SequenceSyncManager := {}
  userId : String
  /-- `delegate_` is not null. -/
  opened : Bool := true
  isSyncing : Bool := false
  tasks : List SyncTask := []
  nextId : Nat := 0
  /-- The requests whose callback was invoked. -/
  completed : List Nat := []
deriving DecidableEq, Repr

variable (s : ObjectSync) (i : Nat) (task : SyncTask)

inductive MetaAnswer where
  | notNeeded
  | started
  | failed
deriving DecidableEq, Repr

inductive SyncMove where
  | syncMeta (answer : MetaAnswer)
  /-- The common metadata are synchronised, with some device if `succeeded`. -/
  | commonDone (succeeded storeStarts : Bool)
  | storeDone
  | start (starts : Bool)
  | mark
  /-- The data are synchronised, with no device at all if `empty`. -/
  | complete (empty : Bool)
  | lower
deriving DecidableEq, Repr

inductive SyncAction where
  /-- A request; without `syncs` it fails before, or needs no other device. -/
  | request (kind : SyncKind) (syncs : Bool)
  | task (i : Nat) (move : SyncMove)
  | setData (userId : String)
  | openStore
  | flush
  | forceClose
deriving DecidableEq, Repr

namespace ObjectSync

/-- Some `DoSync` holds the lock of the store. -/
def locked : Bool := s.tasks.any fun task => task.stage = .mark

def move (stage : SyncStage) : ObjectSync :=
  { s with tasks := advance s.tasks i (some { task with stage }) }

def retire : ObjectSync := { s with tasks := advance s.tasks i none }

/-- A request of its own number; the numbers of the requests are those of the notifiers. -/
def request (kind : SyncKind) (syncs : Bool) : ObjectSync :=
  if syncs then
    { s with
      manager := s.manager.addNotifier s.userId s.nextId kind
      tasks := s.tasks ++ [⟨s.nextId, s.userId, kind, .registered⟩]
      nextId := s.nextId + 1 }
  else { s with completed := s.completed ++ [s.nextId], nextId := s.nextId + 1 }

/-- `DoSync` has failed; its caller completes the request, unless it runs after the metadata. -/
def failed (inCall : Bool) : ObjectSync :=
  { s.retire i with
    completed := if inCall then s.completed ++ [task.sequenceId] else s.completed }

/-- `DoSync` as far as the database accepts the synchronisation. -/
def doSync (inCall starts : Bool) : ObjectSync :=
  if s.opened = false then s.failed i task inCall
  else if starts then
    { s with
      tasks := advance s.tasks i (some { task with stage := .mark }) ++
        [{ task with stage := .dataSync }] }
  else
    { s.failed i task inCall with manager := (s.manager.deleteNotifier task.sequenceId).2 }

def process : ObjectSync :=
  let deleted := s.manager.deleteNotifier task.sequenceId
  { s.move i task (.lowering deleted.1) with
    manager := deleted.2
    completed :=
      if s.manager.has task.sequenceId then s.completed ++ [task.sequenceId] else s.completed }

def syncCompleted (result : SyncResult × String) : ObjectSync :=
  { s.retire i with
    isSyncing :=
      if result.1 = .successUserHasFinished ∧ result.2 = s.userId then false else s.isSyncing }

def act : SyncMove → Option ObjectSync
  | .syncMeta answer =>
      if task.stage = .registered then
        match answer with
        | .started => some (s.move i task .commonMeta)
        | .notNeeded | .failed => some (s.move i task (.doSync true))
      else none
  | .commonDone succeeded storeStarts =>
      if task.stage = .commonMeta then
        if succeeded = false then some (s.move i task (.doSync false))
        else if storeStarts then some (s.move i task .storeMeta)
        -- the completion is never invoked
        else some (s.retire i)
      else none
  | .storeDone => if task.stage = .storeMeta then some (s.move i task (.doSync false)) else none
  | .start starts =>
      match task.stage with
      | .doSync inCall => some (s.doSync i task inCall starts)
      | _ => none
  | .mark => if task.stage = .mark then some { s.retire i with isSyncing := true } else none
  | .complete empty =>
      -- the callback of a save opens the store, which waits for the lock
      if task.stage = .dataSync ∧ ¬ (task.kind = .save ∧ empty = false ∧ s.locked = true) then
        some (s.process i task)
      else none
  | .lower =>
      match task.stage with
      | .lowering result => some (s.syncCompleted i result)
      | _ => none

def step : SyncAction → Option ObjectSync
  | .request kind syncs => some (s.request kind syncs)
  | .task i move => (s.tasks[i]?).bind fun task => s.act i task move
  | .setData userId => some { s with userId }
  | .openStore => if s.locked then none else some { s with opened := true }
  | .flush => if s.locked ∨ s.isSyncing then none else some { s with opened := false }
  | .forceClose => if s.locked then none else some { s with opened := false, isSyncing := false }

end ObjectSync

def objectSyncMachine : Machine ObjectSync SyncAction := ⟨ObjectSync.step⟩

theorem sequencePairs_cons (user : String) (ids : List Nat) (rest : List (String × List Nat)) :
    sequencePairs ((user, ids) :: rest) = ids.map (fun id => (user, id)) ++ sequencePairs rest :=
  rfl

theorem nodup_sequencePairs_cons {user : String} {ids : List Nat}
    {rest : List (String × List Nat)}
    (h : ((sequencePairs ((user, ids) :: rest)).map Prod.snd).Nodup) :
    ids.Nodup ∧ ((sequencePairs rest).map Prod.snd).Nodup ∧
      ∀ id ∈ ids, ∀ pair ∈ sequencePairs rest, pair.2 ≠ id := by
  rw [sequencePairs_cons, List.map_append, List.nodup_append, List.map_map] at h
  obtain ⟨hids, hrest, hdisjoint⟩ := h
  refine ⟨?_, hrest, fun id hid pair hpair => ?_⟩
  · rw [← List.map_id ids]
    exact hids
  · exact (hdisjoint id (List.mem_map.mpr ⟨id, hid, rfl⟩) pair.2 (List.mem_map_of_mem hpair)).symm

theorem sequencePairs_add :
    (sequencePairs (addSequenceId userId sequenceId relations)).Perm
      ((userId, sequenceId) :: sequencePairs relations) := by
  induction relations with
  | nil => exact List.Perm.refl _
  | cons entry rest ih =>
      rw [addSequenceId]
      split
      · rename_i huser
        subst huser
        rw [sequencePairs_cons, sequencePairs_cons, List.map_append, List.append_assoc]
        exact List.perm_middle
      · exact (ih.append_left _).trans List.perm_middle

theorem sequencePairs_release (h : ((sequencePairs relations).map Prod.snd).Nodup) :
    sequencePairs (releaseSequenceId sequenceId relations).2 =
      (sequencePairs relations).filter fun pair => pair.2 ≠ sequenceId := by
  induction relations with
  | nil => rfl
  | cons entry rest ih =>
      obtain ⟨user, ids⟩ := entry
      obtain ⟨hnodup, hrest, hdisjoint⟩ := nodup_sequencePairs_cons h
      have herase : ids.erase sequenceId = ids.filter fun id => id ≠ sequenceId := by
        rw [hnodup.erase_eq_filter]
        exact List.filter_congr fun id _ => Bool.eq_iff_iff.mpr (by simp)
      have hkept : (ids.map fun id => (user, id)).filter (fun pair => pair.2 ≠ sequenceId) =
          (ids.filter fun id => id ≠ sequenceId).map fun id => (user, id) := List.filter_map
      rw [sequencePairs_cons, List.filter_append, hkept, releaseSequenceId]
      by_cases hmem : sequenceId ∈ ids
      · have hother : (sequencePairs rest).filter (fun pair => pair.2 ≠ sequenceId) =
            sequencePairs rest := by
          refine List.filter_eq_self.mpr fun pair hpair => ?_
          simpa using hdisjoint sequenceId hmem pair hpair
        rw [if_pos hmem, hother, ← herase]
        split
        · rename_i hnone
          rw [hnone]
          rfl
        · rfl
      · have hall : ids.filter (fun id => id ≠ sequenceId) = ids := by
          rw [← herase, List.erase_of_not_mem hmem]
        rw [if_neg hmem, hall, ← ih hrest]
        rfl

theorem releaseSequenceId_result {sequenceId : Nat} {relations : List (String × List Nat)}
    (h : ((sequencePairs relations).map Prod.snd).Nodup) {userId : String}
    (hmem : (userId, sequenceId) ∈ sequencePairs relations) :
    (releaseSequenceId sequenceId relations).1 = (.successUserHasFinished, userId) ∨
      ∃ other, other ≠ sequenceId ∧ (userId, other) ∈ sequencePairs relations := by
  induction relations with
  | nil => exact absurd hmem List.not_mem_nil
  | cons entry rest ih =>
      obtain ⟨user, ids⟩ := entry
      obtain ⟨hnodup, hrest, hdisjoint⟩ := nodup_sequencePairs_cons h
      rw [releaseSequenceId]
      by_cases hin : sequenceId ∈ ids
      · have huser : user = userId := by
          rcases List.mem_append.mp hmem with hhere | hthere
          · obtain ⟨id, -, heq⟩ := List.mem_map.mp hhere
            exact congrArg Prod.fst heq
          · exact absurd rfl (hdisjoint sequenceId hin _ hthere)
        subst huser
        rw [if_pos hin]
        split
        · exact .inl rfl
        rename_i hleft
        obtain ⟨other, hother⟩ := List.exists_mem_of_ne_nil _ hleft
        have hne := (hnodup.mem_erase_iff.mp hother)
        refine .inr ⟨other, hne.1, ?_⟩
        exact List.mem_append_left _ (List.mem_map.mpr ⟨other, hne.2, rfl⟩)
      · have hthere : (userId, sequenceId) ∈ sequencePairs rest := by
          rcases List.mem_append.mp hmem with hhere | hthere
          · obtain ⟨id, hid, heq⟩ := List.mem_map.mp hhere
            cases heq
            exact absurd hid hin
          · exact hthere
        rw [if_neg hin]
        rcases ih hrest hthere with hfinished | ⟨other, hne, hother⟩
        · exact .inl hfinished
        · refine .inr ⟨other, hne, ?_⟩
          exact List.mem_append_right _ hother

end DataMgr.Object
