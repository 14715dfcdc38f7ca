import DataMgr.Object.ObjectNotify

/-! # Changes reach the observers of their object only

A change is told to the observers whose key is one of the keys it is sorted by. It stays
with the observers of its own bundle and session exactly if no other observer has such a
key. With a save info the only key is the bundle followed by the session, which another
bundle and session can spell as well.
-/

namespace DataMgr.Object

theorem mem_assign {κ α : Type} [DecidableEq κ] {key : κ} {value : α} {items : List (κ × α)}
    {item : κ × α} (h : item ∈ assign key value items) : item ∈ items ∨ item = (key, value) := by
  rcases List.mem_append.mp h with hold | hnew
  · exact .inl (List.mem_of_mem_filter hold)
  · exact .inr (List.mem_singleton.mp hnew)

namespace Callbacks

def live (callbacks : Callbacks) : List (Text × Observer) :=
  callbacks.flatMap fun entry => entry.2.observers

/-- Every observer stands under the key of what it was registered for. -/
def Keyed (observers : List (Text × Observer)) : Prop :=
  ∀ item ∈ observers, item.1 = objectKey item.2.bundleName item.2.sessionId

variable {callbacks : Callbacks}

theorem mem_live_of_lookup {tokenId : Nat} {value : CallbackInfo} {item : Text × Observer}
    (h : callbacks.lookup tokenId = some value) (hitem : item ∈ value.observers) :
    item ∈ callbacks.live := by
  induction callbacks with
  | nil => cases h
  | cons entry rest ih =>
      rw [live, List.flatMap_cons, List.mem_append]
      rw [List.lookup_cons] at h
      split at h
      · cases h
        exact .inl hitem
      · exact .inr (ih h)

theorem keyed_info (h : Keyed callbacks.live) (tokenId : Nat) :
    Keyed (callbacks.info tokenId).observers := by
  intro item hitem
  unfold info at hitem
  cases hlookup : callbacks.lookup tokenId with
  | none =>
      rw [hlookup] at hitem
      cases hitem
  | some value =>
      rw [hlookup] at hitem
      exact h item (mem_live_of_lookup hlookup hitem)

theorem keyed_assign (h : Keyed callbacks.live) (tokenId : Nat) {value : CallbackInfo}
    (hvalue : Keyed value.observers) : Keyed (live (assign tokenId value callbacks)) := by
  intro item hitem
  obtain ⟨entry, hentry, hmem⟩ := List.mem_flatMap.mp hitem
  rcases mem_assign hentry with hold | rfl
  · exact h item (List.mem_flatMap.mpr ⟨entry, hold, hmem⟩)
  · exact hvalue item hmem

theorem keyed_after (h : Keyed callbacks.live) (call : CallbackCall) :
    Keyed (callbacks.after call).live := by
  cases call with
  | register observer pid tokenId =>
      simp only [after, registerRemoteCallback]
      split
      · exact h
      refine keyed_assign h tokenId ?_
      have hvalue : Keyed (if (callbacks.info tokenId).pid ≠ pid then ({ pid } : CallbackInfo)
          else callbacks.info tokenId).observers := by
        split
        · intro item hitem
          cases hitem
        · exact keyed_info h tokenId
      intro item hitem
      rcases mem_assign hitem with hold | rfl
      · exact hvalue item hold
      · rfl
  | unregister bundleName pid tokenId sessionId =>
      simp only [after, unregisterRemoteCallback]
      split
      · exact h
      split
      · exact keyed_assign h tokenId (keyed_info h tokenId)
      split
      · intro item hitem
        obtain ⟨entry, hentry, hmem⟩ := List.mem_flatMap.mp hitem
        exact h item (List.mem_flatMap.mpr ⟨entry, List.mem_of_mem_filter hentry, hmem⟩)
      · refine keyed_assign h tokenId ?_
        intro item hitem
        exact keyed_info h tokenId item (List.mem_of_mem_filter hitem)
  | clear =>
      intro item hitem
      cases hitem

theorem keyed_registered (calls : List CallbackCall) : Keyed (registered calls).live := by
  unfold registered
  induction calls using List.reverseRecOn with
  | nil =>
      intro item hitem
      cases hitem
  | append_singleton calls call ih =>
      rw [List.foldl_append]
      exact keyed_after ih call

end Callbacks

open Callbacks

section

variable {β : Type} {data : ObjectData β} {callbacks : Callbacks} {d : Delivery β}

theorem mem_doNotify (allReady : Bool) (observers : List (Text × Observer)) (status : StatusMap) :
    d ∈ (doNotify data allReady observers status).1 ↔
      ∃ key, (key, d.observer) ∈ observers ∧ data.lookup key = some d.record ∧
        d.allReady = allReady := by
  induction observers generalizing status with
  | nil => simp [doNotify]
  | cons item rest ih =>
      obtain ⟨key, observer⟩ := item
      rw [doNotify]
      cases hlookup : data.lookup key with
      | none =>
          rw [ih]
          constructor
          · intro ⟨other, hmem, hrest⟩
            exact ⟨other, List.mem_cons_of_mem _ hmem, hrest⟩
          · intro ⟨other, hmem, hrecord, hready⟩
            rcases List.mem_cons.mp hmem with heq | hmem
            · cases heq
              rw [hlookup] at hrecord
              cases hrecord
            · exact ⟨other, hmem, hrecord, hready⟩
      | some record =>
          rw [List.mem_cons, ih]
          constructor
          · rintro (rfl | ⟨other, hmem, hrest⟩)
            · exact ⟨key, List.mem_cons_self, hlookup, rfl⟩
            · exact ⟨other, List.mem_cons_of_mem _ hmem, hrest⟩
          · intro ⟨other, hmem, hrecord, hready⟩
            rcases List.mem_cons.mp hmem with heq | hmem
            · cases heq
              rw [hlookup] at hrecord
              cases hrecord
              exact .inl (by rw [← hready])
            · exact .inr ⟨other, hmem, hrecord, hready⟩

theorem mem_notifyAll (allReady : Bool) (callbacks : Callbacks) (status : StatusMap) :
    d ∈ (notifyAll data allReady callbacks status).1 ↔
      ∃ key, (key, d.observer) ∈ callbacks.live ∧ data.lookup key = some d.record ∧
        d.allReady = allReady := by
  induction callbacks generalizing status with
  | nil => simp [notifyAll, live]
  | cons entry rest ih =>
      simp only [notifyAll, List.mem_append, mem_doNotify, ih, live, List.flatMap_cons]
      constructor
      · rintro (⟨key, hmem, hrest⟩ | ⟨key, hmem, hrest⟩)
        · exact ⟨key, .inl hmem, hrest⟩
        · exact ⟨key, .inr hmem, hrest⟩
      · rintro ⟨key, hmem | hmem, hrest⟩
        · exact .inl ⟨key, hmem, hrest⟩
        · exact .inr ⟨key, hmem, hrest⟩

/-- The observer is told this record, by whichever branch. -/
def Tells (deliveries : List (Delivery β)) (observer : Observer) (record : ObjectRecord β) : Prop :=
  ∃ d ∈ deliveries, d.observer = observer ∧ d.record = record

theorem tells_notifyAll (allReady : Bool) (status : StatusMap) (observer : Observer)
    (record : ObjectRecord β) :
    Tells (notifyAll data allReady callbacks status).1 observer record ↔
      ∃ key, (key, observer) ∈ callbacks.live ∧ data.lookup key = some record := by
  constructor
  · intro ⟨d, hd, hobserver, hrecord⟩
    obtain ⟨key, hlive, hlookup, -⟩ := (mem_notifyAll allReady callbacks status).mp hd
    rw [hobserver] at hlive
    rw [hrecord] at hlookup
    exact ⟨key, hlive, hlookup⟩
  · intro ⟨key, hlive, hlookup⟩
    exact ⟨{ observer, record, allReady },
      (mem_notifyAll allReady callbacks status).mpr ⟨key, hlive, hlookup, rfl⟩, rfl, rfl⟩

theorem tells_computeStatus (key : Text) (status : StatusMap) (observer : Observer)
    (record : ObjectRecord β) :
    Tells (computeStatus callbacks key data status).1 observer record ↔
      ∃ key, (key, observer) ∈ callbacks.live ∧ data.lookup key = some record := by
  unfold computeStatus
  split
  · exact tells_notifyAll true _ observer record
  · exact tells_notifyAll false _ observer record

theorem tells_append {first later : List (Delivery β)} {observer : Observer}
    {record : ObjectRecord β} :
    Tells (first ++ later) observer record ↔
      Tells first observer record ∨ Tells later observer record := by
  simp only [Tells, List.mem_append, or_and_right, exists_or]

theorem tells_notifyDataChanged {keys : List Text} (hne : keys ≠ []) (status : StatusMap)
    (observer : Observer) (record : ObjectRecord β) :
    Tells (notifyDataChanged callbacks data keys status).1 observer record ↔
      ∃ key, (key, observer) ∈ callbacks.live ∧ data.lookup key = some record := by
  induction keys generalizing status with
  | nil => exact absurd rfl hne
  | cons key rest ih =>
      rw [notifyDataChanged, tells_append, tells_computeStatus]
      cases rest with
      | nil => simp [notifyDataChanged, Tells]
      | cons next rest =>
          rw [ih (List.cons_ne_nil next rest), or_self]

def announced (unmarshall : β → SaveInfo) (changedData : ObjectRecord β) : List Text :=
  (getObjectData changedData (findSaveInfo unmarshall changedData)).data.map Prod.fst

theorem lookup_isSome_iff (data : ObjectData β) (key : Text) :
    (∃ record, data.lookup key = some record) ↔ key ∈ data.map Prod.fst := by
  induction data with
  | nil => simp
  | cons item rest ih =>
      obtain ⟨other, record⟩ := item
      rw [List.lookup_cons, List.map_cons, List.mem_cons]
      by_cases hkey : key = other
      · simp [hkey]
      · rw [beq_eq_false_iff_ne.mpr hkey, ih]
        simp [hkey]

theorem told_iff (unmarshall : β → SaveInfo) (callbacks : Callbacks) (changedData : ObjectRecord β)
    (status : StatusMap) (observer : Observer) :
    (∃ d ∈ (notifyChange unmarshall callbacks changedData status).1, d.observer = observer) ↔
      ∃ key ∈ announced unmarshall changedData, (key, observer) ∈ callbacks.live := by
  have hsorted : ∀ record, Tells (notifyChange unmarshall callbacks changedData status).1 observer
      record ↔ ∃ key, (key, observer) ∈ callbacks.live ∧
        (getObjectData changedData (findSaveInfo unmarshall changedData)).data.lookup key =
          some record := by
    intro record
    unfold notifyChange
    dsimp only
    split
    · exact tells_notifyAll true status observer record
    · cases hdata : (getObjectData changedData (findSaveInfo unmarshall changedData)).data with
      | nil => simp [notifyDataChanged, Tells]
      | cons item rest => exact tells_notifyDataChanged (by simp) status observer record
  constructor
  · intro ⟨d, hd, hobserver⟩
    obtain ⟨key, hlive, hlookup⟩ := (hsorted d.record).mp ⟨d, hd, hobserver, rfl⟩
    exact ⟨key, (lookup_isSome_iff _ key).mp ⟨d.record, hlookup⟩, hlive⟩
  · intro ⟨key, hkey, hlive⟩
    obtain ⟨record, hlookup⟩ := (lookup_isSome_iff _ key).mpr hkey
    obtain ⟨d, hd, hobserver, -⟩ := (hsorted record).mpr ⟨key, hlive, hlookup⟩
    exact ⟨d, hd, hobserver⟩

end

structure Change (β : Type) (bundleName sessionId : Text) where
  entries : List (Entry β)
  saved : ∀ e ∈ entries, e.SavedUnder bundleName sessionId

section

variable {β : Type} {bundleName sessionId : Text}

def Change.changedData (change : Change β bundleName sessionId) : ObjectRecord β :=
  change.entries.map fun e => (e.key, e.value)

theorem notify_confined_iff (unmarshall : β → SaveInfo) (calls : List CallbackCall)
    (change : Change β bundleName sessionId) (status : StatusMap) :
    (∀ d ∈ (notifyChange unmarshall (registered calls) change.changedData status).1,
        d.observer.bundleName = bundleName ∧ d.observer.sessionId = sessionId) ↔
      ∀ item ∈ (registered calls).live,
        objectKey item.2.bundleName item.2.sessionId ∈ announced unmarshall change.changedData →
          item.2.bundleName = bundleName ∧ item.2.sessionId = sessionId := by
  constructor
  · intro h item hitem hkey
    rw [← keyed_registered calls item hitem] at hkey
    obtain ⟨d, hd, hobserver⟩ := (told_iff unmarshall (registered calls) change.changedData status
      item.2).mpr ⟨item.1, hkey, hitem⟩
    rw [← hobserver]
    exact h d hd
  · intro h d hd
    obtain ⟨key, hkey, hlive⟩ := (told_iff unmarshall (registered calls) change.changedData status
      d.observer).mp ⟨d, hd, rfl⟩
    have hkeyed : key = objectKey d.observer.bundleName d.observer.sessionId :=
      keyed_registered calls (key, d.observer) hlive
    rw [hkeyed] at hkey
    exact h (key, d.observer) hlive hkey

end

/-- A save of one title with its save info; values tell the save info from the title. -/
def savedNote (bundleName sessionId : Text) : Change (Option SaveInfo) bundleName sessionId where
  entries :=
    savedEntries "dev".toList bundleName sessionId "local".toList
      { timestamp := "1700000000".toList
        saveInfo :=
          some ⟨bundleName, sessionId, "dev".toList, "local".toList, "1700000000".toList⟩ }
      [("p_title".toList, none)]
  saved := by
    intro e he
    obtain ⟨item, -, rfl⟩ := List.mem_map.mp he
    exact ⟨rfl, rfl⟩

def readNote (value : Option SaveInfo) : SaveInfo := value.getD {}

theorem notify_confined_two_sessions :
    ∀ d ∈ (notifyChange readNote
        (registered [.register ⟨1, "notes".toList, "room".toList⟩ 10 7,
          .register ⟨2, "notes".toList, "hall".toList⟩ 11 8])
        (savedNote "notes".toList "room".toList).changedData fun _ => none).1,
      d.observer.bundleName = "notes".toList ∧ d.observer.sessionId = "room".toList :=
  (notify_confined_iff readNote
    [.register ⟨1, "notes".toList, "room".toList⟩ 10 7,
      .register ⟨2, "notes".toList, "hall".toList⟩ 11 8]
    (savedNote "notes".toList "room".toList) fun _ => none).mpr (by decide)

/-- The session of one bundle starts with the end of the name of another: the observer of
the other bundle is told. -/
theorem notify_tells_other_bundle :
    ((notifyChange readNote
        (registered [.register ⟨1, "notesro".toList, "om".toList⟩ 10 7])
        (savedNote "notes".toList "room".toList).changedData fun _ => none).1.map fun d =>
      (d.observer.proxy, d.record.map fun item => String.ofList item.1)) = [(1, ["p_title"])] ∧
    ¬ ∀ d ∈ (notifyChange readNote
        (registered [.register ⟨1, "notesro".toList, "om".toList⟩ 10 7])
        (savedNote "notes".toList "room".toList).changedData fun _ => none).1,
      d.observer.bundleName = "notes".toList ∧ d.observer.sessionId = "room".toList := by
  constructor <;> decide

end DataMgr.Object
