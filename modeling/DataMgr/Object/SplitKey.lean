import DataMgr.Object.Isolation

/-! # What a key is split into

`SplitEntryKey` finds the first match of the time and cuts what stands before it at its last
three separators. Nothing in a key is escaped.
-/

namespace DataMgr.Object

variable {β : Type} (e : Entry β)

def Entry.splitKeys : SplitKeys :=
  ⟨e.bundleName, e.sessionId, e.sourceDeviceId, e.targetDeviceId, e.timestamp, e.propertyName⟩

def Entry.beforeTime : Text :=
  ((e.bundleName ++ seperator :: e.sessionId) ++ seperator :: e.sourceDeviceId) ++
    seperator :: e.targetDeviceId

theorem Entry.key_eq :
    e.key = e.beforeTime ++ seperator :: (e.timestamp ++ seperator :: e.propertyName) := by
  simp [Entry.key, Entry.beforeTime, getPropertyPrefix]

theorem splitFirst_append {before : Text} (h : seperator ∉ before) (after : Text) :
    splitFirst (before ++ seperator :: after) = some (before, after) := by
  induction before with
  | nil => simp [splitFirst]
  | cons c before ih =>
      rw [List.mem_cons, not_or] at h
      rw [List.cons_append, splitFirst, if_neg (Ne.symm h.1), ih h.2]
      rfl

theorem seperator_not_mem_of_digits {time : Text} (h : time.all isDigit = true) :
    seperator ∉ time := fun hmem => absurd (List.all_eq_true.mp h _ hmem) (by decide)

theorem matchesTime_time {time name : Text} (htime : time.length = 10)
    (hdigits : time.all isDigit = true) (hname : "p_".toList <+: name) :
    matchesTime (seperator :: (time ++ seperator :: name)) = true := by
  obtain ⟨rest, rfl⟩ := hname
  simp [matchesTime, seperator, ← htime, hdigits]

variable {e}

/-- A key is split into its fields exactly if the session has no separator and the time is not
matched before its place. -/
theorem splitEntryKey_key_iff (hsource : seperator ∉ e.sourceDeviceId)
    (htarget : seperator ∉ e.targetDeviceId) (htime : e.timestamp.length = 10)
    (hdigits : e.timestamp.all isDigit = true) (hname : "p_".toList <+: e.propertyName) :
    splitEntryKey e.key = some e.splitKeys ↔
      seperator ∉ e.sessionId ∧
        ∀ i < e.beforeTime.length, matchesTime (e.key.drop i) = false := by
  have hmatch := matchesTime_time htime hdigits hname
  have hfirst := splitFirst_append (seperator_not_mem_of_digits hdigits) e.propertyName
  constructor
  · intro h
    obtain ⟨hsession, fromTime, hsearch⟩ := of_splitEntryKey h
    exact ⟨hsession, (searchTime_eq_some_iff.mp hsearch).2.2⟩
  · rintro ⟨hsession, hearlier⟩
    have hsearch := searchTime_eq_some_iff.mpr ⟨e.key_eq, hmatch, hearlier⟩
    simp only [splitEntryKey, hsearch, Entry.beforeTime, Option.bind_eq_bind, Option.bind_some,
      splitLast_append htarget, splitLast_append hsource, splitLast_append hsession, hfirst]
    rfl

def noteOf (sessionId : String) : Entry Nat :=
  ⟨"com.notes".toList, sessionId.toList, "dev".toList, "local".toList, "1700000000".toList,
    "p_title".toList, 7⟩

theorem splitEntryKey_key_iff_note :
    splitEntryKey (noteOf "s1").key = some (noteOf "s1").splitKeys :=
  (splitEntryKey_key_iff (by decide) (by decide) (by decide) (by decide) (by decide)).mpr
    ⟨by decide, by decide⟩

/-- Of a session `x_y` only `y` is found, and the rest is taken for the bundle. -/
theorem split_session_cut :
    splitEntryKey (noteOf "x_y").key =
      some { (noteOf "y").splitKeys with bundleName := "com.notes_x".toList } ∧
    splitEntryKey (noteOf "x_y").key ≠ some (noteOf "x_y").splitKeys := by
  decide

end DataMgr.Object
