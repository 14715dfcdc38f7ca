import DataMgr.Object.ObjectStore

/-! # Isolation in the object store

Operations on one application or session select entries by a prefix of the key. An
application or session is kept apart from another one exactly if none of the other's keys
starts with that prefix, nor with the prefix of the session that is evicted. Names without
the separator are kept apart unless one extends the other.
-/

namespace DataMgr.Object

open DataMgr.Foundation PrefixStore Entry

section

variable {β : Type} {store : List (Entry β)} {start : Text} {e : Entry β}

theorem revokeSaveToStore_store (io : RevokeIO) (store : List (Entry β)) (start : Text) :
    (revokeSaveToStore io store start).2 = store ∨
      (revokeSaveToStore io store start).2 =
        deleteKeys key ((under key start store).map key) store := by
  unfold revokeSaveToStore getEntries
  dsimp only
  split
  · exact .inl rfl
  split
  · exact .inl rfl
  · exact .inl rfl
  rename_i entries hread
  split at hread
  · cases hread
  split at hread
  · cases hread
  cases hread
  split
  · exact .inl rfl
  · split
    · exact .inl rfl
    · exact .inr rfl

theorem mem_revokeSaveToStore (io : RevokeIO) (hmem : e ∈ store) (hkey : ¬ start <+: e.key) :
    e ∈ (revokeSaveToStore io store start).2 := by
  rcases revokeSaveToStore_store io store start with hsame | hdeleted
  · rw [hsame]
    exact hmem
  · rw [hdeleted]
    exact mem_deleteKeys_under.mpr ⟨hmem, hkey⟩

theorem mem_of_mem_revokeSaveToStore {io : RevokeIO}
    (h : e ∈ (revokeSaveToStore io store start).2) : e ∈ store := by
  rcases revokeSaveToStore_store io store start with hsame | hdeleted
  · rwa [hsame] at h
  · rw [hdeleted] at h
    exact (mem_deleteKeys.mp h).1

theorem not_mem_revokeSaveToStore (hkey : start <+: e.key) :
    e ∉ (revokeSaveToStore {} store start).2 := by
  intro hleft
  have hstore := mem_of_mem_revokeSaveToStore hleft
  have hread : under key start store ≠ [] :=
    List.ne_nil_of_mem (mem_under.mpr ⟨hstore, hkey⟩)
  have hdeleted : (revokeSaveToStore {} store start).2 =
      deleteKeys key ((under key start store).map key) store := by
    simp [revokeSaveToStore, getEntries, hread]
  rw [hdeleted] at hleft
  exact (mem_deleteKeys_under.mp hleft).2 hkey

end

section

variable {β : Type} {store : List (Entry β)} {appId : Text} {e : Entry β}

def countedSessions (store : List (Entry β)) (appId : Text) : OldSessions :=
  oldSessions (under key appId store)

def Evicts (store : List (Entry β)) (appId : Text) : Prop :=
  maxObjectSizePerApp ≤ (countedSessions store appId).sessionIds.length

instance (store : List (Entry β)) (appId : Text) : Decidable (Evicts store appId) :=
  inferInstanceAs (Decidable (_ ≤ _))

theorem mem_processOldEntry (io : OldEntryIO) (hmem : e ∈ store)
    (hkey : Evicts store appId → ¬ (countedSessions store appId).deleteKey <+: e.key) :
    e ∈ processOldEntry io store appId := by
  unfold processOldEntry getEntries
  dsimp only
  split
  · exact hmem
  split
  · rename_i entries hread
    split at hread
    · cases hread
    obtain ⟨-, rfl⟩ := Prod.mk.inj hread
    split
    · exact hmem
    · rename_i hlimit
      exact mem_revokeSaveToStore io.revoke hmem (hkey (Nat.not_lt.mp hlimit))
  · exact hmem

theorem evicts_ne_nil (h : Evicts store appId) : under key appId store ≠ [] := by
  intro hnil
  unfold Evicts countedSessions at h
  rw [hnil] at h
  simp [oldSessions, maxObjectSizePerApp] at h

theorem not_mem_processOldEntry (h : Evicts store appId)
    (hkey : (countedSessions store appId).deleteKey <+: e.key) :
    e ∉ processOldEntry {} store appId := by
  have hread := evicts_ne_nil h
  have hlimit : ¬ (oldSessions (under key appId store)).sessionIds.length <
      maxObjectSizePerApp := Nat.not_lt.mpr h
  have hstore : processOldEntry {} store appId =
      (revokeSaveToStore {} store (countedSessions store appId).deleteKey).2 := by
    simp [processOldEntry, getEntries, hread, hlimit, countedSessions]
  rw [hstore]
  exact not_mem_revokeSaveToStore hkey

end

section

variable {β : Type}

/-- What is done for one application leaves the entries of another one alone. -/
structure AppIsolated (store : List (Entry β)) (appId other : Text) : Prop where
  deleted : ∀ opens io, ∀ e ∈ store, e.bundleName = other →
    e ∈ (deleteByAppId opens io store appId).2
  evicted : ∀ io, ∀ e ∈ store, e.bundleName = other → e ∈ processOldEntry io store appId
  counted : (countedSessions store appId).sessionIds =
    (countedSessions (store.filter fun e => e.bundleName ≠ other) appId).sessionIds

variable {appId other : Text}

theorem appIsolated_of_keys {store : List (Entry β)}
    (hkeys : ∀ e ∈ store, e.bundleName = other → ¬ appId <+: e.key)
    (hevicted : Evicts store appId → ∀ e ∈ store, e.bundleName = other →
      ¬ (countedSessions store appId).deleteKey <+: e.key) :
    AppIsolated store appId other := by
  constructor
  · intro opens io e hmem hother
    unfold deleteByAppId
    split
    · exact hmem
    · exact mem_revokeSaveToStore io hmem (hkeys e hmem hother)
  · intro io e hmem hother
    exact mem_processOldEntry io hmem fun hevicts => hevicted hevicts e hmem hother
  · unfold countedSessions
    rw [under_filter]
    intro e hmem hkeep
    exact hkeys e hmem (by simpa using hkeep)

theorem app_isolation_iff (store : List (Entry β)) (appId other : Text) :
    AppIsolated store appId other ↔
      (∀ e ∈ store, e.bundleName = other → ¬ appId <+: e.key) ∧
      (Evicts store appId → ∀ e ∈ store, e.bundleName = other →
        ¬ (countedSessions store appId).deleteKey <+: e.key) := by
  constructor
  · intro h
    refine ⟨?_, ?_⟩
    · intro e hmem hother hkey
      exact not_mem_revokeSaveToStore hkey (h.deleted true {} e hmem hother)
    · intro hevicts e hmem hother hkey
      exact not_mem_processOldEntry hevicts hkey (h.evicted {} e hmem hother)
  · intro ⟨hkeys, hevicted⟩
    exact appIsolated_of_keys hkeys hevicted

def savedTitle (bundleName sessionId : String) : List (Entry Nat) :=
  [{ bundleName := bundleName.toList, sessionId := sessionId.toList, sourceDeviceId := "dev".toList
     targetDeviceId := "local".toList, timestamp := "1700000000".toList
     propertyName := "p_title".toList, value := 7 }]

theorem app_isolation_of_mail :
    AppIsolated (savedTitle "com.notes.pro" "s1") "com.mail".toList "com.notes.pro".toList := by
  refine (app_isolation_iff (savedTitle "com.notes.pro" "s1") "com.mail".toList
    "com.notes.pro".toList).mpr ⟨by decide, ?_⟩
  intro hevicts
  exact absurd hevicts (by decide)

/-- Deleting the entries of one application deletes those of an application whose name
extends its name, and they count as its sessions. -/
theorem app_deletes_extended_name :
    (deleteByAppId true {} (savedTitle "com.notes.pro" "s1") "com.notes".toList).2 = [] ∧
    (countedSessions (savedTitle "com.notes.pro" "s1") "com.notes".toList).sessionIds.length = 1 ∧
    ¬ AppIsolated (savedTitle "com.notes.pro" "s1") "com.notes".toList "com.notes.pro".toList := by
  refine ⟨by decide, by decide, ?_⟩
  intro h
  have hkept := h.deleted true {} _ (List.mem_singleton_self _) rfl
  revert hkept
  decide

theorem isPrefix_of_not_mem {name rest : Text} (h : seperator ∉ name)
    (hkey : name <+: other ++ seperator :: rest) : name <+: other := by
  by_cases hlen : name.length ≤ other.length
  · exact List.prefix_of_prefix_length_le hkey (List.prefix_append other _) hlen
  have hlong : other ++ [seperator] <+: name := by
    refine List.prefix_of_prefix_length_le ⟨rest, by simp⟩ hkey ?_
    rw [List.length_append, List.length_singleton]
    omega
  exact absurd (hlong.subset (by simp)) h

theorem seperator_of_matchesTime {c : Char} {rest : Text} (h : matchesTime (c :: rest) = true) :
    c = seperator := by
  unfold matchesTime at h
  split at h
  · rename_i hcons
    cases hcons
    rfl
  · cases h

/-- The first place where the time is matched. -/
theorem searchTime_eq_some_iff {text beforeTime fromTime : Text} :
    searchTime text = some (beforeTime, fromTime) ↔
      text = beforeTime ++ seperator :: fromTime ∧ matchesTime (seperator :: fromTime) = true ∧
        ∀ i < beforeTime.length, matchesTime (text.drop i) = false := by
  induction text generalizing beforeTime with
  | nil => simp [searchTime]
  | cons c rest ih =>
      rw [searchTime]
      by_cases hmatch : matchesTime (c :: rest) = true
      · cases beforeTime with
        | nil =>
            have hc := seperator_of_matchesTime hmatch
            subst hc
            simp only [hmatch, if_true, Option.some.injEq, Prod.mk.injEq, List.nil_append]
            constructor
            · rintro ⟨-, rfl⟩
              simp [hmatch]
            · simp_all
        | cons d before =>
            simp only [hmatch, if_true]
            refine iff_of_false (by simp) fun hspec => ?_
            have hfirst := hspec.2.2 0 (Nat.zero_lt_succ _)
            simp [hmatch] at hfirst
      · rw [if_neg hmatch]
        cases beforeTime with
        | nil =>
            refine iff_of_false (by simp) fun hspec => hmatch ?_
            rw [hspec.1]
            exact hspec.2.1
        | cons d before =>
            have hshift :
                (searchTime rest).map (fun x => (c :: x.1, x.2)) = some (d :: before, fromTime) ↔
                  c = d ∧ searchTime rest = some (before, fromTime) := by
              cases searchTime rest with
              | none => simp
              | some pair => simp [Prod.ext_iff, and_assoc]
            rw [hshift, ih, List.cons_append, List.cons.injEq, List.length_cons,
              Nat.forall_lt_succ_left]
            simp [hmatch, and_assoc]

theorem splitLast_eq_none_iff {text : Text} : splitLast text = none ↔ seperator ∉ text := by
  induction text with
  | nil => simp [splitLast]
  | cons c rest ih =>
      rw [splitLast]
      cases hrest : splitLast rest with
      | none =>
          rw [hrest] at ih
          by_cases hc : c = seperator
          · simp [hc]
          · simp [hc, Ne.symm hc, ih.mp rfl]
      | some pair =>
          have hmem : seperator ∈ rest := by
            by_contra hnot
            exact nomatch hrest.symm.trans (ih.mpr hnot)
          simp [hmem]

theorem splitLast_append {before after : Text} (h : seperator ∉ after) :
    splitLast (before ++ seperator :: after) = some (before, after) := by
  induction before with
  | nil => simp [splitLast, splitLast_eq_none_iff.mpr h]
  | cons c before ih => rw [List.cons_append, splitLast, ih]

theorem splitLast_eq_some_iff {text before after : Text} :
    splitLast text = some (before, after) ↔
      text = before ++ seperator :: after ∧ seperator ∉ after := by
  constructor
  · intro h
    induction text generalizing before with
    | nil => cases h
    | cons c rest ih =>
        rw [splitLast] at h
        split at h
        · rename_i before' after' hrest
          cases h
          rw [(ih hrest).1, List.cons_append]
          exact ⟨rfl, (ih hrest).2⟩
        · rename_i hrest
          split at h
          · rename_i hc
            cases h
            exact ⟨by rw [hc, List.nil_append], splitLast_eq_none_iff.mp hrest⟩
          · cases h
  · rintro ⟨rfl, hafter⟩
    exact splitLast_append hafter

/-- The text before the time is that of the fields. -/
theorem of_splitEntryKey {key : Text} {splitKeys : SplitKeys}
    (h : splitEntryKey key = some splitKeys) :
    seperator ∉ splitKeys.sessionId ∧ ∃ fromTime, searchTime key =
      some (((splitKeys.bundleName ++ seperator :: splitKeys.sessionId) ++
        seperator :: splitKeys.sourceDeviceUdid) ++ seperator :: splitKeys.targetDevice,
        fromTime) := by
  unfold splitEntryKey at h
  simp only [Option.bind_eq_bind, Option.bind_eq_some_iff, Prod.exists] at h
  obtain ⟨beforeTime, fromTime, htime, beforeTarget, target, htarget, beforeSource, source,
    hsource, bundle, session, hsession, time, name, -, heq⟩ := h
  cases heq
  rw [splitLast_eq_some_iff] at htarget hsource hsession
  rw [htarget.1, hsource.1, hsession.1] at htime
  exact ⟨hsession.2, fromTime, htime⟩

/-- The prefix to delete is that of a session read from one of the entries. -/
def OldSessions.FoundIn (entries : List (Entry β)) (old : OldSessions) : Prop :=
  old.sessionIds = [] ∧ old.oldestTime = 0 ∨
    ∃ entry ∈ entries, ∃ splitKeys, splitEntryKey entry.key = some splitKeys ∧
      old.deleteKey = getPrefixWithoutDeviceId splitKeys.bundleName splitKeys.sessionId

theorem OldSessions.FoundIn.add {entries : List (Entry β)} {old : OldSessions}
    (h : old.FoundIn entries) {entry : Entry β} (hmem : entry ∈ entries) :
    (old.add entry.key).FoundIn entries := by
  unfold OldSessions.add
  split
  · exact h
  rename_i splitKeys hsplit
  extract_lets sessionIds time
  split
  · exact .inr ⟨entry, hmem, splitKeys, hsplit, rfl⟩
  rename_i hkept
  rcases h with ⟨-, hzero⟩ | hfound
  · exact absurd (.inl hzero) hkept
  · exact .inr hfound

theorem oldSessions_foundIn (entries : List (Entry β)) : (oldSessions entries).FoundIn entries := by
  refine List.foldlRecOn entries _ (.inl ⟨rfl, rfl⟩) ?_
  intro old hold entry hmem
  exact hold.add hmem

/-- The session that is evicted for a name without the separator is one whose keys start
with that name. -/
theorem deleteKey_extends {store : List (Entry β)} (hname : seperator ∉ appId)
    (h : Evicts store appId) : appId <+: (countedSessions store appId).deleteKey := by
  rcases oldSessions_foundIn (under key appId store) with ⟨hnil, -⟩ | hfound
  · unfold Evicts countedSessions at h
    rw [hnil] at h
    exact absurd h (by decide)
  obtain ⟨entry, hmem, splitKeys, hsplit, hdelete⟩ := hfound
  obtain ⟨-, fromTime, htime⟩ := of_splitEntryKey hsplit
  have hstart := (mem_under.mp hmem).2
  rw [(searchTime_eq_some_iff.mp htime).1] at hstart
  simp only [List.append_assoc, List.cons_append] at hstart
  rw [countedSessions, hdelete]
  refine (isPrefix_of_not_mem hname hstart).trans ?_
  exact ⟨[seperator] ++ splitKeys.sessionId ++ [seperator], by simp [getPrefixWithoutDeviceId]⟩

theorem appIsolated_of_name (store : List (Entry β)) (hname : seperator ∉ appId)
    (hother : ¬ appId <+: other) : AppIsolated store appId other := by
  have hkeys : ∀ e ∈ store, e.bundleName = other → ¬ appId <+: e.key := by
    intro e _ hbundle hkey
    rw [key, getPropertyPrefix, hbundle] at hkey
    simp only [List.append_assoc, List.cons_append] at hkey
    exact hother (isPrefix_of_not_mem hname hkey)
  refine appIsolated_of_keys hkeys ?_
  intro hevicts e hmem hbundle hkey
  exact hkeys e hmem hbundle ((deleteKey_extends hname hevicts).trans hkey)

def sixteenSessions : List (Entry Nat) :=
  savedTitle "notes" "s" ++
    (List.range 16).flatMap fun i => savedTitle "mail" (String.ofList (List.replicate (i + 1) 's'))

theorem appIsolated_of_name_mail :
    Evicts sixteenSessions "mail".toList ∧
      AppIsolated sixteenSessions "mail".toList "notes".toList :=
  ⟨by unfold Evicts; decide +kernel, appIsolated_of_name _ (by decide) (by decide)⟩

end

section

variable {β : Type} {store : List (Entry β)} {bundleName sessionId : Text} {e : Entry β}

variable {item : Text × Entry β}

theorem mem_foldl_add {entries : List (Entry β)} {results : Results β}
    (h : item ∈ entries.foldl Results.add results) : item ∈ results ∨ item.2 ∈ entries := by
  induction entries generalizing results with
  | nil => exact .inl h
  | cons entry rest ih =>
      rcases ih h with hadd | hrest
      · unfold Results.add at hadd
        split at hadd
        · exact .inl hadd
        split at hadd
        · exact .inl hadd
        rcases List.mem_append.mp hadd with hold | hnew
        · exact .inl (List.mem_of_mem_filter hold)
        · rw [List.mem_singleton.mp hnew]
          exact .inr List.mem_cons_self
      · exact .inr (List.mem_cons_of_mem entry hrest)

theorem mem_retrieveFromStore {isOpen readFails : Bool}
    (h : item ∈ (retrieveFromStore isOpen readFails store bundleName sessionId).2) :
    item.2 ∈ under key (getPrefixWithoutDeviceId bundleName sessionId) store := by
  unfold retrieveFromStore getEntries at h
  split at h
  · cases h
  split at h
  · cases h
  · cases h
  rename_i entries hread
  split at hread
  · cases hread
  obtain ⟨-, rfl⟩ := Prod.mk.inj hread
  rcases mem_foldl_add h with hnil | hmem
  · cases hnil
  · exact hmem

theorem retrieve_results (io : RetrieveIO)
    (h : item ∈ (retrieve io store bundleName sessionId).2.1) :
    item.2 ∈ under key (getPrefixWithoutDeviceId bundleName sessionId) store := by
  unfold retrieve at h
  split at h
  · cases h
  split at h
  · rename_i results hread
    split at h
    · have hitem :
          item ∈ (retrieveFromStore io.isOpen io.readFails store bundleName sessionId).2 := by
        rw [hread]
        exact h
      exact mem_retrieveFromStore hitem
    · cases h
  · cases h

theorem retrieve_store (io : RetrieveIO) (store : List (Entry β)) (bundleName sessionId : Text) :
    (retrieve io store bundleName sessionId).2.2 = store ∨
      (retrieve io store bundleName sessionId).2.2 =
        (revokeSaveToStore io.revoke store (getPrefixWithoutDeviceId bundleName sessionId)).2 := by
  unfold retrieve
  split
  · exact .inl rfl
  split
  · split
    · rename_i hrevoke
      rw [hrevoke]
      exact .inr rfl
    · rename_i hrevoke
      rw [hrevoke]
      exact .inr rfl
  · exact .inl rfl

theorem getPropertyPrefix_extends (udid appId sessionId toDeviceId : Text) :
    getPrefixWithoutDeviceId appId sessionId <+:
      getPropertyPrefix udid appId sessionId toDeviceId :=
  ⟨udid ++ [seperator] ++ toDeviceId ++ [seperator], by
    simp [getPrefixWithoutDeviceId, getPropertyPrefix]⟩

theorem key_extends (e : Entry β) :
    getPrefixWithoutDeviceId e.bundleName e.sessionId <+: e.key := by
  refine (getPropertyPrefix_extends e.sourceDeviceId e.bundleName e.sessionId
    e.targetDeviceId).trans ?_
  exact ⟨e.timestamp ++ [seperator] ++ e.propertyName, by simp [key]⟩

theorem mem_saveToStore (udid : Text) (io : SaveIO β) (toDeviceId : Text) (data : List (Text × β))
    (hmem : e ∈ store) (hkey : ¬ getPrefixWithoutDeviceId bundleName sessionId <+: e.key)
    (hevicted : Evicts store bundleName →
      ¬ (countedSessions store bundleName).deleteKey <+: e.key) :
    e ∈ (saveToStore udid io store bundleName sessionId toDeviceId data).2 := by
  have hold := mem_processOldEntry io.old hmem hevicted
  have hdevice : ¬ getPropertyPrefix udid bundleName sessionId toDeviceId <+: e.key := fun h =>
    hkey ((getPropertyPrefix_extends udid bundleName sessionId toDeviceId).trans h)
  have hrevoked := mem_revokeSaveToStore io.revoke hold hdevice
  unfold saveToStore
  split
  · exact hrevoked
  split
  · exact hrevoked
  · refine mem_putBatch_of_mem hrevoked ?_
    intro new hnew hsame
    have hnewKey := key_extends new
    obtain ⟨item, -, rfl⟩ := List.mem_map.mp hnew
    exact hkey (hsame ▸ hnewKey)

/-- What is done for one session of a bundle leaves the entries of another one alone. -/
structure SessionIsolated (store : List (Entry β)) (bundleName sessionId other : Text) : Prop where
  retrieved : ∀ io, ∀ item ∈ (retrieve io store bundleName sessionId).2.1,
    ¬ item.2.SavedUnder bundleName other
  keptByRetrieve : ∀ io, ∀ e ∈ store, e.SavedUnder bundleName other →
    e ∈ (retrieve io store bundleName sessionId).2.2
  keptByRevoke : ∀ opens io, ∀ e ∈ store, e.SavedUnder bundleName other →
    e ∈ (revokeSave opens io store bundleName sessionId).2
  keptBySave : ∀ udid io toDeviceId data, ∀ e ∈ store, e.SavedUnder bundleName other →
    e ∈ (saveToStore udid io store bundleName sessionId toDeviceId data).2
  keptBySync : ∀ udid opens io toDeviceId, ∀ e ∈ store, e.SavedUnder bundleName other →
    e ∈ processSyncCallback udid opens io store bundleName sessionId toDeviceId

theorem session_isolation_iff (store : List (Entry β)) (bundleName sessionId other : Text) :
    SessionIsolated store bundleName sessionId other ↔
      (∀ e ∈ store, e.SavedUnder bundleName other →
        ¬ getPrefixWithoutDeviceId bundleName sessionId <+: e.key) ∧
      (Evicts store bundleName → ∀ e ∈ store, e.SavedUnder bundleName other →
        ¬ (countedSessions store bundleName).deleteKey <+: e.key) := by
  constructor
  · intro h
    refine ⟨?_, ?_⟩
    · intro e hmem hsaved hkey
      exact not_mem_revokeSaveToStore hkey (h.keptByRevoke true {} e hmem hsaved)
    · intro hevicts e hmem hsaved hkey
      have hkept := h.keptBySave []
        { revoke := { isOpen := false }, isOpen := false, timestamp := [], saveInfo := e.value }
        [] [] e hmem hsaved
      exact not_mem_processOldEntry hevicts hkey hkept
  · intro ⟨hkeys, hevicted⟩
    constructor
    · intro io item hitem hsaved
      obtain ⟨hmem, hkey⟩ := mem_under.mp (retrieve_results io hitem)
      exact hkeys item.2 hmem hsaved hkey
    · intro io e hmem hsaved
      rcases retrieve_store io store bundleName sessionId with hsame | hrevoked
      · rw [hsame]
        exact hmem
      · rw [hrevoked]
        exact mem_revokeSaveToStore io.revoke hmem (hkeys e hmem hsaved)
    · intro opens io e hmem hsaved
      unfold revokeSave
      split
      · exact hmem
      · exact mem_revokeSaveToStore io hmem (hkeys e hmem hsaved)
    · intro udid io toDeviceId data e hmem hsaved
      exact mem_saveToStore udid io toDeviceId data hmem (hkeys e hmem hsaved)
        fun hevicts => hevicted hevicts e hmem hsaved
    · intro udid opens io toDeviceId e hmem hsaved
      unfold processSyncCallback
      split
      · exact hmem
      · refine mem_revokeSaveToStore io hmem fun h => hkeys e hmem hsaved ?_
        exact (getPropertyPrefix_extends udid bundleName sessionId toDeviceId).trans h

theorem session_isolation_of_hall :
    SessionIsolated (savedTitle "com.notes" "room") "com.notes".toList "hall".toList
      "room".toList := by
  refine (session_isolation_iff (savedTitle "com.notes" "room") "com.notes".toList "hall".toList
    "room".toList).mpr ⟨?_, ?_⟩
  · intro e hmem _
    rw [List.mem_singleton.mp hmem]
    decide
  · intro hevicts
    exact absurd hevicts (by decide)

/-- A session whose id goes on with the separator is returned and deleted as if it were
the shorter one. -/
theorem session_takes_extended_id :
    ((retrieve {} (savedTitle "com.notes" "room_2") "com.notes".toList "room".toList).2.1.map
        fun item => (String.ofList item.1, String.ofList item.2.sessionId)) =
      [("p_title", "room_2")] ∧
    (revokeSave true {} (savedTitle "com.notes" "room_2") "com.notes".toList "room".toList).2 = [] ∧
    ¬ SessionIsolated (savedTitle "com.notes" "room_2") "com.notes".toList "room".toList
        "room_2".toList := by
  refine ⟨by decide, by decide, ?_⟩
  intro h
  have hkept := h.keptByRevoke true {} _ (List.mem_singleton_self _) ⟨rfl, rfl⟩
  revert hkept
  decide

end

end DataMgr.Object
