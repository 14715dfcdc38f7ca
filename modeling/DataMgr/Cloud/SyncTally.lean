import DataMgr.Cloud.SyncRecords

/-! # Every record is saved once

The records made are the records saved and the records still there. A task that makes
a record finds none of its request there, unless it has made it itself a moment ago.
-/

namespace DataMgr.Cloud

open DataMgr.Foundation DataMgr.Store

def BookState.present (s : BookState) (key : QueryKey) (syncId : UInt64) : Nat :=
  if s.infos key syncId = none then 0 else 1

structure TallyInv (env : CloudEnv) (s : BookState) : Prop where
  tally : ∀ key syncId, s.saves key syncId + s.present key syncId = s.recordings key syncId
  single : (s.running.map (·.syncId)).Nodup
  alone : ∀ e ∈ s.running, e.starts ≠ [] → ∀ event ∈ s.callbacks, event.storeInfo.syncId ≠ e.syncId
  fresh : ∀ e ∈ s.running, e.starts ≠ [] → ∀ key, s.infos key e.syncId ≠ none ↔ key ∈ e.started

open BookState

section

variable {env : CloudEnv} {s : BookState}

theorem recordings_apply_start (key key' : QueryKey) (syncId syncId' : UInt64) (time : Int)
    (again : Bool) :
    (s.apply env (.start key syncId time again)).recordings key' syncId' =
      s.recordings key' syncId' +
        if key' = key ∧ syncId' = syncId ∧ again = false then 1 else 0 := by
  cases again with
  | true => simp [apply, recordings]
  | false =>
      simp only [apply, recordings, Bool.false_eq_true, if_false,
        List.countP_cons, Bool.and_eq_true, decide_eq_true_eq, and_true]
      congr 1
      simp only [eq_comm]

theorem tally_start (env : CloudEnv) {key : QueryKey} {syncId : UInt64} (time : Int)
    {again : Bool}
    (htally : ∀ key syncId, s.saves key syncId + s.present key syncId = s.recordings key syncId)
    (hagain : again = true ↔ s.infos key syncId ≠ none) (key' : QueryKey) (syncId' : UInt64) :
    (s.apply env (.start key syncId time again)).saves key' syncId' +
      (s.apply env (.start key syncId time again)).present key' syncId' =
        (s.apply env (.start key syncId time again)).recordings key' syncId' := by
  have hold := htally key' syncId'
  rw [recordings_apply_start]
  have hsaves : (s.apply env (.start key syncId time again)).saves key' syncId' =
      s.saves key' syncId' := rfl
  rw [hsaves]
  by_cases hkey : key' = key ∧ syncId' = syncId
  · obtain ⟨rfl, rfl⟩ := hkey
    have hthere : (s.apply env (.start key' syncId' time again)).infos key' syncId' ≠ none :=
      apply_start_infos env key' syncId' time again
    simp only [present, if_neg hthere] at hold ⊢
    cases again with
    | true =>
        rw [if_neg (hagain.mp rfl)] at hold
        simpa using hold
    | false =>
        have hnone : s.infos key' syncId' = none := by
          by_contra hne
          exact absurd (hagain.mpr hne) Bool.false_ne_true
        rw [if_pos hnone] at hold
        simpa using hold
  · have hnot : ¬ (key' = key ∧ syncId' = syncId ∧ again = false) := fun h => hkey ⟨h.1, h.2.1⟩
    simp only [present, apply_start_infos_other time again hkey, if_neg hnot] at hold ⊢
    exact hold

theorem saves_apply_finish (key key' : QueryKey) (syncId syncId' : UInt64) (code : GeneralError) :
    (s.apply env (.finish key syncId code)).saves key' syncId' =
      s.saves key' syncId' +
        if key' = key ∧ syncId' = syncId ∧ needSaveSyncInfo env key = true ∧
          s.infos key syncId ≠ none then 1 else 0 := by
  simp only [apply, saves, savedInfo]
  by_cases hsave : needSaveSyncInfo env key = true
  · cases hinfo : s.infos key syncId with
    | none => simp [hsave]
    | some info =>
        simp only [hsave, if_true, Option.map_some, List.countP_cons, Bool.and_eq_true,
          decide_eq_true_eq, ne_eq, reduceCtorEq, not_false_eq_true, and_true]
        congr 1
        simp only [eq_comm]
  · simp [hsave]

theorem tally_finish {key : QueryKey} {syncId : UInt64} (code : GeneralError)
    (htally : ∀ key syncId, s.saves key syncId + s.present key syncId = s.recordings key syncId)
    (hkept : s.infos key syncId ≠ none → needSaveSyncInfo env key = true)
    (hexpire : ∀ other info, other ≠ syncId → s.infos key other = some info →
      s.now - info.startTime < expirationTime) (key' : QueryKey) (syncId' : UInt64) :
    (s.apply env (.finish key syncId code)).saves key' syncId' +
      (s.apply env (.finish key syncId code)).present key' syncId' =
        (s.apply env (.finish key syncId code)).recordings key' syncId' := by
  have hold := htally key' syncId'
  have hrecordings : (s.apply env (.finish key syncId code)).recordings key' syncId' =
      s.recordings key' syncId' := rfl
  rw [saves_apply_finish, hrecordings, ← hold]
  by_cases hkey : key' = key ∧ syncId' = syncId
  · obtain ⟨rfl, rfl⟩ := hkey
    by_cases hnone : s.infos key' syncId' = none
    · have hafter : (s.apply env (.finish key' syncId' code)).infos key' syncId' = none := by
        by_contra hne
        rcases apply_infos_ne_none hne with hne | ⟨time, again, hstart⟩
        · exact hne hnone
        · cases hstart
      simp [present, hnone, hafter]
    · have hafter := apply_finish_infos (s := s) code syncId' (hkept hnone)
      simp [present, hnone, hafter, hkept hnone]
  · have hnot : ¬ (key' = key ∧ syncId' = syncId ∧ needSaveSyncInfo env key = true ∧
        s.infos key syncId ≠ none) := fun h => hkey ⟨h.1, h.2.1⟩
    rw [if_neg hnot]
    simp only [present, apply_finish_infos_other code hexpire hkey, Nat.add_zero]

theorem apply_infos_other {effect : Effect} {mine other : UInt64} (hne : other ≠ mine)
    (hstart : ∀ key id time again, effect = .start key id time again → id = mine)
    (hfinish : ∀ key id code, effect = .finish key id code → id = mine ∧
      ∀ other info, other ≠ id → s.infos key other = some info →
        s.now - info.startTime < expirationTime) (key : QueryKey) :
    (s.apply env effect).infos key other = s.infos key other := by
  cases effect with
  | nothing => rfl
  | start key' id time again =>
      refine apply_start_infos_other time again fun h => hne ?_
      exact h.2.trans (hstart key' id time again rfl)
  | finish key' id code =>
      obtain ⟨hid, hexpire⟩ := hfinish key' id code rfl
      exact apply_finish_infos_other code hexpire fun h => hne (h.2.trans hid)

end

namespace TallyInv

variable {env : CloudEnv} {s : BookState}

theorem of_run (h : TallyInv env s) (hbook : BookInv env s) {info : SyncInfo} {retry : Bool}
    {answers : TaskAnswers} (hidle : s.Idle info.syncId) :
    TallyInv env { s with running := runSyncTask env s.now info retry answers :: s.running } := by
  constructor
  · exact h.tally
  · refine List.nodup_cons.mpr ⟨fun hmem => ?_, h.single⟩
    obtain ⟨e, he, hid⟩ := List.mem_map.mp hmem
    exact hidle.1 e he hid
  · intro e he hstarts
    rcases List.mem_cons.mp he with rfl | he
    · exact hidle.2
    · exact h.alone e he hstarts
  · intro e he hstarts key
    rcases List.mem_cons.mp he with rfl | he
    · constructor
      · intro hne
        exact absurd (hbook.settled hidle key) hne
      · intro hmem
        cases hmem
    · exact h.fresh e he hstarts key

variable {i : Nat} {s' : BookState} (h : TallyInv env s)

include h

theorem single_advance {e : Running} (hi : s.running[i]? = some e) {rest : Option Running}
    (hrest : ∀ r, rest = some r → r.syncId = e.syncId) :
    ((advance s.running i rest).map (·.syncId)).Nodup := by
  cases rest with
  | none => exact h.single.sublist ((List.eraseIdx_sublist s.running i).map _)
  | some r =>
      have hmap : (s.running.set i r).map (·.syncId) = s.running.map (·.syncId) := by
        refine List.ext_getElem? fun j => ?_
        by_cases hj : i = j
        · subst hj
          obtain ⟨hlt, he⟩ := List.getElem?_eq_some_iff.mp hi
          simp [hlt, he, hrest r rfl]
        · simp [List.getElem?_set_ne hj]
      rw [advance, hmap]
      exact h.single

theorem starting_advance {e : Running} (hi : s.running[i]? = some e)
    {next : Effect × Option Running × List SyncEvent} (hspec : NextSpec env e next) {f : Running}
    (hf : f ∈ advance s.running i next.2.1) (hstarts : f.starts ≠ []) :
    next.2.1 = some f ∨ f ∈ s.running ∧ f.syncId ≠ e.syncId := by
  rcases mem_advance hf with hrest | hold
  · exact .inl hrest
  by_cases hid : f.syncId = e.syncId
  · cases hnext : next.2.1 with
    | none =>
        have hfe := List.inj_on_of_nodup_map h.single hold (List.mem_of_getElem? hi) hid
        obtain ⟨key, starts, hkeys⟩ := List.exists_cons_of_ne_nil (hfe ▸ hstarts)
        rw [hspec.starting key starts hkeys] at hnext
        cases hnext
    | some r =>
        have hr : r ∈ advance s.running i next.2.1 := by
          rw [hnext]
          exact mem_advance_self hi
        have hsingle := h.single_advance hi fun r hr => (hspec.rest r hr).1
        have hfr := List.inj_on_of_nodup_map hsingle hf hr
          (hid.trans (hspec.rest r hnext).1.symm)
        exact .inl (by rw [hfr])
  · exact .inr ⟨hold, hid⟩

theorem of_resume (hbook : BookInv env s) {answers : StoreAnswers}
    (hone : OneAtATime env s (.resume i answers)) (hstep : s.resume env i answers = some s') :
    TallyInv env s' := by
  obtain ⟨e, next, hi, hspec, heffect, rfl⟩ := resume_spec hstep
  have hexpire := hone.2
  rw [heffect] at hexpire
  have hmem : e ∈ s.running := List.mem_of_getElem? hi
  have howned : e.Owned := hbook.owned e hmem
  constructor
  · intro key syncId
    cases hnext : next.1 with
    | nothing => exact h.tally key syncId
    | start key' id time again =>
        obtain ⟨hid, hin, hagain⟩ := hspec.starts howned hnext
        refine tally_start env time h.tally (hagain.trans ?_) key syncId
        rw [hid]
        exact (h.fresh e hmem (List.ne_nil_of_mem hin) key').symm
    | finish key' id code =>
        exact tally_finish code h.tally (hbook.kept key' id) (hexpire key' id code hnext) key
          syncId
  · exact h.single_advance hi fun r hr => (hspec.rest r hr).1
  · intro f hf hstarts event hevent
    rcases h.starting_advance hi hspec hf hstarts with hrest | ⟨hold, hid⟩
    · obtain ⟨key, hbusy, hf, hnext⟩ := hspec.busy hrest hstarts
      rw [(hspec.rest f hrest).1]
      rw [hnext, List.append_nil] at hevent
      exact h.alone e hmem (hbusy ▸ List.cons_ne_nil _ _) event hevent
    · rcases List.mem_append.mp hevent with hevent | hevent
      · exact h.alone f hold hstarts event hevent
      · rw [(howned event (hspec.left event hevent)).1]
        exact hid.symm
  · intro f hf hstarts key
    rcases h.starting_advance hi hspec hf hstarts with hrest | ⟨hold, hid⟩
    · obtain ⟨key', hbusy, hf, hnext⟩ := hspec.busy hrest hstarts
      rw [hnext, hf, List.mem_cons]
      by_cases hkey : key = key'
      · subst hkey
        exact iff_of_true (apply_start_infos env key e.syncId e.startTime (key ∈ e.started))
          (.inl rfl)
      rw [apply_start_infos_other _ _ fun heq => hkey heq.1, or_iff_right hkey]
      exact h.fresh e hmem (hbusy ▸ List.cons_ne_nil _ _) key
    · have hsame : (s.apply env next.1).infos key f.syncId = s.infos key f.syncId := by
        refine apply_infos_other hid ?_ ?_ key
        · intro key' id time again heq
          exact (hspec.starts howned heq).1
        · intro key' id code heq
          exact ⟨hspec.finishes howned heq, hexpire key' id code heq⟩
      rw [hsame]
      exact h.fresh f hold hstarts key

theorem of_callback (hbook : BookInv env s) {j : Nat} {code : GeneralError}
    (hone : OneAtATime env s (.callback j code)) (hstep : s.callback env j code = some s') :
    TallyInv env s' := by
  unfold callback at hstep
  split at hstep
  · cases hstep
  rename_i event hj
  cases hstep
  have hmem : event ∈ s.callbacks := List.mem_of_getElem? hj
  have hexpire := hone.2
  simp only [effect, hj, Option.map_some, Option.getD_some] at hexpire
  unfold SyncEvent.finished at hexpire ⊢
  cases hkey : event.callbackKey env with
  | none =>
      refine ⟨h.tally, h.single, ?_, h.fresh⟩
      intro e he hstarts other hother
      exact h.alone e he hstarts other (List.mem_of_mem_eraseIdx hother)
  | some key =>
      rw [hkey] at hexpire
      have hold := hexpire key event.storeInfo.syncId code rfl
      constructor
      · exact tally_finish code h.tally (hbook.kept key _) hold
      · exact h.single
      · intro e he hstarts other hother
        exact h.alone e he hstarts other (List.mem_of_mem_eraseIdx hother)
      · intro e he hstarts key'
        have hsame : (s.apply env (.finish key event.storeInfo.syncId code)).infos key' e.syncId =
            s.infos key' e.syncId := by
          refine apply_finish_infos_other code hold fun heq => ?_
          exact h.alone e he hstarts event hmem heq.2.symm
        rw [hsame]
        exact h.fresh e he hstarts key'

theorem step (hbook : BookInv env s) {a : BookAction} (hone : OneAtATime env s a)
    (hstep : (bookMachine env).step s a = some s') : TallyInv env s' := by
  cases a with
  | clock now =>
      cases hstep
      exact ⟨h.tally, h.single, h.alone, h.fresh⟩
  | run info retry answers =>
      cases hstep
      exact h.of_run hbook (hone.1 info retry answers rfl)
  | resume i answers => exact h.of_resume hbook hone hstep
  | callback j code => exact h.of_callback hbook hone hstep

omit h

theorem start (env : CloudEnv) (now : Int) : TallyInv env (.start now) := by
  constructor
  · exact fun key syncId => rfl
  · exact List.nodup_nil
  · exact fun e he => absurd he List.not_mem_nil
  · exact fun e he => absurd he List.not_mem_nil

end TallyInv

/-- In every run whose redirected requests post no event, whose tasks visit what they record
and whose queues lose no event: once nothing of a request is in progress, no record of
it is left; and if moreover its executions did not overlap and no record expired, every
store it recorded has been saved exactly once for each execution that recorded it. -/
theorem sync_records_settled (env : CloudEnv) (now : Int) (schedule : List BookAction)
    (s : BookState) (hsteady : (bookMachine env).Guarded (Steady env) (.start now) schedule)
    (hrun : (bookMachine env).exec (.start now) schedule = some s) (syncId : UInt64)
    (hidle : s.Idle syncId) :
    (∀ key, s.infos key syncId = none) ∧
      ((bookMachine env).Guarded (OneAtATime env) (.start now) schedule →
        ∀ key, s.saves key syncId = s.recordings key syncId) := by
  constructor
  · have hbook : BookInv env s := (bookMachine env).exec_guarded_invariant
      (fun _ _ _ h hg hstep => h.step hg hstep) (BookInv.start env now) hsteady hrun
    exact hbook.settled hidle
  · intro hone key
    have hstep : ∀ t a t', BookInv env t ∧ TallyInv env t → Steady env t a ∧ OneAtATime env t a →
        (bookMachine env).step t a = some t' → BookInv env t' ∧ TallyInv env t' := by
      intro t a t' ht hg hta
      exact ⟨ht.1.step hg.1 hta, ht.2.step ht.1 hg.2 hta⟩
    obtain ⟨hbook, htally⟩ := (bookMachine env).exec_guarded_invariant hstep
      ⟨BookInv.start env now, TallyInv.start env now⟩ (hsteady.and hone) hrun
    have hcount := htally.tally key syncId
    rw [present, if_pos (hbook.settled hidle key)] at hcount
    exact hcount

def oneAccount : CloudEnv :=
  { accountId := fun user => if user = 100 then "account" else "", kvApps := [] }

/-- Everything is switched on, and the bundle has one store. -/
def allOn : TaskAnswers :=
  { users := [100]
    cloudFound := true
    schemaStores := some ["notes"]
    cloudLoaded := true
    idMatches := true
    enableCloud := true
    switchedOn := ["app"]
    networkAvailable := true
    verified := true
    schemas := [⟨"app", [⟨"notes", true, .eOk, true⟩]⟩]
    updatedSchemas := [] }

def accepts : StoreAnswers :=
  { hasMeta := true
    opened := true
    enableCloud := true
    conflictHandler := none
    syncStatus := .eOk }

def notesKey : QueryKey := ⟨100, "account", "app", "notes"⟩

def handOver (syncId : UInt64) (user : Int32) : List BookAction :=
  [.run ⟨syncId, user, "app", []⟩ true allOn, .resume 0 accepts, .resume 0 accepts,
    .resume 0 accepts, .resume 0 accepts]

def oneSync (user : Int32) : List BookAction := handOver 1 user ++ [.callback 0 .eOk]

theorem oneSync_steady :
    (bookMachine oneAccount).Guarded (Steady oneAccount) (.start 0) (oneSync 100) := by
  refine (bookMachine oneAccount).guarded_cons ⟨.inl rfl, fun _ _ => by decide +kernel⟩ rfl ?_
  iterate 4
    refine (bookMachine oneAccount).guarded_cons ?_ rfl ?_
    · intro e he _ _ _
      cases he
      decide +kernel
  exact (bookMachine oneAccount).guarded_cons trivial rfl trivial

theorem oneSync_oneAtATime :
    (bookMachine oneAccount).Guarded (OneAtATime oneAccount) (.start 0) (oneSync 100) := by
  refine (bookMachine oneAccount).guarded_cons ⟨?_, ?_⟩ rfl ?_
  · intro info retry answers h
    cases h
    constructor
    · intro e he
      cases he
    · intro event hevent
      cases hevent
  · intro key id code h
    cases h
  iterate 4
    refine (bookMachine oneAccount).guarded_cons ⟨?_, ?_⟩ rfl ?_
    · intro info retry answers h
      cases h
    · intro key id code h
      cases h
  refine (bookMachine oneAccount).guarded_cons ⟨?_, ?_⟩ rfl trivial
  · intro info retry answers h
    cases h
  · intro key id code h other info hne hinfo
    cases h
    have hnone := hinfo.symm.trans (if_neg fun h => hne h.2)
    cases hnone

/-- Witness: one request of user 100 for one store. -/
theorem sync_records_settled_one :
    ∃ s, (bookMachine oneAccount).exec (.start 0) (oneSync 100) = some s ∧ s.Idle 1 ∧
      s.recordings notesKey 1 = 1 ∧ s.infos notesKey 1 = none ∧
      s.saves notesKey 1 = s.recordings notesKey 1 := by
  have hidle : ∀ s, (bookMachine oneAccount).exec (.start 0) (oneSync 100) = some s →
      s.Idle 1 := by
    intro s hs
    have hend := Option.some.inj hs
    subst hend
    constructor
    · intro e he
      cases he
    · intro event hevent
      cases hevent
  have h := sync_records_settled oneAccount 0 (oneSync 100) _ oneSync_steady rfl 1 (hidle _ rfl)
  exact ⟨_, rfl, hidle _ rfl, by decide +kernel, h.1 _, h.2 oneSync_oneAtATime _⟩

/-- A request of user 0 is recorded under user 100 and ended under user 0, so its record
stays. A request executed again before its first store has called back is recorded twice
and saved once. A record that is six hours old goes unsaved when another request ends
the same store. -/
theorem sync_records_left_or_unsaved :
    (∃ s, (bookMachine oneAccount).exec (.start 0) (oneSync 0) = some s ∧ s.Idle 1 ∧
      s.infos notesKey 1 ≠ none ∧ s.saves notesKey 1 = 0) ∧
    (∃ s, (bookMachine oneAccount).exec (.start 0)
        (handOver 1 100 ++ handOver 1 100 ++ [.callback 0 .eOk, .callback 0 .eOk]) = some s ∧
      s.Idle 1 ∧ s.recordings notesKey 1 = 2 ∧ s.saves notesKey 1 = 1) ∧
    ∃ s, (bookMachine oneAccount).exec (.start 0)
        (handOver 1 100 ++ [.clock expirationTime] ++ handOver 2 100 ++
          [.callback 1 .eOk, .callback 0 .eOk]) = some s ∧
      s.Idle 1 ∧ s.recordings notesKey 1 = 1 ∧ s.saves notesKey 1 = 0 := by
  refine ⟨⟨_, rfl, ⟨?_, ?_⟩, ?_, ?_⟩, ⟨_, rfl, ⟨?_, ?_⟩, ?_, ?_⟩, ⟨_, rfl, ⟨?_, ?_⟩, ?_, ?_⟩⟩
  iterate 3
    · intro e he
      cases he
    · intro event hevent
      cases hevent
    · decide +kernel
    · decide +kernel

end DataMgr.Cloud
