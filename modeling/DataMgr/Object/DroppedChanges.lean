import DataMgr.Object.AssetRuns

/-! # Remote changes that are dropped

A change that arrives while the machine is busy is kept by the status that waits for the
transfer alone. Leaving that status by an upload or a download forgets it: when the
transfers are over, the machine asks the cloud to synchronise and fetches nothing.
-/

namespace DataMgr.Object

open DataMgr.Foundation
open DataMgr.Cloud (DataAsset)

theorem dfaEffect_remoteChanged (status : TransferStatus) :
    (dfaEffect status .remoteChanged = (.transferring, true) ∧
      (assetDfa status .remoteChanged).after = some .doTransfer) ∨
    (dfaEffect status .remoteChanged = (.waitTransfer, false) ∧
      (assetDfa status .remoteChanged).after = some .saveNewAsset) := by
  cases status <;> decide

theorem dfaEffect_of_ne {event : AssetEvent} (h : event ≠ .remoteChanged)
    (status : TransferStatus) :
    (dfaEffect status event).1 ≠ .waitTransfer ∧
      ((dfaEffect status event).2 = true → status = .waitTransfer) := by
  cases event with
  | remoteChanged => exact absurd rfl h
  | transferFinished | upload | uploadFinished | download | downloadFinished =>
      cases status <;> decide

variable (work : CloudWork)

namespace AssetRun

variable {β : Type} {s s' : AssetRun β}

/-- A transfer of the change, or of one received after it, was started. -/
def Fetched (s : AssetRun β) (change : Nat) : Prop :=
  ∃ transfer ∈ s.started, change ≤ transfer.1 ∧ s.changes[transfer.1]? = some transfer.2

/-- At rest, every change that was only recorded has been fetched. -/
def ChangesKept (s : AssetRun β) : Prop :=
  s.status = .stable → s.bound.outstanding = 0 → ∀ change ∈ s.recorded, s.Fetched change

/-- No upload or download is announced while a change waits. -/
def LeavesWaiting (s : AssetRun β) : AssetRunAction β → Prop
  | .announce .. => s.status ≠ .waitTransfer
  | .change _ | .report _ | .callback .. | .finish => True

instance (s : AssetRun β) (a : AssetRunAction β) : Decidable (s.LeavesWaiting a) :=
  match a with
  | .announce .. => inferInstanceAs (Decidable (s.status ≠ .waitTransfer))
  | .change _ | .report _ | .callback .. | .finish => inferInstanceAs (Decidable True)

/-- What the history says in every run: the record holds the last change, and a change that
waits is the last one and not fetched. -/
structure Tracked (s : AssetRun β) : Prop where
  recorded : ∀ change ∈ s.recorded, change < s.changes.length
  started : ∀ transfer ∈ s.started, s.changes[transfer.1]? = some transfer.2
  latest : ∀ change, s.changes.getLast? = some change → s.bound.latest = change
  waiting : s.status = .waitTransfer → s.changes.length - 1 ∈ s.recorded ∧
    ∀ transfer ∈ s.started, transfer.1 < s.changes.length - 1

theorem Tracked.getElem?_last (h : s.Tracked) (hne : s.changes ≠ []) :
    s.changes[s.changes.length - 1]? = some s.bound.latest := by
  rw [← List.getLast?_eq_getElem?]
  cases hlast : s.changes.getLast? with
  | none => exact absurd (List.getLast?_eq_none_iff.mp hlast) hne
  | some change => rw [h.latest change hlast]

theorem onDataChanged_history (s : AssetRun β) (newAsset : String × DataAsset) :
    ((s.onDataChanged newAsset).status = .transferring ∧
      (s.onDataChanged newAsset).recorded = s.recorded ∧
      (s.onDataChanged newAsset).started = s.started ++ [(s.changes.length, newAsset)]) ∨
    ((s.onDataChanged newAsset).status = .waitTransfer ∧
      (s.onDataChanged newAsset).recorded = s.recorded ++ [s.changes.length] ∧
      (s.onDataChanged newAsset).started = s.started) := by
  have hposts := s.onDataChanged_posts newAsset
  have hlatest : (s.onDataChanged newAsset).bound.latest = newAsset := hposts.latest
  have hlength : (s.received newAsset).changes.length - 1 = s.changes.length := by
    change (s.changes ++ [newAsset]).length - 1 = _
    rw [List.length_append]
    rfl
  have hstatus : (s.onDataChanged newAsset).status = (dfaEffect s.status .remoteChanged).1 :=
    hposts.status
  have hstarted : (s.onDataChanged newAsset).started = s.started ++
      if (dfaEffect s.status .remoteChanged).2 then [(s.changes.length, newAsset)] else [] := by
    have hposted := hposts.started
    rw [hlatest, hlength] at hposted
    exact hposted
  have hrecorded : (s.onDataChanged newAsset).recorded =
      if (assetDfa s.status .remoteChanged).after = some .saveNewAsset then
        s.recorded ++ [s.changes.length] else s.recorded := rfl
  rw [hstatus, hstarted, hrecorded]
  rcases dfaEffect_remoteChanged s.status with ⟨heffect, hafter⟩ | ⟨heffect, hafter⟩
  · rw [heffect, hafter]
    exact .inl ⟨rfl, rfl, rfl⟩
  · rw [heffect, hafter]
    exact .inr ⟨rfl, rfl, List.append_nil _⟩

theorem changes_onDataChanged (s : AssetRun β) (newAsset : String × DataAsset) :
    (s.onDataChanged newAsset).changes = s.changes ++ [newAsset] := rfl

theorem Tracked.started_lt (h : s.Tracked) {transfer : Nat × String × DataAsset}
    (htransfer : transfer ∈ s.started) : transfer.1 < s.changes.length :=
  (List.getElem?_eq_some_iff.mp (h.started transfer htransfer)).1

theorem tracked_onDataChanged (h : s.Tracked) (newAsset : String × DataAsset) :
    (s.onDataChanged newAsset).Tracked := by
  have hlength : (s.onDataChanged newAsset).changes.length = s.changes.length + 1 := by
    rw [changes_onDataChanged, List.length_append]
    rfl
  have hold : ∀ transfer ∈ s.started,
      (s.onDataChanged newAsset).changes[transfer.1]? = some transfer.2 := by
    intro transfer htransfer
    rw [changes_onDataChanged, List.getElem?_append_left (h.started_lt htransfer)]
    exact h.started transfer htransfer
  have hlast : ∀ change, (s.onDataChanged newAsset).changes.getLast? = some change →
      (s.onDataChanged newAsset).bound.latest = change := by
    intro change hchange
    rw [changes_onDataChanged, List.getLast?_append_cons, List.getLast?_singleton] at hchange
    exact (s.onDataChanged_posts newAsset).latest.trans (Option.some.inj hchange)
  rcases s.onDataChanged_history newAsset with ⟨hstatus, hrecorded, hstarted⟩ |
    ⟨hstatus, hrecorded, hstarted⟩
  · constructor
    · intro change hchange
      rw [hrecorded] at hchange
      have := h.recorded change hchange
      omega
    · intro transfer htransfer
      rw [hstarted, List.mem_append, List.mem_singleton] at htransfer
      rcases htransfer with htransfer | rfl
      · exact hold transfer htransfer
      · exact List.getElem?_concat_length
    · exact hlast
    · intro hwait
      rw [hstatus] at hwait
      cases hwait
  · constructor
    · intro change hchange
      rw [hrecorded, List.mem_append, List.mem_singleton] at hchange
      rcases hchange with hchange | rfl
      · have := h.recorded change hchange
        omega
      · omega
    · intro transfer htransfer
      rw [hstarted] at htransfer
      exact hold transfer htransfer
    · exact hlast
    · intro _
      rw [hlength, hrecorded, hstarted]
      exact ⟨List.mem_append_right _ (List.mem_singleton_self _), fun transfer => h.started_lt⟩

theorem tracked_posts (h : s.Tracked) {event : AssetEvent} (hevent : event ≠ .remoteChanged)
    {newAsset : String × DataAsset} (hposts : s.Posts event newAsset s') : s'.Tracked := by
  obtain ⟨hstatus, hwaited⟩ := dfaEffect_of_ne hevent s.status
  have hlatest : s'.bound.latest = s.bound.latest := by
    rw [hposts.latest, BoundAsset.latestAfter, if_neg hevent]
  constructor
  · intro change hchange
    rw [hposts.recorded] at hchange
    rw [hposts.changes]
    exact h.recorded change hchange
  · intro transfer htransfer
    rw [hposts.started, List.mem_append] at htransfer
    rw [hposts.changes]
    rcases htransfer with htransfer | htransfer
    · exact h.started transfer htransfer
    split at htransfer
    · rename_i htransfers
      obtain ⟨hlast, -⟩ := h.waiting (hwaited htransfers)
      have hne : s.changes ≠ [] := List.length_pos_iff.mp (Nat.zero_lt_of_lt (h.recorded _ hlast))
      rw [List.mem_singleton] at htransfer
      subst htransfer
      rw [hlatest]
      exact h.getElem?_last hne
    · exact absurd htransfer List.not_mem_nil
  · intro change hchange
    rw [hposts.changes] at hchange
    rw [hlatest]
    exact h.latest change hchange
  · intro hwait
    rw [hposts.status] at hwait
    exact absurd hwait hstatus

/-- Every change that was recorded and does not wait any more has been fetched. -/
def Caught (s : AssetRun β) : Prop :=
  s.status ≠ .waitTransfer → ∀ change ∈ s.recorded, ∃ transfer ∈ s.started, change ≤ transfer.1

theorem caught_posts (h : s.Tracked) (hcaught : s.Caught) {event : AssetEvent}
    (htransfers : s.status = .waitTransfer → (dfaEffect s.status event).2 = true)
    {newAsset : String × DataAsset} (hposts : s.Posts event newAsset s') : s'.Caught := by
  intro _ change hchange
  rw [hposts.recorded] at hchange
  rw [hposts.started]
  by_cases hwait : s.status = .waitTransfer
  · rw [if_pos (htransfers hwait)]
    refine ⟨_, List.mem_append_right _ (List.mem_singleton_self _), ?_⟩
    have := h.recorded change hchange
    omega
  · obtain ⟨transfer, htransfer, hle⟩ := hcaught hwait change hchange
    exact ⟨transfer, List.mem_append_left _ htransfer, hle⟩

variable {a : AssetRunAction β} {outstanding : Nat} {status : TransferStatus}

theorem tracked_step (h : s.Tracked) (hstep : s.step a = some s') :
    s'.Tracked := by
  cases a with
  | change newAsset =>
      cases hstep
      exact tracked_onDataChanged h newAsset
  | announce work asset starts =>
      exact tracked_posts h (by cases work <;> decide) (announces_of_announce hstep).posts
  | report asset =>
      simp only [step, Option.map_eq_some_iff] at hstep
      obtain ⟨work, -, rfl⟩ := hstep
      exact tracked_posts h (by cases work <;> decide) (s.report_posts work asset)
  | callback i success store =>
      simp only [step, Option.map_eq_some_iff] at hstep
      obtain ⟨transfer, -, rfl⟩ := hstep
      exact ⟨h.recorded, h.started, h.latest, h.waiting⟩
  | finish =>
      simp only [step] at hstep
      split at hstep
      · cases hstep
      · cases hstep
        exact tracked_posts h (by decide) s.finish_posts

theorem caught_step (h : s.Tracked) (hcaught : s.Caught) (hwaiting : s.LeavesWaiting a)
    (hstep : s.step a = some s') : s'.Caught := by
  cases a with
  | change newAsset =>
      cases hstep
      intro hwait change hchange
      rcases s.onDataChanged_history newAsset with ⟨-, hrecorded, hstarted⟩ | ⟨hstatus, -, -⟩
      · rw [hrecorded] at hchange
        rw [hstarted]
        exact ⟨_, List.mem_append_right _ (List.mem_singleton_self _),
          (h.recorded change hchange).le⟩
      · exact absurd hstatus hwait
  | announce work asset starts =>
      exact caught_posts h hcaught (fun hwait => absurd hwait hwaiting)
        (announces_of_announce hstep).posts
  | report asset =>
      simp only [step, Option.map_eq_some_iff] at hstep
      obtain ⟨work, -, rfl⟩ := hstep
      refine caught_posts h hcaught (fun hwait => ?_) (s.report_posts work asset)
      rw [hwait]
      cases work <;> decide
  | callback i success store =>
      simp only [step, Option.map_eq_some_iff] at hstep
      obtain ⟨transfer, -, rfl⟩ := hstep
      exact hcaught
  | finish =>
      simp only [step] at hstep
      split at hstep
      · cases hstep
      cases hstep
      refine caught_posts h hcaught (fun hwait => ?_) s.finish_posts
      rw [hwait]
      rfl

theorem changesKept_of_caught (h : s.Tracked) (hcaught : s.Caught) : s.ChangesKept := by
  intro hstable _ change hchange
  have hwait : s.status ≠ .waitTransfer := by
    rw [hstable]
    decide
  obtain ⟨transfer, htransfer, hle⟩ := hcaught hwait change hchange
  exact ⟨transfer, htransfer, hle, h.started transfer htransfer⟩

/-- What a busy machine waits for is under way. -/
def Engaged (outstanding : Nat) (work : Option CloudWork) : TransferStatus → Prop
  | .stable => True
  | .transferring | .waitUpload | .waitDownload => 0 < outstanding
  | .downloading => work = some .download
  | .uploading => work = some .upload
  | .waitTransfer => 0 < outstanding ∨ work ≠ none

theorem engaged_closed : ClosedUnder Engaged fun _ _ _ => True where
  change {_ _ status} h := by
    cases status <;> simp_all [Engaged, transfersBy, dfaEffect, assetDfa]
  announce {_ status} work _ h hanswer _ := by
    cases work <;> cases status <;>
      simp_all [Engaged, transfersBy, dfaEffect, assetDfa, CloudWork.event, CloudWork.waiting]
  report {_ work status} h := by
    cases work <;> cases status <;>
      simp_all [Engaged, transfersBy, dfaEffect, assetDfa, CloudWork.finished]
  finish {_ _ status} _ := by
    cases status <;> simp [Engaged, transfersBy, dfaEffect, assetDfa]

def UnderWay (s : AssetRun β) : Prop := Engaged s.bound.outstanding s.work s.status

theorem underWay_step (h : s.UnderWay) (hstep : s.step a = some s') :
    s'.UnderWay := by
  have hallowed : s.AnnouncesAs (fun _ _ _ => True) a := by
    cases a <;> trivial
  exact engaged_closed.step h hallowed hstep

/-- All transfers can end without one being started, unless a change waits. -/
theorem exists_drained (n : Nat) (s : AssetRun β)
    (hn : 2 * s.bound.transfers.length + s.bound.finishing = n)
    (h : s.status = .stable ∨
      (s.status = .waitUpload ∨ s.status = .waitDownload) ∧ 0 < s.bound.outstanding) :
    ∃ rest t, (assetRunMachine β).exec s rest = some t ∧ t.status = .stable ∧
      t.bound.outstanding = 0 ∧ t.recorded = s.recorded ∧ t.started = s.started := by
  induction n using Nat.strong_induction_on generalizing s with
  | _ n ih =>
      by_cases hfinishing : s.bound.finishing = 0
      · cases htransfers : s.bound.transfers with
        | nil =>
            have hnone : s.bound.outstanding = 0 := by
              rw [BoundAsset.outstanding, htransfers, hfinishing]
              rfl
            have hstable : s.status = .stable := h.resolve_right fun hwait => by omega
            exact ⟨[], s, rfl, hstable, hnone, rfl, rfl⟩
        | cons transfer others =>
            have hat : s.bound.transfers[0]? = some transfer := by rw [htransfers]; rfl
            have hstep : s.step (.callback 0 false none) =
                some { s with bound := s.bound.callback 0 transfer.2 false false none } := by
              simp only [step, hat, Option.map_some]
            have hcount := outstanding_callback false none hat
            have hlength : (s.bound.callback 0 transfer.2 false false none).transfers.length + 1 =
                s.bound.transfers.length := by
              change (s.bound.transfers.eraseIdx 0).length + 1 = _
              rw [htransfers]
              rfl
            have hmore : (s.bound.callback 0 transfer.2 false false none).finishing =
                s.bound.finishing + 1 := rfl
            have hless : 2 * (s.bound.callback 0 transfer.2 false false none).transfers.length +
                (s.bound.callback 0 transfer.2 false false none).finishing < n := by omega
            obtain ⟨rest, t, hrest, ht⟩ := ih _ hless
              { s with bound := s.bound.callback 0 transfer.2 false false none } rfl
              (by rw [hcount]; exact h)
            exact ⟨.callback 0 false none :: rest, t,
              (Machine.exec_cons_eq_some _).mpr ⟨_, hstep, hrest⟩, ht⟩
      · have hstep : s.step .finish = some (s.moved s.bound.finish) := if_neg hfinishing
        have heffect : dfaEffect s.status .transferFinished = (.stable, false) := by
          rcases h with hstable | ⟨hwait | hwait, -⟩
          · rw [hstable]
            rfl
          · rw [hwait]
            rfl
          · rw [hwait]
            rfl
        have hposts := s.finish_posts
        have hstatus : (s.moved s.bound.finish).status = .stable := by
          rw [hposts.status, heffect]
        have hstarted : (s.moved s.bound.finish).started = s.started := by
          rw [hposts.started, heffect]
          exact List.append_nil _
        have htransfers : (s.moved s.bound.finish).bound.transfers.length =
            s.bound.transfers.length := by
          rw [hposts.transfers, transfersBy, heffect]
          rfl
        have hless : (s.moved s.bound.finish).bound.finishing = s.bound.finishing - 1 := rfl
        obtain ⟨rest, t, hrest, hend, hnone, hrecorded, hsame⟩ := ih _ (by omega)
          (s.moved s.bound.finish) rfl (.inl hstatus)
        exact ⟨.finish :: rest, t, (Machine.exec_cons_eq_some _).mpr ⟨_, hstep, hrest⟩, hend, hnone,
          hrecorded, hsame.trans hstarted⟩

/-- Announced while a change waits, an upload or download can be followed by a run that ends
at rest without the change. -/
theorem exists_dropped (htracked : s.Tracked)
    (hengaged : Engaged s.bound.outstanding s.work s.status) (hwaiting : ¬ s.LeavesWaiting a)
    (hstep : s.step a = some s') :
    ∃ rest t, (assetRunMachine β).exec s' rest = some t ∧ ¬ t.ChangesKept := by
  cases a with
  | change | report | callback | finish => exact absurd trivial hwaiting
  | announce work asset starts =>
      have hwait : s.status = .waitTransfer := not_not.mp hwaiting
      have hann := announces_of_announce hstep
      obtain ⟨hlast, hbefore⟩ := htracked.waiting hwait
      have hnew : dfaEffect s.status work.event = (work.waiting, false) := by
        rw [hwait]
        cases work <;> decide
      have hstarted : s'.started = s.started := by
        rw [hann.posts.started, hnew]
        exact List.append_nil _
      have houtstanding : 0 < s'.bound.outstanding := by
        rw [hwait, hann.idle] at hengaged
        have hpos : 0 < s.bound.outstanding := hengaged.resolve_right fun hnone => hnone rfl
        rw [hann.posts.outstanding hann.finishing]
        omega
      have hstatus : s'.status = .waitUpload ∨ s'.status = .waitDownload := by
        rw [hann.posts.status, hnew]
        cases work with
        | upload => exact .inl rfl
        | download => exact .inr rfl
      obtain ⟨rest, t, hrest, hstable, hnone, hrecorded, hsame⟩ :=
        s'.exists_drained _ rfl (.inr ⟨hstatus, houtstanding⟩)
      refine ⟨rest, t, hrest, fun hkept => ?_⟩
      have hin : s.changes.length - 1 ∈ t.recorded := by
        rw [hrecorded, hann.posts.recorded]
        exact hlast
      obtain ⟨transfer, htransfer, hle, -⟩ := hkept hstable hnone _ hin
      rw [hsame, hstarted] at htransfer
      have := hbefore transfer htransfer
      omega

end AssetRun

open AssetRun

/-- No recorded change is dropped in a run that announces no upload or download while a
change waits; every such announcement can be followed by a run that drops one. -/
theorem recorded_changes_fetched {β : Type} (info : ChangedAssetInfo β)
    (hstable : info.status = .stable) :
    (∀ schedule s, (assetRunMachine β).exec { bound := { info } } schedule = some s →
      (assetRunMachine β).Guarded AssetRun.LeavesWaiting { bound := { info } } schedule →
      s.ChangesKept) ∧
    (∀ schedule s a s', (assetRunMachine β).exec { bound := { info } } schedule = some s →
      (assetRunMachine β).step s a = some s' → ¬ s.LeavesWaiting a →
      ∃ rest t, (assetRunMachine β).exec s' rest = some t ∧ ¬ t.ChangesKept) := by
  have hwait : info.status ≠ .waitTransfer := by
    rw [hstable]
    decide
  have htracked : ({ bound := { info } } : AssetRun β).Tracked :=
    ⟨fun _ h => absurd h List.not_mem_nil, fun _ h => absurd h List.not_mem_nil,
      fun _ h => absurd h (Option.some_ne_none _).symm, fun h => absurd h hwait⟩
  constructor
  · intro schedule s hrun hguarded
    have hinit : ({ bound := { info } } : AssetRun β).Tracked ∧
        ({ bound := { info } } : AssetRun β).Caught :=
      ⟨htracked, fun _ _ h => absurd h List.not_mem_nil⟩
    have hkeeps : ∀ (s : AssetRun β) a s', s.Tracked ∧ s.Caught → s.LeavesWaiting a →
        s.step a = some s' → s'.Tracked ∧ s'.Caught := fun _ _ _ h hwaiting hstep =>
      ⟨tracked_step h.1 hstep, caught_step h.1 h.2 hwaiting hstep⟩
    have hend := (assetRunMachine β).exec_guarded_invariant hkeeps hinit hguarded hrun
    exact changesKept_of_caught hend.1 hend.2
  · intro schedule s a s' hrun hstep hwaiting
    have hinit : ({ bound := { info } } : AssetRun β).UnderWay := by
      rw [AssetRun.UnderWay, status, hstable]
      trivial
    have hunder : s.UnderWay := (assetRunMachine β).exec_invariant
      (fun _ _ _ h hstep => underWay_step h hstep) hinit hrun
    have hend : s.Tracked := (assetRunMachine β).exec_invariant
      (fun _ _ _ h hstep => tracked_step h hstep) htracked hrun
    exact exists_dropped hend hunder hwaiting hstep

theorem recorded_changes_fetched_busyRun :
    ∃ s, (assetRunMachine Empty).exec { bound := { info := noteInfo } }
        (busyRun ++ [.finish]) = some s ∧ s.status = .stable ∧ s.bound.outstanding = 0 ∧
      s.recorded = [0, 1] ∧ s.ChangesKept := by
  have hrun : ((assetRunMachine Empty).exec { bound := { info := noteInfo } }
      (busyRun ++ [.finish])).map (fun s => (s.status, s.bound.outstanding, s.recorded)) =
      some (.stable, 0, [0, 1]) := by
    decide +kernel
  obtain ⟨s, hs, heq⟩ := Option.map_eq_some_iff.mp hrun
  simp only [Prod.mk.injEq] at heq
  obtain ⟨hstatus, hnone, hrecorded⟩ := heq
  have hguarded : (assetRunMachine Empty).Guarded AssetRun.LeavesWaiting
      { bound := { info := noteInfo } } (busyRun ++ [.finish]) := by
    decide +kernel
  exact ⟨s, hs, hstatus, hnone, hrecorded,
    (recorded_changes_fetched noteInfo rfl).1 _ s hs hguarded⟩

/-- A second version arrives during the transfer of the first, then an upload is announced
and told to wait. When the transfer is over nothing fetches the second version. -/
theorem recorded_change_dropped :
    ∃ s, (assetRunMachine Empty).exec { bound := { info := noteInfo } }
        [.change ("peer", noteAsset "2" "h2"), .change ("peer", noteAsset "3" "h3"),
          .announce .upload (noteAsset "3" "h3") false, .callback 0 true none, .finish] = some s ∧
      s.status = .stable ∧ s.bound.outstanding = 0 ∧ s.recorded = [1] ∧
      s.started.map Prod.fst = [0] ∧ ¬ s.ChangesKept := by
  have hrun : ((assetRunMachine Empty).exec { bound := { info := noteInfo } }
      [.change ("peer", noteAsset "2" "h2"), .change ("peer", noteAsset "3" "h3"),
        .announce .upload (noteAsset "3" "h3") false, .callback 0 true none, .finish]).map
      (fun s => (s.status, s.bound.outstanding, s.recorded, s.started.map Prod.fst)) =
      some (.stable, 0, [1], [0]) := by
    decide +kernel
  obtain ⟨s, hs, heq⟩ := Option.map_eq_some_iff.mp hrun
  simp only [Prod.mk.injEq] at heq
  obtain ⟨hstatus, hnone, hrecorded, hstarted⟩ := heq
  refine ⟨s, hs, hstatus, hnone, hrecorded, hstarted, fun hkept => ?_⟩
  obtain ⟨transfer, htransfer, hle, -⟩ :=
    hkept hstatus hnone 1 (by rw [hrecorded]; exact List.mem_singleton_self 1)
  have hfirst : transfer.1 ∈ s.started.map Prod.fst := List.mem_map_of_mem htransfer
  rw [hstarted, List.mem_singleton] at hfirst
  omega

end DataMgr.Object
