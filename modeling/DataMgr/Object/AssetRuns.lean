import DataMgr.Object.FetchedWrites

/-! # Runs of the machine of a bound asset

The cloud uploads and downloads the asset while remote changes arrive and transfers end.
An upload or download is announced before it begins and again when it is over, and no
other is announced in between. Beside the machine a run keeps the changes it received,
which of them were only recorded because the machine was busy, and which were handed to
the loader.
-/

namespace DataMgr.Object

open DataMgr.Foundation
open DataMgr.Cloud (DataAsset)

/-- The status an event leads to, and whether it starts a transfer. -/
def dfaEffect (status : TransferStatus) (event : AssetEvent) : TransferStatus × Bool :=
  let next := (assetDfa status event).next.getD status
  match (assetDfa status event).after with
  | some .recover => (.stable, false)
  | some .doTransfer => (next, true)
  -- the machine posts itself a remote change
  | some .compensateTransferring =>
      ((assetDfa next .remoteChanged).next.getD next,
        (assetDfa next .remoteChanged).after = some .doTransfer)
  | some .saveNewAsset | some .changeAssetToNormal | some .compensateSync | none => (next, false)

def transfersBy (status : TransferStatus) (event : AssetEvent) : Nat :=
  if (dfaEffect status event).2 then 1 else 0

namespace BoundAsset

variable {β : Type} (s : BoundAsset β)

/-- What the record holds: the device and the version of the asset. -/
def latest : String × DataAsset := (s.info.deviceId, s.info.asset)

/-- The transfers that were started and not reported as finished. -/
def outstanding : Nat := s.transfers.length + s.finishing

def latestAfter (event : AssetEvent) (newAsset : String × DataAsset) : String × DataAsset :=
  if event = .remoteChanged then newAsset else s.latest

structure Effect (s' : BoundAsset β) (effect : TransferStatus × Bool)
    (record : String × DataAsset) : Prop where
  status : s'.info.status = effect.1
  latest : s'.latest = record
  transfers : s'.transfers = s.transfers ++ if effect.2 then [record] else []
  finishing : s'.finishing = s.finishing

theorem compensateTransferring_effect :
    s.Effect s.compensateTransferring
      ((assetDfa s.info.status .remoteChanged).next.getD s.info.status,
        (assetDfa s.info.status .remoteChanged).after = some .doTransfer) s.latest := by
  unfold compensateTransferring postEventWith
  rcases assetDfa_remoteChanged s.info.status with hafter | hafter
  · simp only [hafter]
    exact ⟨rfl, rfl, rfl, rfl⟩
  · simp only [hafter]
    exact ⟨rfl, rfl, (List.append_nil _).symm, rfl⟩

theorem dfaPostEvent_effect_of_ne {event : AssetEvent} (h : event ≠ .remoteChanged)
    (asset : DataAsset) (newAsset : String × DataAsset) :
    s.Effect (s.dfaPostEvent event asset newAsset).1 (dfaEffect s.info.status event) s.latest := by
  obtain ⟨hdo, hsave⟩ := assetDfa_of_ne h s.info.status
  cases hafter : (assetDfa s.info.status event).after with
  | none =>
      simp only [dfaPostEvent, postEventWith, dfaEffect, hafter]
      exact ⟨rfl, rfl, (List.append_nil _).symm, rfl⟩
  | some function =>
      cases function with
      | doTransfer => exact absurd hafter hdo
      | saveNewAsset => exact absurd hafter hsave
      | compensateTransferring =>
          have heffect := (s.setStatus ((assetDfa s.info.status event).next.getD
            s.info.status)).compensateTransferring_effect
          simp only [dfaPostEvent, postEventWith, dfaEffect, hafter]
          exact ⟨heffect.status, heffect.latest, heffect.transfers, heffect.finishing⟩
      | changeAssetToNormal | compensateSync | recover =>
          simp only [dfaPostEvent, postEventWith, dfaEffect, hafter]
          exact ⟨rfl, rfl, (List.append_nil _).symm, rfl⟩

theorem dfaPostEvent_effect (event : AssetEvent) (asset : DataAsset)
    (newAsset : String × DataAsset) :
    s.Effect (s.dfaPostEvent event asset newAsset).1 (dfaEffect s.info.status event)
      (s.latestAfter event newAsset) := by
  unfold latestAfter
  split
  · rename_i heq
    subst heq
    rcases assetDfa_remoteChanged s.info.status with hafter | hafter
    · simp only [dfaPostEvent, postEventWith, dfaEffect, hafter]
      exact ⟨rfl, rfl, rfl, rfl⟩
    · simp only [dfaPostEvent, postEventWith, dfaEffect, hafter]
      exact ⟨rfl, rfl, (List.append_nil _).symm, rfl⟩
  · rename_i hne
    exact s.dfaPostEvent_effect_of_ne hne asset newAsset

end BoundAsset

def TransferStatus.code : TransferStatus → Int
  | .stable => 0
  | .transferring => 1
  | .downloading => 2
  | .uploading => 3
  | .waitTransfer => 4
  | .waitUpload => 5
  | .waitDownload => 6

def statusButt : Int := 7

def statusNoChange : Int := 0xFFFFFFF

def AssetEvent.code : AssetEvent → Int
  | .remoteChanged => 0
  | .transferFinished => 1
  | .upload => 2
  | .uploadFinished => 3
  | .download => 4
  | .downloadFinished => 5

def eventButt : Int := 6

/-- `AssetDFA[STATUS_BUTT][EVENT_BUTT]`, with the codes of the statuses. -/
def assetDfaTable : List (List (Int × Option DfaFunction)) :=
  [.stable, .transferring, .downloading, .uploading, .waitTransfer, .waitUpload, .waitDownload].map
    fun status => [.remoteChanged, .transferFinished, .upload, .uploadFinished, .download,
      .downloadFinished].map fun event =>
        ((((assetDfa status event).next.map TransferStatus.code).getD statusNoChange),
          (assetDfa status event).after)

/-- `AssetDFA[status][eventId]`; `none` is an access outside of the array. -/
def assetDfaEntry (status eventId : Int) : Option (Int × Option DfaFunction) :=
  if status < 0 ∨ eventId < 0 then none
  else (assetDfaTable[status.toNat]?).bind fun row => row[eventId.toNat]?

/-- The status `DFAPostEvent` leaves, on codes and with all its accesses to the array. -/
def postCodeWith (compensate : Int → Option Int) (status eventId : Int) : Option Int :=
  if eventId < 0 ∨ eventId ≥ eventButt ∨ status ≥ statusButt then some status
  else
    (assetDfaEntry status eventId).bind fun action =>
      let status := if action.1 ≠ statusNoChange then action.1 else status
      match action.2 with
      | some .compensateTransferring => compensate status
      | some .recover => some TransferStatus.stable.code
      | _ => some status

def postCode : Int → Int → Option Int :=
  postCodeWith fun status => postCodeWith some status AssetEvent.remoteChanged.code

theorem postCode_code (status : TransferStatus) (event : AssetEvent) :
    postCode status.code event.code = some (dfaEffect status event).1.code := by
  cases status <;> cases event <;> decide

/-- An event of any number is looked up inside the array, or not at all. -/
theorem postCode_isSome (status : TransferStatus) (eventId : Int) :
    (postCode status.code eventId).isSome := by
  by_cases hrange : 0 ≤ eventId ∧ eventId < eventButt
  · obtain ⟨hnonneg, hlt⟩ := hrange
    obtain ⟨event, rfl⟩ : ∃ event : AssetEvent, eventId = event.code := by
      have hcases : eventId = 0 ∨ eventId = 1 ∨ eventId = 2 ∨ eventId = 3 ∨ eventId = 4 ∨
          eventId = 5 := by
        rw [eventButt] at hlt
        omega
      rcases hcases with rfl | rfl | rfl | rfl | rfl | rfl
      exacts [⟨.remoteChanged, rfl⟩, ⟨.transferFinished, rfl⟩, ⟨.upload, rfl⟩,
        ⟨.uploadFinished, rfl⟩, ⟨.download, rfl⟩, ⟨.downloadFinished, rfl⟩]
    rw [postCode_code]
    rfl
  · have hinvalid : eventId < 0 ∨ eventId ≥ eventButt ∨ status.code ≥ statusButt := by omega
    rw [postCode, postCodeWith, if_pos hinvalid]
    rfl

inductive CloudWork where
  | upload
  | download
deriving DecidableEq, Repr

def CloudWork.event : CloudWork → AssetEvent
  | .upload => .upload
  | .download => .download

def CloudWork.finished : CloudWork → AssetEvent
  | .upload => .uploadFinished
  | .download => .downloadFinished

def CloudWork.waiting : CloudWork → TransferStatus
  | .upload => .waitUpload
  | .download => .waitDownload

structure AssetRun (β : Type) where
  bound : BoundAsset β
  /-- The upload or download in progress. -/
  work : Option CloudWork := none
  /-- The remote changes received. -/
  changes : List (String × DataAsset) := []
  /-- The changes that were recorded while the machine was busy, by their index. -/
  recorded : List Nat := []
  /-- The transfers started: the index of the change and what was handed to the loader. -/
  started : List (Nat × String × DataAsset) := []

inductive AssetRunAction (β : Type) where
  | change (newAsset : String × DataAsset)
  /-- `starts` says that the upload or download then takes place. -/
  | announce (work : CloudWork) (asset : DataAsset) (starts : Bool)
  | report (asset : DataAsset)
  | callback (i : Nat) (success : Bool) (store : Option (BoundStore β))
  | finish

open BoundAsset

namespace AssetRun

variable {β : Type}

variable (s : AssetRun β) (newAsset : String × DataAsset)

def status : TransferStatus := s.bound.info.status

/-- The machine has moved; the transfers it started are of the last change received. -/
def moved (bound : BoundAsset β) : AssetRun β :=
  { s with
    bound
    started := s.started ++
      (bound.transfers.drop s.bound.transfers.length).map fun transfer =>
        (s.changes.length - 1, transfer) }

/-- The change is noted, and that it is only recorded if the table says so. -/
def received : AssetRun β :=
  { s with
    changes := s.changes ++ [newAsset]
    recorded :=
      if (assetDfa s.status .remoteChanged).after = some .saveNewAsset then
        s.recorded ++ [s.changes.length]
      else s.recorded }

def onDataChanged : AssetRun β :=
  (s.received newAsset).moved (s.bound.dfaPostEvent .remoteChanged newAsset.2 newAsset).1

/-- `Upload` or `Download`; what is not asked to wait takes place. -/
def announce (work : CloudWork) (asset : DataAsset) (starts : Bool) : Option (AssetRun β) :=
  let t := s.moved (s.bound.dfaPostEvent work.event asset noAsset).1
  if s.work = none ∧ (starts ∨ t.status = work.waiting) then
    some { t with work := if starts then some work else none }
  else none

def report (work : CloudWork) (asset : DataAsset) : AssetRun β :=
  { s.moved (s.bound.dfaPostEvent work.finished asset noAsset).1 with work := none }

def step : AssetRunAction β → Option (AssetRun β)
  | .change newAsset => some (s.onDataChanged newAsset)
  | .announce work asset starts => s.announce work asset starts
  | .report asset => s.work.map fun work => s.report work asset
  | .callback i success store =>
      (s.bound.transfers[i]?).map fun transfer =>
        { s with bound := s.bound.callback i transfer.2 success false store }
  | .finish => if s.bound.finishing = 0 then none else some (s.moved s.bound.finish)

end AssetRun

def assetRunMachine (β : Type) : Machine (AssetRun β) (AssetRunAction β) := ⟨AssetRun.step⟩

namespace AssetRun

variable {β : Type} {s s' : AssetRun β}

/-- What an event that is posted does to the record, the loader and the history. -/
structure Posts (s : AssetRun β) (event : AssetEvent) (newAsset : String × DataAsset)
    (s' : AssetRun β) : Prop where
  status : s'.status = (dfaEffect s.status event).1
  latest : s'.bound.latest = s.bound.latestAfter event newAsset
  transfers : s'.bound.transfers.length = s.bound.transfers.length + transfersBy s.status event
  started : s'.started = s.started ++
    if (dfaEffect s.status event).2 then [(s.changes.length - 1, s'.bound.latest)] else []
  changes : s'.changes = s.changes
  recorded : s'.recorded = s.recorded

theorem moved_posts (s : AssetRun β) (event : AssetEvent) (asset : DataAsset)
    (newAsset : String × DataAsset) :
    s.Posts event newAsset (s.moved (s.bound.dfaPostEvent event asset newAsset).1) := by
  have heffect := s.bound.dfaPostEvent_effect event asset newAsset
  have hstarts : (s.bound.dfaPostEvent event asset newAsset).1.transfers =
      s.bound.transfers ++
        if (dfaEffect s.status event).2 then [s.bound.latestAfter event newAsset] else [] :=
    heffect.transfers
  refine ⟨heffect.status, heffect.latest, ?_, ?_, rfl, rfl⟩
  · change (s.bound.dfaPostEvent event asset newAsset).1.transfers.length = _
    rw [hstarts, List.length_append, transfersBy]
    split <;> rfl
  · change s.started ++
      List.map _ (List.drop _ (s.bound.dfaPostEvent event asset newAsset).1.transfers) = _
    rw [hstarts, List.drop_left]
    change _ = s.started ++ if _ then
      [(s.changes.length - 1, (s.bound.dfaPostEvent event asset newAsset).1.latest)] else []
    rw [heffect.latest]
    split <;> rfl

theorem finishing_moved (s : AssetRun β) (event : AssetEvent) (asset : DataAsset)
    (newAsset : String × DataAsset) :
    (s.moved (s.bound.dfaPostEvent event asset newAsset).1).bound.finishing = s.bound.finishing :=
  (s.bound.dfaPostEvent_effect event asset newAsset).finishing

theorem onDataChanged_posts (s : AssetRun β) (newAsset : String × DataAsset) :
    (s.received newAsset).Posts .remoteChanged newAsset (s.onDataChanged newAsset) :=
  (s.received newAsset).moved_posts .remoteChanged newAsset.2 newAsset

theorem report_posts (s : AssetRun β) (work : CloudWork) (asset : DataAsset) :
    s.Posts work.finished noAsset (s.report work asset) := by
  have hposts := s.moved_posts work.finished asset noAsset
  exact ⟨hposts.status, hposts.latest, hposts.transfers, hposts.started, rfl, rfl⟩

theorem finish_posts (s : AssetRun β) :
    s.Posts .transferFinished noAsset (s.moved s.bound.finish) := by
  have hposts := s.moved_posts .transferFinished s.bound.info.asset noAsset
  exact ⟨hposts.status, hposts.latest, hposts.transfers, hposts.started, rfl, rfl⟩

/-- What an announcement needs, and what it leaves. -/
structure Announces (s : AssetRun β) (work : CloudWork) (starts : Bool) (s' : AssetRun β) :
    Prop where
  idle : s.work = none
  answer : starts = true ∨ s'.status = work.waiting
  posts : s.Posts work.event noAsset s'
  finishing : s'.bound.finishing = s.bound.finishing
  work : s'.work = if starts then some work else none

theorem announces_of_announce {work : CloudWork} {asset : DataAsset} {starts : Bool}
    (h : s.announce work asset starts = some s') : s.Announces work starts s' := by
  have hposts := s.moved_posts work.event asset noAsset
  have hfinishing := s.finishing_moved work.event asset noAsset
  unfold announce at h
  by_cases hcond : s.work = none ∧ (starts = true ∨
      (s.moved (s.bound.dfaPostEvent work.event asset noAsset).1).status = work.waiting)
  · rw [if_pos hcond] at h
    cases h
    exact ⟨hcond.1, hcond.2, ⟨hposts.status, hposts.latest, hposts.transfers, hposts.started,
      rfl, rfl⟩, hfinishing, rfl⟩
  · rw [if_neg hcond] at h
    cases h

theorem Posts.outstanding {event : AssetEvent} {newAsset : String × DataAsset}
    (h : s.Posts event newAsset s') (hfinishing : s'.bound.finishing = s.bound.finishing) :
    s'.bound.outstanding = s.bound.outstanding + transfersBy s.status event := by
  rw [BoundAsset.outstanding, BoundAsset.outstanding, h.transfers, hfinishing]
  omega

theorem outstanding_finish (h : s.bound.finishing ≠ 0) :
    (s.moved s.bound.finish).bound.outstanding + 1 =
      s.bound.outstanding + transfersBy s.status .transferFinished := by
  have hfinishing : (s.moved s.bound.finish).bound.finishing = s.bound.finishing - 1 := rfl
  rw [BoundAsset.outstanding, BoundAsset.outstanding, s.finish_posts.transfers, hfinishing]
  omega

theorem outstanding_callback {i : Nat} {transfer : String × DataAsset} (success : Bool)
    (store : Option (BoundStore β)) (h : s.bound.transfers[i]? = some transfer) :
    (s.bound.callback i transfer.2 success false store).outstanding = s.bound.outstanding := by
  have hi : i < s.bound.transfers.length := (List.getElem?_eq_some_iff.mp h).1
  change (s.bound.transfers.eraseIdx i).length + (s.bound.finishing + 1) = _
  rw [List.length_eraseIdx_of_lt hi, BoundAsset.outstanding]
  omega

/-- The events keep a relation between the transfers outstanding, the work in progress and
the status, if the announcements are of the kind that is allowed. -/
structure ClosedUnder (rel : Nat → Option CloudWork → TransferStatus → Prop)
    (allowed : TransferStatus → CloudWork → Bool → Prop) : Prop where
  change : ∀ {outstanding work status}, rel outstanding work status →
    rel (outstanding + transfersBy status .remoteChanged) work (dfaEffect status .remoteChanged).1
  announce : ∀ {outstanding status} (work : CloudWork) {starts : Bool},
    rel outstanding none status → (starts = true ∨ (dfaEffect status work.event).1 = work.waiting) →
      allowed status work starts →
    rel (outstanding + transfersBy status work.event) (if starts then some work else none)
      (dfaEffect status work.event).1
  report : ∀ {outstanding work status}, rel outstanding (some work) status →
    rel (outstanding + transfersBy status work.finished) none (dfaEffect status work.finished).1
  finish : ∀ {outstanding work status}, rel (outstanding + 1) work status →
    rel (outstanding + transfersBy status .transferFinished) work
      (dfaEffect status .transferFinished).1

/-- The announcement a step makes is of the kind that is allowed. -/
def AnnouncesAs (allowed : TransferStatus → CloudWork → Bool → Prop) (s : AssetRun β) :
    AssetRunAction β → Prop
  | .announce work _ starts => allowed s.status work starts
  | .change _ | .report _ | .callback .. | .finish => True

theorem ClosedUnder.step {rel : Nat → Option CloudWork → TransferStatus → Prop}
    {allowed : TransferStatus → CloudWork → Bool → Prop} (hclosed : ClosedUnder rel allowed)
    {a : AssetRunAction β} (h : rel s.bound.outstanding s.work s.status)
    (hallowed : s.AnnouncesAs allowed a) (hstep : s.step a = some s') :
    rel s'.bound.outstanding s'.work s'.status := by
  cases a with
  | change newAsset =>
      cases hstep
      have hposts := s.onDataChanged_posts newAsset
      have hfinishing := (s.received newAsset).finishing_moved .remoteChanged newAsset.2 newAsset
      rw [hposts.status, hposts.outstanding hfinishing]
      exact hclosed.change h
  | announce work asset starts =>
      have hann := announces_of_announce hstep
      have hanswer := hann.answer
      rw [hann.posts.status] at hanswer
      rw [hann.idle] at h
      rw [hann.posts.status, hann.posts.outstanding hann.finishing, hann.work]
      exact hclosed.announce work h hanswer hallowed
  | report asset =>
      cases hwork : s.work with
      | none => simp [AssetRun.step, hwork] at hstep
      | some work =>
          simp only [AssetRun.step, hwork, Option.map_some, Option.some.injEq] at hstep
          subst hstep
          rw [hwork] at h
          have hposts := s.report_posts work asset
          rw [hposts.status,
            hposts.outstanding (s.finishing_moved work.finished asset noAsset)]
          exact hclosed.report h
  | callback i success store =>
      simp only [AssetRun.step, Option.map_eq_some_iff] at hstep
      obtain ⟨transfer, htransfer, rfl⟩ := hstep
      rw [outstanding_callback success store htransfer]
      exact h
  | finish =>
      simp only [AssetRun.step] at hstep
      split at hstep
      · cases hstep
      rename_i hfinishing
      cases hstep
      have hcount := s.outstanding_finish hfinishing
      obtain ⟨rest, hrest⟩ : ∃ rest, s.bound.outstanding = rest + 1 :=
        ⟨s.bound.outstanding - 1, by rw [BoundAsset.outstanding]; omega⟩
      rw [hrest] at h
      have hleft : (s.moved s.bound.finish).bound.outstanding =
          rest + transfersBy s.status .transferFinished := by omega
      rw [s.finish_posts.status, hleft]
      exact hclosed.finish h

/-- The transfers outstanding and the work in progress in each status. -/
def Fits (outstanding : Nat) (work : Option CloudWork) : TransferStatus → Prop
  | .stable => outstanding = 0 ∧ work = none
  | .transferring => outstanding = 1 ∧ work = none
  | .downloading => outstanding = 0 ∧ work = some .download
  | .uploading => outstanding = 0 ∧ work = some .upload
  | .waitTransfer => outstanding = 1 ∧ work = none ∨ outstanding = 0 ∧ work ≠ none
  | .waitUpload | .waitDownload => outstanding = 1 ∧ work = none

theorem outstanding_le_one_of_fits {outstanding : Nat} {work : Option CloudWork}
    {status : TransferStatus} (h : Fits outstanding work status) : outstanding ≤ 1 := by
  cases status <;> simp only [Fits] at h <;> omega

/-- What is asked to wait does not take place. -/
def Heeds (status : TransferStatus) (work : CloudWork) (starts : Bool) : Prop :=
  (dfaEffect status work.event).1 = work.waiting → starts = false

theorem fits_closed : ClosedUnder Fits Heeds where
  change {_ _ status} h := by
    cases status <;> simp_all [Fits, transfersBy, dfaEffect, assetDfa]
  announce {_ status} work _ h hanswer hheeds := by
    cases work <;> cases status <;>
      simp_all [Fits, Heeds, transfersBy, dfaEffect, assetDfa, CloudWork.event, CloudWork.waiting]
  report {_ work status} h := by
    cases work <;> cases status <;>
      simp_all [Fits, transfersBy, dfaEffect, assetDfa, CloudWork.finished]
  finish {_ _ status} h := by
    cases status <;> simp_all [Fits, transfersBy, dfaEffect, assetDfa]

/-- An upload or download that was asked to wait does not take place. -/
def HeedsAnswer (s : AssetRun β) : AssetRunAction β → Prop
  | .announce work asset starts =>
      (s.bound.dfaPostEvent work.event asset noAsset).1.info.status = work.waiting →
        starts = false
  | .change _ | .report _ | .callback .. | .finish => True

instance (s : AssetRun β) (a : AssetRunAction β) : Decidable (s.HeedsAnswer a) :=
  match a with
  | .announce .. => inferInstanceAs (Decidable (_ → _))
  | .change _ | .report _ | .callback .. | .finish => inferInstanceAs (Decidable True)

def InStep (s : AssetRun β) : Prop := Fits s.bound.outstanding s.work s.status

theorem HeedsAnswer.announcesAs {a : AssetRunAction β} (h : s.HeedsAnswer a) :
    s.AnnouncesAs Heeds a := by
  cases a with
  | announce work asset starts =>
      intro hwait
      exact h ((s.bound.dfaPostEvent_effect work.event asset noAsset).status.trans hwait)
  | change | report | callback | finish => trivial

end AssetRun

/-- Uploads and downloads that heed the answer: never more than one transfer is outstanding,
the machine is transferring only while one is, and no event is looked up outside of the
array. -/
theorem one_transfer_outstanding {β : Type} {info : ChangedAssetInfo β}
    (hstable : info.status = .stable) {schedule : List (AssetRunAction β)} {s : AssetRun β}
    (hanswers : (assetRunMachine β).Guarded AssetRun.HeedsAnswer { bound := { info } } schedule)
    (hrun : (assetRunMachine β).exec { bound := { info } } schedule = some s) :
    s.bound.outstanding ≤ 1 ∧ (s.status = .transferring → s.bound.outstanding = 1) ∧
      ∀ eventId : Int, (postCode s.status.code eventId).isSome := by
  have hinit : ({ bound := { info } } : AssetRun β).InStep := by
    rw [AssetRun.InStep, AssetRun.status, hstable]
    exact ⟨rfl, rfl⟩
  have hfits : s.InStep := (assetRunMachine β).exec_guarded_invariant
    (fun _ _ _ h hguard hstep => AssetRun.fits_closed.step h hguard.announcesAs hstep)
    hinit hanswers hrun
  refine ⟨?_, ?_, fun eventId => postCode_isSome s.status eventId⟩
  · exact AssetRun.outstanding_le_one_of_fits hfits
  · intro htransferring
    rw [AssetRun.InStep, htransferring] at hfits
    exact hfits.1

/-- A change arrives during an upload, another one during the transfer that follows, and an
upload that has to wait does not take place. -/
def busyRun : List (AssetRunAction Empty) :=
  [.announce .upload (noteAsset "1" "h1") true, .change ("peer", noteAsset "2" "h2"),
    .report (noteAsset "1" "h1"), .change ("peer", noteAsset "3" "h3"), .callback 0 true none,
    .finish, .announce .upload (noteAsset "3" "h3") false, .callback 0 true none]

theorem one_transfer_outstanding_busyRun :
    ∃ s, (assetRunMachine Empty).exec { bound := { info := noteInfo } } busyRun = some s ∧
      s.status = .waitUpload ∧ s.started.map Prod.fst = [0, 1] ∧ s.bound.outstanding ≤ 1 ∧
        (s.status = .transferring → s.bound.outstanding = 1) ∧
        ∀ eventId : Int, (postCode s.status.code eventId).isSome := by
  have hrun : ((assetRunMachine Empty).exec { bound := { info := noteInfo } } busyRun).map
      (fun s => (s.status, s.started.map Prod.fst)) = some (.waitUpload, [0, 1]) := by
    decide +kernel
  obtain ⟨s, hs, heq⟩ := Option.map_eq_some_iff.mp hrun
  obtain ⟨hstatus, hstarted⟩ := Prod.mk.inj heq
  have hanswers : (assetRunMachine Empty).Guarded AssetRun.HeedsAnswer
      { bound := { info := noteInfo } } busyRun := by
    decide +kernel
  exact ⟨s, hs, hstatus, hstarted, one_transfer_outstanding rfl hanswers hs⟩

end DataMgr.Object
