import DataMgr.Cloud.CloudInfo
import DataMgr.Foundation.Machine
import DataMgr.Rdb.RdbCloud
import DataMgr.Store.GeneralStore

/-! # Binding a store to the cloud

`Bind` hands a store's delegate the cloud database, the asset loader, the schema and the
sync configuration. One flag keeps a second `Bind` out and is also what `IsBound` answers:
it is raised before the work begins and never lowered. Every access to a shared member is
one step, and so is every call on the delegate; what the delegate has been given is kept
after it is closed, and every answer is kept with what had been given by then.
-/

namespace DataMgr.Rdb

open DataMgr.Cloud DataMgr.Foundation DataMgr.Store

/-- The cloud database and the loader of a user; either may be null. -/
structure BindInfo where
  db : Option Nat := none
  loader : Option Nat := none
deriving DecidableEq, Repr

structure CloudConfig where
  maxNumber : Int := 30
  maxSize : Int := 1024 * 512 * 3
  maxRetryConflictTimes : Int := 3
  isSupportEncrypt : Bool := false
deriving DecidableEq, Repr

structure CloudSyncConfig where
  maxUploadCount : Int
  maxUploadSize : Int
  maxRetryConflictTimes : Int
  isSupportEncrypt : Bool
deriving DecidableEq, Repr

def CloudConfig.dbConfig (config : CloudConfig) : CloudSyncConfig where
  maxUploadCount := config.maxNumber
  maxUploadSize := config.maxSize
  maxRetryConflictTimes := config.maxRetryConflictTimes
  isSupportEncrypt := config.isSupportEncrypt

def getDBSchema (database : Database) : List Table := database.tables

/-- What a `Bind` is going to hand over. -/
structure Binding where
  db : Nat
  loader : Nat
  schema : List Table
  dbConfig : CloudSyncConfig
deriving DecidableEq, Repr

structure Given where
  cloudDB : Option Nat := none
  assetLoader : Option Nat := none
  cloudDbSchema : Option (List Table) := none
  cloudSyncConfig : Option CloudSyncConfig := none
deriving DecidableEq, Repr

variable (delegate rdbStore : Bool) (given : Given)

def Given.complete : Bool :=
  given.cloudDB.isSome && given.assetLoader.isSome && given.cloudDbSchema.isSome &&
    given.cloudSyncConfig.isSome

/-- The next step of a `Bind` that raised the flag. From `setCloudDB` on it has the shared
lock of `dbMutex_`. -/
inductive BindStage where
  | keepInfo
  | checkClosed
  | lockDelegate
  | setCloudDB
  | setIAssetLoader
  | setCloudDbSchema
  | setCloudSyncConfig
  | finish
deriving DecidableEq, Repr

def BindStage.locked : BindStage → Bool
  | .keepInfo | .checkClosed | .lockDelegate => false
  | _ => true

inductive BoundCall where
  | bind (stage : BindStage) (binding : Binding)
  /-- `Close` before it takes the lock, and when the delegate is gone. -/
  | close (isForce : Bool)
  | clear
deriving DecidableEq, Repr

def BoundCall.locks : BoundCall → Bool
  | .bind stage _ => stage.locked
  | .close _ | .clear => false

/-- The call has raised the flag and has not handed everything over. -/
def BoundCall.binds : BoundCall → Bool
  | .bind stage _ => stage ≠ .finish
  | .close _ | .clear => false

/-- What a closing finds: whether nobody else has the lock, whether the delegate has tasks or
downloads, and what closing it answers. -/
structure ClosingEnv where
  lockFree : Bool := true
  hasTasks : Bool := false
  status : DBStatus := .ok
deriving DecidableEq, Repr

structure BoundStore where
  /-- `delegate_` and `rdbStore_` are not null. -/
  delegate : Bool := true
  rdbStore : Bool := true
  isClosed : Bool := false
  isBound : Bool := false
  bindInfo : BindInfo := {}
  /-- `rdbCloud_`, by its database. -/
  rdbCloud : Option Nat := none
  /-- `CLOUD_SYNC_FLAG` of `syncNotifyFlag_`. -/
  cloudSyncFlag : Bool := false
  given : Given := {}
  calls : List BoundCall := []
  /-- What every `Bind` returned and every `IsBound` answered. -/
  results : List (GeneralError × Given) := []
  answers : List (Bool × Given) := []
  /-- What every `Close` returned: its own error, or that of the database. -/
  closings : List (GeneralError ⊕ DBStatus) := []
deriving DecidableEq, Repr

variable (s : BoundStore) (i : Nat)

namespace BoundStore

def returns (error : GeneralError) : BoundStore :=
  { s with results := s.results ++ [(error, s.given)] }

/-- `Bind` up to the exchange of the flag. -/
def bind (bindInfos : List (Nat × Database × BindInfo)) (config : CloudConfig) : BoundStore :=
  match bindInfos with
  | [] => s.returns .eOk
  | (_, database, ⟨some db, some loader⟩) :: _ =>
      if s.isBound then s.returns .eOk
      else
        { s with
          isBound := true
          calls := s.calls ++
            [.bind .keepInfo ⟨db, loader, getDBSchema database, config.dbConfig⟩] }
  | _ => s.returns .eInvalidArgs

def move (next : Option BoundCall) : BoundStore :=
  { s with calls := advance s.calls i next }

/-- The rest of `Bind`, one step after another. -/
def bindNext (binding : Binding) : BindStage → BoundStore
  | .keepInfo =>
      { s with
        bindInfo := ⟨some binding.db, some binding.loader⟩
        rdbCloud := some binding.db }.move i (some (.bind .checkClosed binding))
  | .checkClosed =>
      if s.isClosed then (s.returns .eAlreadyClosed).move i none
      else s.move i (some (.bind .lockDelegate binding))
  | .lockDelegate =>
      if s.delegate then s.move i (some (.bind .setCloudDB binding))
      else (s.returns .eAlreadyClosed).move i none
  | .setCloudDB =>
      { s with given := { s.given with cloudDB := some binding.db } }.move
        i (some (.bind .setIAssetLoader binding))
  | .setIAssetLoader =>
      { s with given := { s.given with assetLoader := some binding.loader } }.move
        i (some (.bind .setCloudDbSchema binding))
  | .setCloudDbSchema =>
      { s with given := { s.given with cloudDbSchema := some binding.schema } }.move
        i (some (.bind .setCloudSyncConfig binding))
  | .setCloudSyncConfig =>
      { s with given := { s.given with cloudSyncConfig := some binding.dbConfig } }.move
        i (some (.bind .finish binding))
  | .finish => ({ s with cloudSyncFlag := true }.returns .eOk).move i none

def closes (result : GeneralError ⊕ DBStatus) : BoundStore :=
  { s with closings := s.closings ++ [result] }.move i none

/-- The part of `Close` under the unique lock of `dbMutex_`, which is not to be had while a
`Bind` has the shared one. -/
def closeStore (isForce : Bool) (env : ClosingEnv) : BoundStore :=
  if env.lockFree = false ∨ s.calls.any BoundCall.locks then s.closes i (.inl .eBusy)
  else if s.delegate = false ∧ s.rdbStore = false then s.closes i (.inl .eOk)
  else if s.delegate ∧ isForce = false ∧ env.hasTasks then s.closes i (.inl .eBusy)
  else if s.delegate ∧ env.status ≠ .ok then s.closes i (.inr env.status)
  else { s with delegate := false, rdbStore := false, isClosed := true }.move i (some .clear)

end BoundStore

inductive BoundAction where
  | bind (bindInfos : List (Nat × Database × BindInfo)) (config : CloudConfig)
  | isBound
  | close (isForce : Bool)
  | next (i : Nat) (env : ClosingEnv)
deriving DecidableEq, Repr

namespace BoundStore

def step : BoundAction → Option BoundStore
  | .bind bindInfos config => some (s.bind bindInfos config)
  | .isBound => some { s with answers := s.answers ++ [(s.isBound, s.given)] }
  | .close isForce =>
      some { s with isClosed := s.isClosed || isForce, calls := s.calls ++ [.close isForce] }
  | .next i env =>
      (s.calls[i]?).map fun
        | .bind stage binding => s.bindNext i binding stage
        | .close isForce => s.closeStore i isForce env
        | .clear => { s with bindInfo := {}, rdbCloud := none }.closes i (.inl .eOk)

end BoundStore

def boundStoreMachine : Machine BoundStore BoundAction := ⟨BoundStore.step⟩

def BoundAction.Usable : BoundAction → Prop
  | .bind ((_, _, info) :: _) _ => info.db.isSome ∧ info.loader.isSome
  | .bind [] _ => False
  | _ => True

instance (a : BoundAction) : Decidable a.Usable :=
  match a with
  | .bind ((_, _, info) :: _) _ => inferInstanceAs (Decidable (info.db.isSome ∧ info.loader.isSome))
  | .bind [] _ => isFalse id
  | .isBound | .close _ | .next _ _ => isTrue trivial

namespace BoundStore

variable {s s' : BoundStore}

/-- A store that says it is bound has been given everything, and one that could not be bound
does not say so. -/
structure ReallyBound (s : BoundStore) : Prop where
  bind : ∀ result ∈ s.results, result.1 = .eOk → result.2.complete
  isBound : ∀ answer ∈ s.answers, answer.1 = true → answer.2.complete
  failed : (∃ result ∈ s.results, result.1 ≠ .eOk) → (∀ result ∈ s.results, result.1 ≠ .eOk) →
    s.isBound = false

/-- No `Bind` is between raising the flag and its last call on the delegate. -/
def Settled (s : BoundStore) : Prop := ∀ call ∈ s.calls, call.binds = false

/-- A `Bind` that looks whether the store is still open finds it open. -/
def FindsOpen (s : BoundStore) : BoundCall → Prop
  | .bind .checkClosed _ => s.isClosed = false
  | .bind .lockDelegate _ => s.delegate = true
  | _ => True

/-- The flag is not looked at while a `Bind` is at work, and no `Bind` finds the store closed. -/
def InOrder (s : BoundStore) : BoundAction → Prop
  | .bind _ _ | .isBound => s.isBound = true → s.Settled
  | .next i _ => ∀ call ∈ s.calls[i]?, s.FindsOpen call
  | .close _ => True

instance (s : BoundStore) : Decidable s.Settled :=
  inferInstanceAs (Decidable (∀ call ∈ s.calls, call.binds = false))

instance (s : BoundStore) (call : BoundCall) : Decidable (s.FindsOpen call) :=
  match call with
  | .bind .checkClosed _ => inferInstanceAs (Decidable (s.isClosed = false))
  | .bind .lockDelegate _ => inferInstanceAs (Decidable (s.delegate = true))
  | .bind .keepInfo _ | .bind .setCloudDB _ | .bind .setIAssetLoader _ | .bind .setCloudDbSchema _
  | .bind .setCloudSyncConfig _ | .bind .finish _ | .close _ | .clear => isTrue trivial

instance (s : BoundStore) (a : BoundAction) : Decidable (s.InOrder a) :=
  match a with
  | .bind _ _ | .isBound => inferInstanceAs (Decidable (s.isBound = true → s.Settled))
  | .next i _ => inferInstanceAs (Decidable (∀ call ∈ s.calls[i]?, s.FindsOpen call))
  | .close _ => isTrue trivial

end BoundStore

/-- What the calls before this stage have given. -/
def BindStage.Follows : BindStage → Prop
  | .keepInfo | .checkClosed | .lockDelegate | .setCloudDB => True
  | .setIAssetLoader => given.cloudDB.isSome
  | .setCloudDbSchema => given.cloudDB.isSome ∧ given.assetLoader.isSome
  | .setCloudSyncConfig =>
      given.cloudDB.isSome ∧ given.assetLoader.isSome ∧ given.cloudDbSchema.isSome
  | .finish => given.complete

/-- Nothing that was given is taken back. -/
structure Given.Grows (before after : Given) : Prop where
  cloudDB : before.cloudDB.isSome → after.cloudDB.isSome
  assetLoader : before.assetLoader.isSome → after.assetLoader.isSome
  cloudDbSchema : before.cloudDbSchema.isSome → after.cloudDbSchema.isSome
  cloudSyncConfig : before.cloudSyncConfig.isSome → after.cloudSyncConfig.isSome

theorem Given.complete_iff :
    given.complete ↔ given.cloudDB.isSome ∧ given.assetLoader.isSome ∧
      given.cloudDbSchema.isSome ∧ given.cloudSyncConfig.isSome := by
  simp [Given.complete, and_assoc]

theorem Given.Grows.refl : given.Grows given := ⟨id, id, id, id⟩

theorem Given.Grows.complete {before after : Given} (h : before.Grows after)
    (hbefore : before.complete) : after.complete := by
  rw [Given.complete_iff] at hbefore ⊢
  obtain ⟨hdb, hloader, hschema, hconfig⟩ := hbefore
  exact ⟨h.cloudDB hdb, h.assetLoader hloader, h.cloudDbSchema hschema, h.cloudSyncConfig hconfig⟩

theorem BindStage.Follows.grows {stage : BindStage} {before after : Given}
    (h : stage.Follows before) (hgrows : before.Grows after) : stage.Follows after := by
  cases stage with
  | keepInfo | checkClosed | lockDelegate | setCloudDB => trivial
  | setIAssetLoader => exact hgrows.cloudDB h
  | setCloudDbSchema => exact ⟨hgrows.cloudDB h.1, hgrows.assetLoader h.2⟩
  | setCloudSyncConfig =>
      exact ⟨hgrows.cloudDB h.1, hgrows.assetLoader h.2.1, hgrows.cloudDbSchema h.2.2⟩
  | finish => exact hgrows.complete h

namespace BoundStore

variable {s s' : BoundStore} {a : BoundAction}

/-- The flag was raised once: by the `Bind` that is at work, or by the one that gave the last
part. -/
structure Raised (s : BoundStore) : Prop where
  tally : (s.calls.map fun call => call.binds.toNat).sum + s.given.cloudSyncConfig.isSome.toNat =
    s.isBound.toNat
  follows : ∀ stage binding, .bind stage binding ∈ s.calls → stage.Follows s.given
  last : s.given.cloudSyncConfig.isSome → s.given.complete
  results : ∀ result ∈ s.results, result.1 = .eOk ∧ result.2.complete ∧ s.given.complete
  answers : ∀ answer ∈ s.answers, answer.1 = true → answer.2.complete

variable (h : s.Raised)

include h

theorem Raised.reallyBound : s.ReallyBound where
  bind := fun result hresult _ => (h.results result hresult).2.1
  isBound := h.answers
  failed := by
    rintro ⟨result, hresult, hne⟩ -
    exact absurd (h.results result hresult).1 hne

theorem Raised.complete_iff_settled (hbound : s.isBound = true) : s.given.complete ↔ s.Settled := by
  have htally := h.tally
  rw [hbound] at htally
  constructor
  · intro hcomplete call hcall
    rw [Given.complete_iff] at hcomplete
    have hsum : (s.calls.map fun call => call.binds.toNat).sum = 0 := by
      rw [hcomplete.2.2.2] at htally
      simpa using htally
    have hzero := List.sum_eq_zero_iff.mp hsum call.binds.toNat (List.mem_map_of_mem hcall)
    simpa using hzero
  · intro hsettled
    have hsum : (s.calls.map fun call => call.binds.toNat).sum = 0 := by
      refine List.sum_eq_zero_iff.mpr fun n hn => ?_
      obtain ⟨call, hcall, rfl⟩ := List.mem_map.mp hn
      rw [hsettled call hcall]
      rfl
    apply h.last
    rw [hsum] at htally
    simpa using htally

theorem Raised.binding {call : BoundCall} (hcall : call ∈ s.calls) (hbinds : call.binds = true) :
    s.isBound = true ∧ s.given.cloudSyncConfig.isSome = false := by
  have htally := h.tally
  have hle := List.le_sum_of_mem
    (List.mem_map_of_mem (f := fun call : BoundCall => call.binds.toNat) hcall)
  rw [hbinds] at hle
  cases hbound : s.isBound <;> cases hconfig : s.given.cloudSyncConfig.isSome <;>
    simp [hbound, hconfig] at htally hle ⊢ <;> omega

theorem Raised.advance {i : Nat} {call : BoundCall} {next : Option BoundCall} {given : Given}
    (hcall : s.calls[i]? = some call) (hgrows : s.given.Grows given)
    (hfollows : ∀ stage binding, next = some (.bind stage binding) → stage.Follows given)
    (hlast : given.cloudSyncConfig.isSome → given.complete)
    (htally : next.elim 0 (fun call => call.binds.toNat) + given.cloudSyncConfig.isSome.toNat =
      call.binds.toNat + s.given.cloudSyncConfig.isSome.toNat) :
    ({ s with given }.move i next).Raised where
  tally := by
    have hsum := sum_advance (fun call : BoundCall => call.binds.toNat) next hcall
    have hbefore := h.tally
    change ((Foundation.advance s.calls i next).map fun call => call.binds.toNat).sum +
      given.cloudSyncConfig.isSome.toNat = s.isBound.toNat
    omega
  follows := by
    intro stage binding hmem
    rcases mem_advance hmem with hnext | hold
    · exact hfollows stage binding hnext
    · exact (h.follows stage binding hold).grows hgrows
  last := hlast
  results := fun result hresult =>
    let ⟨hok, hthen, hnow⟩ := h.results result hresult
    ⟨hok, hthen, hgrows.complete hnow⟩
  answers := h.answers

theorem Raised.goesOn {i : Nat} {stage next : BindStage} {binding : Binding} {given : Given}
    (hcall : s.calls[i]? = some (.bind stage binding)) (hstage : stage ≠ .finish)
    (hnext : next ≠ .finish) (hgrows : s.given.Grows given)
    (hlast : given.cloudSyncConfig = s.given.cloudSyncConfig) (hfollows : next.Follows given) :
    ({ s with given }.move i (some (.bind next binding))).Raised := by
  refine h.advance hcall hgrows ?_ ?_ ?_
  · rintro stage' binding' ⟨⟩
    exact hfollows
  · rw [hlast]
    exact fun hgiven => hgrows.complete (h.last hgiven)
  · rw [hlast]
    simp [BoundCall.binds, hstage, hnext]

theorem Raised.move {i : Nat} {call : BoundCall} {next : Option BoundCall}
    (hcall : s.calls[i]? = some call) (hbinds : call.binds = false)
    (hnext : ∀ stage binding, next ≠ some (.bind stage binding)) : (s.move i next).Raised := by
  refine h.advance hcall (Given.Grows.refl _) ?_ h.last ?_
  · exact fun stage binding heq => absurd heq (hnext stage binding)
  · rw [hbinds]
    cases next with
    | none => rfl
    | some next =>
        cases next with
        | bind stage binding => exact absurd rfl (hnext stage binding)
        | close _ | clear => rfl

theorem Raised.returns (hcomplete : s.given.complete) : (s.returns .eOk).Raised where
  tally := h.tally
  follows := h.follows
  last := h.last
  results := by
    intro result hresult
    rcases List.mem_append.mp hresult with hold | hnew
    · exact h.results result hold
    · rw [List.mem_singleton.mp hnew]
      exact ⟨rfl, hcomplete, hcomplete⟩
  answers := h.answers

theorem raised_bindNext {i : Nat} {stage : BindStage} {binding : Binding}
    (hcall : s.calls[i]? = some (.bind stage binding)) (hopen : s.FindsOpen (.bind stage binding)) :
    (s.bindNext i binding stage).Raised := by
  have hmem : .bind stage binding ∈ s.calls := List.mem_of_getElem? hcall
  have hfollows := h.follows stage binding hmem
  cases stage with
  | keepInfo =>
      have hkept : ({ s with
          bindInfo := ⟨some binding.db, some binding.loader⟩
          rdbCloud := some binding.db } : BoundStore).Raised :=
        ⟨h.tally, h.follows, h.last, h.results, h.answers⟩
      exact hkept.goesOn hcall (by decide) (by decide) (Given.Grows.refl _) rfl trivial
  | checkClosed =>
      rw [bindNext, if_neg (by rw [show s.isClosed = false from hopen]; decide)]
      exact h.goesOn hcall (by decide) (by decide) (Given.Grows.refl _) rfl trivial
  | lockDelegate =>
      rw [bindNext, if_pos (show s.delegate = true from hopen)]
      exact h.goesOn hcall (by decide) (by decide) (Given.Grows.refl _) rfl trivial
  | setCloudDB =>
      exact h.goesOn hcall (by decide) (by decide) ⟨fun _ => rfl, id, id, id⟩ rfl rfl
  | setIAssetLoader =>
      exact h.goesOn hcall (by decide) (by decide) ⟨id, fun _ => rfl, id, id⟩ rfl ⟨hfollows, rfl⟩
  | setCloudDbSchema =>
      exact h.goesOn hcall (by decide) (by decide) ⟨id, id, fun _ => rfl, id⟩ rfl
        ⟨hfollows.1, hfollows.2, rfl⟩
  | setCloudSyncConfig =>
      have hnot := (h.binding hmem rfl).2
      have hcomplete : ({ s.given with
          cloudSyncConfig := some binding.dbConfig } : Given).complete := by
        rw [Given.complete_iff]
        exact ⟨hfollows.1, hfollows.2.1, hfollows.2.2, rfl⟩
      refine h.advance hcall ⟨id, id, id, fun _ => rfl⟩ ?_ (fun _ => hcomplete) ?_
      · rintro stage binding' ⟨⟩
        exact hcomplete
      · rw [hnot]
        rfl
  | finish =>
      have hflagged : ({ s with cloudSyncFlag := true } : BoundStore).Raised :=
        ⟨h.tally, h.follows, h.last, h.results, h.answers⟩
      exact (hflagged.returns hfollows).move hcall rfl nofun

theorem raised_closes {i : Nat} {call : BoundCall} (hcall : s.calls[i]? = some call)
    (hbinds : call.binds = false) (result : GeneralError ⊕ DBStatus) :
    (s.closes i result).Raised := by
  have hnoted : ({ s with closings := s.closings ++ [result] } : BoundStore).Raised :=
    ⟨h.tally, h.follows, h.last, h.results, h.answers⟩
  exact hnoted.move hcall hbinds nofun

theorem raised_closeStore {i : Nat} {isForce : Bool} (hcall : s.calls[i]? = some (.close isForce))
    (env : ClosingEnv) : (s.closeStore i isForce env).Raised := by
  have hover := raised_closes h hcall rfl
  have hclosed : ({ s with
      delegate := false, rdbStore := false, isClosed := true } : BoundStore).Raised :=
    ⟨h.tally, h.follows, h.last, h.results, h.answers⟩
  unfold closeStore
  split
  · exact hover _
  split
  · exact hover _
  split
  · exact hover _
  · split
    · exact hover _
    · exact hclosed.move hcall rfl nofun

omit h

theorem bind_of_usable {bindInfos : List (Nat × Database × BindInfo)} {config : CloudConfig}
    (husable : (BoundAction.bind bindInfos config).Usable) :
    (s.isBound = true ∧ s.bind bindInfos config = s.returns .eOk) ∨
      (s.isBound = false ∧ ∃ binding, s.bind bindInfos config =
        { s with isBound := true, calls := s.calls ++ [.bind .keepInfo binding] }) := by
  cases bindInfos with
  | nil => exact husable.elim
  | cons first rest =>
      obtain ⟨user, database, db, loader⟩ := first
      obtain ⟨hdb, hloader⟩ := husable
      obtain ⟨db, rfl⟩ := Option.isSome_iff_exists.mp hdb
      obtain ⟨loader, rfl⟩ := Option.isSome_iff_exists.mp hloader
      cases hbound : s.isBound with
      | true => exact .inl ⟨rfl, if_pos hbound⟩
      | false => exact .inr ⟨rfl, _, if_neg (by rw [hbound]; decide)⟩

theorem raised_step (h : s.Raised) (husable : a.Usable) (horder : s.InOrder a)
    (hstep : s.step a = some s') : s'.Raised := by
  cases a with
  | bind bindInfos config =>
      cases hstep
      rcases s.bind_of_usable husable with ⟨hbound, heq⟩ | ⟨hbound, binding, heq⟩
      · rw [heq]
        exact h.returns ((h.complete_iff_settled hbound).mpr (horder hbound))
      rw [heq]
      have htally := h.tally
      rw [hbound] at htally
      refine ⟨?_, ?_, h.last, h.results, h.answers⟩
      · have hmore : ((s.calls ++ [BoundCall.bind .keepInfo binding]).map fun call =>
            call.binds.toNat).sum = (s.calls.map fun call => call.binds.toNat).sum + 1 := by
          rw [List.map_append, List.sum_append]
          rfl
        simp only [hmore, Bool.toNat_true, Bool.toNat_false] at htally ⊢
        omega
      · intro stage other hmem
        rcases List.mem_append.mp hmem with hold | hnew
        · exact h.follows stage other hold
        · cases List.mem_singleton.mp hnew
          trivial
  | isBound =>
      cases hstep
      refine ⟨h.tally, h.follows, h.last, h.results, fun answer hanswer htrue => ?_⟩
      rcases List.mem_append.mp hanswer with hold | hnew
      · exact h.answers answer hold htrue
      · rw [List.mem_singleton.mp hnew] at htrue ⊢
        exact (h.complete_iff_settled htrue).mpr (horder htrue)
  | close isForce =>
      cases hstep
      refine ⟨?_, ?_, h.last, h.results, h.answers⟩
      · have htally := h.tally
        simpa [BoundCall.binds] using htally
      · intro stage binding hmem
        rcases List.mem_append.mp hmem with hold | hnew
        · exact h.follows stage binding hold
        · cases List.mem_singleton.mp hnew
  | next i env =>
      simp only [step, Option.map_eq_some_iff] at hstep
      obtain ⟨call, hcall, rfl⟩ := hstep
      cases call with
      | bind stage binding => exact raised_bindNext h hcall (horder _ hcall)
      | close isForce => exact raised_closeStore h hcall env
      | clear =>
          have hcleared : ({ s with bindInfo := {}, rdbCloud := none } : BoundStore).Raised :=
            ⟨h.tally, h.follows, h.last, h.results, h.answers⟩
          exact raised_closes hcleared hcall rfl _

theorem not_reallyBound_of_failed (h : s.Raised) {i : Nat} {stage : BindStage} {binding : Binding}
    (hcall : s.calls[i]? = some (.bind stage binding)) (hstage : stage ≠ .finish)
    (error : GeneralError) (herror : error ≠ .eOk) :
    ¬ ((s.returns error).move i none).ReallyBound := by
  intro hreally
  obtain ⟨hbound, hnot⟩ := h.binding (List.mem_of_getElem? hcall) (by simpa [BoundCall.binds])
  have hincomplete : ¬ s.given.complete := by
    intro hcomplete
    have hconfig := (s.given.complete_iff.mp hcomplete).2.2.2
    rw [hnot] at hconfig
    cases hconfig
  have hfailed : s.isBound = false := by
    refine hreally.failed ⟨(error, s.given), ?_, herror⟩ ?_
    · exact List.mem_append_right _ (List.mem_singleton_self _)
    · intro result hresult
      rcases List.mem_append.mp hresult with hold | hnew
      · exact absurd (h.results result hold).2.2 hincomplete
      · rw [List.mem_singleton.mp hnew]
        exact herror
  rw [hbound] at hfailed
  cases hfailed

theorem inOrder_of_reallyBound (h : s.Raised) (husable : a.Usable) (hstep : s.step a = some s')
    (hreally : s'.ReallyBound) : s.InOrder a := by
  cases a with
  | bind bindInfos config =>
      intro hbound
      cases hstep
      rcases s.bind_of_usable husable with ⟨-, heq⟩ | ⟨hnot, -⟩
      · rw [heq] at hreally
        have hcomplete := hreally.bind (.eOk, s.given)
          (List.mem_append_right _ (List.mem_singleton_self _)) rfl
        exact (h.complete_iff_settled hbound).mp hcomplete
      · rw [hbound] at hnot
        cases hnot
  | isBound =>
      intro hbound
      cases hstep
      have hcomplete := hreally.isBound (s.isBound, s.given)
        (List.mem_append_right _ (List.mem_singleton_self _)) hbound
      exact (h.complete_iff_settled hbound).mp hcomplete
  | close isForce => trivial
  | next i env =>
      intro call hcall
      simp only [step, Option.map_eq_some_iff] at hstep
      obtain ⟨call', hcall', rfl⟩ := hstep
      cases Option.some.inj (hcall'.symm.trans hcall)
      cases call with
      | bind stage binding =>
          cases stage with
          | checkClosed =>
              change s.isClosed = false
              by_contra hclosed
              rw [Bool.not_eq_false] at hclosed
              apply not_reallyBound_of_failed h hcall (by decide) .eAlreadyClosed (by decide)
              simpa [bindNext, hclosed] using hreally
          | lockDelegate =>
              change s.delegate = true
              by_contra hclosed
              apply not_reallyBound_of_failed h hcall (by decide) .eAlreadyClosed (by decide)
              simpa [bindNext, hclosed] using hreally
          | _ => trivial
      | close _ | clear => trivial

def fresh : BoundStore := { delegate, rdbStore }

theorem raised_fresh : (fresh delegate rdbStore).Raised where
  tally := rfl
  follows := fun _ _ hmem => absurd hmem List.not_mem_nil
  last := fun hgiven => absurd hgiven Bool.false_ne_true
  results := fun _ hmem => absurd hmem List.not_mem_nil
  answers := fun _ hmem => absurd hmem List.not_mem_nil

/-- As long as the flag is not looked at while a `Bind` is at work and no `Bind` finds the store
closed, whatever says that the store is bound says the truth. The first step that is not in
order breaks this. -/
theorem bound_store_is_bound (delegate rdbStore : Bool) {schedule : List BoundAction}
    (husable : ∀ a ∈ schedule, a.Usable)
    (hrun : boundStoreMachine.exec (fresh delegate rdbStore) schedule = some s)
    (horder : boundStoreMachine.Guarded InOrder (fresh delegate rdbStore) schedule) :
    s.ReallyBound ∧
      ∀ a s', a.Usable → boundStoreMachine.step s a = some s' → (s'.ReallyBound ↔ s.InOrder a) := by
  have hraised : s.Raised := by
    have hkeeps : ∀ s a s', s.Raised → (s.InOrder a ∧ a.Usable) →
        boundStoreMachine.step s a = some s' → s'.Raised :=
      fun s a s' h hboth hstep => raised_step h hboth.2 hboth.1 hstep
    exact boundStoreMachine.exec_guarded_invariant hkeeps (raised_fresh delegate rdbStore)
      (horder.and (boundStoreMachine.guarded_of_mem husable _)) hrun
  refine ⟨hraised.reallyBound, fun a s' husable hstep => ?_⟩
  constructor
  · exact inOrder_of_reallyBound hraised husable hstep
  · exact fun horder => (raised_step hraised husable horder hstep).reallyBound

/-- The schedule of one `Bind` from its exchange on, at the head of the calls. -/
def wholeBind : List BoundAction :=
  .bind [(100, ⟨"notes", "", []⟩, ⟨some 7, some 8⟩)] {} :: List.replicate 8 (.next 0 {})

/-- The store is bound, two callers are told so, and it is closed. -/
def boundThenClosed : List BoundAction :=
  wholeBind ++ [.isBound, .bind [(100, ⟨"notes", "", []⟩, ⟨some 7, some 8⟩)] {}, .close false,
    .next 0 {}, .next 0 {}]

theorem bound_store_is_bound_boundThenClosed :
    ∃ s, boundStoreMachine.exec (fresh true true) boundThenClosed = some s ∧
      s.isClosed = true ∧ s.results.length = 2 ∧ s.answers.length = 1 ∧ s.ReallyBound := by
  have hrun : (boundStoreMachine.exec (fresh true true) boundThenClosed).map
      (fun s => (s.isClosed, s.results.length, s.answers.length)) = some (true, 2, 1) := by
    decide +kernel
  obtain ⟨s, hs, hfields⟩ := Option.map_eq_some_iff.mp hrun
  simp only [Prod.mk.injEq] at hfields
  obtain ⟨hclosed, hresults, hanswers⟩ := hfields
  exact ⟨s, hs, hclosed, hresults, hanswers,
    (bound_store_is_bound true true (by decide +kernel) hs (by decide +kernel)).1⟩

/-- A second caller is told that the store is bound while nothing has been handed over. -/
def boundTwice : List BoundAction :=
  [.bind [(100, ⟨"notes", "", []⟩, ⟨some 7, some 8⟩)] {},
    .bind [(100, ⟨"notes", "", []⟩, ⟨some 7, some 8⟩)] {}, .isBound]

/-- A `Bind` finds the store closed. -/
def closedThenBound : List BoundAction :=
  [.close true, .bind [(100, ⟨"notes", "", []⟩, ⟨some 7, some 8⟩)] {}, .next 1 {}, .next 1 {}]

/-- The flag is up before anything is handed over, and it stays up after a `Bind` has failed. -/
theorem flag_up_without_binding :
    (∃ s, boundStoreMachine.exec (fresh true true) boundTwice = some s ∧
      s.results = [(.eOk, {})] ∧ s.answers = [(true, {})] ∧ ¬ s.ReallyBound) ∧
    ∃ s, boundStoreMachine.exec (fresh true true) closedThenBound = some s ∧
      s.results = [(.eAlreadyClosed, {})] ∧ s.isBound = true ∧ ¬ s.ReallyBound := by
  constructor
  · have hrun : (boundStoreMachine.exec (fresh true true) boundTwice).map
        (fun s => (s.results, s.answers)) = some ([(.eOk, {})], [(true, {})]) := by
      decide +kernel
    obtain ⟨s, hs, hfields⟩ := Option.map_eq_some_iff.mp hrun
    obtain ⟨hresults, hanswers⟩ := Prod.mk.inj hfields
    refine ⟨s, hs, hresults, hanswers, fun h => ?_⟩
    have hcomplete := h.isBound (true, {}) (by simp [hanswers]) rfl
    cases hcomplete
  · have hrun : (boundStoreMachine.exec (fresh true true) closedThenBound).map
        (fun s => (s.results, s.isBound)) = some ([(.eAlreadyClosed, {})], true) := by
      decide +kernel
    obtain ⟨s, hs, hfields⟩ := Option.map_eq_some_iff.mp hrun
    obtain ⟨hresults, hbound⟩ := Prod.mk.inj hfields
    refine ⟨s, hs, hresults, hbound, fun h => ?_⟩
    have hlowered := h.failed (by simp [hresults]) (by simp [hresults])
    rw [hbound] at hlowered
    cases hlowered

end BoundStore

end DataMgr.Rdb
