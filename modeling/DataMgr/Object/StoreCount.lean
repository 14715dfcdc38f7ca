import DataMgr.Foundation.Machine

/-! # The count of the opened object store

The store is opened for a piece of work and closed after it, and a count says how many of
the openings are still to be closed. Closing can be put off by a minute; a closing that is
put off belongs to an opening, but the count does not know to which one. The openings of
the store that is open now, and which of them still wait for their closing, are kept beside
the count, with what every decrement and every closing of the store found.
-/

namespace DataMgr.Object

open DataMgr.Foundation

/-- What a call finds: whether there are a delegate manager and a thread pool, how many
tasks the store has, and whether the database can be opened and closed. -/
structure StoreEnv where
  manager : Bool := true
  executors : Bool := true
  taskCount : Int := 0
  opens : Bool := true
  closes : Bool := true
deriving DecidableEq, Repr

structure CountedStore where
  /-- `delegate_` is not null. -/
  opened : Bool := false
  syncCount : BitVec 32 := 0
  isSyncing : Bool := false
  /-- The openings since the store was last opened that are not matched by their closing. -/
  opens : List Nat := []
  /-- The openings whose caller has not closed yet. -/
  callers : List Nat := []
  /-- The closings that `CloseAfterMinute` has put off. -/
  delayed : List Nat := []
  /-- The times `FlushClosedStore` is to be tried again. -/
  retries : Nat := 0
  next : Nat := 0
  /-- The count each decrement found. -/
  lowered : List (BitVec 32) := []
  /-- The unmatched openings each closing by `FlushClosedStore` found. -/
  flushed : List (List Nat) := []
deriving DecidableEq, Repr

variable (s : CountedStore) (env : StoreEnv) (opening : Nat)

namespace CountedStore

def openStore : CountedStore :=
  if env.manager = false then s
  else if s.opened then
    { s with
      syncCount := s.syncCount + 1
      opens := s.opens ++ [s.next]
      callers := s.callers ++ [s.next]
      next := s.next + 1 }
  else if env.opens = false then s
  else
    { s with
      opened := true
      syncCount := 1
      opens := [s.next]
      callers := s.callers ++ [s.next]
      next := s.next + 1 }

def flushClosedStore : CountedStore :=
  if env.executors = false ∨ env.manager = false then s
  else if s.isSyncing = false ∧ s.syncCount = 0 ∧ s.opened then
    if env.closes then
      { s with opened := false, flushed := s.flushed ++ [s.opens], opens := [] }
    else { s with retries := s.retries + 1 }
  else s

/-- Without a thread pool nothing is put off, and the closing is over. -/
def closeAfterMinute : CountedStore :=
  if env.executors then { s with delayed := s.delayed ++ [opening] }
  else { s with opens := s.opens.erase opening }

def lower : CountedStore :=
  { s with
    syncCount := s.syncCount - 1
    lowered := s.lowered ++ [s.syncCount]
    opens := s.opens.erase opening }

def close : CountedStore :=
  if s.opened = false then s
  else if env.taskCount > 0 ∧ s.syncCount = 1 then s.closeAfterMinute env opening
  else (s.lower opening).flushClosedStore env

def forceClose : CountedStore :=
  if env.manager = false ∨ s.opened = false ∨ env.closes = false then s
  else { s with opened := false, isSyncing := false, syncCount := 0, opens := [] }

def syncCompleted : CountedStore :=
  { s with isSyncing := false }.flushClosedStore env

end CountedStore

inductive StoreCall where
  | openStore (env : StoreEnv)
  /-- The caller of an opening closes. -/
  | close (i : Nat) (env : StoreEnv)
  /-- The caller of an opening has it closed after a minute. -/
  | closeAfterMinute (i : Nat) (env : StoreEnv)
  /-- A closing that was put off takes place. -/
  | fire (i : Nat) (env : StoreEnv)
  | forceClose (env : StoreEnv)
  | startSync
  | syncCompleted (env : StoreEnv)
  | flushAgain (env : StoreEnv)
deriving DecidableEq, Repr

namespace CountedStore

def step : StoreCall → Option CountedStore
  | .openStore env => some (s.openStore env)
  | .close i env =>
      (s.callers[i]?).map fun opening =>
        { s with callers := s.callers.eraseIdx i }.close env opening
  | .closeAfterMinute i env =>
      (s.callers[i]?).map fun opening =>
        { s with callers := s.callers.eraseIdx i }.closeAfterMinute env opening
  | .fire i env =>
      (s.delayed[i]?).map fun opening =>
        { s with delayed := s.delayed.eraseIdx i }.close env opening
  | .forceClose env => some (s.forceClose env)
  | .startSync => if s.opened then some { s with isSyncing := true } else none
  | .syncCompleted env => some (s.syncCompleted env)
  | .flushAgain env =>
      if s.retries = 0 then none
      else some ({ s with retries := s.retries - 1 }.flushClosedStore env)

end CountedStore

def storeCountMachine : Machine CountedStore StoreCall := ⟨CountedStore.step⟩

namespace CountedStore

variable {s s' : CountedStore} {env : StoreEnv} {opening : Nat}

/-- The count is right, it was never lowered below zero, and the store was never closed under
an opening that is not matched. -/
structure Accounted (s : CountedStore) : Prop where
  count : s.syncCount.toNat = s.opens.length
  lowered : ∀ count ∈ s.lowered, count ≠ 0
  flushed : ∀ opens ∈ s.flushed, opens = []

/-- The closing is of an opening of the store that is open now. -/
def Owns (s : CountedStore) (env : StoreEnv) (opening : Nat) : Prop :=
  s.opened = true →
    if env.taskCount > 0 ∧ s.syncCount = 1 then env.executors = true ∨ opening ∉ s.opens
    else opening ∈ s.opens

/-- Every closing finds the store its opening opened, what is put off is put off by a thread
pool, and the count does not overflow. -/
def Orderly (s : CountedStore) : StoreCall → Prop
  | .openStore env => env.manager = true → s.opened = true → s.opens.length + 1 < 2 ^ 32
  | .close i env => ∀ opening, s.callers[i]? = some opening → s.Owns env opening
  | .closeAfterMinute i env =>
      ∀ opening, s.callers[i]? = some opening → env.executors = true ∨ opening ∉ s.opens
  | .fire i env => ∀ opening, s.delayed[i]? = some opening → s.Owns env opening
  | .forceClose _ | .startSync | .syncCompleted _ | .flushAgain _ => True

theorem flushClosedStore_cases (s : CountedStore) (env : StoreEnv) :
    s.flushClosedStore env = s ∨ s.flushClosedStore env = { s with retries := s.retries + 1 } ∨
      (s.syncCount = 0 ∧ s.flushClosedStore env =
        { s with opened := false, flushed := s.flushed ++ [s.opens], opens := [] }) := by
  unfold flushClosedStore
  split
  · exact .inl rfl
  split
  · rename_i hidle
    split
    · exact .inr (.inr ⟨hidle.2.1, rfl⟩)
    · exact .inr (.inl rfl)
  · exact .inl rfl

/-- A flush neither breaks the accounts nor repairs them: closing the store too early shows
in what it found. -/
theorem flushClosedStore_accounted_iff :
    (s.flushClosedStore env).Accounted ↔ s.Accounted := by
  rcases s.flushClosedStore_cases env with heq | heq | ⟨hzero, heq⟩
  · rw [heq]
  · rw [heq]
    exact ⟨fun h => ⟨h.count, h.lowered, h.flushed⟩, fun h => ⟨h.count, h.lowered, h.flushed⟩⟩
  rw [heq]
  constructor
  · intro h
    have hopens : s.opens = [] :=
      h.flushed s.opens (List.mem_append_right _ (List.mem_singleton_self _))
    refine ⟨?_, h.lowered, fun opens hmem => h.flushed opens (List.mem_append_left _ hmem)⟩
    rw [hzero, hopens]
    rfl
  · intro h
    have hopens : s.opens = [] := by
      have hcount := h.count
      rw [hzero] at hcount
      exact List.length_eq_zero_iff.mp hcount.symm
    refine ⟨?_, h.lowered, fun opens hmem => ?_⟩
    · rw [hzero]
      rfl
    · rcases List.mem_append.mp hmem with hold | hnew
      · exact h.flushed opens hold
      · rw [List.mem_singleton.mp hnew, hopens]

variable (h : s.Accounted)

include h

theorem lower_accounted_iff : (s.lower opening).Accounted ↔ opening ∈ s.opens := by
  have hcount := h.count
  constructor
  · intro hlower
    by_contra hmem
    have hnew : (s.syncCount - 1).toNat = (s.opens.erase opening).length := hlower.count
    rw [List.erase_of_not_mem hmem, ← hcount] at hnew
    bv_omega
  · intro hmem
    have hpos : 0 < s.opens.length := List.length_pos_of_mem hmem
    have hne : s.syncCount ≠ 0 := by
      intro hzero
      rw [hzero] at hcount
      have : s.opens.length = 0 := hcount.symm
      omega
    refine ⟨?_, fun count hin => ?_, h.flushed⟩
    · change (s.syncCount - 1).toNat = (s.opens.erase opening).length
      rw [List.length_erase_of_mem hmem, ← hcount]
      bv_omega
    · rcases mem_concat.mp hin with hold | rfl
      · exact h.lowered count hold
      · exact hne

theorem closeAfterMinute_accounted_iff :
    (s.closeAfterMinute env opening).Accounted ↔ env.executors = true ∨ opening ∉ s.opens := by
  unfold closeAfterMinute
  split
  · rename_i hexecutors
    exact ⟨fun _ => .inl hexecutors, fun _ => ⟨h.count, h.lowered, h.flushed⟩⟩
  rename_i hexecutors
  rw [or_iff_right hexecutors]
  constructor
  · intro hdropped hmem
    have hpos : 0 < s.opens.length := List.length_pos_of_mem hmem
    have hnew : s.syncCount.toNat = (s.opens.erase opening).length := hdropped.count
    rw [List.length_erase_of_mem hmem, h.count] at hnew
    omega
  · intro hmem
    rw [List.erase_of_not_mem hmem]
    exact h

theorem close_accounted_iff : (s.close env opening).Accounted ↔ s.Owns env opening := by
  unfold close Owns
  by_cases hopened : s.opened = true
  · rw [if_neg (by rw [hopened]; decide), forall_prop_of_true hopened]
    by_cases hbusy : env.taskCount > 0 ∧ s.syncCount = 1
    · rw [if_pos hbusy, if_pos hbusy]
      exact closeAfterMinute_accounted_iff h
    · rw [if_neg hbusy, if_neg hbusy, flushClosedStore_accounted_iff]
      exact lower_accounted_iff h
  · rw [if_pos (by simpa using hopened)]
    exact ⟨fun _ hopen => absurd hopen hopened, fun _ => h⟩

theorem openStore_accounted_iff :
    (s.openStore env).Accounted ↔
      (env.manager = true → s.opened = true → s.opens.length + 1 < 2 ^ 32) := by
  have hcount := h.count
  unfold openStore
  by_cases hmanager : env.manager = true
  · rw [if_neg (by rw [hmanager]; decide), forall_prop_of_true hmanager]
    by_cases hopened : s.opened = true
    · rw [if_pos hopened, forall_prop_of_true hopened]
      have hadd : (s.syncCount + 1).toNat = (s.opens.length + 1) % 2 ^ 32 := by
        rw [BitVec.toNat_add, hcount]
        rfl
      constructor
      · intro hmore
        have hnew : (s.syncCount + 1).toNat = (s.opens ++ [s.next]).length := hmore.count
        rw [hadd, List.length_append] at hnew
        have hlt := Nat.mod_lt (s.opens.length + 1) (Nat.two_pow_pos 32)
        rw [hnew] at hlt
        exact hlt
      · intro hlt
        refine ⟨?_, h.lowered, h.flushed⟩
        rw [hadd, List.length_append, Nat.mod_eq_of_lt hlt]
        rfl
    · rw [if_neg hopened]
      refine ⟨fun _ hopen => absurd hopen hopened, fun _ => ?_⟩
      split
      · exact h
      · exact ⟨rfl, h.lowered, h.flushed⟩
  · rw [if_pos (by simpa using hmanager)]
    exact ⟨fun _ hm => absurd hm hmanager, fun _ => h⟩

theorem forceClose_accounted : (s.forceClose env).Accounted := by
  unfold forceClose
  split
  · exact h
  · exact ⟨rfl, h.lowered, h.flushed⟩

theorem accounted_step_iff {call : StoreCall} (hstep : s.step call = some s') :
    s'.Accounted ↔ s.Orderly call := by
  have hcallers : ∀ callers, ({ s with callers } : CountedStore).Accounted :=
    fun _ => ⟨h.count, h.lowered, h.flushed⟩
  have hdelayed : ∀ delayed, ({ s with delayed } : CountedStore).Accounted :=
    fun _ => ⟨h.count, h.lowered, h.flushed⟩
  cases call with
  | openStore env =>
      cases hstep
      exact openStore_accounted_iff h
  | close i env =>
      simp only [step, Option.map_eq_some_iff] at hstep
      obtain ⟨opening, hopening, rfl⟩ := hstep
      rw [close_accounted_iff (hcallers _), Orderly]
      exact ⟨fun howns other hother => Option.some.inj (hopening.symm.trans hother) ▸ howns,
        fun horderly => horderly opening hopening⟩
  | closeAfterMinute i env =>
      simp only [step, Option.map_eq_some_iff] at hstep
      obtain ⟨opening, hopening, rfl⟩ := hstep
      rw [closeAfterMinute_accounted_iff (hcallers _), Orderly]
      exact ⟨fun howns other hother => Option.some.inj (hopening.symm.trans hother) ▸ howns,
        fun horderly => horderly opening hopening⟩
  | fire i env =>
      simp only [step, Option.map_eq_some_iff] at hstep
      obtain ⟨opening, hopening, rfl⟩ := hstep
      rw [close_accounted_iff (hdelayed _), Orderly]
      exact ⟨fun howns other hother => Option.some.inj (hopening.symm.trans hother) ▸ howns,
        fun horderly => horderly opening hopening⟩
  | forceClose env =>
      cases hstep
      exact iff_of_true (forceClose_accounted h) trivial
  | startSync =>
      simp only [step] at hstep
      split at hstep
      · cases hstep
        exact iff_of_true ⟨h.count, h.lowered, h.flushed⟩ trivial
      · cases hstep
  | syncCompleted env =>
      cases hstep
      rw [syncCompleted, flushClosedStore_accounted_iff]
      exact iff_of_true ⟨h.count, h.lowered, h.flushed⟩ trivial
  | flushAgain env =>
      simp only [step] at hstep
      split at hstep
      · cases hstep
      · cases hstep
        rw [flushClosedStore_accounted_iff]
        exact iff_of_true ⟨h.count, h.lowered, h.flushed⟩ trivial

omit h

instance (s : CountedStore) (env : StoreEnv) (opening : Nat) : Decidable (s.Owns env opening) :=
  inferInstanceAs (Decidable (_ → ite _ _ _))

instance (s : CountedStore) (call : StoreCall) : Decidable (s.Orderly call) :=
  match call with
  | .openStore _ => inferInstanceAs (Decidable (_ → _ → _))
  | .close i _ | .closeAfterMinute i _ => inferInstanceAs (Decidable (∀ _ ∈ s.callers[i]?, _))
  | .fire i _ => inferInstanceAs (Decidable (∀ _ ∈ s.delayed[i]?, _))
  | .forceClose _ | .startSync | .syncCompleted _ | .flushAgain _ =>
      inferInstanceAs (Decidable True)

end CountedStore

/-- The accounts are right after every sequence of orderly calls, and the first call that is
not orderly puts them wrong. -/
theorem store_count_right {calls : List StoreCall} {s : CountedStore}
    (hrun : storeCountMachine.exec {} calls = some s)
    (horderly : storeCountMachine.Guarded CountedStore.Orderly {} calls) :
    s.Accounted ∧ ∀ call s', storeCountMachine.step s call = some s' →
      (s'.Accounted ↔ s.Orderly call) := by
  have hinit : ({} : CountedStore).Accounted :=
    ⟨rfl, fun _ h => absurd h List.not_mem_nil, fun _ h => absurd h List.not_mem_nil⟩
  have haccounted : s.Accounted := storeCountMachine.exec_guarded_invariant
    (fun _ _ _ h horderly hstep => (CountedStore.accounted_step_iff h hstep).mpr horderly)
    hinit horderly hrun
  exact ⟨haccounted, fun call s' hstep => CountedStore.accounted_step_iff haccounted hstep⟩

/-- The store is opened twice; the last closing finds tasks and is put off, and takes place
after a third opening was closed at once. -/
def putOffClosing : List StoreCall :=
  [.openStore {}, .openStore {}, .startSync, .close 0 {}, .close 0 { taskCount := 2 },
    .openStore {}, .close 0 { taskCount := 2 }, .syncCompleted {}, .fire 0 {}]

theorem store_count_right_putOffClosing :
    ∃ s, storeCountMachine.exec {} putOffClosing = some s ∧ s.opened = false ∧
      s.lowered = [2, 2, 1] ∧ s.Accounted := by
  have hrun : storeCountMachine.exec {} putOffClosing =
      some { lowered := [2, 2, 1], flushed := [[]], next := 3 } := by
    decide +kernel
  have horderly : storeCountMachine.Guarded CountedStore.Orderly {} putOffClosing := by
    decide +kernel
  exact ⟨_, hrun, rfl, rfl, (store_count_right hrun horderly).1⟩

/-- A closing is put off, the store is closed by force and opened again. The closing takes
place on the new store and closes it under its opening; after that opening was closed
during a synchronisation, it takes the count below zero. -/
theorem put_off_closing_of_other_store :
    (∃ s, storeCountMachine.exec {}
        [.openStore {}, .closeAfterMinute 0 {}, .forceClose {}, .openStore {}, .fire 0 {}] =
        some s ∧ s.opened = false ∧ s.flushed = [[1]] ∧ ¬ s.Accounted) ∧
    ∃ s, storeCountMachine.exec {}
        [.openStore {}, .closeAfterMinute 0 {}, .forceClose {}, .openStore {}, .startSync,
          .close 0 {}, .fire 0 {}] = some s ∧
      s.opens = [] ∧ s.syncCount.toNat = 2 ^ 32 - 1 ∧ ¬ s.Accounted := by
  constructor
  · have hrun : storeCountMachine.exec {}
        [.openStore {}, .closeAfterMinute 0 {}, .forceClose {}, .openStore {}, .fire 0 {}] =
        some { callers := [1], lowered := [1], flushed := [[1]], next := 2 } := by
      decide +kernel
    refine ⟨_, hrun, rfl, rfl, fun h => ?_⟩
    exact absurd (h.flushed [1] (List.mem_singleton_self _)) (by decide)
  · have hrun : storeCountMachine.exec {}
        [.openStore {}, .closeAfterMinute 0 {}, .forceClose {}, .openStore {}, .startSync,
          .close 0 {}, .fire 0 {}] =
        some { opened := true, syncCount := BitVec.ofNat 32 (2 ^ 32 - 1), isSyncing := true,
               lowered := [1, 0], next := 2 } := by
      decide +kernel
    refine ⟨_, hrun, rfl, rfl, fun h => ?_⟩
    exact h.lowered 0 (List.mem_cons_of_mem _ (List.mem_singleton_self _)) rfl

end DataMgr.Object
