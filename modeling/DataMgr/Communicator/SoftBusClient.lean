import DataMgr.Foundation.Machine

/-! # The sockets of a soft bus client

A client gets a socket in `OpenConnect`, which leaves binding and publishing it to a task, or
in `ReuseConnect`, which does both at once. Both run under the lock of the client, and so does
the publication by the task; the task's other steps do not. The client lives as long as a task
holds it. Sockets are numbered as they are obtained, and every `Shutdown` is kept in a list.
-/

namespace DataMgr.Communicator

open DataMgr.Foundation

/-- What `CreateSocket` does: no socket, a socket whose access info cannot be set, of which
the caller learns nothing, or a socket. -/
inductive Creation
  | failed
  | refused
  | created
deriving DecidableEq, Repr

/-- Where an open task stands: before `Bind`, before `UpdateBindInfo`, before its end. -/
inductive OpenTask
  | bind (socket : Nat)
  | update (socket : Nat)
  | finish
deriving DecidableEq, Repr

structure SoftBusClient where
  /-- A positive `socket_`. -/
  socket : Option Nat := none
  /-- `bindState_` is zero. -/
  bound : Bool := false
  isOpening : Bool := false
  alive : Bool := true
  tasks : List OpenTask := []
  /-- The number of sockets obtained. -/
  next : Nat := 0
  shutdowns : List Nat := []
deriving DecidableEq, Repr

inductive ClientAction
  | openConnect (creation : Creation) (executor : Bool)
  /-- `opens` says whether `Bind` and `GetMtu` succeed. -/
  | reuseConnect (creation : Creation) (opens : Bool)
  | task (i : Nat) (opens : Bool)
  | destroy
deriving DecidableEq, Repr

variable (s : SoftBusClient) (socket : Nat)

namespace SoftBusClient

def openConnect (creation : Creation) (executor : Bool) : SoftBusClient :=
  if s.bound || s.isOpening then s
  else
    match creation with
    | .failed => s
    | .refused => { s with next := s.next + 1 }
    | .created =>
        { s with
          isOpening := true
          next := s.next + 1
          tasks := if executor then s.tasks ++ [.bind s.next] else s.tasks }

def reuseConnect (creation : Creation) (opens : Bool) : SoftBusClient :=
  if s.bound then s
  else
    match creation with
    | .failed => s
    | .refused => { s with next := s.next + 1 }
    | .created =>
        if opens then { s with next := s.next + 1, socket := some s.next, bound := true }
        else { s with next := s.next + 1, shutdowns := s.shutdowns ++ [s.next] }

def runTask (i : Nat) (opens : Bool) : OpenTask → SoftBusClient
  | .bind socket =>
      if opens then { s with tasks := advance s.tasks i (some (.update socket)) }
      else
        { s with
          tasks := advance s.tasks i (some .finish)
          shutdowns := s.shutdowns ++ [socket] }
  | .update socket =>
      { s with
        tasks := advance s.tasks i (some .finish)
        socket := some socket
        bound := true }
  | .finish => { s with tasks := advance s.tasks i none, isOpening := false }

def destroy : SoftBusClient :=
  { s with alive := false, shutdowns := s.shutdowns ++ s.socket.toList }

def step (a : ClientAction) : Option SoftBusClient :=
  if s.alive = false then none
  else
    match a with
    | .openConnect creation executor => some (s.openConnect creation executor)
    | .reuseConnect creation opens => some (s.reuseConnect creation opens)
    | .task i opens => s.tasks[i]?.map (s.runTask i opens)
    | .destroy => if s.tasks = [] then some s.destroy else none

end SoftBusClient

def clientMachine : Machine SoftBusClient ClientAction where
  step := SoftBusClient.step

def OpenTask.holds : OpenTask → Nat
  | .bind k | .update k => if k = socket then 1 else 0
  | .finish => 0

open OpenTask

namespace SoftBusClient

def current : Nat :=
  if s.alive = true ∧ s.socket = some socket then 1 else 0

/-- How often the socket was shut down, is the current one, or is with a task. -/
def places : Nat :=
  s.shutdowns.count socket + s.current socket + (s.tasks.map (holds socket)).sum

/-- No socket is lost or shut down twice, and the flag is set only during an open task. -/
structure Sound (s : SoftBusClient) : Prop where
  once : ∀ socket, s.places socket = if socket < s.next then 1 else 0
  opening : s.isOpening = true → s.tasks ≠ []

/-- The condition on an action: a socket that is obtained gets its access info and, in
`OpenConnect`, an executor, and a task publishes its socket where there is none. -/
def Keeps : ClientAction → Prop
  | .openConnect creation executor =>
      s.bound = true ∨ s.isOpening = true ∨ creation = .failed ∨
        (creation = .created ∧ executor = true)
  | .reuseConnect creation _ => s.bound = true ∨ creation ≠ .refused
  | .task i _ => ∀ task ∈ s.tasks[i]?, ∀ socket, task = .update socket → s.socket = none
  | .destroy => True

instance (s : SoftBusClient) : (a : ClientAction) → Decidable (s.Keeps a)
  | .openConnect _ _ => inferInstanceAs (Decidable (_ ∨ _))
  | .reuseConnect _ _ => inferInstanceAs (Decidable (_ ∨ _))
  | .task i _ =>
      match h : s.tasks[i]? with
      | some (.update _) => decidable_of_iff (s.socket = none) (by simp [Keeps, h])
      | some (.bind _) | some .finish | none => isTrue (by simp [Keeps, h])
  | .destroy => isTrue trivial

variable {s s' : SoftBusClient}

/-- What every run keeps: the socket is set when the binding is, and the last task has ended
when the client dies. -/
structure Consistent (s : SoftBusClient) : Prop where
  bound : s.bound = s.socket.isSome
  dead : s.alive = false → s.tasks = []

theorem consistent_step (hs : s.Consistent) {a : ClientAction} (h : s.step a = some s') :
    s'.Consistent := by
  simp only [step] at h
  split at h
  · cases h
  rename_i halive
  have hdead : ∀ {p : Prop}, s.alive = false → p := fun h => absurd h halive
  cases a with
  | openConnect creation executor =>
      cases h
      simp only [openConnect]
      repeat' split
      all_goals first | exact hs | exact ⟨hs.bound, fun h => hdead h⟩
  | reuseConnect creation opens =>
      cases h
      simp only [reuseConnect]
      repeat' split
      all_goals
        first
        | exact hs
        | exact ⟨hs.bound, fun h => hdead h⟩
        | exact ⟨rfl, fun h => hdead h⟩
  | task i opens =>
      obtain ⟨task, -, rfl⟩ := Option.map_eq_some_iff.mp h
      cases task with
      | bind socket =>
          simp only [runTask]
          split <;> exact ⟨hs.bound, fun h => hdead h⟩
      | update socket => exact ⟨rfl, fun h => hdead h⟩
      | finish => exact ⟨hs.bound, fun h => hdead h⟩
  | destroy =>
      obtain ⟨htasks, hs'⟩ := Option.ite_none_right_eq_some.mp h
      cases hs'
      exact ⟨hs.bound, fun _ => htasks⟩

variable (hs : s.Sound)

include hs

theorem Sound.lost (hnext : s'.next = s.next + 1) (hplaces : s'.places s.next = s.places s.next) :
    ¬ s'.Sound := by
  intro hs'
  have hbefore := hs.once s.next
  have hafter := hs'.once s.next
  rw [hplaces, hbefore, hnext] at hafter
  simp at hafter

theorem Sound.gained (hnext : s'.next = s.next + 1)
    (hplaces : ∀ socket, s'.places socket = s.places socket + if s.next = socket then 1 else 0)
    (hopening : s'.isOpening = true → s'.tasks ≠ []) : s'.Sound := by
  refine ⟨fun socket => ?_, hopening⟩
  rw [hplaces, hs.once, hnext]
  split_ifs <;> omega

theorem Sound.moved (hnext : s'.next = s.next)
    (hplaces : ∀ socket, s'.places socket = s.places socket)
    (hopening : s'.isOpening = true → s'.tasks ≠ []) : s'.Sound :=
  ⟨fun socket => by rw [hplaces, hs.once, hnext], hopening⟩

theorem openConnect_sound_iff (creation : Creation) (executor : Bool) :
    (s.openConnect creation executor).Sound ↔ s.Keeps (.openConnect creation executor) := by
  simp only [openConnect, Keeps, Bool.or_eq_true]
  split
  · tauto
  rename_i hready
  obtain ⟨hbound, hopening⟩ := not_or.mp hready
  cases creation with
  | failed => simp [hs]
  | refused => exact iff_of_false (hs.lost rfl rfl) (by simp [hbound, hopening])
  | created =>
      cases executor with
      | false => exact iff_of_false (hs.lost rfl rfl) (by simp [hbound, hopening])
      | true =>
          simp only [if_true, and_self, or_true, iff_true]
          refine hs.gained rfl (fun socket => ?_) (fun _ => by simp)
          simp [places, current, holds, Nat.add_assoc]

theorem reuseConnect_sound_iff (hbound : s.bound = s.socket.isSome) (halive : s.alive = true)
    (creation : Creation) (opens : Bool) :
    (s.reuseConnect creation opens).Sound ↔ s.Keeps (.reuseConnect creation opens) := by
  simp only [reuseConnect, Keeps]
  split
  · simp_all
  rename_i hunbound
  have hsocket : s.socket = none := by simpa [hbound] using hunbound
  cases creation with
  | failed => simp [hs]
  | refused => exact iff_of_false (hs.lost rfl rfl) (by simp [hunbound])
  | created =>
      simp only [ne_eq, reduceCtorEq, not_false_eq_true, or_true, iff_true]
      split
      · refine hs.gained rfl (fun socket => ?_) hs.opening
        simp [places, current, halive, hsocket, Nat.add_right_comm]
      · refine hs.gained rfl (fun socket => ?_) hs.opening
        simp only [places, current, List.count_append, List.count_singleton, beq_iff_eq]
        omega

omit hs

theorem advance_ne_nil {i : Nat} {task next : OpenTask} (hi : s.tasks[i]? = some task) :
    advance s.tasks i (some next) ≠ [] :=
  List.ne_nil_of_mem (mem_advance_self hi)

theorem runTask_sound_iff (hs : s.Sound) (halive : s.alive = true) {i : Nat} {task : OpenTask}
    (hi : s.tasks[i]? = some task) (opens : Bool) :
    (s.runTask i opens task).Sound ↔ s.Keeps (.task i opens) := by
  have hsum := fun socket next => sum_advance (holds socket) next hi
  simp only [Keeps, hi, Option.mem_def, Option.some.injEq, forall_eq']
  cases task with
  | bind socket =>
      simp only [reduceCtorEq, false_implies, implies_true, iff_true, runTask]
      split
      · refine hs.moved rfl (fun k => ?_) (fun _ => advance_ne_nil hi)
        have := hsum k (some (.update socket))
        simp only [places, current, Option.elim, holds] at this ⊢
        omega
      · refine hs.moved rfl (fun k => ?_) (fun _ => advance_ne_nil hi)
        have := hsum k (some .finish)
        simp only [places, current, Option.elim, holds, List.count_append,
          List.count_singleton, beq_iff_eq] at this ⊢
        omega
  | finish =>
      simp only [reduceCtorEq, false_implies, implies_true, iff_true, runTask]
      refine hs.moved rfl (fun k => ?_) (fun h => by cases h)
      have := hsum k none
      simp only [places, current, Option.elim, holds] at this ⊢
      omega
  | update socket =>
      simp only [update.injEq, forall_eq', runTask]
      constructor
      · intro hafter
        by_contra hsome
        obtain ⟨old, hold⟩ := Option.ne_none_iff_exists'.mp hsome
        have hbefore := hs.once old
        have hnow := hafter.once old
        have := hsum old (some .finish)
        simp only [places, current, Option.elim, holds, halive, hold, true_and,
          Option.some.injEq] at this hbefore hnow
        split_ifs at this hbefore hnow <;> omega
      · intro hnone
        refine hs.moved rfl (fun k => ?_) (fun _ => advance_ne_nil hi)
        have := hsum k (some .finish)
        simp only [places, current, Option.elim, holds, halive, hnone, true_and,
          Option.some.injEq, reduceCtorEq, if_false] at this ⊢
        omega

theorem destroy_sound (hs : s.Sound) (halive : s.alive = true) : s.destroy.Sound := by
  refine hs.moved rfl (fun socket => ?_) hs.opening
  cases hsocket : s.socket <;>
    simp [places, current, destroy, halive, hsocket, List.count_singleton]

theorem step_sound_iff (hs : s.Sound) (hcons : s.Consistent) {a : ClientAction}
    (h : s.step a = some s') : s'.Sound ↔ s.Keeps a := by
  simp only [step] at h
  split at h
  · cases h
  rename_i halive
  rw [Bool.not_eq_false] at halive
  cases a with
  | openConnect creation executor =>
      cases h
      exact openConnect_sound_iff hs creation executor
  | reuseConnect creation opens =>
      cases h
      exact reuseConnect_sound_iff hs hcons.bound halive creation opens
  | task i opens =>
      obtain ⟨task, hi, rfl⟩ := Option.map_eq_some_iff.mp h
      exact runTask_sound_iff hs halive hi opens
  | destroy =>
      obtain ⟨-, hs'⟩ := Option.ite_none_right_eq_some.mp h
      cases hs'
      exact iff_of_true (destroy_sound hs halive) trivial

/-- In every run whose actions meet their condition each socket is in one place and the flag
is set only during an open task; the next action keeps it so exactly if it meets the condition
too; and once the client is gone each socket has been shut down once. -/
theorem sockets_in_order {actions : List ClientAction} {s : SoftBusClient}
    (hrun : clientMachine.exec {} actions = some s)
    (hkeeps : clientMachine.Guarded Keeps {} actions) :
    s.Sound ∧ (∀ a s', s.step a = some s' → (s'.Sound ↔ s.Keeps a)) ∧
      (s.alive = false → ∀ socket < s.next, s.shutdowns.count socket = 1) := by
  have hinit : ({} : SoftBusClient).Sound := ⟨fun _ => rfl, nofun⟩
  have hstep : ∀ t a t', (Sound t ∧ Consistent t) → Keeps t a →
      clientMachine.step t a = some t' → Sound t' ∧ Consistent t' := by
    rintro t a t' ⟨hsound, hcons⟩ hguard hnext
    exact ⟨(step_sound_iff hsound hcons hnext).mpr hguard, consistent_step hcons hnext⟩
  obtain ⟨hsound, hcons⟩ :=
    clientMachine.exec_guarded_invariant hstep ⟨hinit, rfl, nofun⟩ hkeeps hrun
  refine ⟨hsound, fun a s' => step_sound_iff hsound hcons, fun hdead socket hlt => ?_⟩
  have honce := hsound.once socket
  rwa [if_pos hlt, places, current, hcons.dead hdead, if_neg (by simp [hdead])] at honce

/-- A failed binding, then a connection that is opened and closed. -/
def reopened : List ClientAction :=
  [.openConnect .created true, .task 0 false, .task 0 true, .openConnect .created true,
    .openConnect .created true, .task 0 true, .task 0 true, .task 0 true,
    .reuseConnect .created true, .destroy]

theorem sockets_in_order_reopened :
    ∃ s, clientMachine.exec {} reopened = some s ∧ s.shutdowns = [0, 1] ∧ s.Sound := by
  have hkeeps : clientMachine.Guarded Keeps {} reopened := by decide +kernel
  exact ⟨_, rfl, rfl, (sockets_in_order rfl hkeeps).1⟩

/-- Without an executor the socket is lost and the client opens no more; a socket without
access info is lost; and a task that publishes its socket after a reuse loses the other. -/
theorem sockets_lost :
    (∃ s, clientMachine.exec {} [.openConnect .created false, .openConnect .created true]
        = some s ∧ s.isOpening = true ∧ s.tasks = [] ∧ s.next = 1 ∧ s.places 0 = 0) ∧
    (∃ s, clientMachine.exec {} [.openConnect .refused true] = some s ∧ s.next = 1 ∧
      s.places 0 = 0) ∧
    ∃ s, clientMachine.exec {}
        [.openConnect .created true, .reuseConnect .created true, .task 0 true, .task 0 true,
          .task 0 true, .destroy] = some s ∧
      s.next = 2 ∧ s.shutdowns = [0] ∧ s.places 1 = 0 :=
  ⟨⟨_, rfl, rfl, rfl, rfl, rfl⟩, ⟨_, rfl, rfl, rfl⟩, ⟨_, rfl, rfl, rfl, rfl⟩⟩

end SoftBusClient

end DataMgr.Communicator
