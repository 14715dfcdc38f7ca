import DataMgr.Flow.RdbFlowControlManager

/-! # What `Remove(label)` clears

A submitted task waits in the queue of its label's manager or in the global
queue, or it is in flight between them or beyond. `Remove` clears the two queues
one after the other. The invariant follows a `Remove` in progress: until it
returns, its tasks may be left only in the queue it clears last.
-/

namespace DataMgr.Flow

open DataMgr.Foundation DataMgr.Store FlowState Machine

universe v

variable {κ : Type v}

variable (limit duration : UInt32) (s : RdbFlowState κ) (x : Forwarded κ)

/-- The task has the label and was submitted before the call of `Remove` began. -/
def Forwarded.CoveredBy (removal : String × Nat) : Prop :=
  x.info.label = removal.1 ∧ x.ticket < removal.2

open Forwarded

/-- The manager of a label holds tasks of that label only, each under its own info. -/
structure LabelManager.Labelled (m : LabelManager κ) : Prop where
  tagged : m.flow.Tagged info
  calls : ∀ x, m.flow.InCalls x → x.info.label = m.label
  queue : ∀ x, m.flow.InQueue x → x.info.label = m.label
  jobs : ∀ x, m.flow.InJobs x → x.info.label = m.label

theorem LabelManager.Labelled.moves {m : LabelManager κ}
    {flow : FlowState RdbFlowControlStrategy (Forwarded κ)} {new : Forwarded κ → Prop}
    {hands : Prop} (h : m.Labelled) (hmoves : m.flow.Moves info flow new hands)
    (hnew : ∀ x, new x → x.info.label = m.label) (attached : Bool) :
    LabelManager.Labelled ⟨m.label, attached, flow⟩ where
  tagged := hmoves.tagged h.tagged
  calls x hx := (hmoves.calls x hx).elim (h.calls x) (hnew x)
  queue x hx := (hmoves.queue x hx).elim (h.queue x) (h.calls x)
  jobs x hx := (hmoves.jobs x hx).elim (h.jobs x) fun hq => h.queue x hq.2

/-- Held by the manager where `Remove` does not look. -/
def LabelManager.Away (m : LabelManager κ) (x : Forwarded κ) : Prop :=
  m.flow.InCalls x ∨ m.flow.InJobs x ∨ m.attached = false ∧ m.flow.InQueue x

namespace RdbFlowState

/-- Submitted, and in no queue where `Remove` finds it; in the global queue it does not find
a task whose copy of the info has another label. -/
inductive InFlight (s : RdbFlowState κ) (x : Forwarded κ) : Prop where
  | submitted {index : Nat} (h : .execute index x ∈ s.calls)
  | labelCall {m : LabelManager κ} (hm : m ∈ s.managers) (h : m.flow.InCalls x)
  | labelJob {m : LabelManager κ} (hm : m ∈ s.managers) (h : m.flow.InJobs x)
  | orphaned {m : LabelManager κ} (hm : m ∈ s.managers) (hdetached : m.attached = false)
      (h : m.flow.InQueue x)
  | globalCall (h : s.globalManager.InCalls x)
  | globalJob (h : s.globalManager.InJobs x)
  | relabelled (h : s.globalManager.InQueue x) (hlabel : x.captured.label ≠ x.info.label)

/-- Anywhere but in the queue of a manager in `managers_`. -/
def Elsewhere : Prop :=
  s.InFlight x ∨ s.globalManager.InQueue x

def Waiting : Prop :=
  ∃ m ∈ s.managers, m.attached = true ∧ m.flow.InQueue x

def Global : Prop :=
  s.globalManager.InCalls x ∨ s.globalManager.InQueue x ∨ s.globalManager.InJobs x

/-- `pending`: a `Remove` in progress has left its tasks only in the queue of its label.
`cleared`: a `Remove` that has returned has left none. -/
structure RemovalInv (s : RdbFlowState κ) : Prop where
  managers : ∀ m ∈ s.managers, m.Labelled
  globalTagged : s.globalManager.Tagged captured
  submitted : ∀ index x, .execute index x ∈ s.calls →
    ∃ m, s.managers[index]? = some m ∧ m.label = x.info.label
  stamps : ∀ label n, (label, n) ∈ s.returned ∨ .remove label n ∈ s.calls → n ≤ s.nextTicket
  pending : ∀ label n, .remove label n ∈ s.calls → ∀ x, s.Elsewhere x → ¬ x.CoveredBy (label, n)
  cleared : ∀ removal ∈ s.returned, ∀ x, s.Elsewhere x ∨ s.Waiting x → ¬ x.CoveredBy removal
  executed : ∀ e ∈ s.executed, ∀ removal ∈ e.2, ¬ e.1.CoveredBy removal

theorem create_empty :
    ¬ (createManager κ limit duration).InCalls x ∧
      ¬ (createManager κ limit duration).InQueue x ∧
      ¬ (createManager κ limit duration).InJobs x := by
  refine ⟨?_, ?_, ?_⟩ <;>
  · rintro ⟨_, hmem, -⟩
    cases hmem

theorem tagged_create (tag : Forwarded κ → TaskInfo) :
    (createManager κ limit duration).Tagged tag := ⟨nofun, nofun⟩

theorem removalInv_start (appLimit globalLimit duration : UInt32) :
    (start appLimit globalLimit duration : RdbFlowState κ).RemovalInv where
  managers := nofun
  globalTagged := tagged_create _ _ _
  submitted := nofun
  stamps _ _ h := by rcases h with h | h <;> cases h
  pending := nofun
  cleared := nofun
  executed := nofun

section

variable {s s' : RdbFlowState κ}

/-- Steps that neither begin nor end a `Remove`: no covered task may
leave the place where the `Remove` in progress will find it. -/
theorem RemovalInv.frame (h : s.RemovalInv) (hmanagers : ∀ m ∈ s'.managers, m.Labelled)
    (hglobal : s'.globalManager.Tagged captured)
    (hsubmitted : ∀ index x, .execute index x ∈ s'.calls →
      ∃ m, s'.managers[index]? = some m ∧ m.label = x.info.label)
    (hnext : s.nextTicket ≤ s'.nextTicket)
    (hremoves : ∀ label n, .remove label n ∈ s'.calls → .remove label n ∈ s.calls)
    (hreturned : s'.returned = s.returned)
    (hexecuted : ∀ e ∈ s'.executed, ∀ removal ∈ e.2, ¬ e.1.CoveredBy removal)
    (helsewhere : ∀ x, s'.Elsewhere x → s.Elsewhere x ∨ s.nextTicket ≤ x.ticket ∨
      s.Waiting x ∧ ∀ n, .remove x.info.label n ∉ s.calls)
    (hwaiting : ∀ x, s'.Waiting x → s.Elsewhere x ∨ s.Waiting x) : s'.RemovalInv := by
  have hfresh : ∀ label n x, (label, n) ∈ s.returned ∨ .remove label n ∈ s.calls →
      s.nextTicket ≤ x.ticket → ¬ Forwarded.CoveredBy (κ := κ) x (label, n) := by
    intro label n x hremoval hticket hcovered
    have hstamp := h.stamps label n hremoval
    exact absurd hcovered.2 (not_lt.mpr (hstamp.trans hticket))
  constructor
  case managers => exact hmanagers
  case globalTagged => exact hglobal
  case submitted => exact hsubmitted
  case stamps =>
    intro label n hremoval
    rw [hreturned] at hremoval
    exact (h.stamps label n (hremoval.imp_right (hremoves label n))).trans hnext
  case pending =>
    intro label n hremove x hx hcovered
    have hold := hremoves label n hremove
    rcases helsewhere x hx with hsame | hticket | ⟨-, hnone⟩
    · exact h.pending label n hold x hsame hcovered
    · exact hfresh label n x (.inr hold) hticket hcovered
    · have hlabel : x.info.label = label := hcovered.1
      exact hnone n (hlabel ▸ hold)
  case cleared =>
    intro removal hremoval x hx
    rw [hreturned] at hremoval
    rcases hx with hx | hx
    · rcases helsewhere x hx with hsame | hticket | ⟨hwait, -⟩
      · exact h.cleared removal hremoval x (.inl hsame)
      · exact hfresh _ _ x (.inl hremoval) hticket
      · exact h.cleared removal hremoval x (.inr hwait)
    · exact h.cleared removal hremoval x (hwaiting x hx)
  case executed => exact hexecuted

variable {index : Nat} {m : LabelManager κ}
  {flow : FlowState RdbFlowControlStrategy (Forwarded κ)} {new : Forwarded κ → Prop} {hands : Prop}

variable {x : Forwarded κ}

theorem submitted_set (h : ∀ index x, .execute index x ∈ s.calls →
      ∃ m, s.managers[index]? = some m ∧ m.label = x.info.label) (hm : s.managers[index]? = some m)
    {m' : LabelManager κ} (hlabel : m'.label = m.label) {other : Nat}
    (hmem : .execute other x ∈ s.calls) :
    ∃ m, (s.managers.set index m')[other]? = some m ∧ m.label = x.info.label := by
  obtain ⟨old, hold, hlabelx⟩ := h other x hmem
  by_cases hsame : index = other
  · subst hsame
    rw [hm] at hold
    cases hold
    obtain ⟨hlt, -⟩ := List.getElem?_eq_some_iff.mp hm
    exact ⟨m', List.getElem?_set_self hlt, hlabel.trans hlabelx⟩
  · exact ⟨old, by rw [List.getElem?_set_ne hsame, hold], hlabelx⟩

theorem Elsewhere.elim {P : Prop} (hx : s.Elsewhere x)
    (hcalls : ∀ index, .execute index x ∈ s.calls → P) (hmanagers : ∀ m ∈ s.managers, m.Away x → P)
    (hglobal : s.Global x → P) : P := by
  rcases hx with hx | hx
  · cases hx with
    | submitted hin => exact hcalls _ hin
    | labelCall hm hin => exact hmanagers _ hm (.inl hin)
    | labelJob hm hin => exact hmanagers _ hm (.inr (.inl hin))
    | orphaned hm hdetached hin => exact hmanagers _ hm (.inr (.inr ⟨hdetached, hin⟩))
    | globalCall hin => exact hglobal (.inl hin)
    | globalJob hin => exact hglobal (.inr (.inr hin))
    | relabelled hin _ => exact hglobal (.inr (.inl hin))
  · exact hglobal (.inr (.inl hx))

theorem elsewhere_manager (hm : m ∈ s.managers) (h : m.Away x) : s.Elsewhere x := by
  rcases h with hin | hin | ⟨hdetached, hin⟩
  · exact .inl (.labelCall hm hin)
  · exact .inl (.labelJob hm hin)
  · exact .inl (.orphaned hm hdetached hin)

theorem elsewhere_global (h : s.Global x) : s.Elsewhere x := by
  rcases h with hin | hin | hin
  · exact .inl (.globalCall hin)
  · exact .inr hin
  · exact .inl (.globalJob hin)

theorem elsewhere_set (h : s.RemovalInv) (hm : s.managers[index]? = some m)
    (hmoves : m.flow.Moves info flow new hands)
    (hhands : hands → m.attached = true → ∀ n, .remove m.label n ∉ s.calls)
    (hnew : ∀ x, new x → s.Elsewhere x)
    (hmanagers : s'.managers = s.managers.set index ⟨m.label, m.attached, flow⟩)
    (hglobal : ∀ x, s'.Global x → s.Elsewhere x) (hcalls : ∀ call ∈ s'.calls, call ∈ s.calls)
    (hx : s'.Elsewhere x) :
    s.Elsewhere x ∨ s.Waiting x ∧ ∀ n, .remove x.info.label n ∉ s.calls := by
  have hmem := List.mem_of_getElem? hm
  refine hx.elim (fun _ hcall => .inl (.inl (.submitted (hcalls _ hcall)))) ?_
    (fun hin => .inl (hglobal x hin))
  intro m' hm' haway
  rw [hmanagers] at hm'
  rcases List.mem_or_eq_of_mem_set hm' with hold | rfl
  · exact .inl (elsewhere_manager hold haway)
  rcases haway with hin | hin | ⟨hdetached, hin⟩
  · rcases hmoves.calls x hin with hin | hin
    · exact .inl (elsewhere_manager hmem (.inl hin))
    · exact .inl (hnew x hin)
  · rcases hmoves.jobs x hin with hin | ⟨hstarts, hin⟩
    · exact .inl (elsewhere_manager hmem (.inr (.inl hin)))
    cases hattached : m.attached with
    | false => exact .inl (elsewhere_manager hmem (.inr (.inr ⟨hattached, hin⟩)))
    | true =>
        rw [(h.managers m hmem).queue x hin]
        exact .inr ⟨⟨m, hmem, hattached, hin⟩, hhands hstarts hattached⟩
  · rcases hmoves.queue x hin with hin | hin
    · exact .inl (elsewhere_manager hmem (.inr (.inr ⟨hdetached, hin⟩)))
    · exact .inl (elsewhere_manager hmem (.inl hin))

theorem waiting_set (hm : s.managers[index]? = some m)
    (hmoves : m.flow.Moves info flow new hands)
    (hmanagers : s'.managers = s.managers.set index ⟨m.label, m.attached, flow⟩)
    (hx : s'.Waiting x) : s.Elsewhere x ∨ s.Waiting x := by
  have hmem := List.mem_of_getElem? hm
  obtain ⟨m', hm', hattached, hin⟩ := hx
  rw [hmanagers] at hm'
  rcases List.mem_or_eq_of_mem_set hm' with hold | rfl
  · exact .inr ⟨m', hold, hattached, hin⟩
  · rcases hmoves.queue x hin with hin | hin
    · exact .inr ⟨m, hmem, hattached, hin⟩
    · exact .inl (.inl (.labelCall hmem hin))

end

section

variable {s s' : RdbFlowState κ}

theorem RemovalInv.tick (h : s.RemovalInv) (elapsed : Nat) :
    RemovalInv { s with clock := s.clock + elapsed } := by
  have hsame : ∀ x, Elsewhere { s with clock := s.clock + elapsed } x → s.Elsewhere x :=
    fun x hx => hx.elim (fun _ hcall => .inl (.submitted hcall))
      (fun _ hm => elsewhere_manager hm) fun hin => elsewhere_global hin
  exact h.frame h.managers h.globalTagged h.submitted (le_refl _) (fun _ _ hr => hr) rfl h.executed
    (fun x hx => .inl (hsame x hx)) (fun x hx => .inr hx)

/-- The new task has a ticket no `Remove` so far covers. -/
theorem RemovalInv.execute (h : s.RemovalInv) (task : Option κ) (info captured : TaskInfo) :
    (s.execute task info captured).RemovalInv := by
  rw [RdbFlowState.execute]
  split
  · rename_i i hfound
    obtain ⟨m, hm, hmatch⟩ : ∃ m, s.managers[i]? = some m ∧ m.label = info.label := by
      obtain ⟨hi, hp, -⟩ := List.findIdx?_eq_some_iff_getElem.mp hfound
      refine ⟨_, List.getElem?_eq_getElem hi, ?_⟩
      simp only [Bool.and_eq_true, beq_iff_eq] at hp
      exact hp.2
    refine h.frame h.managers h.globalTagged ?_ (Nat.le_succ _) ?_ rfl h.executed ?_ ?_
    · intro index x hcall
      rcases mem_concat.mp hcall with hold | ⟨⟨⟩⟩
      · exact h.submitted index x hold
      · exact ⟨m, hm, hmatch⟩
    · intro label n hremove
      rcases mem_concat.mp hremove with hold | ⟨⟨⟩⟩
      · exact hold
    · intro x hx
      refine hx.elim ?_ (fun _ hm haway => .inl (elsewhere_manager hm haway))
        (fun hin => .inl (elsewhere_global hin))
      intro index hcall
      rcases mem_concat.mp hcall with hold | ⟨⟨⟩⟩
      · exact .inl (.inl (.submitted hold))
      · exact .inr (.inl (le_refl _))
    · exact fun x hx => .inr hx
  · have hempty := create_empty (κ := κ) s.appLimit s.duration
    refine h.frame ?_ h.globalTagged ?_ (Nat.le_succ _) ?_ rfl h.executed ?_ ?_
    · intro m hm
      rcases mem_concat.mp hm with hold | rfl
      · exact h.managers m hold
      · exact ⟨tagged_create _ _ _, fun x hx => absurd hx (hempty x).1,
          fun x hx => absurd hx (hempty x).2.1, fun x hx => absurd hx (hempty x).2.2⟩
    · intro index x hcall
      rcases mem_concat.mp hcall with hold | ⟨⟨⟩⟩
      · obtain ⟨m, hm, hlabel⟩ := h.submitted index x hold
        obtain ⟨hlt, -⟩ := List.getElem?_eq_some_iff.mp hm
        exact ⟨m, by rw [List.getElem?_append_left hlt, hm], hlabel⟩
      · exact ⟨_, List.getElem?_concat_length, rfl⟩
    · intro label n hremove
      rcases mem_concat.mp hremove with hold | ⟨⟨⟩⟩
      · exact hold
    · intro x hx
      refine hx.elim ?_ ?_ (fun hin => .inl (elsewhere_global hin))
      · intro index hcall
        rcases mem_concat.mp hcall with hold | ⟨⟨⟩⟩
        · exact .inl (.inl (.submitted hold))
        · exact .inr (.inl (le_refl _))
      · intro m hm haway
        rcases mem_concat.mp hm with hold | rfl
        · exact .inl (elsewhere_manager hold haway)
        · rcases haway with hin | hin | ⟨-, hin⟩
          · exact absurd hin (hempty x).1
          · exact absurd hin (hempty x).2.2
          · exact absurd hin (hempty x).2.1
    · intro x ⟨m, hm, hattached, hin⟩
      rcases mem_concat.mp hm with hold | rfl
      · exact .inr ⟨m, hold, hattached, hin⟩
      · exact absurd hin (hempty x).2.1

variable {index : Nat} {m : LabelManager κ} {flow : FlowState RdbFlowControlStrategy (Forwarded κ)}
  {hands : Prop} {x : Forwarded κ}

theorem RemovalInv.set (h : s.RemovalInv) {new : Forwarded κ → Prop}
    (hm : s.managers[index]? = some m) (hmoves : m.flow.Moves info flow new hands)
    (hhands : hands → m.attached = true → ∀ n, .remove m.label n ∉ s.calls)
    (hnew : ∀ x, new x → s.Elsewhere x ∧ x.info.label = m.label)
    (hmanagers : s'.managers = s.managers.set index ⟨m.label, m.attached, flow⟩)
    (hglobalTagged : s'.globalManager.Tagged captured)
    (hglobal : ∀ x, s'.Global x → s.Elsewhere x) (hcalls : ∀ call ∈ s'.calls, call ∈ s.calls)
    (hnext : s'.nextTicket = s.nextTicket) (hreturned : s'.returned = s.returned)
    (hexecuted : s'.executed = s.executed) :
    s'.RemovalInv := by
  have hmem := List.mem_of_getElem? hm
  have hexecuted' : ∀ e ∈ s'.executed, ∀ removal ∈ e.2, ¬ e.1.CoveredBy removal := by
    rw [hexecuted]
    exact h.executed
  refine h.frame ?_ hglobalTagged ?_ hnext.ge (fun _ _ hr => hcalls _ hr) hreturned hexecuted' ?_ ?_
  · rw [hmanagers]
    intro other hother
    rcases List.mem_or_eq_of_mem_set hother with hold | rfl
    · exact h.managers other hold
    · exact (h.managers m hmem).moves hmoves (fun x hx => (hnew x hx).2) _
  · intro other x hcall
    rw [hmanagers]
    refine submitted_set h.submitted hm ?_ (hcalls _ hcall)
    rfl
  · intro x hx
    exact (elsewhere_set h hm hmoves hhands (fun y hy => (hnew y hy).1) hmanagers hglobal hcalls
      hx).imp_right .inr
  · exact fun x hx => waiting_set hm hmoves hmanagers hx

theorem elsewhere_moves {new : Forwarded κ → Prop}
    (hmoves : s.globalManager.Moves captured flow new hands)
    (hnew : ∀ x, new x → s.Elsewhere x) (hx : flow.InCalls x ∨ flow.InQueue x ∨ flow.InJobs x) :
    s.Elsewhere x := by
  rcases hx with hx | hx | hx
  · exact (hmoves.calls x hx).elim (fun hin => elsewhere_global (.inl hin)) (hnew x)
  · exact elsewhere_global ((hmoves.queue x hx).elim (fun hin => .inr (.inl hin)) .inl)
  · exact elsewhere_global (.inr ((hmoves.jobs x hx).symm.imp_left And.right))

variable (h : s.RemovalInv)

include h

theorem RemovalInv.resumeExecute {i : Nat} (hcall : s.calls[i]? = some (.execute index x))
    (hm : s.managers[index]? = some m) :
    RemovalInv { s with
      managers := s.managers.set index { m with flow := m.flow.execute s.clock (some x) x.info }
      calls := advance s.calls i none } := by
  have hmem := List.mem_of_getElem? hcall
  have hmoves : m.flow.Moves info (m.flow.execute s.clock (some x) x.info)
      (fun y => some x = some y) False :=
    moves_execute fun y hy => congrArg info (Option.some.inj hy)
  obtain ⟨m', hm', hlabel⟩ := h.submitted index x hmem
  refine h.set hm hmoves False.elim ?_ rfl h.globalTagged (fun _ hin => elsewhere_global hin) ?_
    rfl rfl rfl
  · intro y hy
    cases hy
    rw [hm] at hm'
    cases hm'
    exact ⟨.inl (.submitted hmem), hlabel.symm⟩
  · intro call hin
    have hafter : call ∈ advance s.calls i none := hin
    exact (mem_advance hafter).resolve_left nofun

theorem RemovalInv.runLabel {j : Nat} (hstep : s.runLabel index j = some s') : s'.RemovalInv := by
  obtain ⟨m, hm, hstep⟩ := Option.bind_eq_some_iff.mp hstep
  obtain ⟨⟨x, jobs⟩, htake, rfl⟩ := Option.map_eq_some_iff.mp hstep
  have hmem := List.mem_of_getElem? hm
  have hin := inJobs_of_takeTask htake
  have hmoves : m.flow.Moves info { m.flow with pool := { m.flow.pool with jobs } }
      (fun _ => False) False := moves_takeTask htake
  have hglobal : s.globalManager.Moves captured
      (s.globalManager.execute s.clock x.global x.captured) (fun y => x.global = some y) False := by
    refine moves_execute ?_
    intro y hy
    obtain ⟨task, -, rfl⟩ := Option.map_eq_some_iff.mp hy
    rfl
  refine h.set hm hmoves False.elim (fun _ hnone => hnone.elim) rfl (hglobal.tagged h.globalTagged)
    ?_ (fun _ hcall => hcall) rfl rfl rfl
  intro y hy
  refine elsewhere_moves hglobal ?_ hy
  intro z hz
  obtain ⟨task, -, rfl⟩ := Option.map_eq_some_iff.mp hz
  exact .inl (.labelJob hmem hin)

theorem RemovalInv.destroy (hstep : s.destroy index = some s') : s'.RemovalInv := by
  obtain ⟨m, hm, hstep⟩ := Option.bind_eq_some_iff.mp hstep
  split at hstep
  · cases hstep
  cases hstep
  have hmoves : m.flow.Moves info m.flow.destroy (fun _ => False) False :=
    moves_destroy
  exact h.set hm hmoves False.elim (fun _ hnone => hnone.elim) rfl h.globalTagged
    (fun _ hin => elsewhere_global hin) (fun _ hcall => hcall) rfl rfl rfl

theorem RemovalInv.globalMoves (hmoves : s.globalManager.Moves captured flow (fun _ => False) hands)
    {executed : List (Forwarded κ × List (String × Nat))}
    (hexecuted : ∀ e ∈ executed, ∀ removal ∈ e.2, ¬ e.1.CoveredBy removal) :
    RemovalInv { s with globalManager := flow, executed } := by
  refine h.frame h.managers (hmoves.tagged h.globalTagged) h.submitted (le_refl _)
    (fun _ _ hr => hr) rfl hexecuted ?_ (fun x hx => .inr hx)
  intro x hx
  exact .inl (hx.elim (fun _ hcall => .inl (.submitted hcall))
    (fun _ hm => elsewhere_manager hm) (elsewhere_moves hmoves fun _ hnone => hnone.elim))

/-- A task that runs was in a batch, so no `Remove` that has returned covers it. -/
theorem RemovalInv.runGlobal {j : Nat} (hstep : s.runGlobal j = some s') : s'.RemovalInv := by
  obtain ⟨⟨x, jobs⟩, htake, rfl⟩ := Option.map_eq_some_iff.mp hstep
  have hin := inJobs_of_takeTask htake
  have hmoves : s.globalManager.Moves captured
      { s.globalManager with pool := { s.globalManager.pool with jobs } } (fun _ => False) False :=
    moves_takeTask htake
  refine h.globalMoves hmoves ?_
  intro e he
  rcases List.mem_cons.mp he with rfl | he
  · exact fun removal hremoval => h.cleared removal hremoval x (.inl (.inl (.globalJob hin)))
  · exact h.executed e he

/-- The first half of `Remove`: with no task of the label in flight, only the queue
of the label may still hold one. -/
theorem RemovalInv.remove {label : String} (hflight : ∀ x, s.InFlight x → x.info.label ≠ label) :
    (s.remove label).RemovalInv := by
  have hmoves : s.globalManager.Moves captured
      (s.globalManager.remove (labelFilter label)) (fun _ => False) False :=
    moves_remove _
  have hqueue : ∀ x, (s.globalManager.remove (labelFilter label)).InQueue x →
      x.captured.label ≠ x.info.label → s.InFlight x := by
    intro x hin hother
    rcases hmoves.queue x hin with hold | hcall
    · exact .relabelled hold hother
    · exact .globalCall hcall
  have hflow := h.globalMoves hmoves h.executed
  have helsewhere : ∀ x, (s.remove label).Elsewhere x →
      Elsewhere { s with globalManager := s.globalManager.remove (labelFilter label) } x := by
    intro x hx
    refine hx.elim ?_ (fun _ hm => elsewhere_manager hm) fun hin => elsewhere_global hin
    intro index hcall
    rcases mem_concat.mp hcall with hold | ⟨⟨⟩⟩
    · exact .inl (.submitted hold)
  constructor
  case managers => exact h.managers
  case globalTagged => exact hflow.globalTagged
  case submitted =>
    intro index x hcall
    rcases mem_concat.mp hcall with hold | ⟨⟨⟩⟩
    · exact h.submitted index x hold
  case stamps =>
    intro other n hremoval
    rcases hremoval with hreturned | hcall
    · exact h.stamps other n (.inl hreturned)
    rcases mem_concat.mp hcall with hold | ⟨⟨⟩⟩
    · exact h.stamps other n (.inr hold)
    · exact le_refl _
  case pending =>
    intro other n hcall x hx hcovered
    rcases List.mem_append.mp hcall with hold | hnew
    · exact hflow.pending other n hold x (helsewhere x hx) hcovered
    cases List.mem_singleton.mp hnew
    have hlabel : x.info.label = label := hcovered.1
    rcases helsewhere x hx with hx | hx
    · have hbefore : s.InFlight x := by
        cases hx with
        | submitted hcall => exact .submitted hcall
        | labelCall hm hin => exact .labelCall hm hin
        | labelJob hm hin => exact .labelJob hm hin
        | orphaned hm hdetached hin => exact .orphaned hm hdetached hin
        | globalCall hin => exact .globalCall ((hmoves.calls x hin).resolve_right id)
        | globalJob hin => exact .globalJob ((hmoves.jobs x hin).resolve_right fun hq => hq.1)
        | relabelled hin hother => exact hqueue x hin hother
      exact hflight x hbefore hlabel
    · have hkept := not_selected_of_remove h.globalTagged hx
      have hother : x.captured.label ≠ label := by
        simpa [labelFilter, TaskFilter.selects] using hkept
      exact hflight x (hqueue x hx (hlabel ▸ hother)) hlabel
  case cleared =>
    intro removal hremoval x hx
    exact hflow.cleared removal hremoval x (hx.imp_left (helsewhere x))
  case executed => exact h.executed

omit h

theorem clear_label (m : LabelManager κ) (label : String) :
    (LabelManager.clear m label).label = m.label := by
  rw [LabelManager.clear]
  split <;> rfl

theorem clear_cases (label : String) (hm : m.Labelled) :
    LabelManager.clear m label = m ∧ (m.attached = true → m.label ≠ label) ∨
      (LabelManager.clear m label).attached = false ∧
        (LabelManager.clear m label).flow = m.flow.remove (labelFilter label) ∧
        ∀ x, ¬ (LabelManager.clear m label).flow.InQueue x := by
  rw [LabelManager.clear]
  split
  · rename_i hmatch
    simp only [Bool.and_eq_true, beq_iff_eq] at hmatch
    refine .inr ⟨rfl, rfl, ?_⟩
    intro x hx
    have hkept := not_selected_of_remove hm.tagged hx
    have hmoves : m.flow.Moves info (m.flow.remove (labelFilter label))
        (fun _ => False) False := moves_remove _
    have hlabel : x.info.label = label := by
      rcases hmoves.queue x hx with hin | hin
      · exact (hm.queue x hin).trans hmatch.2
      · exact (hm.calls x hin).trans hmatch.2
    simp [labelFilter, TaskFilter.selects, hlabel] at hkept
  · rename_i hother
    refine .inl ⟨rfl, ?_⟩
    intro hattached hlabel
    simp [hattached, hlabel] at hother

theorem away_clear (label : String) (hm : m.Labelled) (h : (LabelManager.clear m label).Away x) :
    m.Away x := by
  have hmoves : m.flow.Moves info (m.flow.remove (labelFilter label))
      (fun _ => False) False := moves_remove _
  rcases clear_cases label hm with ⟨heq, -⟩ | ⟨-, heq, hempty⟩
  · rw [heq] at h
    exact h
  rcases h with hin | hin | ⟨-, hin⟩
  · rw [heq] at hin
    exact .inl ((hmoves.calls x hin).resolve_right id)
  · rw [heq] at hin
    exact .inr (.inl ((hmoves.jobs x hin).resolve_right fun hq => hq.1))
  · exact absurd hin (hempty x)

theorem waiting_clear (h : s.RemovalInv) (label : String)
    (hmanagers : s'.managers = s.managers.map (LabelManager.clear · label)) (hx : s'.Waiting x) :
    s.Waiting x ∧ x.info.label ≠ label := by
  obtain ⟨m', hm', hattached, hin⟩ := hx
  rw [hmanagers] at hm'
  obtain ⟨m, hm, rfl⟩ := List.mem_map.mp hm'
  rcases clear_cases label (h.managers m hm) with ⟨heq, hother⟩ | ⟨hdetached, -, -⟩
  · rw [heq] at hattached hin
    exact ⟨⟨m, hm, hattached, hin⟩,
      fun hlabel => hother hattached (((h.managers m hm).queue x hin).symm.trans hlabel)⟩
  · rw [hdetached] at hattached
    cases hattached

theorem RemovalInv.resumeRemove (h : s.RemovalInv) {i n : Nat} {label : String}
    (hcall : s.calls[i]? = some (.remove label n))
    (hs' : s' = { s with managers := s.managers.map (LabelManager.clear · label)
                         calls := advance s.calls i none
                         returned := (label, n) :: s.returned }) : s'.RemovalInv := by
  have hmem := List.mem_of_getElem? hcall
  have hcalls : ∀ call ∈ advance s.calls i none, call ∈ s.calls :=
    fun call hin => (mem_advance hin).resolve_left nofun
  have hwaiting : ∀ x, s'.Waiting x → s.Waiting x ∧ x.info.label ≠ label :=
    fun x hx => waiting_clear h label (by rw [hs']) hx
  have helsewhere : ∀ x, s'.Elsewhere x → s.Elsewhere x := by
    subst hs'
    intro x hx
    refine hx.elim (fun _ hin => .inl (.submitted (hcalls _ hin))) ?_
      fun hin => elsewhere_global hin
    intro m' hm' haway
    obtain ⟨m, hm, rfl⟩ := List.mem_map.mp hm'
    exact elsewhere_manager hm (away_clear label (h.managers m hm) haway)
  subst hs'
  constructor
  case managers =>
    intro m' hm'
    obtain ⟨m, hm, rfl⟩ := List.mem_map.mp hm'
    have hmoves : m.flow.Moves info (m.flow.remove (labelFilter label))
        (fun _ => False) False := moves_remove _
    rw [LabelManager.clear]
    split
    · exact (h.managers m hm).moves hmoves (fun _ hnone => hnone.elim) false
    · exact h.managers m hm
  case globalTagged => exact h.globalTagged
  case submitted =>
    intro index x hin
    obtain ⟨m, hm, hlabel⟩ := h.submitted index x (hcalls _ hin)
    refine ⟨LabelManager.clear m label, ?_, (clear_label m label).trans hlabel⟩
    rw [List.getElem?_map, hm, Option.map_some]
  case stamps =>
    intro other k hremoval
    rcases hremoval with hreturned | hin
    · rcases List.mem_cons.mp hreturned with heq | hold
      · cases heq
        exact h.stamps label n (.inr hmem)
      · exact h.stamps other k (.inl hold)
    · exact h.stamps other k (.inr (hcalls _ hin))
  case pending =>
    intro other k hin x hx
    exact h.pending other k (hcalls _ hin) x (helsewhere x hx)
  case cleared =>
    intro removal hremoval x hx
    rcases List.mem_cons.mp hremoval with rfl | hold
    · rcases hx with hx | hx
      · exact h.pending label n hmem x (helsewhere x hx)
      · exact fun hcovered => (hwaiting x hx).2 hcovered.1
    · exact h.cleared removal hold x (hx.imp (helsewhere x) fun hw => (hwaiting x hw).1)
  case executed => exact h.executed

/-- `Remove` begins with no task of its label in flight, and until it returns the
manager of the label runs no `ExecuteTask`. -/
def Undisturbed (s : RdbFlowState κ) : RdbFlowAction κ → Prop
  | .remove label => ∀ x, s.InFlight x → x.info.label ≠ label
  | .label index progress => ∀ m, s.managers[index]? = some m → m.flow.StartsBatch progress →
      m.attached = true → ∀ n, .remove m.label n ∉ s.calls
  | _ => True

theorem RemovalInv.step (h : s.RemovalInv) {action : RdbFlowAction κ}
    (hguard : s.Undisturbed action) (hstep : s.step action = some s') : s'.RemovalInv := by
  cases action with
  | tick elapsed =>
      cases hstep
      exact h.tick elapsed
  | execute task info captured =>
      cases hstep
      exact h.execute task info captured
  | remove label =>
      cases hstep
      exact h.remove hguard
  | resume i =>
      obtain ⟨call, hcall, hresume⟩ := Option.bind_eq_some_iff.mp hstep
      cases call with
      | execute index x =>
          obtain ⟨m, hm, rfl⟩ := Option.map_eq_some_iff.mp hresume
          exact h.resumeExecute hcall hm
      | remove label n =>
          exact h.resumeRemove hcall (Option.some.inj hresume).symm
  | label index progress =>
      obtain ⟨m, hm, hmap⟩ := Option.bind_eq_some_iff.mp hstep
      obtain ⟨flow, hflow, rfl⟩ := Option.map_eq_some_iff.mp hmap
      have hmoves : m.flow.Moves info flow (fun _ => False)
          (m.flow.StartsBatch progress) := moves_of_step hflow
      exact h.set hm hmoves (hguard m hm) (fun _ hnone => hnone.elim) rfl h.globalTagged
        (fun _ hin => elsewhere_global hin) (fun _ hcall => hcall) rfl rfl rfl
  | global progress =>
      obtain ⟨flow, hflow, rfl⟩ := Option.map_eq_some_iff.mp hstep
      exact h.globalMoves (moves_of_step hflow) h.executed
  | runLabel index j => exact h.runLabel hstep
  | runGlobal j => exact h.runGlobal hstep
  | destroy index => exact h.destroy hstep

end

end RdbFlowState

open RdbFlowState

/-- In every undisturbed run no task is executed that a `Remove` which had already
returned was to remove. -/
theorem removed_tasks_never_run (appLimit globalLimit duration : UInt32)
    (schedule : List (RdbFlowAction κ)) (s : RdbFlowState κ)
    (hguard : (rdbFlowMachine κ).Guarded Undisturbed (start appLimit globalLimit duration) schedule)
    (hrun : (rdbFlowMachine κ).exec (start appLimit globalLimit duration) schedule = some s) :
    ∀ e ∈ s.executed, ∀ removal ∈ e.2, ¬ e.1.CoveredBy removal :=
  ((rdbFlowMachine κ).exec_guarded_invariant (fun _ _ _ h hg hstep => h.step hg hstep)
    (removalInv_start appLimit globalLimit duration) hguard hrun).executed

/-- A task is queued for its label, and `Remove` finds it there. -/
def queuedThenRemoved : List (RdbFlowAction Nat) :=
  [.execute (some 7) ⟨0, "a"⟩ ⟨0, "a"⟩, .resume 0, .label 0 (.resume 0), .label 0 (.resume 0),
    .remove "a", .resume 0]

theorem removed_tasks_never_run_when_queued :
    (rdbFlowMachine Nat).Guarded Undisturbed (start 1 1 1) queuedThenRemoved ∧
      ∃ s, (rdbFlowMachine Nat).exec (start 1 1 1) queuedThenRemoved = some s ∧
        s.returned = [("a", 1)] ∧ (∀ m ∈ s.managers, m.flow.manager.tasks.items = []) ∧
        ∀ e ∈ s.executed, ∀ removal ∈ e.2, ¬ e.1.CoveredBy removal := by
  have hguard : (rdbFlowMachine Nat).Guarded Undisturbed (start 1 1 1) queuedThenRemoved := by
    refine guarded_cons _ trivial rfl ?_
    refine guarded_cons _ trivial rfl ?_
    refine guarded_cons _ (fun _ _ _ _ _ => nofun) rfl ?_
    refine guarded_cons _ (fun _ _ _ _ _ => nofun) rfl ?_
    refine guarded_cons _ ?_ rfl (guarded_cons _ trivial rfl trivial)
    intro x hflight
    cases hflight with
    | submitted hcall => cases hcall
    | labelCall hm hin =>
        obtain ⟨call, hcall, hcarries⟩ := hin
        rw [List.mem_singleton.mp hm] at hcall
        rw [List.mem_singleton.mp hcall] at hcarries
        cases hcarries
    | labelJob hm hin =>
        obtain ⟨job, hjob, -⟩ := hin
        rw [List.mem_singleton.mp hm] at hjob
        cases hjob
    | orphaned hm hdetached hin =>
        rw [List.mem_singleton.mp hm] at hdetached
        cases hdetached
    | globalCall hin =>
        obtain ⟨call, hcall, -⟩ := hin
        cases hcall
    | globalJob hin =>
        obtain ⟨job, hjob, -⟩ := hin
        cases hjob
    | relabelled hin _ =>
        obtain ⟨task, htask, -⟩ := hin
        cases htask
  exact ⟨hguard, _, rfl, rfl, by decide,
    removed_tasks_never_run 1 1 1 queuedThenRemoved _ hguard rfl⟩

/-- `Remove` comes while the batch of the label waits in the pool: both queues are
empty, and the task runs after `Remove` has returned. -/
theorem removed_task_runs_from_batch :
    ∃ s, (rdbFlowMachine Nat).exec (start 1 1 1)
      [.execute (some 7) ⟨0, "a"⟩ ⟨0, "a"⟩, .resume 0, .label 0 (.resume 0), .label 0 (.resume 0),
        .label 0 (.resume 0), .label 0 (.resume 0), .label 0 (.fire 0), .label 0 (.resume 0),
        .label 0 (.resume 0), .label 0 (.resume 0),
        .remove "a", .global (.resume 0), .global (.resume 0), .resume 0,
        .runLabel 0 0, .global (.resume 0), .global (.resume 0), .global (.resume 0),
        .global (.resume 0), .global (.fire 0), .global (.resume 0), .runGlobal 0] = some s ∧
      s.executed = [(⟨some 7, ⟨0, "a"⟩, ⟨0, "a"⟩, 0⟩, [("a", 1)])] ∧
      ∃ e ∈ s.executed, ∃ removal ∈ e.2, e.1.CoveredBy removal :=
  ⟨_, rfl, rfl, _, List.mem_cons_self, _, List.mem_cons_self, rfl, Nat.zero_lt_one⟩

end DataMgr.Flow
