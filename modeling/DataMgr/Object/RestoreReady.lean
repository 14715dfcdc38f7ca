import DataMgr.Object.Restore
import DataMgr.Object.Confinement

/-! # All is ready only when the assets are there

Whoever is told that all is ready is told so about a save whose assets have finished
arriving or whose wait has timed out, as long as the events of one save are not taken for
those of another. Every step that takes them for another can be continued so that someone
is told wrongly.
-/

namespace DataMgr.Object

open DataMgr.Foundation Machine

namespace Restore

/-- The step takes no event of one save for one of another that still waits:
data arrives on ready assets only if its own are there, assets and timeouts are for the
data at hand, and so is the status word that a `Retrieve` finds ready. -/
def Ordered (s : Restore) : RestoreAction → Prop
  | .notifyChange save => save.hasAsset = true → s.status = some .assetsReady → s.Ready save
  | .assetsReady save => s.executors = true →
      s.status = some .dataReady ∨ s.status = some .dataNotified →
      ∀ other, s.current = some other → other = save ∨ s.Ready other
  | .timeout i => s.executors = true → s.observers ≠ 0 → ∀ save, s.pulling[i]? = some save →
      ∀ other, s.current = some other → other = save ∨ s.Ready other
  | .retrieveStatus i => s.status = some .allReady → ∀ save, s.retrieves[i]? = some (.read save) →
      s.current = some save ∨ s.Ready save
  | _ => True

def ToldReady (s : Restore) : Prop := ∀ t ∈ s.told, t.allReady = true → t.ready = true

structure ReadyInv (s : Restore) : Prop where
  told : s.ToldReady
  status : s.status = some .allReady → ∀ save, s.current = some save → s.Ready save
  pulling : ∀ save ∈ s.pulling, save ∈ s.timedOut
  retrieves : ∀ save, .checked save true ∈ s.retrieves → s.Ready save

variable {s s' : Restore} {save : Save}

variable {allReady : Bool} {status : Option RestoreStatus} {i : Nat}

theorem toldReady_tell (h : s.ToldReady) (hready : allReady = true → s.Ready save) (count : Nat) :
    (s.tell save allReady count).ToldReady := by
  intro t ht hall
  rcases List.mem_append.mp ht with hold | hnew
  · exact h t hold hall
  · have heq := List.eq_of_mem_replicate hnew
    rw [heq] at hall ⊢
    exact decide_eq_true (hready hall)

theorem Ready.mono (hdone : s.done ⊆ s'.done) (htimed : s.timedOut ⊆ s'.timedOut)
    (h : s.Ready save) : s'.Ready save := by
  rcases h with hpushed | hdone' | htimed'
  · exact .inl hpushed
  · exact .inr (.inl (hdone hdone'))
  · exact .inr (.inr (htimed htimed'))

variable (h : s.ReadyInv)

include h

theorem removeTimer_inv : s.removeTimer.ReadyInv := by
  unfold removeTimer
  split
  · exact h
  · exact ⟨h.told, h.status, h.pulling, h.retrieves⟩

theorem waitAssets_inv (save : Save) : (s.waitAssets save).ReadyInv := by
  unfold waitAssets
  split
  · exact h
  · exact ⟨h.told, h.status, h.pulling, h.retrieves⟩

theorem setStatus_inv
    (hstatus : status = some .allReady → ∀ save, s.current = some save → s.Ready save) :
    (s.setStatus status).ReadyInv :=
  ⟨h.told, hstatus, h.pulling, h.retrieves⟩

theorem tell_inv (hready : allReady = true → s.Ready save) (count : Nat) :
    (s.tell save allReady count).ReadyInv :=
  ⟨toldReady_tell h.told hready count, h.status, h.pulling, h.retrieves⟩

theorem notifyEmpty_inv (hready : ∀ save, s.current = some save → s.Ready save) :
    s.notifyEmpty.ReadyInv := by
  refine removeTimer_inv (setStatus_inv ?_ fun hnone => by cases hnone)
  unfold tellCurrent
  split
  · exact h
  · rename_i save hcurrent
    exact tell_inv h (fun _ => hready save hcurrent) s.observers

omit h

theorem ready_of_no_asset (s : Restore) (h : save.hasAsset = false) : s.Ready save := by
  left
  cases hpushed : save.pushed with
  | false => rfl
  | true =>
      rw [save.assets_of_pushed hpushed] at h
      cases h

/-- The data of a save is notified: whatever the status word becomes, it is about this
save. -/
theorem notified_inv (h : s.ReadyInv)
    (hready : allReady = true ∨ status = some .allReady → s.Ready save) (count : Nat) :
    (({ s with current := some save }.tell save allReady count).setStatus status).ReadyInv := by
  constructor
  · exact toldReady_tell h.told (fun hall => hready (.inl hall)) count
  · intro hstatus other hother
    cases hother
    exact hready (.inr hstatus)
  · exact h.pulling
  · exact h.retrieves

theorem statusAfterData_allReady {observed : Bool} (h : (statusAfterData observed status).2 = true ∨
      (statusAfterData observed status).1 = some .allReady) : status = some .assetsReady := by
  by_contra hnot
  cases observed <;> simp [statusAfterData, statusAfterNotify, hnot] at h

variable (h : s.ReadyInv)

include h

theorem notifyChange_inv (hordered : s.Ordered (.notifyChange save)) :
    (s.notifyChange save).ReadyInv := by
  unfold notifyChange
  extract_lets s₁
  split
  · rename_i hasset
    exact notified_inv h (fun _ => s.ready_of_no_asset hasset) s₁.observers
  rename_i hasset
  have hready : (statusAfterData (s₁.observers ≠ 0) s₁.status).2 = true ∨
      (statusAfterData (s₁.observers ≠ 0) s₁.status).1 = some .allReady → s.Ready save := by
    intro hall
    exact hordered (Bool.eq_true_of_not_eq_false hasset) (statusAfterData_allReady hall)
  have hnotified := notified_inv h hready s₁.observers
  dsimp only
  split
  · exact hnotified
  · exact waitAssets_inv hnotified save

theorem notifyAssetsReady_inv (hordered : s.Ordered (.assetsReady save)) :
    (s.notifyAssetsReady save).ReadyInv := by
  unfold notifyAssetsReady
  extract_lets s₁
  have hmono : ∀ other, s.Ready other → s₁.Ready other := fun other =>
    Ready.mono (List.subset_cons_self save s.done) (List.Subset.refl _)
  have h₁ : s₁.ReadyInv :=
    ⟨h.told, fun hstatus other hother => hmono other (h.status hstatus other hother), h.pulling,
      fun other hother => hmono other (h.retrieves other hother)⟩
  split
  · exact h₁
  rename_i hexec
  have hcurrent : s.status = some .dataReady ∨ s.status = some .dataNotified →
      ∀ other, s₁.current = some other → s₁.Ready other := by
    intro hstatus other hother
    rcases hordered (Bool.eq_true_of_not_eq_false hexec) hstatus other hother with rfl | hready
    · exact .inr (.inl List.mem_cons_self)
    · exact hmono other hready
  split
  · rename_i hstatus
    split
    · exact setStatus_inv h₁ fun _ => hcurrent (.inr hstatus)
    · exact notifyEmpty_inv h₁ (hcurrent (.inr hstatus))
  · rename_i hstatus
    exact removeTimer_inv (setStatus_inv h₁ fun _ => hcurrent (.inl hstatus))
  · exact setStatus_inv h₁ fun hnone => by cases hnone

theorem fire_inv (hstep : s.fire i = some s') : s'.ReadyInv := by
  unfold fire at hstep
  split at hstep
  · cases hstep
  rename_i taskId save _
  cases hstep
  have hmono : ∀ other, s.Ready other →
      ({ s with timedOut := save :: s.timedOut } : Restore).Ready other := fun other =>
    Ready.mono (List.Subset.refl _) (List.subset_cons_self save s.timedOut)
  refine ⟨h.told, fun hstatus other hother => hmono other (h.status hstatus other hother), ?_,
    fun other hother => hmono other (h.retrieves other hother)⟩
  intro other hother
  rcases mem_concat.mp hother with hold | rfl
  · exact List.mem_cons_of_mem save (h.pulling other hold)
  · exact List.mem_cons_self

theorem doNotifyWaitAssetTimeout_inv (hordered : s.Ordered (.timeout i))
    (hstep : s.doNotifyWaitAssetTimeout i = some s') : s'.ReadyInv := by
  unfold doNotifyWaitAssetTimeout at hstep
  split at hstep
  · cases hstep
  rename_i save hsave
  have h₁ : ({ s with pulling := s.pulling.eraseIdx i } : Restore).ReadyInv :=
    ⟨h.told, h.status, fun other hother => h.pulling other (List.mem_of_mem_eraseIdx hother),
      h.retrieves⟩
  dsimp only at hstep
  split at hstep
  · cases hstep
    exact h₁
  rename_i hobserved
  cases hstep
  rw [not_or] at hobserved
  refine notifyEmpty_inv h₁ ?_
  intro other hother
  rcases hordered (Bool.eq_true_of_not_eq_false hobserved.1) hobserved.2 save hsave other hother
    with rfl | hready
  · exact .inr (.inr (h.pulling other (List.mem_of_getElem? hsave)))
  · exact hready

theorem checked_inv (i : Nat) (hready : allReady = true → s.Ready save) :
    (s.checked i save allReady).ReadyInv := by
  refine ⟨h.told, h.status, h.pulling, ?_⟩
  intro other hother
  rcases List.mem_or_eq_of_mem_set hother with hold | hnew
  · exact h.retrieves other hold
  · cases hnew
    exact hready rfl

theorem retrieveStatus_inv (hordered : s.Ordered (.retrieveStatus i))
    (hstep : s.retrieveStatus i = some s') : s'.ReadyInv := by
  unfold retrieveStatus at hstep
  split at hstep
  · rename_i save hread
    split at hstep
    · rename_i hpushed
      cases hstep
      exact checked_inv h i fun _ => .inl hpushed
    split at hstep
    · rename_i hstatus
      cases hstep
      have hready : s.Ready save := by
        rcases hordered hstatus save hread with hcurrent | hready
        · exact h.status hstatus save hcurrent
        · exact hready
      exact setStatus_inv (checked_inv h i fun _ => hready) fun hnone => by cases hnone
    · cases hstep
      refine setStatus_inv (checked_inv h i fun hfalse => by cases hfalse) fun hnone => ?_
      cases hnone
    · cases hstep
      exact checked_inv h i fun hfalse => by cases hfalse
  · cases hstep

theorem retrieveEnd_inv {deleted : Bool} (hstep : s.retrieveEnd i deleted = some s') :
    s'.ReadyInv := by
  unfold retrieveEnd at hstep
  split at hstep
  · rename_i save allReady hchecked
    have h₁ : ({ s with retrieves := s.retrieves.eraseIdx i } : Restore).ReadyInv :=
      ⟨h.told, h.status, h.pulling,
        fun other hother => h.retrieves other (List.mem_of_mem_eraseIdx hother)⟩
    have hready : allReady = true → s.Ready save := by
      intro hall
      rw [hall] at hchecked
      exact h.retrieves save (List.mem_of_getElem? hchecked)
    split at hstep
    · cases hstep
      exact h₁
    · cases hstep
      have htold := tell_inv h₁ hready 1
      exact ⟨htold.told, htold.status, htold.pulling, htold.retrieves⟩
  · cases hstep

omit h

theorem init_inv (executors : Bool) : ({ executors } : Restore).ReadyInv := by
  constructor
  · intro t ht
    cases ht
  · intro h
    cases h
  · intro save h
    cases h
  · intro save h
    cases h

theorem step_inv (h : s.ReadyInv) {a : RestoreAction} (hordered : s.Ordered a)
    (hstep : s.step a = some s') : s'.ReadyInv := by
  cases a with
  | arrive save =>
      cases hstep
      exact ⟨h.told, h.status, h.pulling, h.retrieves⟩
  | notifyChange save =>
      rw [step] at hstep
      split at hstep
      · cases hstep
        exact notifyChange_inv h hordered
      · cases hstep
  | assetsStart =>
      cases hstep
      refine setStatus_inv h fun hstatus => h.status ?_
      cases hold : s.status with
      | none =>
          rw [hold] at hstatus
          cases hstatus
      | some status =>
          rw [hold] at hstatus
          exact hstatus
  | assetsReady save =>
      cases hstep
      exact notifyAssetsReady_inv h hordered
  | observe observers =>
      cases hstep
      exact ⟨h.told, h.status, h.pulling, h.retrieves⟩
  | fire i => exact fire_inv h hstep
  | timeout i => exact doNotifyWaitAssetTimeout_inv h hordered hstep
  | retrieveRead =>
      obtain ⟨save, -, rfl⟩ := Option.map_eq_some_iff.mp hstep
      refine ⟨h.told, h.status, h.pulling, ?_⟩
      intro other hother
      rcases mem_concat.mp hother with hold | ⟨⟨⟩⟩
      · exact h.retrieves other hold
  | retrieveStatus i => exact retrieveStatus_inv h hordered hstep
  | retrieveEnd i deleted => exact retrieveEnd_inv h hstep

def CanMislead (s : Restore) : Prop :=
  ∃ more t, restoreMachine.exec s more = some t ∧ ¬ t.ToldReady

theorem canMislead_of_not_toldReady (h : ¬ s.ToldReady) : s.CanMislead := ⟨[], s, rfl, h⟩

theorem not_toldReady_tell {count : Nat} (hcount : count ≠ 0) (hready : ¬ s.Ready save) :
    ¬ (s.tell save true count).ToldReady := by
  intro h
  have hmem : ⟨save, true, s.Ready save⟩ ∈ (s.tell save true count).told :=
    List.mem_append_right _ (List.mem_replicate.mpr ⟨hcount, rfl⟩)
  exact hready (of_decide_eq_true (h _ hmem rfl))

theorem pushed_of_not_ready (h : ¬ s.Ready save) : save.pushed = true :=
  Bool.eq_true_of_not_eq_false fun hpushed => h (.inl hpushed)

theorem canMislead_of_checked (hchecked : s.retrieves[i]? = some (.checked save true))
    (hready : ¬ s.Ready save) : s.CanMislead := by
  have hend : s.step (.retrieveEnd i true) =
      some { ({ s with retrieves := s.retrieves.eraseIdx i }.tell save true 1) with
        stored := none } := by
    simp [step, retrieveEnd, hchecked]
  refine ⟨[.retrieveEnd i true], _, restoreMachine.exec_cons_eq_some.mpr ⟨_, hend, rfl⟩, ?_⟩
  intro htold
  exact not_toldReady_tell (s := { s with retrieves := s.retrieves.eraseIdx i }) Nat.one_ne_zero
    hready htold

theorem canMislead_of_allReady (hstatus : s.status = some .allReady) (hready : ¬ s.Ready save) :
    s.CanMislead := by
  let s₁ : Restore := { s with stored := some save, arrived := save :: s.arrived }
  let s₂ : Restore := { s₁ with retrieves := s.retrieves ++ [.read save] }
  let s₃ : Restore := (s₂.checked s.retrieves.length save true).setStatus none
  have harrive : s.step (.arrive save) = some s₁ := rfl
  have hread : s₁.step .retrieveRead = some s₂ := rfl
  have hlast : s₂.retrieves[s.retrieves.length]? = some (.read save) := by simp [s₂]
  have hcheck : s₂.step (.retrieveStatus s.retrieves.length) = some s₃ := by
    have hstatus₂ : s₂.status = some .allReady := hstatus
    simp only [step, retrieveStatus, hlast, pushed_of_not_ready hready, hstatus₂]
    rfl
  have hchecked : s₃.retrieves[s.retrieves.length]? = some (.checked save true) := by
    simp [s₃, s₂, setStatus, checked]
  obtain ⟨more, t, hmore, htold⟩ : s₃.CanMislead := canMislead_of_checked hchecked hready
  refine ⟨.arrive save :: .retrieveRead :: .retrieveStatus s.retrieves.length :: more, t, ?_, htold⟩
  exact restoreMachine.exec_cons_eq_some.mpr ⟨s₁, harrive,
    restoreMachine.exec_cons_eq_some.mpr ⟨s₂, hread,
      restoreMachine.exec_cons_eq_some.mpr ⟨s₃, hcheck, hmore⟩⟩⟩

theorem removeTimer_told (s : Restore) : s.removeTimer.told = s.told := by
  unfold removeTimer
  split <;> rfl

theorem removeTimer_status (s : Restore) : s.removeTimer.status = s.status := by
  unfold removeTimer
  split <;> rfl

theorem ready_removeTimer (s : Restore) (save : Save) :
    s.removeTimer.Ready save ↔ s.Ready save := by
  unfold removeTimer
  split <;> rfl

theorem canMislead_notifyEmpty (hcurrent : s.current = some save) (hobserved : s.observers ≠ 0)
    (hready : ¬ s.Ready save) : s.notifyEmpty.CanMislead := by
  refine canMislead_of_not_toldReady ?_
  unfold ToldReady notifyEmpty
  rw [removeTimer_told, tellCurrent, hcurrent]
  exact not_toldReady_tell hobserved hready

theorem canMislead_notifyChange (h : ¬ s.Ordered (.notifyChange save)) :
    (s.notifyChange save).CanMislead := by
  simp only [Ordered, Classical.not_imp] at h
  obtain ⟨hasset, hstatus, hready⟩ := h
  have hafter : statusAfterData (s.observers ≠ 0) s.status =
      (if s.observers = 0 then some .allReady else none, true) := by
    by_cases hobserved : s.observers = 0 <;>
      simp [statusAfterData, statusAfterNotify, hstatus, hobserved]
  have hnotified : s.notifyChange save =
      ({ s with current := some save }.tell save true s.observers).setStatus
        (if s.observers = 0 then some .allReady else none) := by
    unfold notifyChange
    dsimp only
    rw [hafter, hasset]
    rfl
  rw [hnotified]
  by_cases hobserved : s.observers = 0
  · rw [if_pos hobserved]
    exact canMislead_of_allReady rfl hready
  · exact canMislead_of_not_toldReady (not_toldReady_tell hobserved hready)

theorem canMislead_notifyAssetsReady (h : ¬ s.Ordered (.assetsReady save)) :
    (s.notifyAssetsReady save).CanMislead := by
  simp only [Ordered, Classical.not_imp, not_forall, not_or] at h
  obtain ⟨hexec, hstatus, other, hcurrent, hother, hready⟩ := h
  let s₁ : Restore := { s with done := save :: s.done }
  have hready₁ : ¬ s₁.Ready other := by
    rintro (hpushed | hdone | htimed)
    · exact hready (.inl hpushed)
    · rcases List.mem_cons.mp hdone with hsame | hdone
      · exact hother hsame
      · exact hready (.inr (.inl hdone))
    · exact hready (.inr (.inr htimed))
  unfold notifyAssetsReady
  rw [if_neg (by rw [hexec]; exact Bool.noConfusion)]
  rcases hstatus with hstatus | hstatus
  · have hleft : ¬ (s₁.setStatus (some .allReady)).removeTimer.Ready other := by
      rw [ready_removeTimer]
      exact hready₁
    rw [hstatus]
    exact canMislead_of_allReady ((removeTimer_status _).trans rfl) hleft
  · rw [hstatus]
    dsimp only
    split
    · exact canMislead_of_allReady rfl hready₁
    · rename_i hobserved
      exact canMislead_notifyEmpty hcurrent hobserved hready₁

theorem canMislead_timeout (h : ¬ s.Ordered (.timeout i))
    (hstep : s.doNotifyWaitAssetTimeout i = some s') : s'.CanMislead := by
  simp only [Ordered, Classical.not_imp, not_forall, not_or] at h
  obtain ⟨hexec, hobserved, save, hsave, other, hcurrent, -, hready⟩ := h
  unfold doNotifyWaitAssetTimeout at hstep
  rw [hsave] at hstep
  rw [if_neg (by rw [hexec]; simp [hobserved])] at hstep
  cases hstep
  exact canMislead_notifyEmpty hcurrent hobserved hready

theorem canMislead_retrieveStatus (h : ¬ s.Ordered (.retrieveStatus i))
    (hstep : s.retrieveStatus i = some s') : s'.CanMislead := by
  simp only [Ordered, Classical.not_imp, not_forall, not_or] at h
  obtain ⟨hstatus, save, hread, -, hready⟩ := h
  have hcheck : s.retrieveStatus i = some ((s.checked i save true).setStatus none) := by
    simp only [retrieveStatus, hread, pushed_of_not_ready hready, hstatus]
    rfl
  cases hcheck.symm.trans hstep
  have hlt : i < s.retrieves.length := (List.getElem?_eq_some_iff.mp hread).choose
  refine canMislead_of_checked (i := i) ?_ hready
  simp [setStatus, checked, hlt]

/-- Every step that mixes up events can be continued so that someone is told wrongly. -/
theorem canMislead_of_not_ordered {a : RestoreAction} (h : ¬ s.Ordered a)
    (hstep : s.step a = some s') : s'.CanMislead := by
  cases a with
  | notifyChange save =>
      rw [step] at hstep
      split at hstep
      · cases hstep
        exact canMislead_notifyChange h
      · cases hstep
  | assetsReady save =>
      cases hstep
      exact canMislead_notifyAssetsReady h
  | timeout i => exact canMislead_timeout h hstep
  | retrieveStatus i => exact canMislead_retrieveStatus h hstep
  | arrive | assetsStart | observe | fire | retrieveRead | retrieveEnd => exact absurd trivial h

end Restore

/-- Nobody is told wrongly in a run that mixes up no events, and every step that mixes
them up can be continued so that someone is. -/
theorem restore_ready_when_ordered (executors : Bool) :
    (∀ schedule s, restoreMachine.exec { executors } schedule = some s →
      restoreMachine.Guarded Restore.Ordered { executors } schedule → s.ToldReady) ∧
    ∀ s a s', restoreMachine.step s a = some s' → ¬ Restore.Ordered s a →
      ∃ more t, restoreMachine.exec s' more = some t ∧ ¬ t.ToldReady := by
  constructor
  · intro schedule s hrun hordered
    exact (restoreMachine.exec_guarded_invariant
      (fun s a s' hinv hguard hstep => Restore.step_inv hinv hguard hstep)
      (Restore.init_inv executors) hordered hrun).told
  · intro s a s' hstep h
    exact Restore.canMislead_of_not_ordered h hstep

def orderedRestore : List RestoreAction :=
  [.observe 1, .arrive (assetSave 1), .notifyChange (assetSave 1), .assetsReady (assetSave 1),
    .assetsReady (assetSave 2), .arrive (assetSave 2), .notifyChange (assetSave 2)]

theorem restore_ready_two_saves :
    ∃ s, restoreMachine.exec { executors := true } orderedRestore = some s ∧
      s.told.map (fun t => (t.save.id, t.allReady)) = [(1, false), (1, true), (2, true)] ∧
      s.ToldReady := by
  obtain ⟨s, hrun⟩ : ∃ s, restoreMachine.exec { executors := true } orderedRestore = some s :=
    ⟨_, rfl⟩
  have htold : ∀ t, restoreMachine.exec { executors := true } orderedRestore = some t →
      t.told.map (fun t => (t.save.id, t.allReady)) = [(1, false), (1, true), (2, true)] := by
    intro t ht
    cases ht
    rfl
  refine ⟨s, hrun, htold s hrun, (restore_ready_when_ordered true).1 orderedRestore s hrun ?_⟩
  refine guarded_cons _ trivial rfl (guarded_cons _ trivial rfl
    (guarded_cons _ ?_ rfl (guarded_cons _ ?_ rfl (guarded_cons _ ?_ rfl
      (guarded_cons _ trivial rfl (guarded_cons _ ?_ rfl trivial))))))
  · intro _ hstatus
    cases hstatus
  · intro _ _ other hother
    cases hother
    exact .inl rfl
  · intro _ hstatus
    rcases hstatus with hstatus | hstatus <;> cases hstatus
  · intro _ _
    exact .inr (.inl (by decide))

/-- The assets of the first save come after its wait; the data of the second save finds
them and is told to be complete. -/
theorem restore_late_assets_mislead :
    ∃ s, restoreMachine.exec { executors := true }
        [.observe 1, .arrive (assetSave 1), .notifyChange (assetSave 1), .fire 0, .timeout 0,
          .assetsReady (assetSave 1), .arrive (assetSave 2), .notifyChange (assetSave 2)] = some s ∧
      s.told.map (fun t => (t.save.id, t.allReady, t.ready)) =
        [(1, false, false), (1, true, true), (2, true, false)] ∧
      ¬ s.ToldReady := by
  refine ⟨_, rfl, rfl, ?_⟩
  intro h
  have hlast := h ⟨assetSave 2, true, false⟩ (by decide) rfl
  cases hlast

end DataMgr.Object
