import DataMgr.Cloud.CloudSwitches

/-! # The order of the switch calls

The calls are settled one after another, and a call is settled between its beginning and its
return, so the order in which they are settled agrees with real time.
-/

namespace DataMgr.Cloud

open DataMgr.Foundation

namespace SwitchService

variable {server : CloudInfo} {s s' : SwitchService} {a : SwitchAction}

structure Ordered (s : SwitchService) : Prop where
  ids : (s.returned.map SettledCall.id ++ s.jobs.map SwitchJob.id).Nodup
  bound : ∀ id ∈ s.returned.map SettledCall.id ++ s.jobs.map SwitchJob.id, id < s.next
  jobsBefore : ∀ job ∈ s.jobs, ∀ id ∈ job.before, id ∈ s.returned.map SettledCall.id
  settledBefore : ∀ call ∈ s.settled, ∀ id ∈ call.before, id ∈ s.returned.map SettledCall.id
  order : s.settled.Pairwise fun earlier later => later.id ∉ earlier.before
  all : s.settled.Perm (s.returned ++ s.jobs.filterMap SwitchJob.leaving)

theorem ordered_call (h : s.Ordered) (call : SwitchCall) (env : SwitchEnv) :
    ({ s with
        jobs := s.jobs ++ [⟨s.next, call, env, s.returned.map SettledCall.id, .load⟩]
        next := s.next + 1 } : SwitchService).Ordered where
  ids := by
    rw [List.map_append, ← List.append_assoc]
    refine List.nodup_append.mpr ⟨h.ids, List.nodup_singleton _, fun id hid other hother => ?_⟩
    have hlt := h.bound id hid
    rw [List.mem_singleton.mp hother]
    exact hlt.ne
  bound := by
    intro id hid
    rw [List.map_append, ← List.append_assoc] at hid
    rcases mem_concat.mp hid with hold | rfl
    · exact (h.bound id hold).trans (Nat.lt_succ_self _)
    · exact Nat.lt_succ_self _
  jobsBefore := by
    intro job hjob id hid
    rcases mem_concat.mp hjob with hold | rfl
    · exact h.jobsBefore job hold id hid
    · exact hid
  settledBefore := h.settledBefore
  order := h.order
  all := by
    rw [List.filterMap_append]
    exact (List.append_nil (s.jobs.filterMap SwitchJob.leaving)).symm ▸ h.all

variable {job : SwitchJob} {i : Nat}

theorem leaving_id {call : SettledCall} (h : job.leaving = some call) :
    call.id = job.id ∧ call.before = job.before ∧ call.call = job.call ∧ call.env = job.env := by
  unfold SwitchJob.leaving at h
  split at h
  · cases h
    exact ⟨rfl, rfl, rfl, rfl⟩
  all_goals cases h

theorem ordered_returns (h : s.Ordered) (hjob : s.jobs[i]? = some job) {call : SettledCall}
    (hleaving : job.leaving = some call) :
    ({ s with
        jobs := advance s.jobs i none
        returned := s.returned ++ [call] } : SwitchService).Ordered := by
  obtain ⟨before, after, hjobs, hadvance⟩ := exists_advance hjob
  obtain ⟨hid, -⟩ := leaving_id hleaving
  have hmem : ∀ {other}, other ∈ before ++ after → other ∈ s.jobs := by
    intro other hother
    rw [hjobs]
    rcases List.mem_append.mp hother with hleft | hright
    · exact List.mem_append_left _ hleft
    · exact List.mem_append_right _ (List.mem_cons_of_mem _ hright)
  have hids : ((s.returned ++ [call]).map SettledCall.id ++ (before ++ after).map
      SwitchJob.id).Perm (s.returned.map SettledCall.id ++ s.jobs.map SwitchJob.id) := by
    rw [hjobs]
    simp only [List.map_append, List.map_cons, List.map_nil, List.append_assoc, hid,
      List.singleton_append]
    exact List.Perm.append_left _ List.perm_middle.symm
  have hgrows : ∀ {id}, id ∈ s.returned.map SettledCall.id →
      id ∈ (s.returned ++ [call]).map SettledCall.id := by
    intro id hold
    rw [List.map_append]
    exact List.mem_append_left _ hold
  rw [hadvance]
  refine ⟨hids.nodup_iff.mpr h.ids, ?_, ?_, ?_, h.order, ?_⟩
  · exact fun id hmem => h.bound id (hids.mem_iff.mp hmem)
  · exact fun other hother id hbefore => hgrows (h.jobsBefore other (hmem hother) id hbefore)
  · exact fun other hother id hbefore => hgrows (h.settledBefore other hother id hbefore)
  · refine h.all.trans ?_
    rw [hjobs]
    simp only [List.filterMap_append, List.filterMap_cons, hleaving, List.append_assoc]
    exact List.Perm.append_left _ List.perm_middle

theorem perm_leaving {jobs : List SwitchJob} (hjob : jobs[i]? = some job)
    (hleaving : job.leaving = none) (job' : SwitchJob) :
    (jobs.filterMap SwitchJob.leaving ++ job'.leaving.toList).Perm
      ((advance jobs i (some job')).filterMap SwitchJob.leaving) := by
  obtain ⟨before, after, hjobs, hadvance⟩ := exists_advance hjob
  have hsplit : (job' :: after).filterMap SwitchJob.leaving =
      job'.leaving.toList ++ after.filterMap SwitchJob.leaving := by
    rw [List.filterMap_cons]
    cases job'.leaving <;> rfl
  have hadvance : advance jobs i (some job') = before ++ job' :: after := hadvance _
  rw [hadvance, hjobs, List.filterMap_append, List.filterMap_append,
    List.filterMap_cons_none hleaving, hsplit, List.append_assoc]
  exact List.perm_append_comm.append_left _

/-- A call that makes a step may be settled by it; it has not returned when others began. -/
theorem ordered_steps (h : s.Ordered) (hjob : s.jobs[i]? = some job) (hleaving : job.leaving = none)
    (stored : Option CloudInfo) (stage : SwitchStage) :
    ({ s with
        stored
        jobs := advance s.jobs i (some { job with stage })
        settled := s.settled ++ ({ job with stage } : SwitchJob).leaving.toList } :
      SwitchService).Ordered := by
  obtain ⟨before, after, hjobs, hadvance⟩ := exists_advance hjob
  have hids : (advance s.jobs i (some { job with stage })).map SwitchJob.id =
      s.jobs.map SwitchJob.id := by
    rw [hadvance, hjobs]
    simp
  have hbefore : ∀ id ∈ job.before, id ∈ s.returned.map SettledCall.id :=
    h.jobsBefore job (List.mem_of_getElem? hjob)
  have hnot : job.id ∉ s.returned.map SettledCall.id := by
    intro hreturned
    have hdisjoint := (List.nodup_append.mp h.ids).2.2
    exact hdisjoint job.id hreturned job.id
      (List.mem_map_of_mem (List.mem_of_getElem? hjob)) rfl
  refine ⟨hids ▸ h.ids, hids ▸ h.bound, ?_, ?_, ?_, ?_⟩
  · intro other hother
    have hother : other ∈ advance s.jobs i (some { job with stage }) := hother
    rcases mem_advance hother with hnew | hold
    · cases hnew
      exact hbefore
    · exact h.jobsBefore other hold
  · intro call hcall
    rcases List.mem_append.mp hcall with hold | hnew
    · exact h.settledBefore call hold
    · rw [(leaving_id (Option.mem_toList.mp hnew)).2.1]
      exact hbefore
  · refine List.pairwise_append.mpr ⟨h.order, ?_, ?_⟩
    · cases ({ job with stage } : SwitchJob).leaving <;> simp
    · intro earlier hearlier later hlater hmem
      rw [(leaving_id (Option.mem_toList.mp hlater)).1] at hmem
      exact hnot (h.settledBefore earlier hearlier _ hmem)
  · refine (h.all.append_right _).trans ?_
    rw [List.append_assoc]
    exact (perm_leaving hjob hleaving { job with stage }).append_left _

theorem step_next (hstep : s.step server (.next i) = some s') :
    ∃ job, s.jobs[i]? = some job ∧ s.admits job = true ∧ s' = s.jobNext server i job := by
  simp only [step, Option.bind_eq_some_iff] at hstep
  obtain ⟨job, hjob, hstep⟩ := hstep
  split at hstep
  case isTrue hadmits => exact ⟨job, hjob, hadmits, (Option.some.inj hstep).symm⟩
  case isFalse => cases hstep

theorem step_updateNext {saves : Bool} (hstep : s.step server (.updateNext i saves) = some s') :
    ∃ stored updates, s' = { s with stored, updates } ∧
      (stored ≠ s.stored → s.updates[i]? = some .save ∧ saves = true) := by
  simp only [step, Option.map_eq_some_iff] at hstep
  obtain ⟨stage, hstage, rfl⟩ := hstep
  cases stage with
  | load =>
      simp only
      split <;> exact ⟨s.stored, _, rfl, fun hne => absurd rfl hne⟩
  | save =>
      refine ⟨_, _, rfl, fun hne => ⟨hstage, ?_⟩⟩
      by_contra hnot
      rw [if_neg hnot] at hne
      exact hne rfl

theorem ordered_step (h : s.Ordered) (hstep : s.step server a = some s') : s'.Ordered := by
  cases a with
  | call call env =>
      cases hstep
      exact ordered_call h call env
  | next i =>
      obtain ⟨job, hjob, -, rfl⟩ := step_next hstep
      unfold jobNext
      split
      · rename_i call hleaving
        exact ordered_returns h hjob hleaving
      · rename_i hleaving
        exact ordered_steps h hjob hleaving _ _
  | updateCloudInfo =>
      cases hstep
      exact ⟨h.ids, h.bound, h.jobsBefore, h.settledBefore, h.order, h.all⟩
  | updateNext i saves =>
      obtain ⟨stored, updates, rfl, -⟩ := step_updateNext hstep
      exact ⟨h.ids, h.bound, h.jobsBefore, h.settledBefore, h.order, h.all⟩

end SwitchService

end DataMgr.Cloud
