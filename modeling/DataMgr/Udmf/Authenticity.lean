import DataMgr.Udmf.DelayData

/-! # Authenticity of delayed data

`PushDelayData` compares the pusher with the registrant only when nobody waits. When a
requester waits, its checks are about the requester, and a push by another token goes
through as soon as it passes them. Data reaches requesters from the registrant in every
run in which no such push occurs.
-/

namespace DataMgr.Udmf

open DataMgr.Foundation

/-- The data was pushed by the token under which its key was registered then. -/
def Pushed.Authentic (pushed : Pushed) : Prop := pushed.registrant = some pushed.pusher

/-- The push passes every check of `PushDelayData` while a requester waits. -/
structure PassesChecks (env : ServiceEnv) (st : ServiceState) (tokenId : Token) (key : String)
    (unifiedData : UnifiedData) : Prop where
  draggable : env.isDraggable tokenId = true
  dragKey : checkDragParams env key = true
  filled : (fillDelayUnifiedData env tokenId key unifiedData).1 = .eOk
  accepted : ∃ requester, requester? st key = some requester ∧
    (tokenId = requester ∨ isPermissionInCache st requester key = true) ∧
    (processUri env requester (fillDelayUnifiedData env tokenId key unifiedData).2).1 = .eOk

/-- The condition on one step: a push that passes the checks is made by the registrant. -/
def PushGuard (s : DelayState) (label : ServiceEnv × DelayCall) : Prop :=
  match label.2 with
  | .pushDelayData tokenId key unifiedData =>
      PassesChecks label.1 s.service tokenId key unifiedData → s.registrants[key]? = some tokenId
  | _ => True

/-- The blocks, and the entries that lead to them. -/
def ServiceState.waiting (st : ServiceState) :
    List (Option Pushed) × Std.ExtTreeMap String BlockDelayData :=
  (st.blocks, st.blockDelayDataCache)

section

variable {env : ServiceEnv} {st : ServiceState} {tokenId : Token} {key : String}

theorem retrieveData_waiting : (retrieveData env st tokenId key).2.2.waiting = st.waiting := by
  unfold retrieveData
  split
  · rfl
  split
  · rfl
  split
  · split
    · rfl
    split
    · rfl
    split
    · unfold releaseData
      split
      · rfl
      · split <;> rfl
    · rfl
  · rfl

theorem getDataIfAvailable_waiting {notifier : Notifier} :
    (getDataIfAvailable env st tokenId key notifier).2.2.waiting = st.waiting := by
  have hretrieve := @retrieveData_waiting env st tokenId key
  have hexec : ∀ st : ServiceState, (execDataLoadCallback st key).2.waiting = st.waiting := by
    intro st
    unfold execDataLoadCallback
    split <;> rfl
  have hregister : ∀ (st : ServiceState) (info : DelayGetDataInfo),
      (registerDelayDataCallback st key info).waiting = st.waiting := by
    intro st info
    unfold registerDelayDataCallback
    split
    · rfl
    · split <;> rfl
  unfold getDataIfAvailable
  split
  · rename_i data st' heq
    rw [heq] at hretrieve
    dsimp only at hretrieve ⊢
    have hafter : (execDataLoadCallback (registerDelayDataCallback st' key ⟨some notifier, tokenId⟩)
        key).2.waiting = st.waiting := by rw [hexec, hregister, hretrieve]
    split
    · exact hafter
    · split
      · split <;> exact hafter
      · exact hafter
  · rename_i heq
    rw [heq] at hretrieve
    exact hretrieve

theorem setDelayInfo_waiting {sequenceKey : String} {recordCount : Nat}
    {notifier : Option Notifier} :
    (setDelayInfo env st tokenId sequenceKey recordCount notifier).2.2.waiting = st.waiting := by
  have hregister : ∀ key, (registerDataLoadCallback st key notifier).waiting = st.waiting := by
    intro key
    unfold registerDataLoadCallback
    split
    · rfl
    · split <;> rfl
  unfold setDelayInfo
  split
  · rfl
  split
  · rfl
  dsimp only
  split
  · exact hregister _
  · exact hregister _

theorem addPrivilege_waiting {privilege : Privilege} :
    (addPrivilege env st tokenId key privilege).2.waiting = st.waiting := by
  unfold addPrivilege
  split
  · rfl
  · rfl
  split
  · rfl
  split
  · rfl
  split
  · rfl
  split
  · rfl
  · split <;> rfl
  · rfl

theorem updateDelayData_waiting {unifiedData : UnifiedData} :
    (updateDelayData env st tokenId key unifiedData).2.waiting = st.waiting := by
  unfold updateDelayData
  split
  · rfl
  split
  · split
    · rfl
    split
    · rfl
    split <;> rfl
  · rfl

theorem finishGetData_blocks {awaited : Option UnifiedData} :
    (finishGetData env st key awaited).2.2.blocks = st.blocks := by
  cases awaited <;> rfl

theorem finishGetData_entry {awaited : Option UnifiedData} {other : String}
    {entry : BlockDelayData}
    (h : (finishGetData env st key awaited).2.2.blockDelayDataCache[other]? = some entry) :
    st.blockDelayDataCache[other]? = some entry := by
  cases awaited with
  | none => exact h
  | some data =>
      have herased : (st.blockDelayDataCache.erase key)[other]? = some entry := h
      rw [Std.ExtTreeMap.getElem?_erase] at herased
      split at herased
      · cases herased
      · exact herased

end

section

variable {env : ServiceEnv} {st : ServiceState} {tokenId : Token} {key : String}
  {unifiedData : UnifiedData}

theorem preparePush_ok {requester : Token}
    (h : (preparePush env st requester tokenId key unifiedData).1 = .eOk) :
    (tokenId = requester ∨ isPermissionInCache st requester key = true) ∧
      (processUri env requester unifiedData).1 = .eOk := by
  unfold preparePush at h
  split at h
  · cases h
  rename_i hallowed
  constructor
  · by_contra hnone
    rw [not_or, Bool.not_eq_true] at hnone
    apply hallowed
    rw [hnone.2]
    simpa using hnone.1
  · split at h
    · rename_i filled heq
      rw [heq]
    · cases h

variable (env st tokenId key unifiedData) in
theorem pushDelayData_cases (registrant : Option Token) :
    ((pushDelayData env st registrant tokenId key unifiedData).2.1 = none ∧
      (pushDelayData env st registrant tokenId key unifiedData).2.2.waiting = st.waiting) ∨
    (PassesChecks env st tokenId key unifiedData ∧ ∃ data : UnifiedData,
      ((pushDelayData env st registrant tokenId key unifiedData).2.1 = none ∧
        ∃ entry, st.blockDelayDataCache[key]? = some entry ∧
        (pushDelayData env st registrant tokenId key unifiedData).2.2.waiting =
          (st.blocks.set entry.block (some ⟨data, key, tokenId, registrant⟩),
            st.blockDelayDataCache)) ∨
      ((∃ requester, (pushDelayData env st registrant tokenId key unifiedData).2.1 =
          some ⟨key, requester, ⟨data, key, tokenId, registrant⟩⟩) ∧
        (pushDelayData env st registrant tokenId key unifiedData).2.2.waiting = st.waiting)) := by
  unfold pushDelayData
  split
  · exact .inl ⟨rfl, rfl⟩
  rename_i hdraggable
  split
  · exact .inl ⟨rfl, rfl⟩
  rename_i hkey
  split
  · rename_i filled hfilled
    split
    · exact .inl ⟨rfl, updateDelayData_waiting⟩
    rename_i requester hrequester
    split
    · rename_i prepared hprepared
      have hok : (preparePush env st requester tokenId key filled).1 = .eOk := by rw [hprepared]
      obtain ⟨hallowed, huri⟩ := preparePush_ok hok
      have hpasses : PassesChecks env st tokenId key unifiedData := {
        draggable := by simpa using hdraggable
        dragKey := by simpa using hkey
        filled := by rw [hfilled]
        accepted := ⟨requester, hrequester, hallowed, by rw [hfilled]; exact huri⟩ }
      dsimp only
      split
      · unfold handleDelayDataCallback
        split
        · exact .inl ⟨rfl, rfl⟩
        rename_i info hinfo
        dsimp only
        split
        · exact .inl ⟨rfl, rfl⟩
        · exact .inr ⟨hpasses, prepared, .inr ⟨⟨info.tokenId, rfl⟩, rfl⟩⟩
      · split
        · exact .inl ⟨rfl, rfl⟩
        · rename_i entry hentry
          exact .inr ⟨hpasses, prepared, .inl ⟨rfl, entry, hentry, rfl⟩⟩
    · exact .inl ⟨rfl, rfl⟩
  · exact .inl ⟨rfl, rfl⟩

end

open DelayState

namespace DelayState

/-- Every block is owned by one key: its entry, the calls that wait on it and the data put
into it agree on the key. -/
structure BlocksOwned (s : DelayState) (owners : List String) : Prop where
  length : owners.length = s.service.blocks.length
  entries : ∀ (key : String) (entry : BlockDelayData),
    s.service.blockDelayDataCache[key]? = some entry → owners[entry.block]? = some key
  calls : ∀ call ∈ s.calls, owners[call.block]? = some call.key
  pushed : ∀ (block : Nat) (pushed : Pushed), s.service.blocks[block]? = some (some pushed) →
    owners[block]? = some pushed.key ∧ pushed.Authentic

/-- All data handed over was pushed for the key it was waited for, by the registrant. -/
structure AllAuthentic (s : DelayState) : Prop where
  owned : ∃ owners, s.BlocksOwned owners
  delivered : ∀ delivery ∈ s.delivered,
    delivery.pushed.key = delivery.key ∧ delivery.pushed.Authentic

variable {s : DelayState} {env : ServiceEnv}

variable {s' : DelayState} {owners : List String}

theorem AllAuthentic.of_waiting (h : s.AllAuthentic)
    (hwaiting : s'.service.waiting = s.service.waiting)
    (hcalls : s'.calls = s.calls) (hdelivered : s'.delivered = s.delivered) : s'.AllAuthentic := by
  obtain ⟨owners, howned⟩ := h.owned
  have hblocks : s'.service.blocks = s.service.blocks := congrArg Prod.fst hwaiting
  have hcache : s'.service.blockDelayDataCache = s.service.blockDelayDataCache :=
    congrArg Prod.snd hwaiting
  refine ⟨⟨owners, ?_⟩, ?_⟩
  · constructor
    · rw [hblocks]
      exact howned.length
    · rw [hcache]
      exact howned.entries
    · rw [hcalls]
      exact howned.calls
    · rw [hblocks]
      exact howned.pushed
  · rw [hdelivered]
    exact h.delivered

theorem BlocksOwned.wait (h : s.BlocksOwned owners) {call : WaitingGet}
    (hcall : owners[call.block]? = some call.key) :
    BlocksOwned { s with calls := s.calls ++ [call] } owners := by
  constructor
  · exact h.length
  · exact h.entries
  · intro other hother
    rcases mem_concat.mp hother with hold | rfl
    · exact h.calls other hold
    · exact hcall
  · exact h.pushed

theorem BlocksOwned.newBlock (h : s.BlocksOwned owners) (tokenId : Token) (key : String) :
    BlocksOwned { s with service := { s.service with
        blockDelayDataCache :=
          s.service.blockDelayDataCache.insert key ⟨tokenId, s.service.blocks.length⟩
        blocks := s.service.blocks ++ [none] } } (owners ++ [key]) := by
  have hkeep : ∀ {block : Nat} {owner : String}, owners[block]? = some owner →
      (owners ++ [key])[block]? = some owner := by
    intro block owner howner
    rw [List.getElem?_append_left (List.getElem?_eq_some_iff.mp howner).1]
    exact howner
  constructor
  · rw [List.length_append, List.length_append, h.length]
    rfl
  · intro other entry hentry
    rw [Std.ExtTreeMap.getElem?_insert] at hentry
    split at hentry
    · rename_i hsame
      cases hentry
      rw [← Std.LawfulEqCmp.eq_of_compare hsame, ← h.length, List.getElem?_concat_length]
    · exact hkeep (h.entries other entry hentry)
  · intro call hcall
    exact hkeep (h.calls call hcall)
  · intro block pushed hpushed
    have hold : s.service.blocks[block]? = some (some pushed) := by
      rw [List.getElem?_append] at hpushed
      split at hpushed
      · exact hpushed
      · rw [List.getElem?_singleton] at hpushed
        split at hpushed <;> cases hpushed
    exact (h.pushed block pushed hold).imp_left hkeep

theorem getData_authentic (h : s.AllAuthentic) (tokenId : Token) (key : String) :
    (s.getData env tokenId key).AllAuthentic := by
  obtain ⟨owners, howned⟩ := h.owned
  unfold getData
  split
  · exact h
  rcases handleDelayLoad_cases s.service tokenId key with ⟨hsame, hfound⟩ | hnew
  · split
    · rename_i service heq
      rw [heq] at hsame
      have hservice : service = s.service := hsame
      subst hservice
      exact h.of_waiting retrieveData_waiting rfl rfl
    · rename_i service heq
      rw [heq] at hsame
      have hservice : service = s.service := hsame
      subst hservice
      exact h
    · rename_i block service heq
      rw [heq] at hsame hfound
      have hservice : service = s.service := hsame
      subst hservice
      obtain ⟨entry, hentry, rfl⟩ := hfound block rfl
      exact ⟨⟨owners, howned.wait (howned.entries key entry hentry)⟩, h.delivered⟩
  · rw [hnew]
    have hblock : (owners ++ [key])[s.service.blocks.length]? = some key := by
      rw [← howned.length, List.getElem?_concat_length]
    exact ⟨⟨owners ++ [key], (howned.newBlock tokenId key).wait hblock⟩, h.delivered⟩

theorem getDataReturn_authentic (h : s.AllAuthentic) {i : Nat}
    (hstep : s.getDataReturn env i = some s') : s'.AllAuthentic := by
  obtain ⟨owners, howned⟩ := h.owned
  obtain ⟨call, hcall, rfl⟩ := Option.map_eq_some_iff.mp hstep
  refine ⟨⟨owners, ?_⟩, ?_⟩
  · constructor
    · rw [finishGetData_blocks]
      exact howned.length
    · intro key entry hentry
      exact howned.entries key entry (finishGetData_entry hentry)
    · intro other hother
      have hmem : other ∈ advance s.calls i none := hother
      rcases mem_advance hmem with hnext | hold
      · cases hnext
      · exact howned.calls other hold
    · rw [finishGetData_blocks]
      exact howned.pushed
  · intro delivery hdelivery
    rcases List.mem_append.mp hdelivery with hold | hnew
    · exact h.delivered delivery hold
    rw [Option.mem_toList, Option.map_eq_some_iff] at hnew
    obtain ⟨pushed, hpushed, rfl⟩ := hnew
    obtain ⟨howner, hauthentic⟩ :=
      howned.pushed call.block pushed (Option.join_eq_some_iff.mp hpushed)
    rw [howned.calls call (List.mem_of_getElem? hcall), Option.some.injEq] at howner
    exact ⟨howner.symm, hauthentic⟩

theorem BlocksOwned.put (h : s.BlocksOwned owners) {pushed : Pushed}
    (hauthentic : pushed.Authentic) {entry : BlockDelayData}
    (hentry : s.service.blockDelayDataCache[pushed.key]? = some entry)
    (hblocks : s'.service.blocks = s.service.blocks.set entry.block (some pushed))
    (hcache : s'.service.blockDelayDataCache = s.service.blockDelayDataCache)
    (hcalls : s'.calls = s.calls) : s'.BlocksOwned owners := by
  constructor
  · rw [hblocks, List.length_set]
    exact h.length
  · rw [hcache]
    exact h.entries
  · rw [hcalls]
    exact h.calls
  · intro block other hother
    rw [hblocks, List.getElem?_set] at hother
    split at hother
    · rename_i hblock
      split at hother
      · cases hother
        rw [← hblock]
        exact ⟨h.entries _ entry hentry, hauthentic⟩
      · cases hother
    · exact h.pushed block other hother

theorem pushDelayData_authentic (h : s.AllAuthentic) {tokenId : Token} {key : String}
    {unifiedData : UnifiedData}
    (hguard : PassesChecks env s.service tokenId key unifiedData →
      s.registrants[key]? = some tokenId) :
    (s.pushDelayData env tokenId key unifiedData).AllAuthentic := by
  obtain ⟨owners, howned⟩ := h.owned
  unfold pushDelayData
  rcases pushDelayData_cases env s.service tokenId key unifiedData s.registrants[key]? with
    ⟨hnone, hwaiting⟩ |
      ⟨hpasses, data, ⟨hnone, entry, hentry, hwaiting⟩ | ⟨⟨requester, hsome⟩, hwaiting⟩⟩
  · exact h.of_waiting hwaiting rfl (by simp [hnone])
  · have hauthentic : Pushed.Authentic ⟨data, key, tokenId, s.registrants[key]?⟩ := hguard hpasses
    refine ⟨⟨owners, ?_⟩, ?_⟩
    · exact howned.put hauthentic hentry (congrArg Prod.fst hwaiting) (congrArg Prod.snd hwaiting)
        rfl
    · simpa [hnone] using h.delivered
  · have hafter : AllAuthentic { s with service := (Udmf.pushDelayData env s.service
        s.registrants[key]? tokenId key unifiedData).2.2 } := h.of_waiting hwaiting rfl rfl
    obtain ⟨owners', howned'⟩ := hafter.owned
    refine ⟨⟨owners', howned'.length, howned'.entries, howned'.calls, howned'.pushed⟩, ?_⟩
    intro delivery hdelivery
    rw [List.mem_append, hsome, Option.toList_some, List.mem_singleton] at hdelivery
    rcases hdelivery with hold | rfl
    · exact h.delivered delivery hold
    · exact ⟨rfl, hguard hpasses⟩

theorem setDelayInfo_frame (env : ServiceEnv) (s : DelayState) (tokenId : Token)
    (sequenceKey : String) (recordCount : Nat) (notifier : Option Notifier) :
    (s.setDelayInfo env tokenId sequenceKey recordCount notifier).service.waiting =
        s.service.waiting ∧
      (s.setDelayInfo env tokenId sequenceKey recordCount notifier).calls = s.calls ∧
      (s.setDelayInfo env tokenId sequenceKey recordCount notifier).delivered = s.delivered := by
  have hwaiting := @setDelayInfo_waiting env s.service tokenId sequenceKey recordCount notifier
  unfold setDelayInfo
  dsimp only
  split
  · exact ⟨hwaiting, rfl, rfl⟩
  · split
    · exact ⟨hwaiting, rfl, rfl⟩
    · exact ⟨hwaiting, rfl, rfl⟩

theorem step_authentic (h : s.AllAuthentic) {label : ServiceEnv × DelayCall}
    (hguard : PushGuard s label) (hstep : delayMachine.step s label = some s') :
    s'.AllAuthentic := by
  obtain ⟨env, call⟩ := label
  cases call with
  | setDelayInfo tokenId sequenceKey recordCount notifier =>
      cases hstep
      obtain ⟨hwaiting, hcalls, hdelivered⟩ :=
        setDelayInfo_frame env s tokenId sequenceKey recordCount notifier
      exact h.of_waiting hwaiting hcalls hdelivered
  | getData tokenId key =>
      cases hstep
      exact getData_authentic h tokenId key
  | getDataReturn i => exact getDataReturn_authentic h hstep
  | getDataIfAvailable tokenId key notifier =>
      cases hstep
      exact h.of_waiting getDataIfAvailable_waiting rfl rfl
  | addPrivilege tokenId key privilege =>
      cases hstep
      exact h.of_waiting addPrivilege_waiting rfl rfl
  | pushDelayData tokenId key unifiedData =>
      cases hstep
      exact pushDelayData_authentic h hguard
  | storesChange stores =>
      cases hstep
      exact h.of_waiting rfl rfl rfl

theorem initial_authentic (stores : Std.ExtTreeMap String RuntimeStore) :
    (initial stores).AllAuthentic := by
  refine ⟨⟨[], ?_⟩, ?_⟩
  · constructor
    · rfl
    · intro key entry hentry
      simp [initial, ServiceState.initial] at hentry
    · intro call hcall
      exact absurd hcall List.not_mem_nil
    · intro block pushed hpushed
      simp [initial, ServiceState.initial] at hpushed
  · intro delivery hdelivery
    exact absurd hdelivery List.not_mem_nil

end DelayState

/-- In every run in which a push that passes the checks comes from the registrant, all
data handed to a requester was pushed for the key it waits for by that key's registrant,
and so was all data still waiting for a requester. -/
theorem delayed_data_authentic {stores : Std.ExtTreeMap String RuntimeStore}
    {schedule : List (ServiceEnv × DelayCall)} {s : DelayState}
    (hguard : delayMachine.Guarded PushGuard (.initial stores) schedule)
    (hrun : delayMachine.exec (.initial stores) schedule = some s) :
    (∀ delivery ∈ s.delivered, delivery.pushed.key = delivery.key ∧
      delivery.pushed.registrant = some delivery.pushed.pusher) ∧
    ∀ pushed, some pushed ∈ s.service.blocks → pushed.registrant = some pushed.pusher := by
  have h : s.AllAuthentic := delayMachine.exec_guarded_invariant
    (fun _ _ _ hs hg hstep => step_authentic hs hg hstep)
    (initial_authentic stores) hguard hrun
  refine ⟨h.delivered, fun pushed hpushed => ?_⟩
  obtain ⟨owners, howned⟩ := h.owned
  obtain ⟨block, hblock⟩ := List.mem_iff_getElem?.mp hpushed
  exact (howned.pushed block pushed hblock).2

/-- Token 1 registers a key, token 2 asks for its data and is granted access, and a token
pushes data for the key. -/
def delayRun (pusher : Token) : List (ServiceEnv × DelayCall) :=
  [(openService, .setDelayInfo 1 "k" 1 (some 0)),
    (openService, .getDataIfAvailable 2 "k" 0),
    (openService, .addPrivilege 5 "k" ⟨2, ""⟩),
    (openService, .pushDelayData pusher "k" .empty)]

theorem delayed_data_authentic_from_registrant :
    (delayMachine.exec (.initial ServiceState.initial.stores) (delayRun 1)).map
        (fun s => s.delivered.length) = some 1 ∧
      ∀ s, delayMachine.exec (.initial ServiceState.initial.stores) (delayRun 1) = some s →
        ∀ delivery ∈ s.delivered, delivery.pushed.key = delivery.key ∧
          delivery.pushed.registrant = some delivery.pushed.pusher := by
  have hguard : delayMachine.Guarded PushGuard (.initial ServiceState.initial.stores)
      (delayRun 1) := by
    refine ⟨trivial, fun s₁ h₁ => ⟨trivial, fun s₂ h₂ => ⟨trivial, fun s₃ h₃ => ⟨?_,
      fun _ _ => trivial⟩⟩⟩⟩
    cases h₁
    cases h₂
    cases h₃
    intro _
    decide +kernel
  exact ⟨by decide +kernel, fun s hrun => (delayed_data_authentic hguard hrun).1⟩

/-- Token 3 never registered the key, and its data reaches token 2. -/
theorem delayed_data_forged :
    (delayMachine.exec (.initial ServiceState.initial.stores) (delayRun 3)).map
        (fun s => s.delivered.map fun d => (d.requester, d.pushed.pusher, d.pushed.registrant)) =
      some [(2, 3, some 1)] := by
  decide +kernel

end DataMgr.Udmf
