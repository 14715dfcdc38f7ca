import DataMgr.Udmf.DelayData

/-! # Overlapping calls of AddPrivilege

`AddPrivilege` reads the runtime of a key, appends the privilege to its copy and writes the
copy back. No lock is held between the two, so calls are interleaved at the read and at the
write.
-/

namespace DataMgr.Udmf

open DataMgr.Foundation

/-- A call that has read the runtime of its key. -/
structure PrivilegeCall where
  intention : String
  privilege : Privilege
  runtime : Runtime
deriving DecidableEq, Repr

section

variable (env : ServiceEnv) (st : ServiceState) (tokenId : Token) (key : String)
  (privilege : Privilege)

/-- `AddPrivilege` up to the read: it has returned, or goes on to write. -/
def addPrivilegeRead : (Status × ServiceState) ⊕ PrivilegeCall :=
  match env.intentionOf key, env.nativeProcessName tokenId with
  | none, _ => .inl (.eInvalidParameters, st)
  | some _, none => .inl (.eError, st)
  | some intention, some processName =>
      if !checkAddPrivilegePermission env tokenId intention processName then
        .inl (.eNoPermission, st)
      else if !env.isNativeToken tokenId then .inl (.eNoPermission, st)
      else
        match st.stores[intention]? with
        | none => .inl (.eDbError, st)
        | some store =>
            match store.getRuntime key with
            | (.eNotFound, _) => .inl (.eOk, addPrivilege.cachePrivilege key privilege st)
            | (.eOk, some runtime) =>
                if runtime.dataStatus = .waiting then
                  .inl (.eOk, addPrivilege.cachePrivilege key privilege st)
                else .inr ⟨intention, privilege, runtime⟩
            | (status, _) => .inl (handleDbError status, st)

/-- The rest of `AddPrivilege`, on the store it was called with. -/
def addPrivilegeWrite (call : PrivilegeCall) : Status × ServiceState :=
  match st.stores[call.intention]? with
  | none => (.eDbError, st)
  | some store =>
      let (status, store) := store.putRuntime key
        { call.runtime with privileges := call.runtime.privileges ++ [call.privilege] }
      (handleDbError status, { st with stores := st.stores.insert call.intention store })

theorem addPrivilege_eq_halves :
    addPrivilege env st tokenId key privilege =
      (addPrivilegeRead env st tokenId key privilege).elim id (addPrivilegeWrite st key) := by
  rcases hintention : env.intentionOf key with _ | intention <;>
    rcases hname : env.nativeProcessName tokenId with _ | processName <;>
    simp only [addPrivilege, addPrivilegeRead, hintention, hname, Sum.elim_inl, id_eq]
  split
  · rfl
  split
  · rfl
  rcases hstore : st.stores[intention]? with _ | store
  · rfl
  rcases hread : store.getRuntime key with ⟨status, _ | runtime⟩
  · cases status <;> simp only [hread, Sum.elim_inl, id_eq]
  cases status <;> simp only [hread, Sum.elim_inl, id_eq]
  split
  · rfl
  · simp only [Sum.elim_inr, addPrivilegeWrite, hstore]

end

structure PrivilegeState where
  service : ServiceState
  /-- The calls that have read, each with the number of writes before its read. -/
  calls : List (PrivilegeCall × Nat)
  writes : Nat
  /-- The privileges of the calls that have returned `E_OK`. -/
  added : List Privilege

inductive PrivilegeAction
  | read (tokenId : Token) (privilege : Privilege)
  | write (i : Nat)
deriving DecidableEq, Repr

section

variable (env : ServiceEnv) (key : String)

def ServiceState.storedRuntime (st : ServiceState) : Option Runtime :=
  (env.intentionOf key).bind fun intention =>
    st.stores[intention]?.bind fun store => (store.data[key]?).bind UnifiedData.runtime

def ServiceState.storedPrivileges (st : ServiceState) : List Privilege :=
  ((st.storedRuntime env key).map Runtime.privileges).getD []

namespace PrivilegeState

variable (s : PrivilegeState)

def returns (privilege : Privilege) (result : Status × ServiceState) : PrivilegeState :=
  { s with
    service := result.2
    added := if result.1 = .eOk then s.added ++ [privilege] else s.added }

def step : PrivilegeAction → Option PrivilegeState
  | .read tokenId privilege =>
      match addPrivilegeRead env s.service tokenId key privilege with
      | .inl result => some (s.returns privilege result)
      | .inr call => some { s with calls := s.calls ++ [(call, s.writes)] }
  | .write i =>
      s.calls[i]?.map fun (call, _) =>
        let result := addPrivilegeWrite s.service key call
        { s.returns call.privilege result with
          calls := s.calls.eraseIdx i
          writes := if result.1 = .eOk then s.writes + 1 else s.writes }

/-- The key a call reads is there, and its data is not awaited; and no other call has written
since a call that writes has read. -/
def Undisturbed : PrivilegeAction → Prop
  | .read _ _ =>
      ∀ intention ∈ env.intentionOf key, ∀ store ∈ s.service.stores[intention]?,
        (store.getRuntime key).1 ≠ .eNotFound ∧
          ∀ runtime ∈ (store.getRuntime key).2, runtime.dataStatus ≠ .waiting
  | .write i => ∀ call ∈ s.calls[i]?, call.2 = s.writes

end PrivilegeState

def privilegeMachine : Machine PrivilegeState PrivilegeAction where
  step := PrivilegeState.step env key

variable {env key} {st : ServiceState} {tokenId : Token} {privilege : Privilege}
  {call : PrivilegeCall}

/-- What a call has read is stored, where it will write. -/
def PrivilegeCall.Current (env : ServiceEnv) (key : String) (st : ServiceState)
    (call : PrivilegeCall) : Prop :=
  env.intentionOf key = some call.intention ∧ st.storedRuntime env key = some call.runtime

theorem getRuntime_eOk {store : RuntimeStore} {found : Option Runtime}
    (h : store.getRuntime key = (.eOk, found)) :
    ∃ runtime, found = some runtime ∧ (store.data[key]?).bind UnifiedData.runtime = found := by
  unfold RuntimeStore.getRuntime at h
  split at h
  · rename_i hfailed
    exact absurd (congrArg Prod.fst h) hfailed
  split at h
  · cases h
  · rename_i runtime hruntime
    split at h
    · cases h
    · cases h
      exact ⟨runtime, rfl, hruntime⟩

theorem handleDbError_ne_eOk {status : Status} (h : status ≠ .eOk) :
    handleDbError status ≠ .eOk := by
  unfold handleDbError
  split
  · exact nofun
  · exact h

/-- A call that returns before its write has changed nothing stored, and has failed if it
found a runtime whose data is there. -/
theorem addPrivilegeRead_inl {s : PrivilegeState} {result : Status × ServiceState}
    (hguard : s.Undisturbed env key (.read tokenId privilege))
    (h : addPrivilegeRead env s.service tokenId key privilege = .inl result) :
    result.1 ≠ .eOk ∧ result.2.stores = s.service.stores := by
  simp only [addPrivilegeRead] at h
  split at h
  · cases h
    exact ⟨nofun, rfl⟩
  · cases h
    exact ⟨nofun, rfl⟩
  rename_i intention _ hintention _
  split at h
  · cases h
    exact ⟨nofun, rfl⟩
  split at h
  · cases h
    exact ⟨nofun, rfl⟩
  split at h
  · cases h
    exact ⟨nofun, rfl⟩
  rename_i store hstore
  obtain ⟨hfound, hready⟩ := hguard intention hintention store hstore
  split at h
  · rename_i hnone
    exact absurd (congrArg Prod.fst hnone) hfound
  · rename_i runtime hruntime
    rw [if_neg (hready runtime (congrArg Prod.snd hruntime))] at h
    cases h
  · rename_i status found _ hsome hread
    cases h
    refine ⟨handleDbError_ne_eOk fun hok => ?_, rfl⟩
    subst hok
    obtain ⟨runtime, rfl, -⟩ := getRuntime_eOk hread
    exact hsome runtime rfl rfl

theorem addPrivilegeRead_inr (h : addPrivilegeRead env st tokenId key privilege = .inr call) :
    call.Current env key st := by
  simp only [addPrivilegeRead] at h
  split at h
  · cases h
  · cases h
  rename_i intention _ hintention _
  split at h
  · cases h
  split at h
  · cases h
  split at h
  · cases h
  rename_i store hstore
  split at h
  · cases h
  · rename_i runtime hread
    split at h
    · cases h
    cases h
    obtain ⟨-, -, hruntime⟩ := getRuntime_eOk hread
    refine ⟨hintention, ?_⟩
    simp only [ServiceState.storedRuntime, hintention, hstore, Option.bind_some, hruntime]
  · cases h

variable (h : env.intentionOf key = some call.intention)

include h

theorem storedRuntime_eq :
    st.storedRuntime env key = st.stores[call.intention]?.bind fun store =>
      (store.data[key]?).bind UnifiedData.runtime := by
  simp only [ServiceState.storedRuntime, h, Option.bind_some]

theorem addPrivilegeWrite_eOk (hwrite : (addPrivilegeWrite st key call).1 = .eOk) :
    (addPrivilegeWrite st key call).2.storedRuntime env key =
      some { call.runtime with privileges := call.runtime.privileges ++ [call.privilege] } := by
  rw [storedRuntime_eq h]
  simp only [addPrivilegeWrite, RuntimeStore.putRuntime] at hwrite ⊢
  split at hwrite
  · cases hwrite
  split at hwrite
  · rename_i hfailed
    exact absurd hwrite (handleDbError_ne_eOk hfailed)
  · rename_i hok
    simp [hok]

theorem addPrivilegeWrite_failed (hwrite : (addPrivilegeWrite st key call).1 ≠ .eOk) :
    (addPrivilegeWrite st key call).2.storedRuntime env key = st.storedRuntime env key := by
  rw [storedRuntime_eq h, storedRuntime_eq h]
  simp only [addPrivilegeWrite, RuntimeStore.putRuntime] at hwrite ⊢
  split at hwrite
  · rfl
  rename_i store hstore
  split at hwrite
  · rename_i hfailed
    simp [hfailed, hstore]
  · exact absurd rfl hwrite

omit h

namespace PrivilegeState

variable {s s' : PrivilegeState} {before : List Privilege}

/-- The stored privileges are those from before and the ones added, in that order, and a call that
no write has overtaken has read them. -/
structure Kept (env : ServiceEnv) (key : String) (before : List Privilege) (s : PrivilegeState) :
    Prop where
  stored : s.service.storedPrivileges env key = before ++ s.added
  fresh : Fresh (PrivilegeCall.Current env key s.service) s.calls s.writes

theorem kept_read (hs : s.Kept env key before)
    (hguard : s.Undisturbed env key (.read tokenId privilege))
    (h : s.step env key (.read tokenId privilege) = some s') : s'.Kept env key before := by
  simp only [step] at h
  split at h
  · rename_i result hread
    obtain ⟨hstatus, hstores⟩ := addPrivilegeRead_inl hguard hread
    cases h
    have hsame : result.2.storedRuntime env key = s.service.storedRuntime env key := by
      simp only [ServiceState.storedRuntime, hstores]
    constructor
    · simpa [returns, hstatus, ServiceState.storedPrivileges, hsame] using hs.stored
    · exact hs.fresh.mono fun call hcall => ⟨hcall.1, hsame.trans hcall.2⟩
  · rename_i call hread
    cases h
    exact ⟨hs.stored, hs.fresh.read (addPrivilegeRead_inr hread)⟩

theorem kept_write (hs : s.Kept env key before) {i : Nat}
    (hguard : s.Undisturbed env key (.write i)) (h : s.step env key (.write i) = some s') :
    s'.Kept env key before := by
  obtain ⟨⟨call, date⟩, hi, rfl⟩ := Option.map_eq_some_iff.mp h
  obtain ⟨hintention, hruntime⟩ :=
    (hs.fresh (call, date) (List.mem_of_getElem? hi)).2 (hguard (call, date) hi)
  have hprivileges : call.runtime.privileges = before ++ s.added := by
    have := hs.stored
    rwa [ServiceState.storedPrivileges, hruntime] at this
  by_cases hok : (addPrivilegeWrite s.service key call).1 = .eOk
  · constructor
    · simp [returns, hok, ServiceState.storedPrivileges, addPrivilegeWrite_eOk hintention hok,
        hprivileges]
    · simp only [hok, if_true]
      exact (hs.fresh.retire i).write _
  · have hsame := addPrivilegeWrite_failed hintention hok
    constructor
    · simpa [returns, hok, ServiceState.storedPrivileges, hsame] using hs.stored
    · simp only [hok, if_false]
      exact (hs.fresh.retire i).mono fun other hother => ⟨hother.1, hsame.trans hother.2⟩

/-- If every call finds the data of the key there, and no other call writes between its read
and its write, the stored privileges are those from before the run and every privilege of a call
that has returned `E_OK`. -/
theorem privileges_stored {actions : List PrivilegeAction}
    (hrun : (privilegeMachine env key).exec ⟨st, [], 0, []⟩ actions = some s)
    (hguard : (privilegeMachine env key).Guarded (Undisturbed env key) ⟨st, [], 0, []⟩ actions) :
    s.service.storedPrivileges env key = st.storedPrivileges env key ++ s.added := by
  have hinit : Kept env key (st.storedPrivileges env key) ⟨st, [], 0, []⟩ :=
    ⟨(List.append_nil _).symm, nofun⟩
  refine ((privilegeMachine env key).exec_guarded_invariant ?_ hinit hguard hrun).stored
  intro t a t' ht hcalm hnext
  cases a with
  | read tokenId privilege => exact kept_read ht hcalm hnext
  | write i => exact kept_write ht hcalm hnext

instance (s : PrivilegeState) : (a : PrivilegeAction) → Decidable (s.Undisturbed env key a)
  | .read _ _ => inferInstanceAs (Decidable (∀ _ ∈ _, _))
  | .write _ => inferInstanceAs (Decidable (∀ _ ∈ _, _))

/-- The drag store with a runtime of the key `k`. -/
def oneRuntime (dataStatus : DataStatus) : PrivilegeState where
  service :=
    { ServiceState.initial with
      stores := Std.ExtTreeMap.empty.insert dragIntention
        ⟨.eOk, .eOk, Std.ExtTreeMap.empty.insert "k"
          ⟨some ⟨"k", [⟨1, ""⟩], "com.example.notes", "local", 0, 1, dataStatus, 0⟩, none, []⟩,
          none⟩ }
  calls := []
  writes := 0
  added := []

theorem privileges_stored_in_turn :
    ∃ s, (privilegeMachine openService "k").exec (oneRuntime .working)
        [.read 5 ⟨2, ""⟩, .write 0, .read 5 ⟨3, ""⟩, .write 0] = some s ∧
      s.added = [⟨2, ""⟩, ⟨3, ""⟩] ∧
      s.service.storedPrivileges openService "k" =
        (oneRuntime .working).service.storedPrivileges openService "k" ++ s.added := by
  have hguard : (privilegeMachine openService "k").Guarded (Undisturbed openService "k")
      (oneRuntime .working) [.read 5 ⟨2, ""⟩, .write 0, .read 5 ⟨3, ""⟩, .write 0] := by
    decide +kernel
  exact ⟨_, rfl, by decide +kernel, privileges_stored rfl hguard⟩

/-- The second of two writes of overlapping calls drops the privilege of the first, and the
privilege for data that is awaited goes to the cache. -/
theorem privileges_dropped :
    (∃ s, (privilegeMachine openService "k").exec (oneRuntime .working)
        [.read 5 ⟨2, ""⟩, .read 5 ⟨3, ""⟩, .write 0, .write 0] = some s ∧
      s.calls = [] ∧ s.added = [⟨2, ""⟩, ⟨3, ""⟩] ∧
      s.service.storedPrivileges openService "k" = [⟨1, ""⟩, ⟨3, ""⟩]) ∧
    ∃ s, (privilegeMachine openService "k").exec (oneRuntime .waiting)
        [.read 5 ⟨2, ""⟩] = some s ∧
      s.calls = [] ∧ s.added = [⟨2, ""⟩] ∧
      s.service.storedPrivileges openService "k" = [⟨1, ""⟩] := by
  refine ⟨⟨_, rfl, ?_, ?_, ?_⟩, ⟨_, rfl, ?_, ?_, ?_⟩⟩ <;> decide +kernel

end PrivilegeState

end

end DataMgr.Udmf
