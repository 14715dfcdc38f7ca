import DataMgr.Matrix.RemoteChanges

/-! # Consistent levels

A device has two persisted records: the levels received from it and the levels up to
which everything was fetched. `IsConsistent` compares them. An exchange that leaves one
type clean and the other not raises the consistent level of the clean type only, unless
there is no consistent record yet: then the received record is saved as it is.
-/

namespace DataMgr.Matrix

open DataMgr.Foundation DataMgr.Utils MatrixMetaData

variable (s : MatrixState) (device : String)

def recvKey : String := ({ deviceId := device } : MatrixMetaData).getKey

def consKey : String := ({ deviceId := device } : MatrixMetaData).getConsistentKey

variable (matrixMeta : MatrixMetaData)

theorem getKey_eq : matrixMeta.getKey = recvKey matrixMeta.deviceId := rfl

theorem getConsistentKey_eq : matrixMeta.getConsistentKey = consKey matrixMeta.deviceId := rfl

/-- What `GetMatrixMeta(device)` finds, in the bucket or in the store. -/
def MatrixState.recvMeta : Option MatrixMetaData :=
  (s.matrices device).or ((s.localMeta (recvKey device)).map (·.cached))

/-- What `GetMatrixMeta(device, true)` finds. -/
def MatrixState.consMeta : Option MatrixMetaData :=
  s.localMeta (consKey device)

theorem toList_recvKey :
    (recvKey device).toList = ("MatrixMeta".toList ++ "###".toList) ++ device.toList := by
  simp [recvKey, getKey, toList_join, keySeparator]

theorem toList_consKey :
    (consKey device).toList = ("MatrixMeta".toList ++ "###".toList) ++
      (device.toList ++ ("###".toList ++ "Consistent".toList)) := by
  simp [consKey, getConsistentKey, toList_join, keySeparator]

theorem consKey_ne_recvKey : consKey device ≠ recvKey device := by
  intro h
  have hlength := congrArg (fun key => key.toList.length) h
  simp [toList_recvKey, toList_consKey] at hlength

theorem consKey_injective : Function.Injective consKey := by
  intro device other h
  have hlist := congrArg String.toList h
  rw [toList_consKey, toList_consKey] at hlist
  exact String.toList_inj.mp (List.append_cancel_right (List.append_cancel_left hlist))

variable {device : String} {s s' : MatrixState} {type : LevelType}

theorem recvKey_ne_consKey (h : '#' ∉ device.toList) (other : String) :
    recvKey device ≠ consKey other := by
  intro heq
  have hlist := congrArg String.toList heq
  rw [toList_recvKey, toList_consKey] at hlist
  apply h
  rw [List.append_cancel_left hlist]
  simp

open MatrixState

theorem getMatrixMeta_eq (s : MatrixState) (device : String) (isConsistent : Bool) :
    (s.getMatrixMeta device isConsistent).1 =
      match if isConsistent then s.consMeta device else s.recvMeta device with
      | some matrixMeta => (true, matrixMeta)
      | none => (false, { deviceId := device }) := by
  unfold getMatrixMeta consMeta recvMeta consKey recvKey
  dsimp only
  split
  · split <;> simp_all
  · split
    · simp_all
    · split <;> simp_all

theorem getMatrixMeta_localMeta (s : MatrixState) (device : String) (isConsistent : Bool) :
    (s.getMatrixMeta device isConsistent).2.localMeta = s.localMeta := by
  unfold getMatrixMeta
  dsimp only
  split
  · split <;> rfl
  · split
    · rfl
    · split <;> rfl

theorem recvMeta_getMatrixMeta (s : MatrixState) (device : String) :
    (s.getMatrixMeta device false).2.recvMeta device = s.recvMeta device := by
  unfold getMatrixMeta recvMeta
  cases hcache : s.matrices device with
  | some matrixMeta => simp [hcache]
  | none =>
      cases hstore : s.localMeta (recvKey device) with
      | some matrixMeta => simp [getKey_eq, hstore]
      | none => simp [getKey_eq, hcache, hstore]

theorem getLevel_eq (htype : type ≠ .butt) (isConsistent : Bool) :
    s.getLevel device type isConsistent =
      match if isConsistent then s.consMeta device else s.recvMeta device with
      | some matrixMeta => (true, high (matrixMeta.word type))
      | none => (false, high invalidLevel) := by
  unfold getLevel
  rw [getMatrixMeta_eq]
  cases if isConsistent then s.consMeta device else s.recvMeta device with
  | some matrixMeta => simp [htype]
  | none => rfl

theorem getConsLevel_eq (htype : type ≠ .butt) :
    s.getConsLevel device type =
      match s.consMeta device with
      | some matrixMeta => (true, high (matrixMeta.word type))
      | none => (false, high invalidLevel) :=
  getLevel_eq htype true

theorem isConsistentOf_iff (htype : type ≠ .butt) :
    s.isConsistentOf device type = true ↔
      ∃ received consistent, s.recvMeta device = some received ∧
        s.consMeta device = some consistent ∧
        high (received.word type) ≤ high (consistent.word type) ∧
        high (received.word type) ≠ 0#16 := by
  unfold isConsistentOf getRecvLevel
  rw [getLevel_eq htype, getConsLevel_eq htype, if_neg Bool.false_ne_true]
  cases s.recvMeta device with
  | none => simp
  | some received =>
      cases s.consMeta device with
      | none => simp
      | some consistent =>
          simp [invalidMask]

section

variable (s : MatrixState) (key : String) (matrixMeta : MatrixMetaData) (saved : Bool)

theorem saveMeta_localMeta :
    (s.saveMeta key matrixMeta saved).localMeta =
      if saved then Function.update s.localMeta key (some matrixMeta) else s.localMeta := by
  cases saved <;> rfl

theorem saveMeta_matrices : (s.saveMeta key matrixMeta saved).matrices = s.matrices := by
  cases saved <;> rfl

end

section

variable (s : MatrixState) (cfg : MatrixConfig) (device : String) (remote : Mask)
  (recvSaved : Bool)

/-- The received record that `UpdateConsistentMeta` works with. -/
def MatrixState.receivedOr : MatrixMetaData :=
  (s.recvMeta device).getD (.ofRemote cfg device remote)

/-- The consistent record that `UpdateConsistentMeta` saves. -/
def MatrixState.consNext : MatrixMetaData :=
  match s.consMeta device with
  | some metaData => metaData.raise (s.receivedOr cfg device remote) remote
  | none =>
      { s.receivedOr cfg device remote with origin := .remoteConsistent, deviceId := device }

/-- `UpdateConsistentMeta` up to the save of the consistent record. -/
def MatrixState.withReceived : MatrixState :=
  if (s.recvMeta device).isSome then (s.getMatrixMeta device false).2
  else (s.getMatrixMeta device false).2.saveMeta (recvKey device) (.ofRemote cfg device remote)
    recvSaved

theorem consMeta_withReceived :
    (s.withReceived cfg device remote recvSaved).consMeta device = s.consMeta device := by
  unfold withReceived consMeta
  split
  · rw [getMatrixMeta_localMeta]
  rw [saveMeta_localMeta, getMatrixMeta_localMeta]
  split
  · rw [Function.update_of_ne (consKey_ne_recvKey device)]
  · rfl

theorem recvMeta_withReceived :
    (s.withReceived cfg device remote recvSaved).recvMeta device =
      if recvSaved
      then some ((s.recvMeta device).getD (ofRemote cfg device remote).cached)
      else s.recvMeta device := by
  unfold withReceived
  cases hrecv : s.recvMeta device with
  | some matrixMeta =>
      simp [recvMeta_getMatrixMeta, hrecv]
  | none =>
      have hfound := recvMeta_getMatrixMeta s device
      rw [hrecv] at hfound
      cases recvSaved with
      | false => simpa [saveMeta] using hfound
      | true =>
          have hcache : (s.getMatrixMeta device false).2.matrices device = none := by
            simp only [recvMeta, Option.or_eq_none_iff] at hfound
            exact hfound.1
          simp [recvMeta, saveMeta, hcache]

def MatrixState.OwnKey : Prop :=
  ∀ metaData, s.consMeta device = some metaData → metaData.deviceId = device

variable {s cfg device remote recvSaved} {consSaved : Bool}
  (hclean : low remote.statics = 0#16 ∨ low remote.dynamic = 0#16) (hown : s.OwnKey device)

include hclean hown

theorem updateConsistentMeta_eq :
    s.updateConsistentMeta cfg device remote recvSaved consSaved =
      (s.withReceived cfg device remote recvSaved).saveMeta (consKey device)
        (s.consNext cfg device remote) consSaved := by
  have hfound := getMatrixMeta_eq s device false
  have hcons := getMatrixMeta_eq (s.withReceived cfg device remote recvSaved) device true
  rw [if_pos rfl, consMeta_withReceived] at hcons
  have hguard : ¬ (low remote.statics ≠ 0#16 ∧ low remote.dynamic ≠ 0#16) := by
    rcases hclean with h | h <;> simp [h]
  have hreceived : (if (s.getMatrixMeta device false).1.1 then (s.getMatrixMeta device false).1.2
      else .ofRemote cfg device remote) = s.receivedOr cfg device remote := by
    rw [hfound]
    unfold receivedOr
    cases s.recvMeta device <;> rfl
  have hstate : (if (s.getMatrixMeta device false).1.1 then (s.getMatrixMeta device false).2
      else (s.getMatrixMeta device false).2.saveMeta (s.receivedOr cfg device remote).getKey
        (s.receivedOr cfg device remote) recvSaved) =
      s.withReceived cfg device remote recvSaved := by
    rw [hfound]
    unfold withReceived receivedOr
    cases s.recvMeta device <;> rfl
  unfold updateConsistentMeta
  rw [if_neg hguard]
  dsimp only
  rw [hreceived, hstate, hcons]
  unfold consNext
  cases hmeta : s.consMeta device with
  | none => rfl
  | some metaData =>
      have hkey : (metaData.raise (s.receivedOr cfg device remote) remote).getConsistentKey =
          consKey device := by
        rw [← hown metaData hmeta]
        rfl
      simp only [hkey]

theorem consMeta_updateConsistentMeta :
    (s.updateConsistentMeta cfg device remote recvSaved consSaved).consMeta device =
      if consSaved then some (s.consNext cfg device remote) else s.consMeta device := by
  have hsame := consMeta_withReceived s cfg device remote recvSaved
  rw [updateConsistentMeta_eq hclean hown]
  unfold consMeta at hsame ⊢
  rw [saveMeta_localMeta]
  split
  · rw [Function.update_self]
  · exact hsame

theorem recvMeta_updateConsistentMeta :
    (s.updateConsistentMeta cfg device remote recvSaved consSaved).recvMeta device =
      if recvSaved then
        some ((s.recvMeta device).getD (ofRemote cfg device remote).cached)
      else s.recvMeta device := by
  rw [← recvMeta_withReceived s cfg device remote recvSaved, updateConsistentMeta_eq hclean hown]
  unfold recvMeta
  rw [saveMeta_matrices, saveMeta_localMeta]
  split
  · rw [Function.update_of_ne (consKey_ne_recvKey device).symm]
  · rfl

end

def LevelType.other : LevelType → LevelType
  | .statics => .dynamic
  | .dynamic => .statics
  | .butt => .butt

/-- From `s` to `s'` the consistent level of a type changes, and the type starts to be
reported consistent, only if nothing of the type is pending afterwards. -/
def MatrixState.OnlyClean (s s' : MatrixState) (device : String) : Prop :=
  ∀ type, type ≠ .butt →
    (s'.getConsLevel device type ≠ s.getConsLevel device type ∨
      s.isConsistentOf device type = false ∧ s'.isConsistentOf device type = true) →
    (s'.getRemoteMask device type).2 = 0#16

/-- When exactly one type is left dirty: there is a consistent record already or it is not
saved now, and a received record that is made up now does not meet the consistent level
of the dirty type. -/
def MatrixState.ExchangeSafe (s : MatrixState) (device : String) (remote : Mask)
    (recvSaved consSaved : Bool) : Prop :=
  ∀ type, type ≠ .butt → low (remote.word type) ≠ 0#16 → low (remote.word type.other) = 0#16 →
    (s.consMeta device = none → consSaved = false) ∧
    ∀ consistent, s.recvMeta device = none → recvSaved = true →
      s.consMeta device = some consistent → high (remote.word type) ≠ 0#16 →
      high (consistent.word type) < high (remote.word type)

section

variable {cfg : MatrixConfig} {remote : Mask} {recvSaved consSaved : Bool}
  (htype : type ≠ .butt) (hdirty : low (remote.word type) ≠ 0#16)

include hdirty in
theorem word_raise_of_dirty (metaData matrixMeta : MatrixMetaData) :
    (metaData.raise matrixMeta remote).word type = metaData.word type := by
  cases type with
  | statics | dynamic => exact if_neg fun h => hdirty h.1
  | butt => rfl

theorem word_ofRemote : (ofRemote cfg device remote).cached.word type = remote.word type := by
  cases type <;> rfl

include htype in
theorem clean_of_other (hclean : low (remote.word type.other) = 0#16) :
    low remote.statics = 0#16 ∨ low remote.dynamic = 0#16 := by
  cases type with
  | statics => exact .inr hclean
  | dynamic => exact .inl hclean
  | butt => exact absurd rfl htype

include htype hdirty

theorem updateConsistentMeta_of_dirty (hother : low (remote.word type.other) ≠ 0#16) :
    s.updateConsistentMeta cfg device remote recvSaved consSaved = s := by
  have hboth : low remote.statics ≠ 0#16 ∧ low remote.dynamic ≠ 0#16 := by
    cases type with
    | statics => exact ⟨hdirty, hother⟩
    | dynamic => exact ⟨hother, hdirty⟩
    | butt => exact absurd rfl htype
  rw [updateConsistentMeta, if_pos hboth]

variable (hclean : low (remote.word type.other) = 0#16) (hown : s.OwnKey device)

include hclean hown

theorem getConsLevel_of_dirty :
    (s.updateConsistentMeta cfg device remote recvSaved consSaved).getConsLevel device type =
        s.getConsLevel device type ↔ (s.consMeta device = none → consSaved = false) := by
  rw [getConsLevel_eq htype, getConsLevel_eq htype,
    consMeta_updateConsistentMeta (clean_of_other htype hclean) hown]
  unfold consNext
  cases hcons : s.consMeta device with
  | none => cases consSaved <;> simp
  | some metaData => cases consSaved <;> simp [word_raise_of_dirty hdirty _ _]

theorem consMeta_of_dirty {consistent : MatrixMetaData}
    (hmeta : s.consMeta device = some consistent) :
    ∃ next, (s.updateConsistentMeta cfg device remote recvSaved consSaved).consMeta device =
      some next ∧ next.word type = consistent.word type := by
  rw [consMeta_updateConsistentMeta (clean_of_other htype hclean) hown]
  cases consSaved with
  | false => exact ⟨consistent, hmeta, rfl⟩
  | true =>
      refine ⟨s.consNext cfg device remote, rfl, ?_⟩
      rw [consNext, hmeta]
      exact word_raise_of_dirty hdirty _ _

/-- With its consistent level unchanged, a dirty type starts to be consistent exactly when
a received record is made up that meets it. -/
theorem starts_of_dirty (hkept : s.consMeta device = none → consSaved = false) :
    (s.isConsistentOf device type = false ∧
      (s.updateConsistentMeta cfg device remote recvSaved consSaved).isConsistentOf device type =
        true) ↔
      ∃ consistent, s.recvMeta device = none ∧ recvSaved = true ∧
        s.consMeta device = some consistent ∧ high (remote.word type) ≠ 0#16 ∧
        high (remote.word type) ≤ high (consistent.word type) := by
  have hrecv : (s.updateConsistentMeta cfg device remote recvSaved consSaved).recvMeta device = _ :=
    recvMeta_updateConsistentMeta (clean_of_other htype hclean) hown
  rw [← Bool.not_eq_true, isConsistentOf_iff htype, isConsistentOf_iff htype]
  cases hmeta : s.consMeta device with
  | none =>
      have hnone : (s.updateConsistentMeta cfg device remote recvSaved consSaved).consMeta device =
          none := by
        rw [consMeta_updateConsistentMeta (clean_of_other htype hclean) hown, hkept hmeta, hmeta]
        rfl
      simp [hnone]
  | some consistent =>
      obtain ⟨next, hnext, hword⟩ := consMeta_of_dirty htype hdirty hclean hown hmeta
      rw [hrecv, hnext]
      cases hold : s.recvMeta device with
      | some received =>
          constructor
          · rintro ⟨hnot, after, _, hafter, hsome, hle, hne⟩
            cases hsome
            have hsame : received = after := by
              cases recvSaved <;> simpa using hafter
            subst hsame
            rw [hword] at hle
            exact absurd ⟨received, consistent, rfl, rfl, hle, hne⟩ hnot
          · rintro ⟨-, hnone, -⟩
            cases hnone
      | none =>
          constructor
          · rintro ⟨-, after, _, hafter, hsome, hle, hne⟩
            cases hsome
            cases recvSaved with
            | false => cases hafter
            | true =>
                have hmade : (ofRemote cfg device remote).cached = after :=
                  Option.some.inj hafter
                rw [← hmade, word_ofRemote] at hle hne
                rw [hword] at hle
                exact ⟨consistent, rfl, rfl, rfl, hne, hle⟩
          · rintro ⟨_, -, rfl, hsome, hne, hle⟩
            cases hsome
            refine ⟨by simp, (ofRemote cfg device remote).cached, next, rfl, rfl, ?_⟩
            rw [word_ofRemote, hword]
            exact ⟨hle, hne⟩

omit htype hdirty hclean

theorem onlyClean_updateConsistentMeta_iff (hremote : s.remotes device = some remote) :
    s.OnlyClean (s.updateConsistentMeta cfg device remote recvSaved consSaved) device ↔
      s.ExchangeSafe device remote recvSaved consSaved := by
  have hafter := (s.updateConsistentMeta_sameMasks cfg device remote recvSaved consSaved).remotes
  have hpending : ∀ type, type ≠ .butt →
      ((s.updateConsistentMeta cfg device remote recvSaved consSaved).getRemoteMask device type).2 =
        low (remote.word type) := by
    intro type htype
    simp [getRemoteMask, hafter, hremote, htype]
  constructor
  · intro honly type htype hdirty hclean
    have hkept : s.consMeta device = none → consSaved = false := by
      rw [← getConsLevel_of_dirty htype hdirty hclean hown]
      by_contra hchanged
      exact hdirty (hpending type htype ▸ honly type htype (.inl hchanged))
    refine ⟨hkept, ?_⟩
    intro consistent hnone hsaved hcons hlevel
    by_contra hle
    rw [BitVec.not_lt] at hle
    apply hdirty
    rw [← hpending type htype]
    apply honly type htype
    right
    rw [starts_of_dirty htype hdirty hclean hown hkept]
    exact ⟨consistent, hnone, hsaved, hcons, hlevel, hle⟩
  · intro hsafe type htype hcase
    rw [hpending type htype]
    by_contra hdirty
    by_cases hother : low (remote.word type.other) = 0#16
    · obtain ⟨hkept, hmade⟩ := hsafe type htype hdirty hother
      rcases hcase with hchanged | hstarts
      · exact hchanged ((getConsLevel_of_dirty htype hdirty hother hown).mpr hkept)
      · obtain ⟨consistent, hnone, hsaved, hcons, hlevel, hle⟩ :=
          (starts_of_dirty htype hdirty hother hown hkept).mp hstarts
        exact absurd (hmade consistent hnone hsaved hcons hlevel) (BitVec.not_lt.mpr hle)
    · rw [updateConsistentMeta_of_dirty htype hdirty hother] at hcase
      rcases hcase with hchanged | ⟨hbefore, hnow⟩
      · exact hchanged rfl
      · rw [hbefore] at hnow
        cases hnow

end

/-- The records that `GetMatrixMeta` reads are the same in both states. -/
structure MatrixState.SameRecords (s s' : MatrixState) : Prop where
  localMeta : s'.localMeta = s.localMeta
  matrices : s'.matrices = s.matrices

section

variable (h : s.SameRecords s') (device : String)

include h

theorem MatrixState.SameRecords.recvMeta : s'.recvMeta device = s.recvMeta device := by
  rw [MatrixState.recvMeta, MatrixState.recvMeta, h.localMeta, h.matrices]

theorem MatrixState.SameRecords.consMeta : s'.consMeta device = s.consMeta device := by
  rw [MatrixState.consMeta, MatrixState.consMeta, h.localMeta]

theorem MatrixState.SameRecords.getConsLevel (htype : type ≠ .butt) :
    s'.getConsLevel device type = s.getConsLevel device type := by
  rw [getConsLevel_eq htype, getConsLevel_eq htype, h.consMeta]

theorem MatrixState.SameRecords.isConsistentOf (htype : type ≠ .butt) :
    s'.isConsistentOf device type = s.isConsistentOf device type := by
  rw [Bool.eq_iff_iff, isConsistentOf_iff htype, isConsistentOf_iff htype, h.consMeta, h.recvMeta]

end

section

variable {cfg : MatrixConfig} {code : Word} {change : BitVec 32} {recvSaved consSaved : Bool}
  (hdevice : device ≠ "") (htype : type ≠ .butt)
  (hremote : change &&& changeRemote = changeRemote)

include hdevice htype hremote

theorem onExchanged_eq :
    ∃ t, s.SameRecords t ∧
      (∀ mask, s.remotes device = some mask → t.remotes device = some (mask.clear code type)) ∧
      s.onExchanged cfg device code type change recvSaved consSaved =
        match s.remotes device with
        | none => t
        | some mask => t.updateConsistentMeta cfg device (mask.clear code type) recvSaved
            consSaved := by
  have hargs : ¬ (device = "" ∨ type = .butt) := by simp [hdevice, htype]
  unfold onExchanged
  rw [if_neg hargs]
  rw [if_pos hremote]
  generalize ht : (if change &&& changeLocal = changeLocal then _ else s) = t
  have hsame : s.SameRecords t ∧ t.remotes = s.remotes := by
    rw [← ht]
    split <;> exact ⟨⟨rfl, rfl⟩, rfl⟩
  obtain ⟨hrecords, hremotes⟩ := hsame
  rw [hremotes]
  cases hmask : s.remotes device with
  | none =>
      refine ⟨t, hrecords, ?_, rfl⟩
      intro mask h
      cases h
  | some mask =>
      refine ⟨{ t with remotes := Function.update s.remotes device (some (mask.clear code type)) },
        ⟨hrecords.localMeta, hrecords.matrices⟩, ?_, rfl⟩
      intro mask' h
      cases h
      exact Function.update_self _ _ _

theorem onlyClean_onExchanged_iff (hown : s.OwnKey device) :
    s.OnlyClean (s.onExchanged cfg device code type change recvSaved consSaved) device ↔
      ∀ mask, s.remotes device = some mask →
        s.ExchangeSafe device (mask.clear code type) recvSaved consSaved := by
  obtain ⟨t, hsame, hcleared, heq⟩ := onExchanged_eq hdevice htype hremote
  have hbase : ∀ s' : MatrixState, t.OnlyClean s' device ↔ s.OnlyClean s' device := by
    intro s'
    refine forall_congr' fun type' => forall_congr' fun htype' => ?_
    rw [hsame.getConsLevel device htype', hsame.isConsistentOf device htype']
  rw [heq]
  cases hmask : s.remotes device with
  | none =>
      have hleft : s.OnlyClean t device := by
        intro type' htype' hcase
        rw [hsame.getConsLevel device htype', hsame.isConsistentOf device htype'] at hcase
        rcases hcase with hchanged | ⟨hbefore, hnow⟩
        · exact absurd rfl hchanged
        · rw [hbefore] at hnow
          cases hnow
      refine iff_of_true hleft ?_
      intro mask h
      cases h
  | some mask =>
      have hthere := hcleared mask hmask
      have hsafe : t.ExchangeSafe device (mask.clear code type) recvSaved consSaved ↔
          s.ExchangeSafe device (mask.clear code type) recvSaved consSaved := by
        unfold ExchangeSafe
        rw [hsame.recvMeta, hsame.consMeta]
      have hownT : t.OwnKey device := by
        unfold OwnKey
        rw [hsame.consMeta]
        exact hown
      rw [← hbase, onlyClean_updateConsistentMeta_iff hownT hthere, hsafe]
      constructor
      · intro h mask' hmask'
        cases hmask'
        exact h
      · intro h
        exact h mask rfl

end

def MatrixState.OwnKeys (s : MatrixState) : Prop := ∀ device, s.OwnKey device

/-- Device ids do not contain the separator's character, and what other components write
keeps consistent records under their own keys. -/
def MatrixAction.Keyed : MatrixAction → Prop
  | .onBroadcast device _ _ _ _ | .onExchanged device _ _ _ _ _ | .updateLevel device _ _ _ _ =>
      '#' ∉ device.toList
  | .localMetaWritten key matrixMeta =>
      ∀ device metaData, key = consKey device → matrixMeta = some metaData →
        metaData.deviceId = device
  | _ => True

section

variable {cfg : MatrixConfig} (h : s.OwnKeys)

include h

theorem MatrixState.OwnKeys.congr (hsame : s'.localMeta = s.localMeta) : s'.OwnKeys := by
  intro d metaData hmeta
  rw [consMeta, hsame] at hmeta
  exact h d metaData hmeta

theorem MatrixState.OwnKeys.write {key : String} {matrixMeta : Option MatrixMetaData}
    (hwrite : s'.localMeta = Function.update s.localMeta key matrixMeta)
    (hkeyed : ∀ d metaData, key = consKey d → matrixMeta = some metaData → metaData.deviceId = d) :
    s'.OwnKeys := by
  intro d metaData hmeta
  rw [consMeta, hwrite] at hmeta
  by_cases hd : consKey d = key
  · rw [hd, Function.update_self] at hmeta
    exact hkeyed d metaData hd.symm hmeta
  · rw [Function.update_of_ne hd] at hmeta
    exact h d metaData hmeta

theorem MatrixState.OwnKeys.saveMeta {key : String} {matrixMeta : MatrixMetaData}
    (saved : Bool) (hkeyed : ∀ d, key = consKey d → matrixMeta.deviceId = d) :
    (s.saveMeta key matrixMeta saved).OwnKeys := by
  cases saved with
  | false => exact h
  | true =>
      refine h.write rfl ?_
      rintro d _ hd hsome
      cases hsome
      exact hkeyed d hd

theorem MatrixState.OwnKeys.saveRecv {matrixMeta : MatrixMetaData}
    (hhash : '#' ∉ matrixMeta.deviceId.toList) (saved : Bool) :
    (s.saveMeta matrixMeta.getKey matrixMeta saved).OwnKeys := by
  refine h.saveMeta saved ?_
  intro d hd
  exact absurd hd (recvKey_ne_consKey hhash d)

theorem MatrixState.OwnKeys.saveCons (saved : Bool) :
    (s.saveMeta matrixMeta.getConsistentKey matrixMeta saved).OwnKeys := by
  refine h.saveMeta saved ?_
  intro d hd
  exact consKey_injective hd

theorem ownKeys_received (hhash : '#' ∉ device.toList) (networkId : String)
    (dataLevel : DataLevel) (switchesSaved saved : Bool) :
    (s.received cfg device networkId dataLevel switchesSaved saved).2.OwnKeys := by
  obtain ⟨switches, hswitches⟩ := s.saveSwitches_spec device networkId dataLevel switchesSaved
  have hconvert : ∀ t : MatrixState, (t.convertMask cfg device dataLevel).2.localMeta =
      t.localMeta := by
    intro t
    unfold convertMask getMatrixInfo
    dsimp only
    split <;> split <;> try split
    all_goals rfl
  have hbase : ((s.saveSwitches device networkId dataLevel switchesSaved).convertMask cfg device
      dataLevel).2.OwnKeys := by
    refine h.congr ?_
    rw [hconvert, hswitches]
  have hupdate : ∀ (t : MatrixState) (mask : Mask) (newMeta : MatrixMetaData), t.OwnKeys →
      newMeta.deviceId = device → (t.updateRemoteMeta device mask newMeta saved).2.OwnKeys := by
    intro t mask newMeta ht hnew
    have hfound := ht.congr (getMatrixMeta_localMeta t device false)
    unfold updateRemoteMeta
    dsimp only
    split
    · exact hfound
    · refine hfound.saveRecv ?_ saved
      rw [← hnew] at hhash
      exact hhash
  exact hupdate _ _ _ hbase rfl

theorem ownKeys_updateConsistentMeta (hhash : '#' ∉ device.toList) (remote : Mask)
    (recvSaved consSaved : Bool) :
    (s.updateConsistentMeta cfg device remote recvSaved consSaved).OwnKeys := by
  by_cases hclean : low remote.statics = 0#16 ∨ low remote.dynamic = 0#16
  · have hreceived : (s.withReceived cfg device remote recvSaved).OwnKeys := by
      have hfound := h.congr (getMatrixMeta_localMeta s device false)
      unfold withReceived
      split
      · exact hfound
      · have hmade : (ofRemote cfg device remote).deviceId = device := rfl
        exact hfound.saveRecv (hmade.symm ▸ hhash) recvSaved
    have hnext : (s.consNext cfg device remote).getConsistentKey = consKey device := by
      unfold consNext
      cases hmeta : s.consMeta device with
      | none => rfl
      | some metaData => exact congrArg consKey (h device metaData hmeta)
    rw [updateConsistentMeta_eq hclean (h device), ← hnext]
    exact hreceived.saveCons _ consSaved
  · rw [not_or] at hclean
    rw [updateConsistentMeta, if_pos hclean]
    exact h

theorem ownKeys_updateLevel (hhash : '#' ∉ device.toList) (level : Word)
    (type : LevelType) (isConsistent saved : Bool) :
    (s.updateLevel cfg device level type isConsistent saved).OwnKeys := by
  have hfound := h.congr (getMatrixMeta_localMeta s device isConsistent)
  unfold updateLevel
  dsimp only
  split
  · exact h
  · split
    · exact hfound.saveCons _ saved
    · exact (hfound.saveRecv hhash saved).congr rfl

theorem ownKeys_apply {a : MatrixAction} (hkeyed : a.Keyed) :
    (s.apply cfg a).OwnKeys := by
  have hmask := h.congr (getMatrixMeta_localMeta s cfg.localUuid false)
  cases a with
  | online device =>
      simp only [apply, online]
      split
      · exact h.congr rfl
      · exact hmask.congr rfl
  | offline device =>
      simp only [apply, offline]
      split
      · exact h.congr rfl
      · exact hmask.congr rfl
  | onChanged code type =>
      simp only [apply, onChanged]
      split
      · exact h
      · split
        · exact h.congr rfl
        · exact h.congr (getMatrixMeta_localMeta _ cfg.localUuid false)
  | onExchanged device code type change recvSaved consSaved =>
      simp only [apply, onExchanged]
      split
      · exact h
      generalize ht : (if change &&& changeLocal = changeLocal then _ else s) = t
      have htKeys : t.OwnKeys := by
        refine h.congr ?_
        rw [← ht]
        split <;> rfl
      split
      · split
        · exact htKeys
        · refine ownKeys_updateConsistentMeta ?_ hkeyed _ recvSaved consSaved
          exact htKeys.congr rfl
      · exact htKeys
  | onBroadcast device networkId dataLevel switchesSaved saved =>
      simp only [apply, onBroadcast]
      split
      · exact h
      · exact (ownKeys_received h hkeyed networkId dataLevel switchesSaved saved).congr rfl
  | broadcast dataLevel =>
      simp only [apply, broadcast]
      split <;> exact h.congr rfl
  | runResetTask =>
      simp only [apply]
      split <;> exact h.congr rfl
  | updateLevel device level type isConsistent saved =>
      exact ownKeys_updateLevel h hkeyed level type isConsistent saved
  | observed matrixMeta =>
      simp only [apply, observed]
      split <;> exact h.congr rfl
  | localMetaWritten key matrixMeta => exact h.write rfl hkeyed
  | clear | evictMatrix | evictVersion | syncMetaWritten | switchesWritten => exact h.congr rfl

end

/-- In every state reached, an exchange with `CHANGE_REMOTE` changes the consistent level of
clean types only, and lets only clean types start to be consistent, exactly when it is
safe for what it leaves of the device's mask. -/
theorem consistent_only_clean_iff (cfg : MatrixConfig)
    (localMeta syncMeta : String → Option MatrixMetaData)
    (switchesMeta : String → Option SwitchesMetaData)
    (hstored : ∀ device metaData, localMeta (consKey device) = some metaData →
      metaData.deviceId = device)
    (schedule : List MatrixAction) (hkeyed : ∀ a ∈ schedule, a.Keyed) (s : MatrixState)
    (hrun : (matrixMachine cfg).exec (.init localMeta syncMeta switchesMeta) schedule = some s)
    (device : String) (code : Word) (type : LevelType) (change : BitVec 32)
    (recvSaved consSaved : Bool) (hdevice : device ≠ "") (htype : type ≠ .butt)
    (hremote : change &&& changeRemote = changeRemote) :
    s.OnlyClean (s.onExchanged cfg device code type change recvSaved consSaved) device ↔
      ∀ mask, s.remotes device = some mask →
        s.ExchangeSafe device (mask.clear code type) recvSaved consSaved := by
  have hpreserved : ∀ t a t', t.OwnKeys → a.Keyed → (matrixMachine cfg).step t a = some t' →
      t'.OwnKeys := by
    intro t a t' ht ha hstep
    cases hstep
    exact ownKeys_apply ht ha
  have hstart : (init localMeta syncMeta switchesMeta).OwnKeys := hstored
  have hown : s.OwnKeys := (matrixMachine cfg).exec_guarded_invariant hpreserved hstart
    ((matrixMachine cfg).guarded_of_mem hkeyed _) hrun
  exact onlyClean_onExchanged_iff hdevice htype hremote (hown device)

/-- With both records there, exchanging one type says nothing about the other. -/
theorem consistent_only_clean_second_exchange :
    let cfg : MatrixConfig := ⟨"here", 1, "meta", ["distributeddata"], []⟩
    let fresh := init (fun _ => none) (fun _ => none) (fun _ => none)
    let schedule : List MatrixAction :=
      [.onBroadcast "a" "net" { dynamic := 0x0011#16, statics := 0x0010#16 } true true,
        .onExchanged "a" 0x000F#16 .dynamic changeRemote true true,
        .onBroadcast "a" "net" { dynamic := 0x0021#16, statics := 0x0020#16 } true true]
    ∃ s, (matrixMachine cfg).exec fresh schedule = some s ∧
      s.OnlyClean (s.onExchanged cfg "a" 0x000F#16 .statics changeRemote true true) "a" := by
  intro cfg fresh schedule
  refine ⟨_, rfl, (consistent_only_clean_iff cfg (fun _ => none) (fun _ => none) (fun _ => none) ?_
    schedule ?_ _ rfl "a" 0x000F#16 .statics changeRemote true true (by decide) (by decide)
    (by decide)).mpr ?_⟩
  · intro device metaData hnone
    cases hnone
  · have hhash : '#' ∉ "a".toList := by decide
    intro a ha
    simp only [schedule, List.mem_cons, List.not_mem_nil, or_false] at ha
    rcases ha with rfl | rfl | rfl <;> exact hhash
  · intro mask _ type _ _ _
    constructor
    · intro hnone
      exact absurd hnone (by decide +kernel)
    · intro consistent hnone
      exact absurd hnone (by decide +kernel)

/-- The first exchange of a device, for its statics, makes its pending dynamic store count
as consistent: the received record is saved as the consistent one. So does an exchange
that makes up a received record lost before. -/
theorem first_exchange_marks_dirty_consistent :
    let cfg : MatrixConfig := ⟨"here", 1, "meta", ["distributeddata"], []⟩
    let level : DataLevel := { dynamic := 0x0011#16, statics := 0x0010#16 }
    let exchange : MatrixAction := .onExchanged "a" 0x000F#16 .statics changeRemote true true
    let old : MatrixMetaData :=
      { dynamic := 0x0020#16, statics := 0x0020#16, deviceId := "a", origin := .remoteConsistent }
    let fresh := init (fun _ => none) (fun _ => none) (fun _ => none)
    let stored := init (Function.update (fun _ => none) (consKey "a") (some old))
      (fun _ => none) (fun _ => none)
    (∃ s s', (matrixMachine cfg).exec fresh [.onBroadcast "a" "net" level true true] = some s ∧
      (matrixMachine cfg).step s exchange = some s' ∧
      s.getConsLevel "a" .dynamic = (false, 0xFFF0#16) ∧ s.isConsistent "a" = (false, false) ∧
      s'.getConsLevel "a" .dynamic = (true, 0x0010#16) ∧ s'.isConsistent "a" = (true, true) ∧
      s'.getRemoteMask "a" .dynamic = (true, 0x0001#16)) ∧
    ∃ s s', (matrixMachine cfg).exec stored [.onBroadcast "a" "net" level true false] = some s ∧
      (matrixMachine cfg).step s exchange = some s' ∧
      s.isConsistent "a" = (false, false) ∧ s'.isConsistent "a" = (true, true) ∧
      s'.getRemoteMask "a" .dynamic = (true, 0x0001#16) := by
  refine ⟨⟨_, _, rfl, rfl, ?_, ?_, ?_, ?_, ?_⟩, ⟨_, _, rfl, rfl, ?_, ?_, ?_⟩⟩ <;> decide +kernel

end DataMgr.Matrix
