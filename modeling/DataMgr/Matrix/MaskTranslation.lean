import DataMgr.Matrix.DeviceMatrix

/-! # Masks of other versions

A sender encodes an application by its place in its own list, bit `i` for entry `i`. The
receiver turns the mask into its own bits over the list the sender has published. The
decoder counts the zeros below the lowest bit and subtracts one, so bit `i` is read as
entry `i - 1`; bit zero is kept as it is for dynamic stores, and ends the loop for
static ones.
-/

namespace DataMgr.Matrix

/-- What `Initialize` of a device of the given version publishes about itself. -/
def MatrixConfig.published (cfg : MatrixConfig) (version : Nat) : MatrixMetaData :=
  { version := version
    dynamic := currentDynamicMask ||| metaStoreMask
    statics := currentStaticsMask
    dynamicInfo := cfg.dynamicApps
    staticsInfo := cfg.staticsApps
    deviceId := cfg.localUuid }

/-- The union of the codes of the changed applications, each by one of its stores that is
not the meta store. -/
def changedCode (cfg : MatrixConfig) (type : LevelType) (changed : List String) : Word :=
  changed.foldl (fun mask app => mask ||| getCode cfg (cfg.tokenId + 1) "" app type) 0#16

def changedMask (apps changed : List String) : Word :=
  changed.foldl (fun mask app => mask ||| appMask apps app) 0#16

variable (cfg : MatrixConfig)

theorem getCode_dynamic_app (app : String) :
    getCode cfg (cfg.tokenId + 1) "" app .dynamic = appMask cfg.dynamicApps app :=
  if_neg (by omega)

theorem getCode_statics_app (app : String) :
    getCode cfg (cfg.tokenId + 1) "" app .statics = appMask cfg.staticsApps app :=
  if_neg (by omega)

theorem changedCode_dynamic (changed : List String) :
    changedCode cfg .dynamic changed = changedMask cfg.dynamicApps changed := by
  simp only [changedCode, changedMask, getCode_dynamic_app]

theorem changedCode_statics (changed : List String) :
    changedCode cfg .statics changed = changedMask cfg.staticsApps changed := by
  simp only [changedCode, changedMask, getCode_statics_app]

/-- A list of at most four entries without repetition. -/
structure AppList (apps : List String) : Prop where
  nodup : apps.Nodup
  short : apps.length ≤ 4

def ChangedAt (apps changed : List String) (i : Nat) : Prop :=
  ∃ app ∈ changed, apps[i]? = some app

section

variable {apps changed : List String} {app : String} {i : Nat}

theorem getLsbD_setMask {index : Nat} (hindex : index < 16) (i : Nat) :
    (setMask index).getLsbD i = decide (index = i) := by
  rw [setMask, ← BitVec.twoPow_eq, BitVec.getLsbD_twoPow, decide_eq_true hindex, Bool.true_and]

variable (happs : AppList apps)

include happs

theorem findIdx?_eq_some_iff : apps.findIdx? (· == app) = some i ↔ apps[i]? = some app := by
  rw [List.findIdx?_eq_some_iff_getElem]
  constructor
  · rintro ⟨hi, heq, -⟩
    rw [List.getElem?_eq_getElem hi, beq_iff_eq.mp heq]
  · intro hget
    obtain ⟨hi, heq⟩ := List.getElem?_eq_some_iff.mp hget
    refine ⟨hi, by simp [heq], ?_⟩
    intro j hj
    have hne : apps[j] ≠ apps[i] := fun hsame =>
      absurd (happs.nodup.getElem_inj_iff.mp hsame) (by omega)
    simpa [heq] using hne

theorem appMask_bit : (appMask apps app).getLsbD i = true ↔ apps[i]? = some app := by
  rw [← findIdx?_eq_some_iff happs]
  unfold appMask
  cases hfind : apps.findIdx? (· == app) with
  | none => simp
  | some index =>
      have hindex : index < 16 := by
        obtain ⟨hlt, -⟩ := List.findIdx?_eq_some_iff_getElem.mp hfind
        have := happs.short
        omega
      rw [getLsbD_setMask hindex, decide_eq_true_iff, Option.some.injEq]

theorem foldl_or_bit (changed : List String) (mask : Word) (i : Nat) :
    (changed.foldl (fun mask app => mask ||| appMask apps app) mask).getLsbD i = true ↔
      mask.getLsbD i = true ∨ ChangedAt apps changed i := by
  induction changed generalizing mask with
  | nil => simp [ChangedAt]
  | cons app rest ih =>
      rw [List.foldl_cons, ih, BitVec.getLsbD_or, Bool.or_eq_true, appMask_bit happs, or_assoc]
      simp [ChangedAt]

theorem changedMask_bit (changed : List String) (i : Nat) :
    (changedMask apps changed).getLsbD i = true ↔ ChangedAt apps changed i := by
  rw [changedMask, foldl_or_bit happs]
  simp

omit happs

theorem ChangedAt.lt (h : ChangedAt apps changed i) : i < apps.length := by
  obtain ⟨app, -, hget⟩ := h
  exact (List.getElem?_eq_some_iff.mp hget).1

theorem low_eq_of_bits {code : Word} (h : ∀ p, code.getLsbD p = true → p < 4) :
    low code = code := by
  apply BitVec.eq_of_getLsbD_eq
  intro p _
  rw [getLsbD_low]
  cases hbit : code.getLsbD p with
  | false => rfl
  | true => simp [h p hbit]

theorem low_changedMask (happs : AppList apps) (changed : List String) :
    low (changedMask apps changed) = changedMask apps changed := by
  apply low_eq_of_bits
  intro i hbit
  have hlt := ((changedMask_bit happs changed i).mp hbit).lt
  have := happs.short
  omega

end

variable {code : Word} {info apps : List String} {i : Nat} {app : String}

/-- What one round of the loop sees of a code of four bits: the place below the lowest
set bit, and the code without that bit. -/
theorem lowest_bit (hcode : low code = code) (hne : code ≠ 0#16) :
    ∃ p < 4, code.getLsbD p = true ∧ (∀ q < p, code.getLsbD q = false) ∧
      (convertIndex code).toNat = (if p = 0 then 65535 else p - 1) ∧
      ∀ q, (code &&& (code - 1#16)).getLsbD q = (code.getLsbD q && decide (q ≠ p)) := by
  have hall : ∀ n : Fin 16, n ≠ 0 → ∃ p : Fin 4, (BitVec.ofNat 16 n).getLsbD p = true ∧
      (∀ q : Fin 4, q < p → (BitVec.ofNat 16 n).getLsbD q = false) ∧
      (convertIndex (BitVec.ofNat 16 n)).toNat = (if p = 0 then 65535 else p.val - 1) ∧
      ∀ q : Fin 16, (BitVec.ofNat 16 n &&& (BitVec.ofNat 16 n - 1#16)).getLsbD q =
        ((BitVec.ofNat 16 n).getLsbD q && decide (q.val ≠ p.val)) := by
    decide +kernel
  have hlt : code.toNat < 16 := by
    rw [← hcode, low, BitVec.toNat_and]
    exact lt_of_le_of_lt Nat.and_le_right (by decide)
  have hofNat : BitVec.ofNat 16 code.toNat = code := by simp
  obtain ⟨p, hbit, hbelow, hindex, hnext⟩ := hall ⟨code.toNat, hlt⟩ (by
    intro hzero
    apply hne
    rw [← hofNat, show code.toNat = 0 from congrArg Fin.val hzero])
  simp only [hofNat] at hbit hbelow hindex hnext
  refine ⟨p, p.isLt, hbit, ?_, ?_, ?_⟩
  · intro q hq
    exact hbelow ⟨q, by omega⟩ hq
  · rw [hindex]
    exact if_congr Fin.ext_iff rfl rfl
  · intro q
    by_cases hq : q < 16
    · exact hnext ⟨q, hq⟩
    · rw [BitVec.getLsbD_of_ge _ _ (by omega), BitVec.getLsbD_of_ge code _ (by omega),
        Bool.false_and]

/-- The applications a code without its bit zero is read as: the entry before the place
of each set bit. -/
def ReadAs (info apps : List String) (code : Word) (i : Nat) : Prop :=
  ∃ p app, code.getLsbD (p + 1) = true ∧ info[p]? = some app ∧ apps[i]? = some app

/-- The first round reads the entry before the lowest bit, the others read the rest. -/
theorem readAs_lowest {next : Word} {p : Nat} (hbit : code.getLsbD p = true) (hp : 1 ≤ p)
    (happ : info[p - 1]? = some app)
    (hnext : ∀ q, next.getLsbD q = (code.getLsbD q && decide (q ≠ p))) :
    ReadAs info apps code i ↔ apps[i]? = some app ∨ ReadAs info apps next i := by
  constructor
  · rintro ⟨q, other, hq, hinfo, hother⟩
    by_cases hqp : q + 1 = p
    · left
      rw [show q = p - 1 by omega, happ] at hinfo
      rw [hother, hinfo]
    · right
      exact ⟨q, other, by simp [hnext, hq, hqp], hinfo, hother⟩
  · rintro (hget | ⟨q, other, hq, hinfo, hother⟩)
    · exact ⟨p - 1, app, by rwa [Nat.sub_add_cancel hp], happ, hget⟩
    · rw [hnext, Bool.and_eq_true] at hq
      exact ⟨q, other, hq.1, hinfo, hother⟩

/-- The loop adds to the result what the code is read as. The bits of the code are at
`start` or above and below four, so each round leaves fewer places than rounds. -/
theorem convertLoop_bit (happs : AppList apps) (fuel start : Nat) (code result : Word)
    (hfuel : 4 ≤ fuel + start) (hstart : 1 ≤ start)
    (hbits : ∀ p, code.getLsbD p = true → start ≤ p ∧ p < 4 ∧ p ≤ info.length) (i : Nat) :
    (convertLoop info apps fuel code result).getLsbD i = true ↔
      result.getLsbD i = true ∨ ReadAs info apps code i := by
  have hlow : low code = code := low_eq_of_bits fun p hp => (hbits p hp).2.1
  induction fuel generalizing start code result with
  | zero =>
      have hnone : ¬ ReadAs info apps code i := by
        rintro ⟨p, app, hbit, -, -⟩
        have := hbits (p + 1) hbit
        omega
      simp [convertLoop, hnone]
  | succ fuel ih =>
      by_cases hzero : code = 0#16
      · simp [convertLoop, hzero, ReadAs]
      obtain ⟨p, -, hbit, hbelow, hindex, hnext⟩ := lowest_bit hlow hzero
      obtain ⟨hge, hlt, hlen⟩ := hbits p hbit
      have hplace : (convertIndex code).toNat = p - 1 := by
        rw [hindex, if_neg (by omega)]
      obtain ⟨app, happ⟩ : ∃ app, info[p - 1]? = some app :=
        ⟨_, List.getElem?_eq_getElem (show p - 1 < info.length by omega)⟩
      have hrest : ∀ q, (code &&& (code - 1#16)).getLsbD q = true →
          start + 1 ≤ q ∧ q < 4 ∧ q ≤ info.length := by
        intro q hq
        simp only [hnext, Bool.and_eq_true, decide_eq_true_eq] at hq
        have habove : ¬ q < p := fun hlt => by simp [hbelow q hlt] at hq
        have := hbits q hq.1
        omega
      have hround := ih (start + 1) _ (result ||| appMask apps app) (by omega) (by omega) hrest
        (low_eq_of_bits fun q hq => (hrest q hq).2.1)
      rw [BitVec.getLsbD_or, Bool.or_eq_true, appMask_bit happs, or_assoc,
        ← readAs_lowest hbit (by omega) happ hnext] at hround
      rw [convertLoop, if_neg hzero, hplace, happ]
      exact hround

/-- Bit zero ends the loop at once: its place is out of every list. -/
theorem convertLoop_zero (apps : List String) (fuel : Nat) (result : Word) (hinfo : AppList info)
    (hlow : low code = code) (hbit : code.getLsbD 0 = true) :
    convertLoop info apps fuel code result = result := by
  cases fuel with
  | zero => rfl
  | succ fuel =>
      have hne : code ≠ 0#16 := by
        rintro rfl
        simp at hbit
      obtain ⟨p, -, -, hbelow, hindex, -⟩ := lowest_bit hlow hne
      have hp : p = 0 := by
        by_contra hp
        rw [hbelow 0 (by omega)] at hbit
        cases hbit
      have hnone : info[(convertIndex code).toNat]? = none := by
        rw [hindex, if_pos hp, List.getElem?_eq_none_iff]
        have := hinfo.short
        omega
      rw [convertLoop, if_neg hne, hnone]

/-- A place of the receiver's list that the decoder reaches from the places of the sender:
the entry before a changed one. -/
def ShiftedAt (info apps changed : List String) (i : Nat) : Prop :=
  ∃ p app, ChangedAt info changed (p + 1) ∧ info[p]? = some app ∧ apps[i]? = some app

section

variable {info apps : List String}

theorem readAs_changedMask (hinfo : AppList info) (changed : List String) (i : Nat) :
    ReadAs info apps (changedMask info changed) i ↔ ShiftedAt info apps changed i := by
  simp only [ReadAs, ShiftedAt, changedMask_bit hinfo]

theorem changedMask_bits (hinfo : AppList info) {changed : List String} {p : Nat}
    (h : (changedMask info changed).getLsbD p = true) : p < 4 ∧ p ≤ info.length := by
  have hlt := ((changedMask_bit hinfo changed p).mp h).lt
  have := hinfo.short
  omega

theorem convertDynamic_bit (matrixMeta : MatrixMetaData) (hinfo : AppList matrixMeta.dynamicInfo)
    (happs : AppList cfg.dynamicApps) (changed : List String) (i : Nat) :
    (convertDynamic cfg matrixMeta (changedMask matrixMeta.dynamicInfo changed)).getLsbD i = true ↔
      (i = 0 ∧ ChangedAt matrixMeta.dynamicInfo changed 0) ∨
        ShiftedAt matrixMeta.dynamicInfo cfg.dynamicApps changed i := by
  have hmeta : ∀ q, metaStoreMask.getLsbD q = decide (q = 0) := by
    intro q
    rw [show metaStoreMask = setMask 0 from rfl, getLsbD_setMask (by decide)]
    simp [eq_comm]
  have hcode : ∀ q, (changedMask matrixMeta.dynamicInfo changed &&& ~~~metaStoreMask).getLsbD q =
      ((changedMask matrixMeta.dynamicInfo changed).getLsbD q && decide (q ≠ 0)) := by
    intro q
    by_cases hq : q < 16
    · rw [BitVec.getLsbD_and, BitVec.getLsbD_not, hmeta, decide_eq_true hq, Bool.true_and,
        decide_not]
    · simp [BitVec.getLsbD_of_ge _ q (Nat.le_of_not_lt hq)]
  rw [convertDynamic, low_changedMask hinfo, convertLoop_bit happs 16 1]
  · rw [BitVec.getLsbD_and, hmeta, Bool.and_eq_true, decide_eq_true_eq, changedMask_bit hinfo,
      ← readAs_changedMask hinfo]
    apply or_congr
    · constructor
      · rintro ⟨hchanged, rfl⟩
        exact ⟨rfl, hchanged⟩
      · rintro ⟨rfl, hchanged⟩
        exact ⟨hchanged, rfl⟩
    · simp [ReadAs, hcode]
  · omega
  · omega
  · intro p hp
    rw [hcode, Bool.and_eq_true, decide_eq_true_eq] at hp
    have := changedMask_bits hinfo hp.1
    omega

theorem convertStatics_bit (matrixMeta : MatrixMetaData) (hinfo : AppList matrixMeta.staticsInfo)
    (happs : AppList cfg.staticsApps) (changed : List String) (i : Nat) :
    (convertStatics cfg matrixMeta (changedMask matrixMeta.staticsInfo changed)).getLsbD i = true ↔
      ¬ ChangedAt matrixMeta.staticsInfo changed 0 ∧
        ShiftedAt matrixMeta.staticsInfo cfg.staticsApps changed i := by
  rw [convertStatics, low_changedMask hinfo]
  by_cases hzero : ChangedAt matrixMeta.staticsInfo changed 0
  · rw [convertLoop_zero _ _ _ hinfo (low_changedMask hinfo changed)
      ((changedMask_bit hinfo changed 0).mpr hzero)]
    simp [hzero]
  rw [convertLoop_bit happs 16 1, readAs_changedMask hinfo]
  · simp [hzero]
  · omega
  · omega
  · intro p hp
    have hbound := changedMask_bits hinfo hp
    have hne : p ≠ 0 := by
      rintro rfl
      exact hzero ((changedMask_bit hinfo changed 0).mp hp)
    omega

theorem word_eq_iff {word : Word} {P : Nat → Prop} (happs : AppList apps) (changed : List String)
    (hword : ∀ i, word.getLsbD i = true ↔ P i) :
    word = changedMask apps changed ↔ ∀ i, ChangedAt apps changed i ↔ P i := by
  constructor
  · rintro heq i
    rw [← hword, heq, changedMask_bit happs]
  · intro h
    apply BitVec.eq_of_getLsbD_eq
    intro i _
    rw [Bool.eq_iff_iff, hword, changedMask_bit happs, h]

end

/-- The dynamic conversion is right for the changed set: the receiver's places of the
changed applications are place zero, if the sender's entry zero has changed, and the
places of the entries before the changed ones. -/
def DynamicSafe (info apps changed : List String) : Prop :=
  ∀ i, ChangedAt apps changed i ↔
    (i = 0 ∧ ChangedAt info changed 0) ∨ ShiftedAt info apps changed i

/-- The same for static applications, where a changed entry zero hides all others. -/
def StaticsSafe (info apps changed : List String) : Prop :=
  ∀ i, ChangedAt apps changed i ↔ ¬ ChangedAt info changed 0 ∧ ShiftedAt info apps changed i

theorem changedAt_singleton :
    ChangedAt apps [app] i ↔ apps[i]? = some app := by
  simp [ChangedAt]

theorem shiftedAt_singleton (hinfo : AppList info) {p : Nat} (hget : info[p]? = some app) :
    ShiftedAt info apps [app] i ↔ ∃ before, 1 ≤ p ∧ info[p - 1]? = some before ∧
      apps[i]? = some before := by
  have hplace : ∀ q, info[q]? = some app ↔ q = p := by
    intro q
    rw [← findIdx?_eq_some_iff hinfo, (findIdx?_eq_some_iff hinfo).mpr hget, Option.some.injEq,
      eq_comm]
  constructor
  · rintro ⟨q, before, hchanged, hbefore, happ⟩
    rw [changedAt_singleton, hplace] at hchanged
    subst hchanged
    exact ⟨before, by omega, hbefore, happ⟩
  · rintro ⟨before, hp, hbefore, happ⟩
    refine ⟨p - 1, before, ?_, hbefore, happ⟩
    rw [changedAt_singleton, hplace]
    omega

theorem dynamicSafe_single {changed : List String} (happs : AppList apps)
    (hzero : apps[0]? = some app) (hmem : ∀ other ∈ changed, other = app) :
    DynamicSafe [app] apps changed := by
  intro i
  have honly : ∀ {place : Nat}, place ≠ 0 → ¬ apps[place]? = some app := by
    intro place hne hget
    rw [← findIdx?_eq_some_iff happs] at hget hzero
    rw [hzero] at hget
    exact hne (Option.some.inj hget).symm
  have hshift : ¬ ShiftedAt [app] apps changed i := by
    intro h
    obtain ⟨p, other, hchanged, -, -⟩ := h
    have hlt := hchanged.lt
    simp at hlt
  constructor
  · intro h
    obtain ⟨other, hin, hget⟩ := h
    left
    obtain rfl := hmem other hin
    have hi : i = 0 := by
      by_contra hne
      exact honly hne hget
    exact ⟨hi, _, hin, rfl⟩
  · intro h
    cases h with
    | inl hfirst =>
        obtain ⟨rfl, other, hin, hget⟩ := hfirst
        obtain rfl := hmem other hin
        exact ⟨_, hin, hzero⟩
    | inr hlater => exact absurd hlater hshift

theorem dynamicSafe_all_iff (hinfo : AppList info) (happs : AppList apps) :
    (∀ changed, (∀ app ∈ changed, app ∈ info) → DynamicSafe info apps changed) ↔
      info = [] ∨ ∃ app, info = [app] ∧ apps[0]? = some app := by
  constructor
  · intro hall
    have hfirst : ∀ app, info[0]? = some app → apps[0]? = some app := by
      intro app hget
      have hsafe := hall [app] (by simpa using List.mem_of_getElem? hget) 0
      simpa [changedAt_singleton, hget] using hsafe
    match info, hinfo, hfirst, hall with
    | [], _, _, _ => exact .inl rfl
    | [app], _, hfirst, _ => exact .inr ⟨app, rfl, hfirst app rfl⟩
    | app :: next :: rest, hinfo, hfirst, hall =>
        have hzero := hfirst app rfl
        have hsafe := hall [next] (by simp) 0
        rw [shiftedAt_singleton hinfo
          (show (app :: next :: rest)[1]? = some next from rfl)] at hsafe
        have hnext : apps[0]? = some next := changedAt_singleton.mp (hsafe.mpr (.inr
          ⟨app, by omega, rfl, hzero⟩))
        have hsame : app = next := by
          rw [hzero] at hnext
          exact Option.some.inj hnext
        have := hinfo.nodup
        simp [hsame] at this
  · intro h changed hsub
    cases h with
    | inl hempty =>
        subst hempty
        have hnil : changed = [] := List.eq_nil_iff_forall_not_mem.mpr fun app h => by
          simpa using hsub app h
        intro i
        simp [hnil, ChangedAt, ShiftedAt]
    | inr hsingle =>
        obtain ⟨app, rfl, hzero⟩ := hsingle
        exact dynamicSafe_single happs hzero fun other hin => by simpa using hsub other hin

theorem staticsSafe_all_iff (hinfo : AppList info) :
    (∀ changed, (∀ app ∈ changed, app ∈ info) → StaticsSafe info apps changed) ↔
      ∀ app ∈ info, app ∉ apps := by
  constructor
  · intro hall
    have hplace : ∀ (p : Nat) (app : String), info[p]? = some app → app ∉ apps := by
      intro p
      induction p with
      | zero =>
          intro app hget hmem
          obtain ⟨i, hi⟩ := List.mem_iff_getElem?.mp hmem
          have hsafe := hall [app] (by simpa using List.mem_of_getElem? hget) i
          exact (hsafe.mp (changedAt_singleton.mpr hi)).1 (changedAt_singleton.mpr hget)
      | succ p ih =>
          intro app hget hmem
          obtain ⟨i, hi⟩ := List.mem_iff_getElem?.mp hmem
          have hsafe := hall [app] (by simpa using List.mem_of_getElem? hget) i
          obtain ⟨before, -, hbefore, happ⟩ :=
            (shiftedAt_singleton hinfo hget).mp (hsafe.mp (changedAt_singleton.mpr hi)).2
          exact ih before hbefore (List.mem_of_getElem? happ)
    intro app hmem
    obtain ⟨p, hp⟩ := List.mem_iff_getElem?.mp hmem
    exact hplace p app hp
  · intro hnone changed hsub i
    constructor
    · rintro ⟨app, hin, hget⟩
      exact absurd (List.mem_of_getElem? hget) (hnone app (hsub app hin))
    · rintro ⟨-, p, app, -, hinfoGet, hget⟩
      exact absurd (List.mem_of_getElem? hget) (hnone app (List.mem_of_getElem? hinfoGet))

/-- For each changed set the conversions give the receiver's codes of the changed
applications exactly if the shifted places happen to be the right ones, and for all
changed sets exactly if the lists have next to nothing in common. -/
theorem conversion_exact_iff (sender receiver : MatrixConfig) (version : Nat)
    (hdynamicInfo : AppList sender.dynamicApps) (hstaticsInfo : AppList sender.staticsApps)
    (hdynamicApps : AppList receiver.dynamicApps) (hstaticsApps : AppList receiver.staticsApps) :
    (∀ changed,
      (convertDynamic receiver (sender.published version) (changedCode sender .dynamic changed) =
          changedCode receiver .dynamic changed ↔
        DynamicSafe sender.dynamicApps receiver.dynamicApps changed) ∧
      (convertStatics receiver (sender.published version) (changedCode sender .statics changed) =
          changedCode receiver .statics changed ↔
        StaticsSafe sender.staticsApps receiver.staticsApps changed)) ∧
    ((∀ changed, (∀ app ∈ changed, app ∈ sender.dynamicApps) →
        convertDynamic receiver (sender.published version) (changedCode sender .dynamic changed) =
          changedCode receiver .dynamic changed) ↔
      sender.dynamicApps = [] ∨
        ∃ app, sender.dynamicApps = [app] ∧ receiver.dynamicApps[0]? = some app) ∧
    ((∀ changed, (∀ app ∈ changed, app ∈ sender.staticsApps) →
        convertStatics receiver (sender.published version) (changedCode sender .statics changed) =
          changedCode receiver .statics changed) ↔
      ∀ app ∈ sender.staticsApps, app ∉ receiver.staticsApps) := by
  have hdynamic : ∀ changed,
      convertDynamic receiver (sender.published version) (changedCode sender .dynamic changed) =
          changedCode receiver .dynamic changed ↔
        DynamicSafe sender.dynamicApps receiver.dynamicApps changed := by
    intro changed
    rw [changedCode_dynamic, changedCode_dynamic]
    exact word_eq_iff hdynamicApps changed
      (convertDynamic_bit receiver (sender.published version) hdynamicInfo hdynamicApps changed)
  have hstatics : ∀ changed,
      convertStatics receiver (sender.published version) (changedCode sender .statics changed) =
          changedCode receiver .statics changed ↔
        StaticsSafe sender.staticsApps receiver.staticsApps changed := by
    intro changed
    rw [changedCode_statics, changedCode_statics]
    exact word_eq_iff hstaticsApps changed
      (convertStatics_bit receiver (sender.published version) hstaticsInfo hstaticsApps changed)
  refine ⟨fun changed => ⟨hdynamic changed, hstatics changed⟩, ?_, ?_⟩
  · rw [← dynamicSafe_all_iff hdynamicInfo hdynamicApps]
    simp only [hdynamic]
  · rw [← staticsSafe_all_iff hstaticsInfo]
    simp only [hstatics]

/-- A device whose dynamic list is its meta name and two applications, with two static
applications. -/
def threeApps : MatrixConfig where
  localUuid := "uuid"
  tokenId := 1
  storeId := "meta"
  dynamicApps := ["service", "gallery", "notes"]
  staticsApps := ["mail", "maps"]

theorem conversion_exact_three_apps :
    ¬ (∀ changed, (∀ app ∈ changed, app ∈ threeApps.staticsApps) →
      convertStatics threeApps (threeApps.published 4) (changedCode threeApps .statics changed) =
        changedCode threeApps .statics changed) := by
  rw [(conversion_exact_iff threeApps threeApps 4 ⟨by decide, by decide⟩ ⟨by decide, by decide⟩
    ⟨by decide, by decide⟩ ⟨by decide, by decide⟩).2.2]
  decide

/-- Between two devices with equal lists, a change of `gallery` arrives as one of the meta
store, and a change of both static applications as none. -/
theorem changed_app_read_as_previous :
    convertDynamic threeApps (threeApps.published 4)
        (changedCode threeApps .dynamic ["gallery"]) = 0x0001#16 ∧
      changedCode threeApps .dynamic ["gallery"] = 0x0002#16 ∧
      convertStatics threeApps (threeApps.published 4)
        (changedCode threeApps .statics ["mail", "maps"]) = 0#16 ∧
      changedCode threeApps .statics ["mail", "maps"] = 0x0003#16 := by
  decide +kernel

end DataMgr.Matrix
