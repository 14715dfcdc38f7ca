import DataMgr.Route.RouteHead

/-! # Which bytes the reader touches

Up to the app id the left size and the pointer stay in step, so every read is in
bounds. `UnPackAppId` decrements only its own copy of the left size; the two later
fields are tested against a size that still counts the app id, and what they
touch depends on the lengths the sender wrote.
-/

namespace DataMgr.Route

open DataMgr.Foundation

variable (capability : Bytes → Option Int) (mem : Memory) (totalLen : Nat)

namespace Unpacker

/-- No byte at or past `totalLen` was read. -/
def SafeReads (u : Unpacker) : Prop :=
  ∀ r ∈ u.reads, ∀ a, r.1 ≤ a → a < r.1 + r.2 → a < totalLen

/-- Every check tested the number of bytes that really remained. -/
def ExactChecks (u : Unpacker) : Prop :=
  ∀ c ∈ u.checks, c.1 + c.2 = totalLen

variable {totalLen : Nat} {u : Unpacker}

theorem safeReads_read_iff (off len : Nat) :
    (u.read off len).SafeReads totalLen ↔
      u.SafeReads totalLen ∧ (len = 0 ∨ off + len ≤ totalLen) := by
  have hlast : (∀ a, off ≤ a → a < off + len → a < totalLen) ↔
      len = 0 ∨ off + len ≤ totalLen := by
    constructor
    · intro h
      by_cases hlen : len = 0
      · exact .inl hlen
      · have := h (off + len - 1) (by omega) (by omega)
        omega
    · omega
  simp only [SafeReads, read, List.mem_append, List.mem_singleton, or_imp, forall_and,
    forall_eq, hlast]

theorem exactChecks_check_iff (ptr leftSize : Nat) :
    (u.check ptr leftSize).ExactChecks totalLen ↔
      u.ExactChecks totalLen ∧ ptr + leftSize = totalLen := by
  simp only [ExactChecks, check, List.mem_append, List.mem_singleton, or_imp, forall_and,
    forall_eq]

@[simp] theorem safeReads_check_iff (ptr leftSize : Nat) :
    (u.check ptr leftSize).SafeReads totalLen ↔ u.SafeReads totalLen := Iff.rfl

@[simp] theorem exactChecks_read_iff (off len : Nat) :
    (u.read off len).ExactChecks totalLen ↔ u.ExactChecks totalLen := Iff.rfl

@[simp] theorem safeReads_setSession (s : Session) :
    { u with session := s }.SafeReads totalLen ↔ u.SafeReads totalLen := Iff.rfl

@[simp] theorem exactChecks_setSession (s : Session) :
    { u with session := s }.ExactChecks totalLen ↔ u.ExactChecks totalLen := Iff.rfl

/-- Reads in bounds and checks exact so far. -/
def InStep (totalLen : Nat) (u : Unpacker) : Prop :=
  u.SafeReads totalLen ∧ u.ExactChecks totalLen

theorem InStep.check (h : u.InStep totalLen) {ptr leftSize : Nat}
    (hsize : ptr + leftSize = totalLen) : (u.check ptr leftSize).InStep totalLen :=
  ⟨h.1, (exactChecks_check_iff ptr leftSize).mpr ⟨h.2, hsize⟩⟩

theorem InStep.read (h : u.InStep totalLen) {off len : Nat} (hend : off + len ≤ totalLen) :
    (u.read off len).InStep totalLen :=
  ⟨(safeReads_read_iff off len).mpr ⟨h.1, .inr hend⟩, h.2⟩

end Unpacker

open Unpacker

section

variable {mem : Memory} {totalLen ptr leftSize : Nat} {u : Unpacker}

theorem unPackDataHead_inStep (h : u.InStep totalLen) :
    (unPackDataHead mem totalLen u).2.2.InStep totalLen := by
  have hfirst : (u.check 0 totalLen).InStep totalLen := h.check (by omega)
  unfold unPackDataHead
  dsimp only
  split
  · exact hfirst
  rename_i hlen
  unfold routeHeadSize at hlen ⊢
  have hreads : (((((u.check 0 totalLen).read 0 2).read 2 2).read 4 8).read 12 4).InStep
      totalLen :=
    (((hfirst.read (by omega)).read (by omega)).read (by omega)).read (by omega)
  split
  · exact hreads
  have hsize : 16 + (totalLen - 16) = totalLen := by omega
  have hlast := hreads.check hsize
  split
  · exact hlast
  · exact hlast

theorem unPackDataHead_of_le (hlen : routeHeadSize ≤ totalLen) :
    unPackDataHead mem totalLen u =
      (decide (readLE mem 0 2 = magicNumber ∧ routeHeadSize + readLE mem 12 4 ≤ totalLen),
        ⟨readLE mem 0 2, readLE mem 2 2, readLE mem 4 8, readLE mem 12 4⟩,
        (unPackDataHead mem totalLen u).2.2) := by
  unfold unPackDataHead
  rw [if_neg (by omega)]
  by_cases hmagic : readLE mem 0 2 = magicNumber
  · by_cases hdata : routeHeadSize + readLE mem 12 4 ≤ totalLen
    · simp [hmagic, hdata, show ¬ totalLen - routeHeadSize < readLE mem 12 4 by omega]
    · simp [hmagic, hdata, show totalLen - routeHeadSize < readLE mem 12 4 by omega]
  · simp [hmagic]

theorem unPackDevicePair_inStep (h : u.InStep totalLen) (hsize : ptr + leftSize = totalLen) :
    (unPackDevicePair mem ptr leftSize u).2.InStep totalLen := by
  have hfirst := h.check hsize
  unfold unPackDevicePair
  split
  · exact hfirst
  rename_i hlen
  unfold devicePairSize at hlen
  unfold maxDeviceId
  exact (hfirst.read (by omega)).read (by omega)

theorem unPackUserPair_inStep (h : u.InStep totalLen) (hsize : ptr + leftSize = totalLen) :
    (unPackUserPair mem ptr leftSize u).2.InStep totalLen := by
  have hfirst := h.check hsize
  unfold unPackUserPair
  dsimp only
  split
  · exact hfirst
  rename_i hlen
  unfold userPairSize at hlen ⊢
  have hword : ptr + 4 ≤ totalLen := by omega
  have hcount : ptr + 4 + 1 ≤ totalLen := by omega
  have hsecond := ((hfirst.read hword).read hcount).check hsize
  split
  · exact hsecond
  · have hids : ptr + 5 + (mem (ptr + 4)).toNat * 4 ≤ totalLen := by omega
    exact hsecond.read hids

variable {setId : Session → Bytes → Session}

theorem unPackId_fst : (unPackId setId mem ptr leftSize u).1 =
    if leftSize < idHeadSize + readLE mem ptr 4 then none
    else some (ptr + idHeadSize + readLE mem ptr 4) := by
  unfold unPackId
  split
  · rw [if_pos (by omega)]
  split
  · rw [if_pos (by omega)]
  · rw [if_neg (by omega)]

theorem unPackId_inStep (h : u.InStep totalLen) (hsize : ptr + leftSize = totalLen) :
    (unPackId setId mem ptr leftSize u).2.InStep totalLen := by
  have hfirst := h.check hsize
  unfold unPackId
  dsimp only
  split
  · exact hfirst
  rename_i hlen
  unfold idHeadSize at hlen ⊢
  have hword : ptr + 4 ≤ totalLen := by omega
  have hrest : ptr + 4 + (leftSize - 4) = totalLen := by omega
  have hsecond := (hfirst.read hword).check hrest
  split
  · exact hsecond
  · have hbytes : ptr + 4 + readLE mem ptr 4 ≤ totalLen := by omega
    exact hsecond.read hbytes

theorem unPackId_safeReads_iff : (unPackId setId mem ptr leftSize u).2.SafeReads totalLen ↔
    u.SafeReads totalLen ∧ (idHeadSize ≤ leftSize → ptr + 4 ≤ totalLen ∧
      (idHeadSize + readLE mem ptr 4 ≤ leftSize → ptr + 4 + readLE mem ptr 4 ≤ totalLen)) := by
  unfold unPackId idHeadSize
  dsimp only
  split
  · simp only [safeReads_check_iff, iff_self_and]
    omega
  split
  · simp only [safeReads_check_iff, safeReads_read_iff]
    refine and_congr_right fun _ => ?_
    omega
  · simp only [safeReads_setSession, safeReads_check_iff,
      safeReads_read_iff, and_assoc]
    refine and_congr_right fun _ => ?_
    omega

theorem unPackId_exactChecks (h : (unPackId setId mem ptr leftSize u).2.ExactChecks totalLen) :
    u.ExactChecks totalLen ∧ ptr + leftSize = totalLen := by
  apply (exactChecks_check_iff ptr leftSize).mp
  unfold unPackId at h
  dsimp only at h
  split at h
  · exact h
  · split at h
    · exact ((exactChecks_check_iff _ _).mp h).1
    · exact ((exactChecks_check_iff _ _).mp h).1

/-- Apart from the pointer it does not move, the account id is read as the others. -/
theorem unPackAccountId_eq : unPackAccountId mem ptr leftSize u =
    ((unPackId (fun s bytes => { s with accountId := bytes }) mem ptr leftSize u).1.isSome,
      (unPackId (fun s bytes => { s with accountId := bytes }) mem ptr leftSize u).2) := by
  unfold unPackAccountId unPackId
  dsimp only
  split
  · rfl
  · split <;> rfl

theorem unPackLaterIds_safeReads_iff (hleft : idHeadSize ≤ leftSize) :
    (unPackLaterIds mem ptr leftSize u).2.SafeReads totalLen ↔
      u.SafeReads totalLen ∧ ptr + 4 ≤ totalLen ∧
        (idHeadSize + readLE mem ptr 4 ≤ leftSize →
          ptr + 4 + readLE mem ptr 4 + 4 ≤ totalLen ∧
          (idHeadSize + readLE mem (ptr + 4 + readLE mem ptr 4) 4 ≤ leftSize →
            ptr + 4 + readLE mem ptr 4 + 4 + readLE mem (ptr + 4 + readLE mem ptr 4) 4 ≤
              totalLen)) := by
  have hstore : (unPackStoreId mem ptr leftSize u).2.SafeReads totalLen ↔
      u.SafeReads totalLen ∧ (idHeadSize ≤ leftSize → ptr + 4 ≤ totalLen ∧
        (idHeadSize + readLE mem ptr 4 ≤ leftSize → ptr + 4 + readLE mem ptr 4 ≤ totalLen)) :=
    unPackId_safeReads_iff
  have hptr : (unPackStoreId mem ptr leftSize u).1 =
      if leftSize < idHeadSize + readLE mem ptr 4 then none
      else some (ptr + idHeadSize + readLE mem ptr 4) := unPackId_fst
  unfold unPackLaterIds
  split
  · rename_i u' heq
    rw [heq] at hstore hptr
    have hlong : leftSize < idHeadSize + readLE mem ptr 4 := by
      by_contra hfits
      rw [if_neg hfits] at hptr
      cases hptr
    rw [hstore]
    refine and_congr_right fun _ => ?_
    omega
  · rename_i ptr' u' heq
    rw [heq] at hstore hptr
    split at hptr
    · cases hptr
    rename_i hfits
    cases hptr
    rw [unPackAccountId_eq, unPackId_safeReads_iff, hstore, and_assoc]
    refine and_congr_right fun _ => ?_
    unfold idHeadSize at hfits hleft ⊢
    omega

theorem unPackLaterIds_exactChecks
    (h : (unPackLaterIds mem ptr leftSize u).2.ExactChecks totalLen) :
    ptr + leftSize = totalLen := by
  unfold unPackLaterIds at h
  split at h
  · rename_i u' heq
    have hstore : (unPackStoreId mem ptr leftSize u).2.ExactChecks totalLen := by rwa [heq]
    exact (unPackId_exactChecks hstore).2
  rename_i ptr' u' heq
  rw [unPackAccountId_eq] at h
  have hstore : (unPackStoreId mem ptr leftSize u).2.ExactChecks totalLen := by
    rw [heq]
    exact (unPackId_exactChecks h).1
  exact (unPackId_exactChecks hstore).2

end

/-- The offsets of the three ids, from the user count and the lengths in the buffer. -/
def appIdAt : Nat :=
  routeHeadSize + devicePairSize +
    (userPairSize + (mem (routeHeadSize + devicePairSize + 4)).toNat * 4)

def storeIdAt : Nat :=
  appIdAt mem + idHeadSize + readLE mem (appIdAt mem) 4

def accountIdAt : Nat :=
  storeIdAt mem + idHeadSize + readLE mem (storeIdAt mem) 4

/-- The length word of the store id lies in the buffer; if that length passes the
test against all bytes after the app id's length word, so does the length word of
the account id; and if that passes too, so do the account id's bytes. -/
def LaterIdsFit : Prop :=
  storeIdAt mem + 4 ≤ totalLen ∧
    (appIdAt mem + 4 + readLE mem (storeIdAt mem) 4 ≤ totalLen →
      accountIdAt mem + 4 ≤ totalLen ∧
      (appIdAt mem + 4 + readLE mem (accountIdAt mem) 4 ≤ totalLen →
        accountIdAt mem + 4 + readLE mem (accountIdAt mem) 4 ≤ totalLen))

/-- What the body needs of the buffer and the peer to go on to the later ids. -/
def BodyReachesStoreId : Prop :=
  storeIdAt mem ≤ totalLen ∧
    ∃ version, capability
        (readBytes mem routeHeadSize (strnlen mem routeHeadSize maxDeviceId)) = some version ∧
      accountVersion ≤ version

/-- The message is accepted up to its app id and its sender is known to be of a
version that sends the later ids. -/
def ReachesStoreId : Prop :=
  readLE mem 0 2 = magicNumber ∧ routeHeadSize + readLE mem 12 4 ≤ totalLen ∧
    readLE mem 2 2 = routeHeadVersion ∧ BodyReachesStoreId capability mem totalLen

section

variable (mem : Memory) (totalLen : Nat) (u : Unpacker)

/-- The handler after the head, the device pair, the user pair and the app id, each met with
the left size that matches its offset. -/
def afterHead : Unpacker := (unPackDataHead mem totalLen (u.check 0 totalLen)).2.2

def afterDevicePair : Unpacker :=
  (unPackDevicePair mem routeHeadSize (totalLen - routeHeadSize) u).2

def afterUserPair : Unpacker :=
  (unPackUserPair mem (routeHeadSize + devicePairSize)
    (totalLen - routeHeadSize - devicePairSize) (afterDevicePair mem totalLen u)).2

def afterAppId : Unpacker :=
  (unPackAppId mem (appIdAt mem) (totalLen - appIdAt mem) (afterUserPair mem totalLen u)).2

theorem unPackDevicePair_at :
    unPackDevicePair mem routeHeadSize (totalLen - routeHeadSize) u =
      (if totalLen < routeHeadSize + devicePairSize then none
        else some (routeHeadSize + devicePairSize, totalLen - routeHeadSize - devicePairSize),
        afterDevicePair mem totalLen u) := by
  refine Prod.ext ?_ rfl
  unfold unPackDevicePair
  have hconst : routeHeadSize = 16 ∧ devicePairSize = 130 := ⟨rfl, rfl⟩
  by_cases hpair : totalLen < routeHeadSize + devicePairSize
  · rw [if_pos hpair, if_pos (by omega)]
  · rw [if_neg hpair, if_neg (by omega)]

variable {totalLen} in
theorem unPackUserPair_at (hpair : ¬ totalLen < routeHeadSize + devicePairSize) :
    unPackUserPair mem (routeHeadSize + devicePairSize)
        (totalLen - routeHeadSize - devicePairSize) (afterDevicePair mem totalLen u) =
      (if totalLen < appIdAt mem then none else some (appIdAt mem, totalLen - appIdAt mem),
        afterUserPair mem totalLen u) := by
  refine Prod.ext ?_ (by rw [afterUserPair])
  have hleft : totalLen - routeHeadSize - devicePairSize -
      (userPairSize + (mem (routeHeadSize + devicePairSize + 4)).toNat * 4) =
      totalLen - appIdAt mem := by
    unfold appIdAt
    omega
  unfold unPackUserPair
  dsimp only
  rw [hleft]
  split
  · rw [if_pos (by unfold appIdAt; omega)]
  split
  · rw [if_pos (by unfold appIdAt; omega)]
  · rw [if_neg (by unfold appIdAt; omega), appIdAt]

variable {totalLen} in
theorem unPackAppId_at (happ : ¬ totalLen < appIdAt mem) :
    unPackAppId mem (appIdAt mem) (totalLen - appIdAt mem) (afterUserPair mem totalLen u) =
      (if totalLen < storeIdAt mem then none else some (storeIdAt mem),
        afterAppId mem totalLen u) := by
  refine Prod.ext ?_ (by rw [afterAppId])
  rw [unPackAppId, unPackId_fst, ← storeIdAt]
  dsimp only
  by_cases hstore : totalLen < storeIdAt mem
  · rw [if_pos hstore, if_pos (by unfold storeIdAt at hstore; omega)]
  · rw [if_neg hstore, if_neg (by unfold storeIdAt at hstore; omega)]

theorem unPackDataBody_eq (capability : Bytes → Option Int) :
    unPackDataBody capability mem routeHeadSize (totalLen - routeHeadSize) u =
      if totalLen < routeHeadSize + devicePairSize then (false, afterDevicePair mem totalLen u)
      else if totalLen < appIdAt mem then (false, afterUserPair mem totalLen u)
      else if totalLen < storeIdAt mem then (false, afterAppId mem totalLen u)
      else
        match capability (afterAppId mem totalLen u).session.sourceDeviceId with
        | none => (false, afterAppId mem totalLen u)
        | some version =>
            if accountVersion ≤ version then
              unPackLaterIds mem (storeIdAt mem) (totalLen - appIdAt mem)
                (afterAppId mem totalLen u)
            else (true, afterAppId mem totalLen u) := by
  unfold unPackDataBody
  rw [unPackDevicePair_at]
  by_cases hpair : totalLen < routeHeadSize + devicePairSize
  · rw [if_pos hpair, if_pos hpair]
  rw [if_neg hpair, if_neg hpair]
  dsimp only
  rw [unPackUserPair_at mem u hpair]
  by_cases happ : totalLen < appIdAt mem
  · rw [if_pos happ, if_pos happ]
  rw [if_neg happ, if_neg happ]
  dsimp only
  rw [unPackAppId_at mem u happ]
  by_cases hstore : totalLen < storeIdAt mem
  · rw [if_pos hstore, if_pos hstore]
  · rw [if_neg hstore]
    exact (if_neg hstore).symm

variable {mem totalLen u}

theorem afterDevicePair_inStep (hlen : routeHeadSize ≤ totalLen) (h : u.InStep totalLen) :
    (afterDevicePair mem totalLen u).InStep totalLen := by
  have hsize : routeHeadSize + (totalLen - routeHeadSize) = totalLen := by omega
  exact unPackDevicePair_inStep h hsize

theorem afterUserPair_inStep (hlen : routeHeadSize + devicePairSize ≤ totalLen)
    (h : u.InStep totalLen) : (afterUserPair mem totalLen u).InStep totalLen := by
  have hsize : routeHeadSize + devicePairSize +
      (totalLen - routeHeadSize - devicePairSize) = totalLen := by omega
  exact unPackUserPair_inStep (afterDevicePair_inStep (by omega) h) hsize

theorem afterAppId_inStep (hlen : appIdAt mem ≤ totalLen) (h : u.InStep totalLen) :
    (afterAppId mem totalLen u).InStep totalLen := by
  have hpair : routeHeadSize + devicePairSize ≤ totalLen := by
    unfold appIdAt at hlen
    omega
  have hsize : appIdAt mem + (totalLen - appIdAt mem) = totalLen := by omega
  exact unPackId_inStep (afterUserPair_inStep hpair h) hsize

theorem afterDevicePair_session (hlen : routeHeadSize + devicePairSize ≤ totalLen) :
    (afterDevicePair mem totalLen u).session =
      { u.session with
        sourceDeviceId := readBytes mem routeHeadSize (strnlen mem routeHeadSize maxDeviceId)
        targetDeviceId := readBytes mem (routeHeadSize + maxDeviceId)
          (strnlen mem (routeHeadSize + maxDeviceId) maxDeviceId) } := by
  unfold afterDevicePair unPackDevicePair
  rw [if_neg (by omega)]
  rfl

theorem afterUserPair_session (hlen : appIdAt mem ≤ totalLen) :
    (afterUserPair mem totalLen u).session =
      { (afterDevicePair mem totalLen u).session with
        sourceUserId := UInt32.ofNat (readLE mem (routeHeadSize + devicePairSize) 4)
        targetUserIds := (afterDevicePair mem totalLen u).session.targetUserIds ++
          unPackUserIds mem (routeHeadSize + devicePairSize + userPairSize)
            (mem (routeHeadSize + devicePairSize + 4)).toNat } := by
  unfold appIdAt at hlen
  unfold afterUserPair unPackUserPair
  rw [if_neg (by omega), if_neg (by omega)]
  rfl

theorem unPackId_session {setId : Session → Bytes → Session} {ptr leftSize : Nat}
    (hfits : idHeadSize + readLE mem ptr 4 ≤ leftSize) :
    (unPackId setId mem ptr leftSize u).2.session =
      setId u.session (readBytes mem (ptr + idHeadSize) (readLE mem ptr 4)) := by
  unfold unPackId
  rw [if_neg (by omega), if_neg (by omega)]
  rfl

theorem afterAppId_session (hlen : storeIdAt mem ≤ totalLen) :
    (afterAppId mem totalLen u).session =
      { (afterUserPair mem totalLen u).session with
        appId := readBytes mem (appIdAt mem + idHeadSize) (readLE mem (appIdAt mem) 4) } := by
  unfold storeIdAt at hlen
  rw [afterAppId, unPackAppId, unPackId_session (by omega)]

theorem afterAppId_source (hlen : storeIdAt mem ≤ totalLen) :
    (afterAppId mem totalLen u).session.sourceDeviceId =
      readBytes mem routeHeadSize (strnlen mem routeHeadSize maxDeviceId) := by
  have happ : appIdAt mem ≤ totalLen := by unfold storeIdAt at hlen; omega
  have hpair : routeHeadSize + devicePairSize ≤ totalLen := by unfold appIdAt at happ; omega
  rw [afterAppId_session hlen, afterUserPair_session happ, afterDevicePair_session hpair]

theorem unPackDataBody_cases (capability : Bytes → Option Int) (hlen : routeHeadSize ≤ totalLen)
    (h : u.InStep totalLen) :
    (¬ BodyReachesStoreId capability mem totalLen ∧
      (unPackDataBody capability mem routeHeadSize (totalLen - routeHeadSize) u).2.InStep
        totalLen) ∨
    (BodyReachesStoreId capability mem totalLen ∧ ∃ u', u'.InStep totalLen ∧
      (unPackDataBody capability mem routeHeadSize (totalLen - routeHeadSize) u).2 =
        (unPackLaterIds mem (storeIdAt mem) (totalLen - appIdAt mem) u').2) := by
  have happStore : appIdAt mem ≤ storeIdAt mem := by unfold storeIdAt; omega
  have hpairApp : routeHeadSize + devicePairSize ≤ appIdAt mem := by unfold appIdAt; omega
  rw [unPackDataBody_eq]
  split
  · exact .inl ⟨fun hreach => by have := hreach.1; omega, afterDevicePair_inStep hlen h⟩
  rename_i hpair
  have huser : (afterUserPair mem totalLen u).InStep totalLen :=
    afterUserPair_inStep (Nat.not_lt.mp hpair) h
  split
  · dsimp only
    exact .inl ⟨fun hreach => by have := hreach.1; omega, huser⟩
  rename_i happ
  have hstep : (afterAppId mem totalLen u).InStep totalLen :=
    afterAppId_inStep (Nat.not_lt.mp happ) h
  split
  · exact .inl ⟨fun hreach => by have := hreach.1; omega, hstep⟩
  rename_i hstore
  rw [afterAppId_source (Nat.not_lt.mp hstore)]
  split
  · rename_i hunknown
    refine .inl ⟨fun ⟨_, version, hknown, _⟩ => ?_, hstep⟩
    rw [hknown] at hunknown
    cases hunknown
  · rename_i version hknown
    split
    · rename_i hnew
      exact .inr ⟨⟨Nat.not_lt.mp hstore, version, hknown, hnew⟩, _, hstep, rfl⟩
    rename_i hold
    refine .inl ⟨fun ⟨_, version', hknown', hnew⟩ => ?_, hstep⟩
    rw [hknown] at hknown'
    cases hknown'
    exact hold hnew

end

section

variable {capability : Bytes → Option Int} {mem : Memory} {totalLen : Nat} {u : Unpacker}

variable (capability mem u) in
theorem unPackData_eq (hlen : routeHeadSize ≤ totalLen) :
    unPackData capability mem totalLen u =
      if readLE mem 0 2 = magicNumber ∧ routeHeadSize + readLE mem 12 4 ≤ totalLen ∧
          readLE mem 2 2 = routeHeadVersion then
        let body := unPackDataBody capability mem routeHeadSize (totalLen - routeHeadSize)
          (afterHead mem totalLen u)
        (body.1, if body.1 then routeHeadSize + readLE mem 12 4 else 0, body.2)
      else (false, 0, afterHead mem totalLen u) := by
  unfold unPackData
  rw [if_neg (by omega), unPackDataHead_of_le hlen, ← afterHead]
  by_cases hhead : readLE mem 0 2 = magicNumber ∧ routeHeadSize + readLE mem 12 4 ≤ totalLen
  · rw [decide_eq_true hhead]
    dsimp only
    by_cases hversion : readLE mem 2 2 = routeHeadVersion
    · rw [if_pos hversion, if_pos ⟨hhead.1, hhead.2, hversion⟩]
      generalize unPackDataBody capability mem routeHeadSize (totalLen - routeHeadSize)
        (afterHead mem totalLen u) = body
      obtain ⟨_ | _, u'⟩ := body <;> rfl
    · rw [if_neg hversion, if_neg fun hfits => hversion hfits.2.2]
  · rw [decide_eq_false hhead, if_neg fun hfits => hhead ⟨hfits.1, hfits.2.1⟩]

variable (capability mem totalLen) in
theorem unPackData_cases (h : u.InStep totalLen) :
    (¬ ReachesStoreId capability mem totalLen ∧
      (unPackData capability mem totalLen u).2.2.InStep totalLen) ∨
    (ReachesStoreId capability mem totalLen ∧ ∃ u', u'.InStep totalLen ∧
      (unPackData capability mem totalLen u).2.2 =
        (unPackLaterIds mem (storeIdAt mem) (totalLen - appIdAt mem) u').2) := by
  have hfirst : (u.check 0 totalLen).InStep totalLen := h.check (by omega)
  by_cases hlen : totalLen < routeHeadSize
  · refine .inl ⟨fun hreach => by have := hreach.2.1; omega, ?_⟩
    unfold unPackData
    rw [if_pos hlen]
    exact hfirst
  have hstep : (afterHead mem totalLen u).InStep totalLen := unPackDataHead_inStep hfirst
  rw [unPackData_eq capability mem u (Nat.not_lt.mp hlen)]
  split
  · rename_i hfits
    rcases unPackDataBody_cases capability (Nat.not_lt.mp hlen) hstep with
      ⟨hstop, hbody⟩ | ⟨hreach, hlater⟩
    · exact .inl ⟨fun hreach => hstop hreach.2.2.2, hbody⟩
    · exact .inr ⟨⟨hfits.1, hfits.2.1, hfits.2.2, hreach⟩, hlater⟩
  · rename_i hfits
    exact .inl ⟨fun hreach => hfits ⟨hreach.1, hreach.2.1, hreach.2.2.1⟩, hstep⟩

end

/-- Every read is in bounds exactly when the message stops before the store id or
its later ids fit; and the reads are in bounds with every check exact just when
the message stops before the store id. -/
theorem unPackData_reads_iff (capability : Bytes → Option Int) (mem : Memory) (totalLen : Nat)
    (session : Session) :
    ((unPackData capability mem totalLen ⟨session, [], []⟩).2.2.SafeReads totalLen ↔
      (ReachesStoreId capability mem totalLen → LaterIdsFit mem totalLen)) ∧
    ((unPackData capability mem totalLen ⟨session, [], []⟩).2.2.SafeReads totalLen ∧
        (unPackData capability mem totalLen ⟨session, [], []⟩).2.2.ExactChecks totalLen ↔
      ¬ ReachesStoreId capability mem totalLen) := by
  have hinit : Unpacker.InStep totalLen ⟨session, [], []⟩ :=
    ⟨fun _ hr => absurd hr List.not_mem_nil, fun _ hc => absurd hc List.not_mem_nil⟩
  rcases unPackData_cases capability mem totalLen hinit with
    ⟨hstop, hstep⟩ | ⟨hreach, u', hstep, hfinal⟩
  · exact ⟨iff_of_true hstep.1 fun hreach => absurd hreach hstop, iff_of_true hstep hstop⟩
  · have hstore : storeIdAt mem = appIdAt mem + 4 + readLE mem (appIdAt mem) 4 := rfl
    have haccount : accountIdAt mem = storeIdAt mem + 4 + readLE mem (storeIdAt mem) 4 := rfl
    have hfits : storeIdAt mem ≤ totalLen := hreach.2.2.2.1
    have hleft : idHeadSize ≤ totalLen - appIdAt mem := by
      unfold idHeadSize
      omega
    rw [hfinal]
    constructor
    · rw [unPackLaterIds_safeReads_iff hleft, ← haccount]
      have hreads := hstep.1
      unfold LaterIdsFit idHeadSize
      constructor
      · intro ⟨_, hword, hlater⟩ _
        exact ⟨hword, fun h₁ => ⟨(hlater (by omega)).1, fun h₂ =>
          (hlater (by omega)).2 (by omega)⟩⟩
      · intro h
        obtain ⟨hword, hlater⟩ := h hreach
        exact ⟨hreads, hword, fun h₁ => ⟨(hlater (by omega)).1, fun h₂ =>
          (hlater (by omega)).2 (by omega)⟩⟩
    · refine iff_of_false (fun ⟨_, hexact⟩ => ?_) fun hstop => hstop hreach
      have := unPackLaterIds_exactChecks hexact
      omega

/-- A message of 155 bytes whose three variable parts are empty: the head, the
version and otherwise zeros, with nothing after the app id's length word. -/
def bareMessage : Memory
  | 0 => 0x21
  | 1 => 0x84
  | 2 => 0x01
  | _ => 0

/-- From a peer of the current version, its store id's length is read past the end. -/
theorem unPackData_reads_past_bareMessage :
    ¬ (unPackData (fun _ => some 3) bareMessage 155 ⟨.fresh, [], []⟩).2.2.SafeReads 155 := by
  intro h
  have hread : (155, 4) ∈
      (unPackData (fun _ => some 3) bareMessage 155 ⟨.fresh, [], []⟩).2.2.reads := by
    decide +kernel
  have := h (155, 4) hread 155 (by decide) (by decide)
  omega

end DataMgr.Route
