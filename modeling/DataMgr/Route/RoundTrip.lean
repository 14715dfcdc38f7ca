import DataMgr.Route.ReadBounds
import DataMgr.Route.Pack

/-! # Round trip of the route head

Writer and reader meet in `Represents`: the memory holds, at the reader's own
offsets, every field of the session. The writer establishes it for every session
it accepts whose counts fit their fields, and the reader recovers the session from
it.
-/

namespace DataMgr.Route

open DataMgr.Foundation

structure Represents (mem : Memory) (s : Session) (headSize : Nat) : Prop where
  magic : readLE mem 0 2 = magicNumber
  version : readLE mem 2 2 = routeHeadVersion
  dataLen : readLE mem 12 4 = headSize - routeHeadSize
  source : readBytes mem routeHeadSize (strnlen mem routeHeadSize maxDeviceId) = s.sourceDeviceId
  target : readBytes mem (routeHeadSize + maxDeviceId)
    (strnlen mem (routeHeadSize + maxDeviceId) maxDeviceId) = s.targetDeviceId
  sourceUser : UInt32.ofNat (readLE mem (routeHeadSize + devicePairSize) 4) = s.sourceUserId
  count : (mem (routeHeadSize + devicePairSize + 4)).toNat = s.targetUserIds.length
  userIds : unPackUserIds mem (routeHeadSize + devicePairSize + userPairSize)
    s.targetUserIds.length = s.targetUserIds
  appLen : readLE mem (appIdAt mem) 4 = s.appId.length
  appId : readBytes mem (appIdAt mem + idHeadSize) s.appId.length = s.appId
  storeLen : readLE mem (storeIdAt mem) 4 = s.storeId.length
  storeId : readBytes mem (storeIdAt mem + idHeadSize) s.storeId.length = s.storeId
  accountLen : readLE mem (accountIdAt mem) 4 = s.accountId.length
  accountId : readBytes mem (accountIdAt mem + idHeadSize) s.accountId.length = s.accountId
  fits : accountIdAt mem + idHeadSize + s.accountId.length ≤ headSize

section

variable {mem : Memory} {totalLen : Nat} {u : Unpacker}

theorem afterHead_session : (afterHead mem totalLen u).session = u.session := by
  unfold afterHead unPackDataHead
  dsimp only
  split
  · rfl
  · split
    · rfl
    · split <;> rfl

theorem unPackLaterIds_session {leftSize : Nat}
    (hstore : idHeadSize + readLE mem (storeIdAt mem) 4 ≤ leftSize)
    (haccount : idHeadSize + readLE mem (accountIdAt mem) 4 ≤ leftSize) :
    (unPackLaterIds mem (storeIdAt mem) leftSize u).1 = true ∧
      (unPackLaterIds mem (storeIdAt mem) leftSize u).2.session =
        { u.session with
          storeId := readBytes mem (storeIdAt mem + idHeadSize) (readLE mem (storeIdAt mem) 4)
          accountId :=
            readBytes mem (accountIdAt mem + idHeadSize) (readLE mem (accountIdAt mem) 4) } := by
  have hfst : (unPackStoreId mem (storeIdAt mem) leftSize u).1 = some (accountIdAt mem) := by
    rw [unPackStoreId, unPackId_fst, if_neg (by omega), accountIdAt]
  have hsnd : (unPackStoreId mem (storeIdAt mem) leftSize u).2.session =
      { u.session with
        storeId := readBytes mem (storeIdAt mem + idHeadSize) (readLE mem (storeIdAt mem) 4) } := by
    rw [unPackStoreId, unPackId_session hstore]
  have hpair : unPackStoreId mem (storeIdAt mem) leftSize u =
      (some (accountIdAt mem), (unPackStoreId mem (storeIdAt mem) leftSize u).2) :=
    Prod.ext hfst rfl
  unfold unPackLaterIds
  rw [hpair]
  dsimp only
  rw [unPackAccountId_eq]
  rw [unPackId_fst, if_neg (by omega), unPackId_session haccount, hsnd]
  exact ⟨rfl, rfl⟩

end

section

variable {mem : Memory} {s : Session} {headSize : Nat} (h : Represents mem s headSize)

include h

theorem Represents.appIdAt_eq : appIdAt mem = 151 + s.targetUserIds.length * 4 := by
  unfold appIdAt
  rw [h.count]
  unfold routeHeadSize devicePairSize userPairSize
  omega

theorem Represents.storeIdAt_eq : storeIdAt mem = appIdAt mem + 4 + s.appId.length := by
  rw [storeIdAt, h.appLen]
  rfl

theorem Represents.accountIdAt_eq : accountIdAt mem = storeIdAt mem + 4 + s.storeId.length := by
  rw [accountIdAt, h.storeLen]
  rfl

theorem unPackDataBody_of_represents {u : Unpacker} (hfresh : u.session = .fresh)
    {capability : Bytes → Option Int} {version : Int}
    (hknown : capability s.sourceDeviceId = some version) (hnew : accountVersion ≤ version) :
    (unPackDataBody capability mem routeHeadSize (headSize - routeHeadSize) u).1 = true ∧
      (unPackDataBody capability mem routeHeadSize (headSize - routeHeadSize) u).2.session =
        s := by
  have hconst : routeHeadSize = 16 ∧ devicePairSize = 130 ∧ idHeadSize = 4 := ⟨rfl, rfl, rfl⟩
  have happ := h.appIdAt_eq
  have hstore := h.storeIdAt_eq
  have haccount := h.accountIdAt_eq
  have hend := h.fits
  have hpairs : routeHeadSize + devicePairSize ≤ headSize := by omega
  rw [unPackDataBody_eq, if_neg (by omega), if_neg (by omega), if_neg (by omega),
    afterAppId_source (by omega), h.source, hknown]
  dsimp only
  rw [if_pos hnew]
  have hstoreFits : idHeadSize + readLE mem (storeIdAt mem) 4 ≤ headSize - appIdAt mem := by
    rw [h.storeLen]
    omega
  have haccountFits : idHeadSize + readLE mem (accountIdAt mem) 4 ≤ headSize - appIdAt mem := by
    rw [h.accountLen]
    omega
  obtain ⟨hok, hsession⟩ := unPackLaterIds_session (u := afterAppId mem headSize u) hstoreFits
    haccountFits
  refine ⟨hok, ?_⟩
  rw [hsession, afterAppId_session (by omega), afterUserPair_session (by omega),
    afterDevicePair_session hpairs, hfresh, h.source, h.target, h.sourceUser, h.count, h.userIds,
    h.appLen, h.appId, h.storeLen, h.storeId, h.accountLen, h.accountId]
  rfl

theorem unPackData_of_represents {capability : Bytes → Option Int} {version : Int}
    (hknown : capability s.sourceDeviceId = some version) (hnew : accountVersion ≤ version) :
    (unPackData capability mem headSize ⟨.fresh, [], []⟩).1 = true ∧
      (unPackData capability mem headSize ⟨.fresh, [], []⟩).2.1 = headSize ∧
      (unPackData capability mem headSize ⟨.fresh, [], []⟩).2.2.session = s := by
  have hlen : routeHeadSize ≤ headSize := by
    have happ := h.appIdAt_eq
    have hstore := h.storeIdAt_eq
    have haccount := h.accountIdAt_eq
    have hend := h.fits
    unfold routeHeadSize
    omega
  have hfresh : (afterHead mem headSize ⟨.fresh, [], []⟩).session = .fresh := afterHead_session
  obtain ⟨hok, hsession⟩ := unPackDataBody_of_represents h hfresh hknown hnew
  rw [unPackData_eq capability mem _ hlen, if_pos ⟨h.magic, by rw [h.dataLen]; omega, h.version⟩]
  dsimp only
  rw [hok, if_pos rfl, h.dataLen]
  exact ⟨rfl, by omega, hsession⟩

end

section

variable {S : Securec} {mem mem' : Memory} {dest destMax : Nat} {src : Bytes}

theorem Securec.Lawful.strcpyS_agreesBelow (hS : S.Lawful)
    (h : S.strcpyS mem dest destMax src = some mem') : AgreesBelow dest mem mem' := by
  intro a ha
  exact hS.strcpyS_frame h (.inl ha)

theorem Securec.Lawful.memcpyS_agreesBelow (hS : S.Lawful)
    (h : S.memcpyS mem dest destMax src = some mem') : AgreesBelow dest mem mem' := by
  intro a ha
  exact hS.memcpyS_frame h (.inl ha)

theorem cStr_of_not_mem (h : 0 ∉ src) : cStr src = src := by
  apply List.takeWhile_eq_self_iff.mpr
  intro b hb
  have hne : b ≠ 0 := fun hzero => h (hzero ▸ hb)
  simpa using hne

theorem strnlen_of_terminated {off max : Nat}
    (hread : readBytes mem off (src.length + 1) = src ++ [0]) (hzero : 0 ∉ src)
    (hlen : src.length < max) : strnlen mem off max = src.length := by
  have hsplit : max = src.length + 1 + (max - (src.length + 1)) := by omega
  have hall : ∀ b ∈ src, decide (b ≠ 0) = true := by
    intro b hb
    have hne : b ≠ 0 := fun h => hzero (h ▸ hb)
    simpa using hne
  unfold strnlen
  rw [hsplit, readBytes_add, hread, List.append_assoc, List.takeWhile_append_of_pos hall]
  simp

theorem readBytes_of_terminated {off : Nat}
    (hread : readBytes mem off (src.length + 1) = src ++ [0]) :
    readBytes mem off src.length = src := by
  rw [readBytes_add] at hread
  exact (List.append_inj hread (length_readBytes mem off src.length)).1

theorem readBytes_strnlen {off max : Nat} (hread : readBytes mem off (src.length + 1) = src ++ [0])
    (hzero : 0 ∉ src) (hlen : src.length < max) :
    readBytes mem off (strnlen mem off max) = src := by
  rw [strnlen_of_terminated hread hzero hlen, readBytes_of_terminated hread]

end

section

variable {mem mem' : Memory}

theorem packUserIds_agreesBelow (mem : Memory) (off : Nat) (ids : List UInt32) :
    AgreesBelow off mem (packUserIds mem off ids) := by
  induction ids generalizing mem off with
  | nil => exact fun _ _ => rfl
  | cons id ids ih =>
      have hword : AgreesBelow off mem (writeBytes mem off (leBytes 4 id.toNat)) :=
        AgreesBelow.writeBytes mem _ (Nat.le_refl off)
      have hrest := (ih (writeBytes mem off (leBytes 4 id.toNat)) (off + 4)).mono
        (Nat.le_add_right off 4)
      exact hword.trans hrest

theorem unPackUserIds_congr {n off count : Nat} (h : AgreesBelow n mem mem')
    (hend : off + count * 4 ≤ n) : unPackUserIds mem' off count = unPackUserIds mem off count := by
  induction count generalizing off with
  | zero => rfl
  | succ count ih =>
      have hword : off + 4 ≤ n := by omega
      have hrest : off + 4 + count * 4 ≤ n := by omega
      rw [unPackUserIds, unPackUserIds, h.readLE_eq hword, ih hrest]

theorem unPackUserIds_packUserIds (mem : Memory) (off : Nat) (ids : List UInt32) :
    unPackUserIds (packUserIds mem off ids) off ids.length = ids := by
  induction ids generalizing mem off with
  | nil => rfl
  | cons id ids ih =>
      have hagree := packUserIds_agreesBelow (writeBytes mem off (leBytes 4 id.toNat)) (off + 4) ids
      have hword : readLE (packUserIds (writeBytes mem off (leBytes 4 id.toNat)) (off + 4) ids)
          off 4 = id.toNat := by
        rw [hagree.readLE_eq (Nat.le_refl _), readLE_writeBytes_self]
        exact Nat.mod_eq_of_lt id.toNat_lt
      rw [packUserIds, List.length_cons, unPackUserIds, ih, hword, UInt32.ofNat_toNat]

end

section

variable {S : Securec} {mem mem' : Memory}

/-- A copy that succeeds had its pointer inside the buffer: past the end, the
remaining size wraps around to more than `memcpy_s` accepts. -/
theorem le_of_le_sizeLeft {len ptr endPtr : Nat} (hptr : ptr < 2 ^ 34) (hend : endPtr < 2 ^ 34)
    (hlen : len ≤ sizeLeft endPtr ptr) (hmax : sizeLeft endPtr ptr ≤ securecMemMaxLen) :
    ptr + len ≤ endPtr := by
  unfold sizeLeft securecMemMaxLen at *
  omega

/-- What one length-prefixed field leaves in memory. -/
structure PackedId (id : Bytes) (mem mem' : Memory) (ptr endPtr : Nat) : Prop where
  length : readLE mem' ptr 4 = id.length
  bytes : readBytes mem' (ptr + idHeadSize) id.length = id
  fits : ptr + idHeadSize + id.length ≤ endPtr
  frame : AgreesBelow ptr mem mem'

theorem packId_packed (hS : S.Lawful) {id : Bytes} {ptr endPtr ptr' : Nat}
    (hid : id.length < 2 ^ 32) (hptr : ptr < 2 ^ 33) (hend : endPtr < 2 ^ 34)
    (h : packId S id mem ptr endPtr = some (mem', ptr')) :
    ptr' = ptr + idHeadSize + id.length ∧ PackedId id mem mem' ptr endPtr := by
  have hsize : id.length % 2 ^ 32 = id.length := Nat.mod_eq_of_lt hid
  unfold packId at h
  dsimp only at h
  rw [hsize, List.take_length, Option.map_eq_some_iff] at h
  obtain ⟨copied, hcopy, hresult⟩ := h
  cases hresult
  have hconst : idHeadSize = 4 := rfl
  have hfits := hS.memcpyS_fits hcopy
  have hframe := hS.memcpyS_agreesBelow hcopy
  have hword : ptr + 4 ≤ ptr + idHeadSize := by omega
  refine ⟨rfl, ?_, hS.memcpyS_copy hcopy,
    le_of_le_sizeLeft (by omega) hend hfits.1 hfits.2, ?_⟩
  · rw [hframe.readLE_eq hword, readLE_writeBytes_self]
    exact Nat.mod_eq_of_lt hid
  · exact (AgreesBelow.writeBytes mem _ (Nat.le_refl ptr)).trans (hframe.mono (by omega))

theorem packAccountId_eq (s : Session) (ptr endPtr : Nat) :
    packAccountId S s mem ptr endPtr =
      (packId S s.accountId mem ptr endPtr).map Prod.fst := by
  unfold packAccountId packId
  rw [Option.map_map]
  exact Option.map_id'.symm

/-- What the fixed part leaves in memory from its start `ptr` on. -/
structure PackedPairs (s : Session) (mem mem' : Memory) (ptr : Nat) : Prop where
  source : readBytes mem' ptr (s.sourceDeviceId.length + 1) = s.sourceDeviceId ++ [0]
  sourceFits : s.sourceDeviceId.length < maxDeviceId
  target : readBytes mem' (ptr + maxDeviceId) (s.targetDeviceId.length + 1) =
    s.targetDeviceId ++ [0]
  targetFits : s.targetDeviceId.length < maxDeviceId
  sourceUser : readLE mem' (ptr + devicePairSize) 4 = s.sourceUserId.toNat
  count : mem' (ptr + devicePairSize + 4) = UInt8.ofNat s.targetUserIds.length
  userIds : unPackUserIds mem' (ptr + devicePairSize + userPairSize) s.targetUserIds.length =
    s.targetUserIds
  frame : AgreesBelow ptr mem mem'

theorem packPairs_packed (hS : S.Lawful) {s : Session} {ptr : Nat}
    (hsource : 0 ∉ s.sourceDeviceId) (htarget : 0 ∉ s.targetDeviceId)
    (h : packPairs S s mem ptr = some mem') : PackedPairs s mem mem' ptr := by
  have hconst : maxDeviceId = 65 ∧ devicePairSize = 130 ∧ userPairSize = 5 := ⟨rfl, rfl, rfl⟩
  unfold packPairs at h
  rw [cStr_of_not_mem hsource, cStr_of_not_mem htarget] at h
  simp only [Option.bind_eq_bind, Option.bind_eq_some_iff, Option.some.injEq] at h
  obtain ⟨mem₁, hcopy₁, mem₂, hcopy₂, rfl⟩ := h
  have hfits₁ := hS.strcpyS_fits hcopy₁
  have hfits₂ := hS.strcpyS_fits hcopy₂
  have hids := packUserIds_agreesBelow
    (writeBytes (writeBytes mem₂ (ptr + devicePairSize) (leBytes 4 s.sourceUserId.toNat))
      (ptr + devicePairSize + 4) [UInt8.ofNat s.targetUserIds.length])
    (ptr + devicePairSize + userPairSize) s.targetUserIds
  have hcount := AgreesBelow.writeBytes
    (writeBytes mem₂ (ptr + devicePairSize) (leBytes 4 s.sourceUserId.toNat))
    [UInt8.ofNat s.targetUserIds.length] (Nat.le_refl (ptr + devicePairSize + 4))
  have huser := AgreesBelow.writeBytes mem₂ (leBytes 4 s.sourceUserId.toNat)
    (Nat.le_refl (ptr + devicePairSize))
  have htail : AgreesBelow (ptr + devicePairSize + 4) _ _ := hcount.trans (hids.mono (by omega))
  have hafter : AgreesBelow (ptr + devicePairSize) mem₂ _ := huser.trans (htail.mono (by omega))
  have hafterSource : AgreesBelow (ptr + maxDeviceId) mem₁ _ :=
    (hS.strcpyS_agreesBelow hcopy₂).trans (hafter.mono (by omega))
  refine ⟨?_, hfits₁, ?_, hfits₂, ?_, ?_, unPackUserIds_packUserIds _ _ _,
    (hS.strcpyS_agreesBelow hcopy₁).trans (hafterSource.mono (by omega))⟩
  · rw [hafterSource.readBytes_eq (by omega)]
    exact hS.strcpyS_copy hcopy₁
  · rw [hafter.readBytes_eq (by omega)]
    exact hS.strcpyS_copy hcopy₂
  · rw [htail.readLE_eq (by omega), readLE_writeBytes_self]
    exact Nat.mod_eq_of_lt s.sourceUserId.toNat_lt
  · rw [hids _ (by omega)]
    simp [writeBytes]

theorem packDataHead_reads (mem : Memory) {totalLen : Nat} (hlen : totalLen < 2 ^ 32) :
    readLE (packDataHead mem totalLen) 0 2 = magicNumber ∧
      readLE (packDataHead mem totalLen) 2 2 = routeHeadVersion ∧
      readLE (packDataHead mem totalLen) 12 4 = totalLen - routeHeadSize := by
  unfold packDataHead
  refine ⟨?_, ?_, ?_⟩
  · rw [readLE_writeBytes_disjoint _ (by simp), readLE_writeBytes_disjoint _ (by simp),
      readLE_writeBytes_disjoint _ (by simp), readLE_writeBytes_self]
    rfl
  · rfl
  · rw [readLE_writeBytes_self]
    exact Nat.mod_eq_of_lt (by omega)

end

/-- The counts and lengths of the session fit the fields that carry them. -/
structure Session.FieldsFit (s : Session) : Prop where
  users : s.targetUserIds.length < 2 ^ 8
  appId : s.appId.length < 2 ^ 32
  storeId : s.storeId.length < 2 ^ 32
  accountId : s.accountId.length < 2 ^ 32

/-- The fields written one after the other represent the session at the end: each
is below everything written after it. -/
theorem represents_of_packed {s : Session} {mem₀ mem₁ mem₂ mem₃ mem : Memory}
    {app store account headSize : Nat} (husers : s.targetUserIds.length < 2 ^ 8)
    (hsource : 0 ∉ s.sourceDeviceId) (htarget : 0 ∉ s.targetDeviceId)
    (hmagic : readLE mem₀ 0 2 = magicNumber) (hversion : readLE mem₀ 2 2 = routeHeadVersion)
    (hdata : readLE mem₀ 12 4 = headSize - routeHeadSize)
    (hpairs : PackedPairs s mem₀ mem₁ routeHeadSize)
    (happ : app = routeHeadSize + devicePairSize + (userPairSize + s.targetUserIds.length * 4))
    (hstore : store = app + idHeadSize + s.appId.length)
    (haccount : account = store + idHeadSize + s.storeId.length)
    (hpackedApp : PackedId s.appId mem₁ mem₂ app headSize)
    (hpackedStore : PackedId s.storeId mem₂ mem₃ store headSize)
    (hpackedAccount : PackedId s.accountId mem₃ mem account headSize) :
    Represents mem s headSize := by
  have hconst : routeHeadSize = 16 ∧ devicePairSize = 130 ∧ userPairSize = 5 ∧ idHeadSize = 4 ∧
    maxDeviceId = 65 := ⟨rfl, rfl, rfl, rfl, rfl⟩
  have hsourceFits := hpairs.sourceFits
  have htargetFits := hpairs.targetFits
  have hafterStore : AgreesBelow account mem₃ mem := hpackedAccount.frame
  have hafterApp : AgreesBelow store mem₂ mem :=
    hpackedStore.frame.trans (hafterStore.mono (by omega))
  have hafterPairs : AgreesBelow app mem₁ mem :=
    hpackedApp.frame.trans (hafterApp.mono (by omega))
  have hafterHead : AgreesBelow routeHeadSize mem₀ mem :=
    hpairs.frame.trans (hafterPairs.mono (by omega))
  have hcount : (mem (routeHeadSize + devicePairSize + 4)).toNat = s.targetUserIds.length := by
    rw [hafterPairs _ (by omega), hpairs.count, UInt8.toNat_ofNat']
    exact Nat.mod_eq_of_lt husers
  have happAt : appIdAt mem = app := by rw [appIdAt, hcount, happ]
  have happLen : readLE mem app 4 = s.appId.length := by
    rw [hafterApp.readLE_eq (by omega), hpackedApp.length]
  have hstoreAt : storeIdAt mem = store := by rw [storeIdAt, happAt, happLen, hstore]
  have hstoreLen : readLE mem store 4 = s.storeId.length := by
    rw [hafterStore.readLE_eq (by omega), hpackedStore.length]
  have haccountAt : accountIdAt mem = account := by
    rw [accountIdAt, hstoreAt, hstoreLen, haccount]
  exact {
    magic := by rw [hafterHead.readLE_eq (by omega), hmagic]
    version := by rw [hafterHead.readLE_eq (by omega), hversion]
    dataLen := by rw [hafterHead.readLE_eq (by omega), hdata]
    source := by
      refine readBytes_strnlen ?_ hsource hsourceFits
      rw [hafterPairs.readBytes_eq (by omega), hpairs.source]
    target := by
      refine readBytes_strnlen ?_ htarget htargetFits
      rw [hafterPairs.readBytes_eq (by omega), hpairs.target]
    sourceUser := by
      rw [hafterPairs.readLE_eq (by omega), hpairs.sourceUser, UInt32.ofNat_toNat]
    count := hcount
    userIds := by rw [unPackUserIds_congr hafterPairs (by omega), hpairs.userIds]
    appLen := by rw [happAt, happLen]
    appId := by rw [happAt, hafterApp.readBytes_eq (by omega), hpackedApp.bytes]
    storeLen := by rw [hstoreAt, hstoreLen]
    storeId := by rw [hstoreAt, hafterStore.readBytes_eq (by omega), hpackedStore.bytes]
    accountLen := by rw [haccountAt, hpackedAccount.length]
    accountId := by rw [haccountAt, hpackedAccount.bytes]
    fits := by
      rw [haccountAt]
      exact hpackedAccount.fits }

theorem packData_represents {S : Securec} (hS : S.Lawful) {h : Handler} {mem mem' : Memory}
    (hfields : h.session.FieldsFit) (hsource : 0 ∉ h.session.sourceDeviceId)
    (htarget : 0 ∉ h.session.targetDeviceId) (hsize : h.headSize < 2 ^ 32)
    (hpack : packData S h mem h.headSize = some mem') :
    Represents mem' h.session h.headSize := by
  have hconst : routeHeadSize = 16 ∧ devicePairSize = 130 ∧ userPairSize = 5 ∧ idHeadSize = 4 ∧
    maxDeviceId = 65 := ⟨rfl, rfl, rfl, rfl, rfl⟩
  obtain ⟨husers, happ, hstore, haccount⟩ := hfields
  unfold packData at hpack
  rw [if_neg (by omega)] at hpack
  split at hpack
  · cases hpack
  obtain ⟨hmagic, hversion, hdata⟩ := packDataHead_reads mem hsize
  unfold packDataBody packAppId packStoreId at hpack
  simp only [Option.bind_eq_bind, Option.bind_eq_some_iff, Prod.exists, packAccountId_eq,
    Option.map_eq_some_iff, exists_and_right, exists_eq_right] at hpack
  obtain ⟨mem₁, hpairs, mem₂, ptr₂, hpackApp, mem₃, ptr₃, hpackStore, ptr₄, hpackAccount⟩ := hpack
  have hpacked := packPairs_packed hS hsource htarget hpairs
  have hend : routeHeadSize + (h.headSize - routeHeadSize) = h.headSize := by omega
  rw [hend] at hpackApp hpackStore hpackAccount
  obtain ⟨rfl, hpackedApp⟩ := packId_packed hS happ (by omega) (by omega) hpackApp
  obtain ⟨rfl, hpackedStore⟩ := packId_packed hS hstore (by omega) (by omega) hpackStore
  have hstoreFits := hpackedStore.fits
  obtain ⟨-, hpackedAccount⟩ := packId_packed hS haccount (by omega) (by omega) hpackAccount
  exact represents_of_packed husers hsource htarget hmagic hversion hdata hpacked rfl rfl rfl
    hpackedApp hpackedStore hpackedAccount

section

variable {mem : Memory} {totalLen ptr leftSize : Nat} {u : Unpacker}

theorem length_unPackUserIds (mem : Memory) (off count : Nat) :
    (unPackUserIds mem off count).length = count := by
  induction count generalizing off with
  | zero => rfl
  | succ count ih => rw [unPackUserIds, List.length_cons, ih]

variable (h : u.session.FieldsFit)

include h

theorem unPackUserPair_fieldsFit (hnone : u.session.targetUserIds = []) :
    (unPackUserPair mem ptr leftSize u).2.session.FieldsFit := by
  have hcount := (mem (ptr + 4)).toNat_lt
  unfold unPackUserPair
  dsimp only
  split
  · exact h
  split
  · exact ⟨h.users, h.appId, h.storeId, h.accountId⟩
  refine ⟨?_, h.appId, h.storeId, h.accountId⟩
  dsimp only [Unpacker.read, Unpacker.check]
  rw [hnone, List.nil_append, length_unPackUserIds]
  exact hcount

theorem unPackId_fieldsFit {setId : Session → Bytes → Session}
    (hset : ∀ id : Bytes, id.length < 2 ^ 32 → (setId u.session id).FieldsFit) :
    (unPackId setId mem ptr leftSize u).2.session.FieldsFit := by
  unfold unPackId
  dsimp only
  split
  · exact h
  split
  · exact h
  · apply hset
    rw [length_readBytes]
    exact readLE_lt mem ptr 4

theorem unPackAppId_fieldsFit : (unPackAppId mem ptr leftSize u).2.session.FieldsFit :=
  unPackId_fieldsFit h fun _ hid => ⟨h.users, hid, h.storeId, h.accountId⟩

theorem unPackLaterIds_fieldsFit : (unPackLaterIds mem ptr leftSize u).2.session.FieldsFit := by
  have hstore : (unPackStoreId mem ptr leftSize u).2.session.FieldsFit :=
    unPackId_fieldsFit h fun _ hid => ⟨h.users, h.appId, hid, h.accountId⟩
  unfold unPackLaterIds
  split
  · rename_i u' heq
    rw [heq] at hstore
    exact hstore
  rename_i ptr' u' heq
  rw [heq] at hstore
  rw [unPackAccountId_eq]
  exact unPackId_fieldsFit hstore fun _ hid => ⟨hstore.users, hstore.appId, hstore.storeId, hid⟩

omit h

theorem unPackDataBody_fieldsFit (capability : Bytes → Option Int) (h : u.session.FieldsFit)
    (hnone : u.session.targetUserIds = []) :
    (unPackDataBody capability mem routeHeadSize (totalLen - routeHeadSize)
      u).2.session.FieldsFit := by
  have hdevice : (afterDevicePair mem totalLen u).session.FieldsFit ∧
      (afterDevicePair mem totalLen u).session.targetUserIds = u.session.targetUserIds := by
    unfold afterDevicePair unPackDevicePair
    split
    · exact ⟨h, rfl⟩
    · exact ⟨⟨h.users, h.appId, h.storeId, h.accountId⟩, rfl⟩
  have huser : (afterUserPair mem totalLen u).session.FieldsFit := by
    rw [afterUserPair]
    exact unPackUserPair_fieldsFit hdevice.1 (hdevice.2.trans hnone)
  have happ : (afterAppId mem totalLen u).session.FieldsFit := by
    exact unPackAppId_fieldsFit huser
  rw [unPackDataBody_eq]
  split
  · exact hdevice.1
  split
  · exact huser
  split
  · exact happ
  split
  · exact happ
  · split
    · exact unPackLaterIds_fieldsFit happ
    · exact happ

theorem Session.fieldsFit_fresh : Session.fresh.FieldsFit := by
  constructor <;> exact Nat.two_pow_pos _

theorem unPackData_fieldsFit (capability : Bytes → Option Int) (mem : Memory) (totalLen : Nat) :
    (unPackData capability mem totalLen ⟨.fresh, [], []⟩).2.2.session.FieldsFit := by
  by_cases hlen : totalLen < routeHeadSize
  · unfold unPackData
    rw [if_pos hlen]
    exact Session.fieldsFit_fresh
  have hsession : (afterHead mem totalLen ⟨.fresh, [], []⟩).session = .fresh := afterHead_session
  have hfresh : (afterHead mem totalLen ⟨.fresh, [], []⟩).session.FieldsFit := by
    rw [hsession]
    exact Session.fieldsFit_fresh
  rw [unPackData_eq capability mem _ (Nat.not_lt.mp hlen)]
  split
  · exact unPackDataBody_fieldsFit capability hfresh (by rw [hsession]; rfl)
  · exact hfresh

end

theorem getHeadDataSize_eq {env : RouteEnv} {h h' : Handler} {headSize : Nat}
    (hsize : getHeadDataSize env h = (.ok, headSize, h')) (hpos : headSize ≠ 0) :
    h' = { h with headSize := headSize } ∧ headSize < 2 ^ 32 := by
  unfold getHeadDataSize at hsize
  grind

theorem fillHeadData_eq {S : Securec} {h : Handler} {mem mem' : Memory} {headSize : Nat}
    (hfill : fillHeadData S h mem headSize = (.ok, mem')) (hpos : headSize ≠ 0) :
    headSize = h.headSize ∧ packData S h mem headSize = some mem' := by
  unfold fillHeadData at hfill
  split at hfill
  · cases hfill
  rename_i hsame
  have hsize : headSize = h.headSize := not_not.mp hsame
  rw [if_neg (by omega)] at hfill
  split at hfill
  · rename_i packed hpacked
    cases hfill
    exact ⟨hsize, hpacked⟩
  · cases hfill

/-- The reader, on a fresh handler over the written bytes, gives back the session. -/
def RoundTrips (capability : Bytes → Option Int) (mem : Memory) (headSize : Nat) (s : Session) :
    Prop :=
  (unPackData capability mem headSize ⟨.fresh, [], []⟩).1 = true ∧
    (unPackData capability mem headSize ⟨.fresh, [], []⟩).2.1 = headSize ∧
    (unPackData capability mem headSize ⟨.fresh, [], []⟩).2.2.session = s

/-- An accepted session comes back exactly when its counts fit their fields: the
user count is a byte, and only the low bits of a longer list's length are sent. -/
theorem fillHeadData_roundTrips_iff {S : Securec} (hS : S.Lawful) (env : RouteEnv)
    {h h' : Handler} {mem mem' : Memory} {headSize : Nat} {capability : Bytes → Option Int}
    {version : Int} (hsize : getHeadDataSize env h = (.ok, headSize, h')) (hpos : headSize ≠ 0)
    (hfill : fillHeadData S h' mem headSize = (.ok, mem'))
    (hsource : 0 ∉ h.session.sourceDeviceId) (htarget : 0 ∉ h.session.targetDeviceId)
    (hknown : capability h.session.sourceDeviceId = some version)
    (hnew : accountVersion ≤ version) :
    RoundTrips capability mem' headSize h.session ↔ h.session.FieldsFit := by
  constructor
  · intro ⟨_, _, hsession⟩
    rw [← hsession]
    exact unPackData_fieldsFit capability mem' headSize
  · intro hfields
    obtain ⟨rfl, hsmall⟩ := getHeadDataSize_eq hsize hpos
    obtain ⟨-, hpack⟩ := fillHeadData_eq hfill hpos
    have hrep := packData_represents hS (h := { h with headSize := headSize }) hfields hsource
      htarget hsmall hpack
    exact unPackData_of_represents hrep hknown hnew

def checkedCopies : Securec where
  strcpyS mem dest destMax src :=
    if src.length < destMax then some (writeBytes mem dest (src ++ [0])) else none
  memcpyS mem dest destMax src :=
    if src.length ≤ destMax ∧ 0 < destMax ∧ destMax ≤ securecMemMaxLen then
      some (writeBytes mem dest src)
    else none

theorem checkedCopies_lawful : checkedCopies.Lawful where
  strcpyS_fits := by
    intro mem dest destMax src mem' h
    simp only [checkedCopies, Option.ite_none_right_eq_some] at h
    exact h.1
  strcpyS_copy := by
    intro mem dest destMax src mem' h
    simp only [checkedCopies, Option.ite_none_right_eq_some, Option.some.injEq] at h
    have hread := readBytes_writeBytes_self mem dest (src ++ [0])
    rw [List.length_append, List.length_singleton] at hread
    rw [← h.2, hread]
  strcpyS_frame := by
    intro mem dest destMax src mem' a h houtside
    simp only [checkedCopies, Option.ite_none_right_eq_some, Option.some.injEq] at h
    rw [← h.2, writeBytes_of_outside]
    rw [List.length_append, List.length_singleton]
    omega
  memcpyS_fits := by
    intro mem dest destMax src mem' h
    simp only [checkedCopies, Option.ite_none_right_eq_some] at h
    exact ⟨h.1.1, h.1.2.2⟩
  memcpyS_copy := by
    intro mem dest destMax src mem' h
    simp only [checkedCopies, Option.ite_none_right_eq_some, Option.some.injEq] at h
    rw [← h.2, readBytes_writeBytes_self]
  memcpyS_frame := by
    intro mem dest destMax src mem' a h houtside
    simp only [checkedCopies, Option.ite_none_right_eq_some, Option.some.injEq] at h
    rw [← h.2, writeBytes_of_outside mem dest src houtside]

/-- Every device is a known one of the current version. -/
def currentPeers : RouteEnv where
  processLabel := asciiBytes "distributeddata"
  metaDBName := asciiBytes "service_meta"
  isOHOSType _ := true
  isTrust _ := false
  capability _ := some 3

/-- A handler of one application with the given target users. -/
def handlerFor (targetUserIds : List UInt32) : Handler where
  appId := asciiBytes "ohos.test.demo"
  storeId := asciiBytes "test_store"
  headSize := 0
  session := {
    sourceDeviceId := asciiBytes "PEER_DEVICE_ID_A"
    targetDeviceId := asciiBytes "PEER_DEVICE_ID_B"
    sourceUserId := 100
    targetUserIds := targetUserIds
    appId := asciiBytes "ohos.test.demo"
    storeId := asciiBytes "test_store"
    accountId := asciiBytes "account" }

theorem fillHeadData_roundTrips_two_users :
    RoundTrips (fun _ => some 3)
      (fillHeadData checkedCopies { handlerFor [100, 101] with headSize := 208 } (fun _ => 0)
        208).2 208 (handlerFor [100, 101]).session := by
  have hsize : getHeadDataSize currentPeers (handlerFor [100, 101]) =
      (.ok, 208, { handlerFor [100, 101] with headSize := 208 }) := by decide +kernel
  have hfill : (fillHeadData checkedCopies { handlerFor [100, 101] with headSize := 208 }
      (fun _ => 0) 208).1 = .ok := by decide +kernel
  have hfields : (handlerFor [100, 101]).session.FieldsFit := by
    constructor <;> decide +kernel
  exact (fillHeadData_roundTrips_iff checkedCopies_lawful currentPeers hsize (by decide)
    (Prod.ext hfill rfl) (by decide +kernel) (by decide +kernel) rfl (by decide)).mpr hfields

/-- With 256 target users the count that is sent is zero. -/
theorem fillHeadData_loses_256_users :
    getHeadDataSize currentPeers (handlerFor (List.replicate 256 100)) =
        (.ok, 1224, { handlerFor (List.replicate 256 100) with headSize := 1224 }) ∧
      (fillHeadData checkedCopies { handlerFor (List.replicate 256 100) with headSize := 1224 }
        (fun _ => 0) 1224).1 = .ok ∧
      ¬ RoundTrips (fun _ => some 3)
        (fillHeadData checkedCopies { handlerFor (List.replicate 256 100) with headSize := 1224 }
          (fun _ => 0) 1224).2 1224 (handlerFor (List.replicate 256 100)).session := by
  refine ⟨by decide +kernel, by decide +kernel, ?_⟩
  intro ⟨_, _, hsession⟩
  have hfields := unPackData_fieldsFit (fun _ => some 3)
    (fillHeadData checkedCopies { handlerFor (List.replicate 256 100) with headSize := 1224 }
      (fun _ => 0) 1224).2 1224
  rw [hsession] at hfields
  exact absurd hfields.users (by decide +kernel)

end DataMgr.Route
