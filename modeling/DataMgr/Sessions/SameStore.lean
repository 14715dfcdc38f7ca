import DataMgr.Sessions.SessionManager

/-! # Both ends of a session authorise the same store

The sender looks for the meta of the application and the store, the receiver for the first
meta of the application: the point it builds from the session has no store. They go by the
same bundle and kind of authorisation exactly if the first meta of the application agrees
with the meta of the store.
-/

namespace DataMgr.Sessions

open DataMgr.Metadata

/-- The access is evaluated with the bundle and the kind of authorisation of this meta. -/
def Access.GoesBy (access : Access) (storeMeta : StoreMetaData) : Prop :=
  access.aclParams.accCaller.bundleName = storeMeta.bundleName ∧
    access.aclParams.authType = storeMeta.authType

namespace Host

/-- The meta of the application and the store on the sending device. -/
def storeOf (host : Host) (point : SessionPoint) : Option StoreMetaData :=
  (host.metasOf point.deviceId).bind fun metaData => metaData.find? fun storeMeta =>
    storeMeta.appId = point.appId && storeMeta.storeId = point.storeId

/-- The first meta of the application on the sending device. -/
def firstOfApp (host : Host) (deviceId appId : String) : Option StoreMetaData :=
  (host.metasOf deviceId).bind fun metaData => metaData.find? fun storeMeta =>
    storeMeta.appId = appId

variable {host : Host} {point peer : SessionPoint} {session : Session} {access : Access}

theorem getSendAuthParams_goesBy {targetDeviceId : String} {aclParams : AclParams}
    (h : host.getSendAuthParams point targetDeviceId = some aclParams) :
    ∃ storeMeta, host.storeOf point = some storeMeta ∧
      aclParams.accCaller.bundleName = storeMeta.bundleName ∧
      aclParams.authType = storeMeta.authType := by
  unfold getSendAuthParams at h
  unfold storeOf
  cases hload : host.metasOf point.deviceId with
  | none =>
      rw [hload] at h
      cases h
  | some metaData =>
      rw [hload] at h
      obtain ⟨storeMeta, hfind, rfl⟩ := Option.map_eq_some_iff.mp h
      exact ⟨storeMeta, hfind, rfl, rfl⟩

theorem getSession_goesBy {targetDeviceId : String}
    (h : access ∈ (host.getSession point targetDeviceId).2) :
    ∃ storeMeta, host.storeOf point = some storeMeta ∧ access.GoesBy storeMeta := by
  unfold getSession at h
  cases hparams : host.getSendAuthParams point targetDeviceId with
  | none =>
      rw [hparams] at h
      cases h
  | some aclParams =>
      rw [hparams] at h
      obtain ⟨storeMeta, hstore, hgoes⟩ := getSendAuthParams_goesBy hparams
      obtain ⟨user, -, rfl⟩ := List.mem_map.mp h
      exact ⟨storeMeta, hstore, hgoes⟩

theorem mem_checkSession {accountFlag : Bool}
    (h : access ∈ (host.checkSession point peer accountFlag).2) :
    ∃ first, host.firstOfApp peer.deviceId point.appId = some first ∧ access.GoesBy first := by
  unfold checkSession at h
  cases hparams : host.getRecvAuthParams point peer accountFlag with
  | none =>
      rw [hparams] at h
      cases h
  | some aclParams =>
      rw [hparams, List.mem_singleton] at h
      unfold getRecvAuthParams at hparams
      cases hload : host.metasOf peer.deviceId with
      | none =>
          rw [hload] at hparams
          cases hparams
      | some metaData =>
          rw [hload] at hparams
          obtain ⟨first, hfind, rfl⟩ := Option.map_eq_some_iff.mp hparams
          refine ⟨first, ?_, ?_⟩
          · rw [firstOfApp, hload, Option.bind_some, hfind]
          · rw [h]
            exact ⟨rfl, rfl⟩

variable {first : StoreMetaData}

theorem checkSession_evaluates (h : host.firstOfApp peer.deviceId point.appId = some first)
    (accountFlag : Bool) :
    ∃ access, access ∈ (host.checkSession point peer accountFlag).2 := by
  obtain ⟨metaData, hload, hfind⟩ := Option.bind_eq_some_iff.mp h
  unfold checkSession getRecvAuthParams
  rw [hload]
  dsimp only
  rw [hfind]
  exact ⟨_, List.mem_singleton_self _⟩

theorem mem_checkUserIds {accountFlag : Bool} {userIds : List UserId}
    (h : access ∈ (host.checkUserIds session accountFlag userIds).2) :
    ∃ first, host.firstOfApp session.sourceDeviceId session.appId = some first ∧
      access.GoesBy first := by
  induction userIds with
  | nil => cases h
  | cons item rest ih =>
      rcases List.mem_append.mp h with hhead | hrest
      · have hpoints : ∃ first, host.firstOfApp (peerPoint session).deviceId
            (recvPoint session item).appId = some first ∧ access.GoesBy first :=
          mem_checkSession hhead
        exact hpoints
      · exact ih hrest

/-- The receiver checks the users of the message one by one. -/
def Checks (host : Host) (session : Session) (label : String) : Prop :=
  host.toForeground session label = false ∧ (host.getCapability session.sourceDeviceId).isSome ∧
    session.targetUserIds ≠ []

theorem mem_parseHeadDataUser {label : String}
    (h : access ∈ (host.parseHeadDataUser session label).2.2) :
    host.Checks session label ∧
      ∃ first, host.firstOfApp session.sourceDeviceId session.appId = some first ∧
        access.GoesBy first := by
  unfold parseHeadDataUser at h
  split at h
  · cases h
  rename_i hforeground
  split at h
  · cases h
  rename_i version hversion
  refine ⟨⟨by simpa using hforeground, by rw [hversion]; rfl, ?_⟩, mem_checkUserIds h⟩
  intro hnil
  rw [hnil] at h
  cases h

theorem parseHeadDataUser_evaluates {label : String} (hchecks : host.Checks session label)
    (h : host.firstOfApp session.sourceDeviceId session.appId = some first) :
    ∃ access, access ∈ (host.parseHeadDataUser session label).2.2 := by
  obtain ⟨hforeground, hcapability, hne⟩ := hchecks
  obtain ⟨version, hversion⟩ := Option.isSome_iff_exists.mp hcapability
  unfold parseHeadDataUser
  rw [hforeground, hversion]
  obtain ⟨item, rest, hitems⟩ := List.exists_cons_of_ne_nil hne
  have hpoints : host.firstOfApp (peerPoint session).deviceId (recvPoint session item).appId =
      some first := h
  obtain ⟨access, hmem⟩ := checkSession_evaluates hpoints _
  rw [hitems]
  exact ⟨access, List.mem_append_left _ hmem⟩

theorem getSession_fields (host : Host) (point : SessionPoint) (targetDeviceId : String) :
    (host.getSession point targetDeviceId).1.sourceDeviceId = point.deviceId ∧
      (host.getSession point targetDeviceId).1.appId = point.appId := by
  unfold getSession
  dsimp only
  split <;> exact ⟨rfl, rfl⟩

end Host

/-- Every access that is evaluated for a message, by its sender or by its receiver, goes by
the meta of the application and store it is for. -/
structure SameStore (sender receiver : Host) (point : SessionPoint)
    (targetDeviceId label : String) : Prop where
  sent : ∀ access ∈ (sender.getSession point targetDeviceId).2,
    ∃ storeMeta, sender.storeOf point = some storeMeta ∧ access.GoesBy storeMeta
  received : ∀ access ∈
      (receiver.parseHeadDataUser (sender.getSession point targetDeviceId).1 label).2.2,
    ∃ storeMeta, sender.storeOf point = some storeMeta ∧ storeMeta.appId = point.appId ∧
      storeMeta.storeId = point.storeId ∧ access.GoesBy storeMeta

open Host

theorem same_store_authorised_iff (sender receiver : Host) (point : SessionPoint)
    (targetDeviceId label : String)
    (hsame : receiver.metasOf point.deviceId = sender.metasOf point.deviceId) :
    SameStore sender receiver point targetDeviceId label ↔
      (receiver.Checks (sender.getSession point targetDeviceId).1 label →
        ∀ first, sender.firstOfApp point.deviceId point.appId = some first →
          ∃ storeMeta, sender.storeOf point = some storeMeta ∧
            first.bundleName = storeMeta.bundleName ∧ first.authType = storeMeta.authType) := by
  obtain ⟨hsource, happ⟩ := getSession_fields sender point targetDeviceId
  have hfirst : receiver.firstOfApp (sender.getSession point targetDeviceId).1.sourceDeviceId
      (sender.getSession point targetDeviceId).1.appId =
      sender.firstOfApp point.deviceId point.appId := by
    rw [hsource, happ, firstOfApp, firstOfApp, hsame]
  constructor
  · intro h hchecks first hmeta
    obtain ⟨access, hmem⟩ := parseHeadDataUser_evaluates hchecks (hfirst.trans hmeta)
    obtain ⟨-, other, hother, hbundle, hauth⟩ := mem_parseHeadDataUser hmem
    cases (hfirst.trans hmeta).symm.trans hother
    obtain ⟨storeMeta, hstore, -, -, hgoes⟩ := h.received access hmem
    exact ⟨storeMeta, hstore, hbundle.symm.trans hgoes.1, hauth.symm.trans hgoes.2⟩
  · intro h
    refine ⟨fun access => getSession_goesBy, ?_⟩
    intro access hmem
    obtain ⟨hchecks, first, hmeta, hbundle, hauth⟩ := mem_parseHeadDataUser hmem
    obtain ⟨storeMeta, hstore, hsameBundle, hsameAuth⟩ := h hchecks first (hfirst.symm.trans hmeta)
    obtain ⟨metaData, -, hfind⟩ := Option.bind_eq_some_iff.mp hstore
    have hmatch := List.find?_some hfind
    simp only [Bool.and_eq_true, decide_eq_true_eq] at hmatch
    exact ⟨storeMeta, hstore, hmatch.1, hmatch.2, hbundle.trans hsameBundle, hauth.trans hsameAuth⟩

/-- A device with the metas of two stores: the notes are shared with trusted devices, the
keys only within one account. -/
def twoStores (notesAuth : Int) : Host where
  metas :=
    [("KvStoreMetaData###d1###100###default###app###notes###",
        { deviceId := "d1", user := "100", appId := "app", bundleName := "app", storeId := "notes"
          authType := notesAuth }),
      ("KvStoreMetaData###d1###100###default###app###zkeys###",
        { deviceId := "d1", user := "100", appId := "app", bundleName := "app", storeId := "zkeys"
          authType := authIdenticalAccount })]
  localUsers := [⟨100, true⟩]
  users := fun _ => [⟨100, true⟩]
  isSameAccount := fun _ callee => callee.accountId = ""
  checkAccessControl := fun _ _ => true
  getCapability := fun _ => some 3

def keysPoint : SessionPoint :=
  { deviceId := "d1", userId := 100#32, appId := "app", storeId := "zkeys", accountId := "me" }

theorem same_store_authorised_one_policy :
    ((twoStores authIdenticalAccount).parseHeadDataUser
        ((twoStores authIdenticalAccount).getSession keysPoint "d2").1 "").2.2.length = 1 ∧
    SameStore (twoStores authIdenticalAccount) (twoStores authIdenticalAccount) keysPoint "d2"
      "" := by
  refine ⟨by decide, ?_⟩
  apply (same_store_authorised_iff (twoStores authIdenticalAccount) (twoStores authIdenticalAccount)
    keysPoint "d2" "" rfl).mpr
  intro _ first hfirst
  have hnotes : (twoStores authIdenticalAccount).firstOfApp "d1" "app" =
      some
        { deviceId := "d1", user := "100", appId := "app", bundleName := "app", storeId := "notes"
          authType := authIdenticalAccount } := by decide
  cases hnotes.symm.trans hfirst
  exact ⟨{ deviceId := "d1", user := "100", appId := "app", bundleName := "app", storeId := "zkeys"
           authType := authIdenticalAccount }, by decide, rfl, rfl⟩

/-- The receiver takes the policy of the first store and lets the other account in. -/
theorem other_store_authorised :
    (∀ access ∈ ((twoStores authDefault).getSession keysPoint "d2").2,
      access.aclParams.authType = authIdenticalAccount) ∧
    (∀ access ∈ ((twoStores authDefault).parseHeadDataUser
        ((twoStores authDefault).getSession keysPoint "d2").1 "").2.2,
      access.aclParams.authType = authDefault) ∧
    ((twoStores authDefault).parseHeadDataUser
        ((twoStores authDefault).getSession keysPoint "d2").1 "").2.1 = [⟨"100", "100"⟩] ∧
    ¬ SameStore (twoStores authDefault) (twoStores authDefault) keysPoint "d2" "" := by
  refine ⟨by decide, by decide, by decide, ?_⟩
  intro h
  have hmem : { localUserId := 100#32, peerUserId := 100#32, peerDeviceId := "d1"
                aclParams :=
                  { accCaller := { bundleName := "app", networkId := "d2", userId := 100#32 }
                    accCallee := { accountId := "me", networkId := "d1", userId := 100#32 }
                    authType := authDefault } } ∈ ((twoStores authDefault).parseHeadDataUser
      ((twoStores authDefault).getSession keysPoint "d2").1 "").2.2 := by decide
  obtain ⟨storeMeta, hstore, -, -, -, hauth⟩ := h.received _ hmem
  have hkeys : (twoStores authDefault).storeOf keysPoint =
      some
        { deviceId := "d1", user := "100", appId := "app", bundleName := "app", storeId := "zkeys"
          authType := authIdenticalAccount } := by decide
  cases hkeys.symm.trans hstore
  revert hauth
  decide

end DataMgr.Sessions
