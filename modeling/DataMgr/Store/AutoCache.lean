import DataMgr.Foundation.KeyedMap
import DataMgr.Store.GeneralStore

/-! # The automatic store cache

`stores_` maps a token to its open delegates and `disables_` maps a token to the
store keys that must stay closed. Every operation here is one action of a
concurrent map. What the code reads from outside (the clock, the screen lock,
the account state, the creator's answer, the status of `Close`) is an argument.
-/

namespace DataMgr.Store

open Std DataMgr.Foundation

abbrev StoreHandle := Nat

abbrev Watcher := Nat

/-- The fields of `StoreMetaData` that the cache reads. -/
structure StoreMetaData where
  tokenId : UInt32
  user : String
  dataDir : String
  storeId : String
  storeType : Int
  area : Int
deriving DecidableEq, Repr

/-- `AutoCache::Delegate`; `time` is in milliseconds of the steady clock. -/
structure Delegate where
  store : StoreHandle
  time : Nat
  watchers : List Watcher
  storeMeta : StoreMetaData
  garbageInterval : Nat
deriving DecidableEq, Repr

abbrev Delegates := ExtTreeMap String Delegate

structure AutoCache where
  garbageInterval : Nat
  executor : Option ExecutorPool
  taskId : Option TaskId
  stores : ExtTreeMap UInt32 Delegates
  disables : ExtTreeMap UInt32 (ExtTreeSet String)
  creators : Int → Bool

def keySeparator : String := "###"

def maxCreatorNum : Int := 30

def generateKey (path storeId : String) : String :=
  if path.isEmpty then storeId else path ++ keySeparator ++ storeId

variable (d : Delegate) (c : AutoCache) (m : StoreMetaData) (tokenId : UInt32)
  (watchers : List Watcher)

/-- `Delegate::operator Store`: handing the store out pushes its expiry back. -/
def Delegate.toStore (now : Nat) : StoreHandle × Delegate :=
  (d.store, { d with time := now + d.garbageInterval })

def Delegate.setObservers : Delegate :=
  { d with watchers := watchers }

/-- `Delegate::Close`: only a busy store refuses. -/
def Delegate.close (closeStatus : StoreHandle → GeneralError) : Bool :=
  closeStatus d.store ≠ .eBusy

/-- Everything of a delegate but its expiry, which each use moves. -/
def Delegate.fixed : StoreHandle × List Watcher × StoreMetaData × Nat :=
  (d.store, d.watchers, d.storeMeta, d.garbageInterval)

def StoreMetaData.isEl4 : Bool := m.area = Area.el4.code

def StoreMetaData.storeKey : String := generateKey m.dataDir m.storeId

open Delegate

namespace AutoCache

def delegate? (storeKey : String) : Option Delegate :=
  nested? c.stores tokenId storeKey

/-- The test of `disables_` in `GetDBStore`. -/
def isDisabled (storeKey : String) : Bool :=
  match c.disables[tokenId]? with
  | none => false
  | some keys => keys.contains storeKey

/-- The first check of `GetDBStore`: `true` refuses the request. -/
def refuses : Bool :=
  m.storeType ≥ maxCreatorNum || m.storeType < 0 || !c.creators m.storeType ||
    c.isDisabled m.tokenId m.storeKey

/-- The C library's `atoi` on a user id. -/
def atoi (text : String) : Int :=
  match text.toList.dropWhile Char.isWhitespace with
  | '-' :: rest => -digits rest
  | '+' :: rest => digits rest
  | rest => digits rest
where
  digits (chars : List Char) : Int :=
    (chars.takeWhile Char.isDigit).foldl (fun n c => 10 * n + (c.toNat - '0'.toNat : Nat)) 0

/-- `CheckStatusBeforeOpen`, with the screen lock and the account's answers. -/
def checkStatusBeforeOpen (locked : Bool) (isDeactivating isVerified : Int → Bool) : GeneralError :=
  if m.isEl4 && locked then .eScreenLocked
  else if atoi m.user = 0 ∨ m.area = Area.el1.code then .eOk
  else if isDeactivating (atoi m.user) then .eUserDeactivating
  else if !isVerified (atoi m.user) then .eUserLocked
  else .eOk

/-- What one run of the insertion action of `GetDBStore` does to the token's
delegates: the new map, the status, the store handed out and `startTimer`. -/
def openIn (garbageInterval : Nat) (delegates : Delegates) (m : StoreMetaData)
    (watchers : List Watcher) (created : GeneralError × Option StoreHandle) (now : Nat) :
    Delegates × GeneralError × Option StoreHandle × Bool :=
  match delegates[m.storeKey]? with
  | some d =>
      let d := if watchers.isEmpty then d else d.setObservers watchers
      let (store, d) := d.toStore now
      (delegates.insert m.storeKey d, .eOk, some store, false)
  | none =>
      match created.2 with
      | none => (delegates, created.1, none, false)
      | some dbStore =>
          let d : Delegate :=
            { store := dbStore, time := now + garbageInterval, watchers := watchers, storeMeta := m,
              garbageInterval := garbageInterval }
          let (store, d) := d.toStore now
          (delegates.insert m.storeKey d, created.1, some store, true)

/-- The pair `GetDBStore` returns: no store means a failure whatever the creator said. -/
def openReply (ret : GeneralError) (store : Option StoreHandle) :
    GeneralError × Option StoreHandle :=
  (if ret = .eOk ∧ store = none then .eError else ret, store)

/-- The insertion action of `GetDBStore` on `stores_`, with the reply the call will
return and whether it goes on to `StartTimer`. -/
def openStore (created : GeneralError × Option StoreHandle) (now : Nat) :
    AutoCache × (GeneralError × Option StoreHandle) × Bool :=
  let (_, ret, store, startTimer) :=
    openIn c.garbageInterval (c.stores[m.tokenId]?.getD ∅) m watchers created now
  ({ c with stores := compute c.stores m.tokenId ∅ fun delegates =>
      let after := (openIn c.garbageInterval delegates m watchers created now).1
      (after, !after.isEmpty) },
    openReply ret store, startTimer)

def startTimer : AutoCache :=
  match c.executor with
  | none => c
  | some pool =>
      if c.taskId.isSome || c.stores.isEmpty then c
      else { c with taskId := some pool.schedule.1, executor := some pool.schedule.2 }

/-- The action by which a fired timer gives its id back. -/
def resetTimer : AutoCache := { c with taskId := none }

/-- The action of `GetStoresIfPresent` on one token's delegates: the stores
found, the delegates handed out and the verdict. -/
def findIn (delegates : Delegates) (storeKey : String) (now : Nat) :
    List StoreHandle × Delegates × Bool :=
  let (stores, delegates) :=
    if storeKey.isEmpty then
      ((delegates.toList.map fun entry => (entry.2.toStore now).1),
        delegates.map fun _ d => (d.toStore now).2)
    else
      match delegates[storeKey]? with
      | none => ([], delegates)
      | some d => ([(d.toStore now).1], delegates.insert storeKey (d.toStore now).2)
  (stores, delegates, !stores.isEmpty)

def getStoresIfPresent (path storeName : String) (now : Nat) : List StoreHandle × AutoCache :=
  let storeKey := generateKey path storeName
  let stores :=
    match c.stores[tokenId]? with
    | none => []
    | some delegates => (findIn delegates storeKey now).1
  (stores, { c with stores := computeIfPresent c.stores tokenId fun delegates =>
    (findIn delegates storeKey now).2 })

/-- `CloseStore(tokenId, path, storeId)`; `locked` is read before the action runs.
The status of `Close` is not looked at here. -/
def closeStore (storeKey : String) (locked : Bool) : AutoCache :=
  { c with stores := computeIfPresent c.stores tokenId fun delegates =>
      let kept := delegates.filter fun key d =>
        !((key == storeKey || storeKey.isEmpty) && (!locked || !d.storeMeta.isEl4))
      (kept, !kept.isEmpty) }

def closeStoreIf (filter : StoreMetaData → Bool) : AutoCache :=
  { c with stores := eraseIf c.stores fun _ delegates =>
      let kept := delegates.filter fun _ d => !filter d.storeMeta
      (kept, kept.isEmpty) }

/-- The sweep of `GarbageCollect`, with the time and the lock read at its start. -/
def garbageCollect (isForce : Bool) (current : Nat) (locked : Bool)
    (closeStatus : StoreHandle → GeneralError) : AutoCache :=
  { c with stores := eraseIf c.stores fun _ delegates =>
      let kept := delegates.filter fun _ d =>
        !((!locked || !d.storeMeta.isEl4) && (isForce || d.time < current) && d.close closeStatus)
      (kept, kept.isEmpty) }

def enable (storeKey : String) : AutoCache :=
  { c with disables := computeIfPresent c.disables tokenId fun keys =>
      let kept := keys.erase storeKey
      (kept, !(kept.isEmpty || storeKey.isEmpty)) }

/-- The first of the two actions of `Disable`; the second is `closeStore`. -/
def disable (storeKey : String) : AutoCache :=
  { c with disables := compute c.disables tokenId ∅ fun keys =>
      let marked := keys.insert storeKey
      (marked, !marked.isEmpty) }

variable (c : AutoCache) (tokenId token : UInt32) (storeKey key : String)

theorem delegate?_closeStore (locked : Bool) :
    (c.closeStore tokenId storeKey locked).delegate? token key =
      if token = tokenId then
        (c.delegate? token key).filter fun d =>
          !((key == storeKey || storeKey.isEmpty) && (!locked || !d.storeMeta.isEl4))
      else c.delegate? token key :=
  nested?_computeIfPresent_filter c.stores tokenId token key _

theorem delegate?_closeStoreIf (filter : StoreMetaData → Bool) (token : UInt32) (key : String) :
    (c.closeStoreIf filter).delegate? token key =
      (c.delegate? token key).filter fun d => !filter d.storeMeta :=
  nested?_eraseIf_filter c.stores token key _

theorem delegate?_garbageCollect (isForce : Bool) (current : Nat) (locked : Bool)
    (closeStatus : StoreHandle → GeneralError) (token : UInt32) (key : String) :
    (c.garbageCollect isForce current locked closeStatus).delegate? token key =
      (c.delegate? token key).filter fun d =>
        !((!locked || !d.storeMeta.isEl4) && (isForce || d.time < current) &&
          d.close closeStatus) :=
  nested?_eraseIf_filter c.stores token key _

theorem openIn_getElem?_of_ne (garbageInterval : Nat) (delegates : Delegates) (m : StoreMetaData)
    (watchers : List Watcher) (created : GeneralError × Option StoreHandle) (now : Nat)
    {key : String} (h : key ≠ m.storeKey) :
    (openIn garbageInterval delegates m watchers created now).1[key]? = delegates[key]? := by
  unfold openIn
  cases delegates[m.storeKey]? with
  | some d => simp [ExtTreeMap.getElem?_insert, Ne.symm h]
  | none =>
      cases created.2 with
      | none => rfl
      | some dbStore => simp [ExtTreeMap.getElem?_insert, Ne.symm h]

theorem delegate?_openStore_of_ne (m : StoreMetaData) (watchers : List Watcher)
    (created : GeneralError × Option StoreHandle) (now : Nat) {token : UInt32} {key : String}
    (h : ¬ (token = m.tokenId ∧ key = m.storeKey)) :
    (c.openStore m watchers created now).1.delegate? token key = c.delegate? token key := by
  by_cases ht : token = m.tokenId
  · subst ht
    have hkey : key ≠ m.storeKey := fun hk => h ⟨rfl, hk⟩
    have hother := openIn_getElem?_of_ne c.garbageInterval (c.stores[m.tokenId]?.getD ∅) m
      watchers created now hkey
    have hdrop := bind_getElem?_dropEmpty
      (openIn c.garbageInterval (c.stores[m.tokenId]?.getD ∅) m watchers created now).1 key
    have hbefore : (c.stores[m.tokenId]?.getD ∅)[key]? = c.delegate? m.tokenId key := by
      unfold delegate? nested?
      cases c.stores[m.tokenId]? <;> simp
    rw [← hbefore, ← hother, ← hdrop]
    simp only [delegate?, nested?, openStore, getElem?_compute_self]
    cases (openIn c.garbageInterval (c.stores[m.tokenId]?.getD ∅) m watchers created now).1.isEmpty
      <;> rfl
  · simp only [delegate?, nested?, openStore]
    rw [getElem?_compute_of_ne _ _ _ ht]

theorem openStore_isEmpty {c : AutoCache} {m : StoreMetaData} {watchers : List Watcher}
    {created : GeneralError × Option StoreHandle} {now : Nat}
    (hempty : c.stores.isEmpty = true)
    (htimer : (c.openStore m watchers created now).2.2 = false) :
    (c.openStore m watchers created now).1.stores.isEmpty = true := by
  have hnone := (isEmpty_iff_getElem? c.stores).mp hempty
  have hcreated : created.2 = none := by
    cases hc : created.2 with
    | none => rfl
    | some dbStore => simp [openStore, openIn, hnone, hc] at htimer
  rw [isEmpty_iff_getElem?]
  intro token
  by_cases ht : token = m.tokenId
  · subst ht
    simp [openStore, openIn, hnone, hcreated]
  · simp only [openStore]
    rw [getElem?_compute_of_ne _ _ _ ht, hnone token]

theorem startTimer_stores : c.startTimer.stores = c.stores := by
  unfold startTimer
  split
  · rfl
  · split <;> rfl

theorem startTimer_disables : c.startTimer.disables = c.disables := by
  unfold startTimer
  split
  · rfl
  · split <;> rfl

theorem isDisabled_disable :
    (c.disable tokenId storeKey).isDisabled token key =
      (decide (token = tokenId ∧ key = storeKey) || c.isDisabled token key) := by
  by_cases ht : token = tokenId
  · subst ht
    by_cases hk : key = storeKey
    · subst hk
      cases h : c.disables[token]? <;> simp [isDisabled, disable, h]
    · cases h : c.disables[token]? <;> simp [isDisabled, disable, h, hk, Ne.symm hk]
  · simp [isDisabled, disable, getElem?_compute_of_ne _ _ _ ht, ht]

theorem isDisabled_enable_of_unmatched
    (h : ¬ (token = tokenId ∧ (key = storeKey ∨ storeKey.isEmpty = true))) :
    (c.enable tokenId storeKey).isDisabled token key = c.isDisabled token key := by
  by_cases ht : token = tokenId
  · subst ht
    have hkey : ¬ key = storeKey := fun hk => h ⟨rfl, .inl hk⟩
    have hne : storeKey.isEmpty = false := by
      cases hs : storeKey.isEmpty with
      | false => rfl
      | true => exact absurd ⟨rfl, .inr hs⟩ h
    cases hkeys : c.disables[token]? with
    | none => simp [isDisabled, enable, hkeys]
    | some keys =>
        have hcontains : (keys.erase storeKey).contains key = keys.contains key := by
          simp [ExtTreeSet.contains_erase, Ne.symm hkey]
        simp only [isDisabled, enable, getElem?_computeIfPresent_self, hkeys, Option.bind_some]
        cases hempty : (keys.erase storeKey).isEmpty with
        | false => simp [hne, hcontains]
        | true =>
            have : (keys.erase storeKey).contains key = false := by
              rw [ExtTreeSet.isEmpty_iff.mp hempty]
              simp
            simp [← hcontains, this]
  · simp [isDisabled, enable, getElem?_computeIfPresent_of_ne _ _ ht]

/-- Both caches hold the same delegates under every token and key. -/
def KeepsDelegates (c c' : AutoCache) : Prop :=
  ∀ (tokenId : UInt32) (storeKey : String),
    (c'.delegate? tokenId storeKey).map fixed =
      (c.delegate? tokenId storeKey).map fixed

variable (delegates : Delegates)

theorem findIn_fixed (storeKey key : String) (now : Nat) :
    ((findIn delegates storeKey now).2.1[key]?).map fixed =
      (delegates[key]?).map fixed := by
  unfold findIn
  by_cases hall : storeKey.isEmpty
  · simp only [hall, if_true, ExtTreeMap.getElem?_map, Option.map_map]
    rfl
  cases hd : delegates[storeKey]? with
  | none => simp [hall]
  | some d =>
      by_cases hkey : storeKey = key
      · subst hkey
        simp [hall, hd, toStore, fixed]
      · simp [hall, ExtTreeMap.getElem?_insert, hkey]

/-- The verdict speaks about the stores found, not about the delegates open. -/
theorem findIn_verdict (storeKey : String) (now : Nat) :
    (findIn delegates storeKey now).2.2 =
      if storeKey.isEmpty then !delegates.isEmpty else (delegates[storeKey]?).isSome := by
  unfold findIn
  by_cases hall : storeKey.isEmpty
  · simp [hall]
  · cases hd : delegates[storeKey]? <;> simp [hall]

theorem delegate?_getStoresIfPresent_of_ne {tokenId token : UInt32} (h : token ≠ tokenId)
    (path storeName key : String) (now : Nat) :
    (c.getStoresIfPresent tokenId path storeName now).2.delegate? token key =
      c.delegate? token key := by
  simp only [delegate?, nested?, getStoresIfPresent]
  rw [getElem?_computeIfPresent_of_ne _ _ h]

theorem delegate?_getStoresIfPresent_self {tokenId : UInt32} {delegates : Delegates}
    (h : c.stores[tokenId]? = some delegates) (path storeName key : String) (now : Nat) :
    ((c.getStoresIfPresent tokenId path storeName now).2.delegate? tokenId key).map
        fixed =
      if (findIn delegates (generateKey path storeName) now).2.2 then
        (c.delegate? tokenId key).map fixed
      else none := by
  have hfixed := findIn_fixed delegates (generateKey path storeName) key now
  simp only [delegate?, nested?, getStoresIfPresent, getElem?_computeIfPresent_self, h,
    Option.bind_some]
  split
  · simpa using hfixed
  · simp

theorem keepsDelegates_iff_verdict {tokenId : UInt32} {delegates : Delegates}
    (h : c.stores[tokenId]? = some delegates) (path storeName : String) (now : Nat) :
    c.KeepsDelegates (c.getStoresIfPresent tokenId path storeName now).2 ↔
      (findIn delegates (generateKey path storeName) now).2.2 = true ∨
        ∀ key, c.delegate? tokenId key = none := by
  have hself := fun key => delegate?_getStoresIfPresent_self c h path storeName key now
  constructor
  · intro hkeeps
    by_cases hv : (findIn delegates (generateKey path storeName) now).2.2
    · exact .inl hv
    refine .inr fun key => ?_
    have hsame := hkeeps tokenId key
    rw [hself key, if_neg hv] at hsame
    exact Option.map_eq_none_iff.mp hsame.symm
  · intro hcond token key
    by_cases ht : token = tokenId
    · subst ht
      rw [hself key]
      split
      · rfl
      · rename_i hv
        rw [hcond.resolve_left hv key]
        rfl
    · rw [delegate?_getStoresIfPresent_of_ne c ht]

/-- `GetStoresIfPresent` is a pure query exactly when it asks for every store of
the token, when the token has none open, or when the store asked for is open. -/
theorem getStoresIfPresent_keepsDelegates_iff (c : AutoCache) (tokenId : UInt32)
    (path storeName : String) (now : Nat) :
    c.KeepsDelegates (c.getStoresIfPresent tokenId path storeName now).2 ↔
      (generateKey path storeName).isEmpty = true ∨
        (∀ key, c.delegate? tokenId key = none) ∨
        (c.delegate? tokenId (generateKey path storeName)).isSome = true := by
  cases hstores : c.stores[tokenId]? with
  | none =>
      have hnone : ∀ key, c.delegate? tokenId key = none := by
        simp [delegate?, nested?, hstores]
      have hkeeps : c.KeepsDelegates (c.getStoresIfPresent tokenId path storeName now).2 := by
        intro token key
        by_cases ht : token = tokenId
        · subst ht
          simp [delegate?, nested?, getStoresIfPresent, hstores]
        · rw [delegate?_getStoresIfPresent_of_ne c ht]
      exact iff_of_true hkeeps (.inr (.inl hnone))
  | some delegates =>
      have hlookup : ∀ key, c.delegate? tokenId key = delegates[key]? := by
        simp [delegate?, nested?, hstores]
      rw [keepsDelegates_iff_verdict c hstores]
      simp only [hlookup]
      rw [findIn_verdict]
      by_cases hall : (generateKey path storeName).isEmpty
      · rw [if_pos hall, Bool.not_eq_true', ← isEmpty_iff_getElem? delegates]
        cases hempty : delegates.isEmpty <;> simp [hall]
      · rw [if_neg hall, or_iff_right hall]
        exact or_comm

/-- Token 1 has only the store `a` open; asking for its store `b` closes `a`. -/
theorem getStoresIfPresent_erases_open_store :
    ∃ c : AutoCache, ∃ d : Delegate, c.delegate? 1 "a" = some d ∧
      ¬ c.KeepsDelegates (c.getStoresIfPresent 1 "" "b" 0).2 := by
  let m : StoreMetaData :=
    { tokenId := 1, user := "100", dataDir := "", storeId := "a", storeType := 0, area := 2 }
  let d : Delegate := { store := 7, time := 60000, watchers := [], storeMeta := m,
                        garbageInterval := 60000 }
  let c : AutoCache := { garbageInterval := 60000, executor := none, taskId := none,
                         stores := (∅ : ExtTreeMap UInt32 Delegates).insert 1
                           ((∅ : Delegates).insert "a" d),
                         disables := ∅, creators := fun _ => true }
  have hopen : c.delegate? 1 "a" = some d := by decide +kernel
  have hgone : (c.getStoresIfPresent 1 "" "b" 0).2.delegate? 1 "a" = none := by decide +kernel
  refine ⟨c, d, hopen, fun h => ?_⟩
  have hsame := h 1 "a"
  rw [hopen, hgone] at hsame
  cases hsame

end AutoCache

end DataMgr.Store
