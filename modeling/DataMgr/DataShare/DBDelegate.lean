import DataMgr.Foundation.Machine
import DataMgr.Foundation.RequestCache
import DataMgr.Utils.Constant

/-! # Delegates of silent access

`DBDelegate` keeps an open delegate for each token, encryption flag and store name. `Init` of a
delegate that is open already returns at once, so that a later request with the same key works on
the file of the first.
-/

namespace DataMgr.DataShare

open DataMgr.Foundation DataMgr.Utils

/-- The fields of `StoreMetaData` that are read, and the account. -/
structure DelegateRequest where
  tokenId : Nat
  isEncrypt : Bool
  storeId : String
  dataDir : String
  user : String
  area : Int
  accountId : Int
deriving DecidableEq

structure Accounts where
  isDeactivating : Int → Bool
  isVerified : Int → Bool

/-- Which of the two maps, the token in it, and the name in the token's map. -/
abbrev DelegateKey := Bool × Nat × String

def delegateKey (r : DelegateRequest) : DelegateKey :=
  (r.isEncrypt, r.tokenId,
    if r.accountId > 0 then r.storeId ++ "/" ++ toString r.accountId else r.storeId)

/-- `stores_` and `storesEncrypt_`: every delegate with the request it was opened for, and the time
of its entity. -/
abbrev Delegates := RequestCache DelegateKey DelegateRequest Int

variable (stores : Delegates) (r : DelegateRequest)

def delegateInterval : Int := 20

def areaEL1 : Int := 1

/-- `DBDelegate::Create` at a time; `opens` is what `RdbHelper` answers for a new delegate. The
result is the request that the returned delegate was opened for. -/
def create (accounts : Accounts) (r : DelegateRequest) (now : Int) (opens : Bool) :
    Option DelegateRequest × Delegates :=
  if atoi r.user ≠ 0 ∧ r.area > areaEL1 ∧ (accounts.isDeactivating (atoi r.user) = true ∨
      accounts.isVerified (atoi r.user) = false) then
    (none, stores)
  else
    match stores (delegateKey r) with
    -- An entity that is kept has been initialised.
    | some (opened, _) =>
        (some opened,
          Function.update stores (delegateKey r) (some (opened, now + delegateInterval)))
    | none =>
        if opens then
          (some r, Function.update stores (delegateKey r) (some (r, now + delegateInterval)))
        else (none, Function.update stores (delegateKey r) none)

/-- `DBDelegate::Delete` knows no account. -/
def deleteDelegate : Delegates :=
  Function.update stores (r.isEncrypt, r.tokenId, r.storeId) none

def closeDelegates (filter : String → Bool) : Delegates :=
  fun key => (stores key).filter fun entry => !filter entry.1.user

def garbageCollectDelegates (encrypt : Bool) (now : Int) : Delegates :=
  fun key => (stores key).filter fun entry => !(key.1 == encrypt && decide (entry.2 < now))

inductive DelegateCall
  | create (accounts : Accounts) (r : DelegateRequest) (now : Int) (opens : Bool)
  | delete (r : DelegateRequest)
  | close (filter : String → Bool)
  | garbageCollect (encrypt : Bool) (now : Int)

def delegateMachine : Machine Delegates DelegateCall where
  step stores
    | .create accounts r now opens => some (create stores accounts r now opens).2
    | .delete r => some (deleteDelegate stores r)
    | .close filter => some (closeDelegates stores filter)
    | .garbageCollect encrypt now => some (garbageCollectDelegates stores encrypt now)

/-- What a delegate is opened on. -/
def DelegateRequest.file : String × String := (r.dataDir, r.user)

/-- A delegate that is returned was opened on the directory and for the user of the request. -/
def ReturnsOwn : DelegateCall → Prop
  | .create accounts r now opens =>
      ∀ opened, (create stores accounts r now opens).1 = some opened → opened.file = r.file
  | _ => True

def DelegateCall.Within (requests : Set DelegateRequest) : DelegateCall → Prop
  | .create _ r _ _ => r ∈ requests
  | _ => True

theorem create_spec {stores : Delegates} {requests : Set DelegateRequest}
    (h : stores.Filed delegateKey requests) (accounts : Accounts) {r : DelegateRequest}
    (hr : r ∈ requests) (now : Int) (opens : Bool) :
    (create stores accounts r now opens).2.Filed delegateKey requests ∧
      ∀ opened, (create stores accounts r now opens).1 = some opened →
        opened = r ∨ ∃ time, stores (delegateKey r) = some (opened, time) := by
  unfold create
  split
  · exact ⟨h, fun _ hnone => nomatch hnone⟩
  split
  · rename_i opened time hfound
    refine ⟨h.update ?_, ?_⟩
    · rintro r' time' ⟨⟩
      exact h _ _ _ hfound
    · rintro _ ⟨⟩
      exact .inr ⟨time, hfound⟩
  · split
    · refine ⟨h.insert hr _, ?_⟩
      rintro _ ⟨⟩
      exact .inl rfl
    · exact ⟨h.erase _, fun _ hnone => nomatch hnone⟩

theorem filed_delegateStep {requests : Set DelegateRequest} (stores : Delegates)
    (call : DelegateCall) (stores' : Delegates) (h : stores.Filed delegateKey requests)
    (hcall : call.Within requests) (hstep : delegateMachine.step stores call = some stores') :
    stores'.Filed delegateKey requests := by
  cases call with
  | create accounts r now opens =>
      cases hstep
      exact (create_spec h accounts hcall now opens).1
  | delete r =>
      cases hstep
      exact h.erase _
  | close filter =>
      cases hstep
      exact h.filter _
  | garbageCollect encrypt now =>
      cases hstep
      exact h.filter _

/-- Calls for a set of stores never share a delegate wrongly exactly if stores of the set with one
token, encryption flag and name are one file of one user. -/
theorem delegates_return_own_iff (requests : Set DelegateRequest) :
    (∀ schedule : List DelegateCall, (∀ call ∈ schedule, call.Within requests) →
        delegateMachine.Guarded ReturnsOwn (fun _ => none) schedule) ↔
      ∀ r ∈ requests, ∀ r' ∈ requests, delegateKey r = delegateKey r' → r.file = r'.file := by
  constructor
  · intro h r hr r' hr' hkey
    have hrun := h [.create ⟨fun _ => false, fun _ => true⟩ r 0 true,
      .create ⟨fun _ => false, fun _ => true⟩ r' 0 true] (by simp [DelegateCall.Within, hr, hr'])
    exact (hrun.2 _ rfl).1 r (by simp [create, hkey])
  · intro hkeys schedule hwithin
    refine (delegateMachine.guarded_of_mem hwithin _).mono_of_invariant filed_delegateStep ?_
      RequestCache.filed_empty
    intro stores call h hcall
    cases call with
    | create accounts r now opens =>
        intro opened hopened
        rcases (create_spec h accounts hcall now opens).2 opened hopened with rfl | ⟨time, hfound⟩
        · rfl
        · exact h.agree hkeys hcall hfound
    | delete | close | garbageCollect => trivial

/-- A store of one module of an application, and the one of the same name of another. -/
def entryStore : DelegateRequest := ⟨1, false, "store", "/entry/store.db", "100", 1, -1⟩

def featureStore : DelegateRequest := { entryStore with dataDir := "/feature/store.db" }

/-- The second module works on the file of the first. -/
theorem delegates_shared_by_modules :
    (create (create (fun _ => none) ⟨fun _ => false, fun _ => true⟩ entryStore 0 true).2
      ⟨fun _ => false, fun _ => true⟩ featureStore 1 true).1 = some entryStore := by
  decide +kernel

end DataMgr.DataShare
