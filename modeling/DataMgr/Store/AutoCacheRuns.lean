import DataMgr.Foundation.Machine
import DataMgr.Store.AutoCache

/-! # Interleaved calls on the store cache

A call stands at the next action it will run. Clients start calls, the pool
fires timers, and one step runs one action of one call, so a schedule is an
arbitrary interleaving of `GetDBStore`, both `CloseStore`s, `Disable`, `Enable`,
`GarbageCollect` and the garbage-collection timer.
-/

namespace DataMgr.Store

open Std DataMgr.Foundation

/-- Where a call stands. The first four are the stages of `GetDBStore`; a
`closing` flag marks the close that belongs to a `Disable`, and a `timer` flag
the collection that a fired timer runs. -/
inductive Call where
  | check (m : StoreMetaData) (watchers : List Watcher)
  | status (m : StoreMetaData) (watchers : List Watcher)
  | insert (m : StoreMetaData) (watchers : List Watcher)
  | startTimer
  | closeRead (tokenId : UInt32) (storeKey : String) (disabling : Bool)
  | closeSweep (tokenId : UInt32) (storeKey : String) (locked disabling : Bool)
  | closeFilter (filter : StoreMetaData → Bool)
  | disable (tokenId : UInt32) (storeKey : String)
  | enable (tokenId : UInt32) (storeKey : String)
  | collectRead (isForce timer : Bool)
  | collectSweep (isForce timer : Bool) (current : Nat) (locked : Bool)
  | resetTimer

inductive Request where
  | getDBStore (m : StoreMetaData) (watchers : List Watcher)
  | closeStore (tokenId : UInt32) (path storeId : String)
  | closeStoreIf (filter : StoreMetaData → Bool)
  | disable (tokenId : UInt32) (path storeId : String)
  | enable (tokenId : UInt32) (path storeId : String)
  | garbageCollect (isForce : Bool)

def Request.call : Request → Call
  | .getDBStore m watchers => .check m watchers
  | .closeStore tokenId path storeId => .closeRead tokenId (generateKey path storeId) false
  | .closeStoreIf filter => .closeFilter filter
  | .disable tokenId path storeId => .disable tokenId (generateKey path storeId)
  | .enable tokenId path storeId => .enable tokenId (generateKey path storeId)
  | .garbageCollect isForce => .collectRead isForce false

/-- What the outside world answers to one action. -/
structure Env where
  now : Nat
  locked : Bool
  isDeactivating : Int → Bool
  isVerified : Int → Bool
  created : GeneralError × Option StoreHandle
  closeStatus : StoreHandle → GeneralError

/-- An unlocked screen, verified accounts, creators that open `store`, and stores
that close when asked. -/
def Env.ready (now : Nat) (store : StoreHandle) : Env where
  now := now
  locked := false
  isDeactivating := fun _ => false
  isVerified := fun _ => true
  created := (.eOk, some store)
  closeStatus := fun _ => .eOk

/-- Run the next action of a call; `none` says that the call returns. -/
def Call.run (c : AutoCache) (env : Env) : Call → AutoCache × Option Call
  | .check m watchers => (c, if c.refuses m then none else some (.status m watchers))
  | .status m watchers =>
      let ret := AutoCache.checkStatusBeforeOpen m env.locked env.isDeactivating env.isVerified
      (c, if ret = .eOk then some (.insert m watchers) else none)
  | .insert m watchers =>
      let opened := c.openStore m watchers env.created env.now
      (opened.1, if opened.2.2 then some .startTimer else none)
  | .startTimer => (c.startTimer, none)
  | .closeRead tokenId storeKey disabling =>
      (c, some (.closeSweep tokenId storeKey env.locked disabling))
  | .closeSweep tokenId storeKey locked _ => (c.closeStore tokenId storeKey locked, none)
  | .closeFilter filter => (c.closeStoreIf filter, none)
  | .disable tokenId storeKey =>
      (c.disable tokenId storeKey, some (.closeRead tokenId storeKey true))
  | .enable tokenId storeKey => (c.enable tokenId storeKey, none)
  | .collectRead isForce timer => (c, some (.collectSweep isForce timer env.now env.locked))
  | .collectSweep isForce timer current locked =>
      (c.garbageCollect isForce current locked env.closeStatus,
        if timer then some .resetTimer else none)
  | .resetTimer => (c.resetTimer, some .startTimer)

/-- An `Enable` of `enabled` under the same token matches a key if it names it,
or names no key at all. -/
def Matches (enabled key : String) : Prop := key = enabled ∨ enabled.isEmpty = true

instance (enabled key : String) : Decidable (Matches enabled key) :=
  inferInstanceAs (Decidable (_ ∨ _))

/-- `shut` is a history: the token and key of every `Disable` that has returned
since the last start of a matching `Enable`. -/
structure CacheState where
  cache : AutoCache
  calls : List Call
  shut : List (UInt32 × String)

def shutAfterStart (shut : List (UInt32 × String)) : Request → List (UInt32 × String)
  | .enable tokenId path storeId =>
      shut.filter fun entry =>
        ¬ (entry.1 = tokenId ∧ Matches (generateKey path storeId) entry.2)
  | _ => shut

def shutAfterStep (shut : List (UInt32 × String)) : Call → List (UInt32 × String)
  | .closeSweep tokenId storeKey _ true => (tokenId, storeKey) :: shut
  | _ => shut

inductive CacheAction where
  | start (request : Request)
  | fire (task : TaskId)
  | step (i : Nat) (env : Env)

def cacheMachine : Machine CacheState CacheAction where
  step s
    | .start request =>
        some { s with calls := s.calls ++ [request.call], shut := shutAfterStart s.shut request }
    | .fire task =>
        match s.cache.executor with
        | none => none
        | some pool =>
            if task ∈ pool.scheduled then
              some { s with
                cache := { s.cache with executor := some (pool.remove task) }
                calls := s.calls ++ [.collectRead false true] }
            else none
    | .step i env =>
        match s.calls[i]? with
        | none => none
        | some call =>
            some { cache := (call.run s.cache env).1
                   calls := advance s.calls i (call.run s.cache env).2
                   shut := shutAfterStep s.shut call }

/-- An empty cache with a bound pool and no call in progress. -/
def CacheState.start (garbageInterval firstTask : Nat) (creators : Int → Bool) : CacheState where
  cache :=
    { garbageInterval := garbageInterval, executor := some ⟨firstTask, []⟩, taskId := none,
      stores := ∅, disables := ∅, creators := creators }
  calls := []
  shut := []

theorem cacheMachine_step_cases {s s' : CacheState} {a : CacheAction}
    (h : cacheMachine.step s a = some s') :
    (∃ request, a = .start request ∧
      s' = { s with calls := s.calls ++ [request.call], shut := shutAfterStart s.shut request }) ∨
    (∃ task pool, a = .fire task ∧ s.cache.executor = some pool ∧ task ∈ pool.scheduled ∧
      s' = { s with
        cache := { s.cache with executor := some (pool.remove task) }
        calls := s.calls ++ [.collectRead false true] }) ∨
    (∃ i env call, a = .step i env ∧ s.calls[i]? = some call ∧
      s' = { cache := (call.run s.cache env).1
             calls := advance s.calls i (call.run s.cache env).2
             shut := shutAfterStep s.shut call }) := by
  cases a with
  | start request => exact .inl ⟨request, rfl, (Option.some.inj h).symm⟩
  | fire task =>
      simp only [cacheMachine] at h
      split at h
      · cases h
      rename_i pool hpool
      split at h
      · rename_i htask
        exact .inr (.inl ⟨task, pool, rfl, hpool, htask, (Option.some.inj h).symm⟩)
      · cases h
  | step i env =>
      simp only [cacheMachine] at h
      split at h
      · cases h
      · rename_i call hcall
        exact .inr (.inr ⟨i, env, call, rfl, hcall, (Option.some.inj h).symm⟩)

end DataMgr.Store
