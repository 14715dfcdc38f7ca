import DataMgr.Foundation.Machine
import DataMgr.Foundation.RequestCache
import DataMgr.Utils.Constant

/-! # Cached bundle configurations

`BundleMgrProxy` keeps what the bundle manager has answered under the bundle name with the user
number behind it. A name may end in digits, so two applications can have one key.
-/

namespace DataMgr.DataShare

open DataMgr.Foundation DataMgr.Utils

structure BundleRequest where
  bundleName : String
  userId : Int
  appIndex : Int
deriving DecidableEq

def callerKey (r : String × Int) : String := r.1 ++ toString r.2

def bundleKey (r : BundleRequest) : String :=
  if r.appIndex ≠ 0 then callerKey (r.bundleName, r.userId) ++ ("appIndex" ++ toString r.appIndex)
  else callerKey (r.bundleName, r.userId)

/-- `bundleCache_` and `callerInfoCache_`; `γ` is `BundleConfig`. -/
structure BundleCaches (γ : Type) where
  bundleCache : RequestCache String BundleRequest γ
  callerInfoCache : RequestCache String (String × Int) String

variable {γ : Type}

/-- A cached answer, or the one the bundle manager gives now. An error is not kept. -/
def cachedOr {ρ ν : Type} (cache : RequestCache String ρ ν) (key : ρ → String) (r : ρ)
    (answer : Except Int ν) : Except Int ν × RequestCache String ρ ν :=
  match cache (key r) with
  | some entry => (.ok entry.2, cache)
  | none =>
      match answer with
      | .error code => (.error code, cache)
      | .ok value => (.ok value, Function.update cache (key r) (some (r, value)))

variable (bundles : Set BundleRequest) (callers : Set (String × Int)) (s : BundleCaches γ)

namespace BundleCaches

def getBundleInfoFromBMS (r : BundleRequest) (answer : Except Int γ) :
    Except Int γ × BundleCaches γ :=
  let (result, bundleCache) := cachedOr s.bundleCache bundleKey r answer
  (result, { s with bundleCache })

def getCallerAppIdentifier (r : String × Int) (answer : Except Int String) :
    Except Int String × BundleCaches γ :=
  let (result, callerInfoCache) := cachedOr s.callerInfoCache callerKey r answer
  (result, { s with callerInfoCache })

def delete (r : BundleRequest) : BundleCaches γ where
  bundleCache := Function.update s.bundleCache (bundleKey r) none
  callerInfoCache := Function.update s.callerInfoCache (callerKey (r.bundleName, r.userId)) none

def empty : BundleCaches γ := ⟨fun _ => none, fun _ => none⟩

end BundleCaches

inductive BundleCall (γ : Type)
  | getBundleInfoFromBMS (r : BundleRequest) (answer : Except Int γ)
  | getCallerAppIdentifier (r : String × Int) (answer : Except Int String)
  | delete (r : BundleRequest)

def bundleMachine (γ : Type) : Machine (BundleCaches γ) (BundleCall γ) where
  step s
    | .getBundleInfoFromBMS r answer => some (s.getBundleInfoFromBMS r answer).2
    | .getCallerAppIdentifier r answer => some (s.getCallerAppIdentifier r answer).2
    | .delete r => some (s.delete r)

/-- What the call finds in a cache was obtained for the very same request. -/
def AnswersOwn : BundleCall γ → Prop
  | .getBundleInfoFromBMS r _ =>
      ∀ r' config, s.bundleCache (bundleKey r) = some (r', config) → r' = r
  | .getCallerAppIdentifier r _ =>
      ∀ r' identifier, s.callerInfoCache (callerKey r) = some (r', identifier) → r' = r
  | .delete _ => True

/-- The call asks for one of the given applications. -/
def BundleCall.Within :
    BundleCall γ → Prop
  | .getBundleInfoFromBMS r _ => r ∈ bundles
  | .getCallerAppIdentifier r _ => r ∈ callers
  | .delete _ => True

/-- A number and what follows it are told apart by the letter between them. -/
theorem number_append_inj {m n : Int} {rest rest' : List Char}
    (hrest : ∀ c ∈ rest.head?, c = 'a') (hrest' : ∀ c ∈ rest'.head?, c = 'a')
    (h : (toString m).toList ++ rest = (toString n).toList ++ rest') : m = n ∧ rest = rest' := by
  have htake : ∀ (k : Int) (tail : List Char), (∀ c ∈ tail.head?, c = 'a') →
      ((toString k).toList ++ tail).takeWhile (· ≠ 'a') = (toString k).toList := by
    intro k tail htail
    have hdigits : ∀ c ∈ (toString k).toList, decide (c ≠ 'a') = true := by
      intro c hc
      rw [decide_eq_true_eq]
      rintro rfl
      exact not_mem_number (by decide) (by decide) k hc
    rw [List.takeWhile_append_of_pos hdigits]
    cases tail with
    | nil => simp
    | cons c tail => simp [htail c rfl]
  have hnumber := htake m rest hrest
  rw [h, htake n rest' hrest'] at hnumber
  rw [hnumber] at h
  exact ⟨toString_int_injective (String.toList_inj.mp hnumber.symm), List.append_cancel_left h⟩

theorem bundleKey_inj {r r' : BundleRequest} (hname : r.bundleName = r'.bundleName)
    (h : bundleKey r = bundleKey r') : r = r' := by
  obtain ⟨word, hword⟩ : ∃ word, "appIndex".toList = 'a' :: word := ⟨_, rfl⟩
  have hlist : ∀ r : BundleRequest, ∃ rest, (bundleKey r).toList =
      r.bundleName.toList ++ ((toString r.userId).toList ++ rest) ∧ (∀ c ∈ rest.head?, c = 'a') ∧
      rest = if r.appIndex ≠ 0 then 'a' :: (word ++ (toString r.appIndex).toList) else [] := by
    intro r
    unfold bundleKey callerKey
    by_cases hindex : r.appIndex ≠ 0
    · refine ⟨'a' :: (word ++ (toString r.appIndex).toList), ?_, by simp, by rw [if_pos hindex]⟩
      rw [if_pos hindex]
      simp only [String.toList_append, hword, List.append_assoc, List.cons_append]
    · refine ⟨[], ?_, by simp, by rw [if_neg hindex]⟩
      rw [if_neg hindex, String.toList_append, List.append_nil]
  obtain ⟨rest, hkey, hhead, hrest⟩ := hlist r
  obtain ⟨rest', hkey', hhead', hrest'⟩ := hlist r'
  rw [← String.toList_inj, hkey, hkey', hname] at h
  obtain ⟨huser, hsame⟩ := number_append_inj hhead hhead' (List.append_cancel_left h)
  have hindex : r.appIndex = r'.appIndex := by
    rw [hrest, hrest'] at hsame
    split at hsame <;> split at hsame
    · rw [List.cons.injEq, List.append_cancel_left_eq, String.toList_inj] at hsame
      exact toString_int_injective hsame.2
    · cases hsame
    · cases hsame
    · rename_i hzero hzero'
      rw [not_not.mp hzero, not_not.mp hzero']
  cases r
  simp_all

theorem filed_cachedOr {ρ ν : Type} {cache : RequestCache String ρ ν} {key : ρ → String} {R : Set ρ}
    (h : RequestCache.Filed key R cache) {r : ρ} (hr : r ∈ R) (answer : Except Int ν) :
    RequestCache.Filed key R (cachedOr cache key r answer).2 := by
  unfold cachedOr
  split
  · exact h
  · split
    · exact h
    · exact h.insert hr _

/-- Both caches hold answers for the given applications. -/
def BundleCaches.Filed : Prop :=
  s.bundleCache.Filed bundleKey bundles ∧ s.callerInfoCache.Filed callerKey callers

theorem filed_step {bundles : Set BundleRequest} {callers : Set (String × Int)}
    (s : BundleCaches γ) (call : BundleCall γ) (s' : BundleCaches γ) (h : s.Filed bundles callers)
    (hcall : call.Within bundles callers) (hstep : (bundleMachine γ).step s call = some s') :
    s'.Filed bundles callers := by
  obtain ⟨hb, hc⟩ := h
  cases call with
  | getBundleInfoFromBMS r answer =>
      cases hstep
      exact ⟨filed_cachedOr hb hcall answer, hc⟩
  | getCallerAppIdentifier r answer =>
      cases hstep
      exact ⟨hb, filed_cachedOr hc hcall answer⟩
  | delete r =>
      cases hstep
      exact ⟨hb.erase _, hc.erase _⟩

open BundleCaches

/-- Calls for a set of applications are all answered with their own data exactly if the keys of
these are distinct; keys of one bundle name always are. -/
theorem bundle_cache_answers_own_iff [Inhabited γ] (bundles : Set BundleRequest)
    (callers : Set (String × Int)) :
    ((∀ schedule : List (BundleCall γ), (∀ call ∈ schedule, call.Within bundles callers) →
        (bundleMachine γ).Guarded AnswersOwn .empty schedule) ↔
      bundles.InjOn bundleKey ∧ callers.InjOn callerKey) ∧
    ∀ r r' : BundleRequest, r.bundleName = r'.bundleName → bundleKey r = bundleKey r' → r = r' := by
  refine ⟨⟨fun h => ⟨?_, ?_⟩, ?_⟩, fun _ _ => bundleKey_inj⟩
  · intro r hr r' hr' hkey
    have hrun := h [.getBundleInfoFromBMS r (.ok default), .getBundleInfoFromBMS r' (.ok default)]
      (by simp [BundleCall.Within, hr, hr'])
    exact (hrun.2 _ rfl).1 r default (by
      simp [getBundleInfoFromBMS, cachedOr, empty, hkey])
  · intro r hr r' hr' hkey
    have hrun := h [.getCallerAppIdentifier r (.ok ""), .getCallerAppIdentifier r' (.ok "")]
      (by simp [BundleCall.Within, hr, hr'])
    exact (hrun.2 _ rfl).1 r "" (by
      simp [getCallerAppIdentifier, cachedOr, empty, hkey])
  · rintro ⟨hbundles, hcallers⟩ schedule hwithin
    refine ((bundleMachine γ).guarded_of_mem hwithin _).mono_of_invariant filed_step ?_
      ⟨RequestCache.filed_empty, RequestCache.filed_empty⟩
    rintro s call ⟨hb, hc⟩ hcall
    cases call with
    | getBundleInfoFromBMS r answer => exact fun r' config hfound => hb.agree hbundles hcall hfound
    | getCallerAppIdentifier r answer => exact fun r' text hfound => hc.agree hcallers hcall hfound
    | delete r => trivial

/-- Bundle `a` of user 10 is given the configuration of bundle `a1` of user 0. -/
theorem bundle_cache_confuses :
    ((empty.getBundleInfoFromBMS ⟨"a1", 0, 0⟩ (.ok "a1")).2.getBundleInfoFromBMS
      ⟨"a", 10, 0⟩ (.ok "a")).1.toOption = some "a1" := by
  decide +kernel

end DataMgr.DataShare
