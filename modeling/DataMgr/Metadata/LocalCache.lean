import DataMgr.Foundation.ReadThrough

/-! # Cached local metadata

`LoadMeta`, both `SaveMeta`s and both `DelMeta`s of an initialised
`MetaDataManager` on local data, with a store that succeeds. Each access to the
store and each access to `localdata_` is one step. Values are the marshalled
texts that the store and the cache hold.
-/

namespace DataMgr.Metadata

open DataMgr.Foundation DataMgr.Foundation.ReadThrough

abbrev MetaWrite := Write String String

abbrev MetaCall := Call String String

def putLocal (key value : String) : MetaWrite :=
  fun k => if k = key then some (some value) else none

def putLocalBatch (entries : List (String × String)) : MetaWrite :=
  fun k => (entries.reverse.find? fun entry => entry.1 = k).map fun entry => some entry.2

def deleteLocal (key : String) : MetaWrite := fun k => if k = key then some none else none

def deleteLocalBatch (keys : List String) : MetaWrite :=
  fun k => if k ∈ keys then some none else none

inductive MetaRequest where
  | loadMeta (key : String)
  | saveMeta (key value : String)
  | saveMetaBatch (entries : List (String × String))
  | delMeta (key : String)
  | delMetaBatch (keys : List String)

def MetaRequest.call : MetaRequest → MetaCall
  | .loadMeta key => .lookup key
  -- the only writer that invalidates after its write
  | .saveMeta key value => .mutate [.write (putLocal key value), .drop key]
  | .saveMetaBatch entries =>
      .mutate <| if entries.isEmpty then [] else
        (entries.map fun entry => .drop entry.1) ++ [.write (putLocalBatch entries)]
  | .delMeta key => .mutate [.drop key, .write (deleteLocal key)]
  | .delMetaBatch keys =>
      .mutate <| if keys.isEmpty then [] else
        keys.map .drop ++ [.write (deleteLocalBatch keys)]

theorem key_of_putLocal {key value k : String} (h : putLocal key value k ≠ none) : k = key := by
  by_contra hne
  simp [putLocal, hne] at h

theorem key_of_deleteLocal {key k : String} (h : deleteLocal key k ≠ none) : k = key := by
  by_contra hne
  simp [deleteLocal, hne] at h

theorem mem_of_putLocalBatch {entries : List (String × String)} {k : String}
    (h : putLocalBatch entries k ≠ none) : ∃ entry ∈ entries, entry.1 = k := by
  have hfound : entries.reverse.find? (fun entry => entry.1 = k) ≠ none := by
    simpa only [putLocalBatch, ne_eq, Option.map_eq_none_iff] using h
  obtain ⟨entry, hfind⟩ := Option.ne_none_iff_exists'.mp hfound
  have hkey : entry.1 = k := by simpa using List.find?_some hfind
  exact ⟨entry, List.mem_reverse.mp (List.mem_of_find?_eq_some hfind), hkey⟩

theorem mem_of_deleteLocalBatch {keys : List String} {k : String}
    (h : deleteLocalBatch keys k ≠ none) : k ∈ keys := by
  by_contra hne
  simp [deleteLocalBatch, hne] at h

theorem MetaRequest.drops_what_it_writes (request : MetaRequest) (k : String)
    (h : request.call.WillWrite k) : request.call.WillDrop k := by
  cases request with
  | loadMeta key => exact h.elim
  | saveMeta key value =>
      apply willDrop_of_willWrite _ _ h
      · exact putLocal key value
      · intro w hw
        simpa using hw
      · intro l hl
        simp [key_of_putLocal hl]
  | saveMetaBatch entries =>
      apply willDrop_of_willWrite _ _ h
      · exact putLocalBatch entries
      · intro w hw
        split at hw
        · cases hw
        · simpa using hw
      · intro l hl
        obtain ⟨entry, hmem, rfl⟩ := mem_of_putLocalBatch hl
        rw [if_neg (by simp [List.ne_nil_of_mem hmem])]
        exact List.mem_append_left _ (List.mem_map.mpr ⟨entry, hmem, rfl⟩)
  | delMeta key =>
      apply willDrop_of_willWrite _ _ h
      · exact deleteLocal key
      · intro w hw
        simpa using hw
      · intro l hl
        simp [key_of_deleteLocal hl]
  | delMetaBatch keys =>
      apply willDrop_of_willWrite _ _ h
      · exact deleteLocalBatch keys
      · intro w hw
        split at hw
        · cases hw
        · simpa using hw
      · intro l hl
        have hmem := mem_of_deleteLocalBatch hl
        rw [if_neg (by simp [List.ne_nil_of_mem hmem])]
        exact List.mem_append_left _ (List.mem_map.mpr ⟨l, hmem, rfl⟩)

/-- `LRUBucket` of a given capacity as a list, most recent first. -/
def lruOps (capacity : Nat) : CacheOps (List (String × String)) String String where
  get bucket k :=
    match bucket.find? fun entry => entry.1 = k with
    | none => (none, bucket)
    | some entry => (some entry.2, entry :: bucket.filter fun entry => entry.1 ≠ k)
  set bucket k v := ((k, v) :: bucket.filter fun entry => entry.1 ≠ k).take capacity
  delete bucket k := bucket.filter fun entry => entry.1 ≠ k
  content bucket k := (bucket.find? fun entry => entry.1 = k).map (·.2)

theorem find?_filter_key (bucket : List (String × String)) (k l : String) :
    (bucket.filter fun entry => entry.1 ≠ k).find? (fun entry => entry.1 = l) =
      if l = k then none else bucket.find? fun entry => entry.1 = l := by
  induction bucket with
  | nil => simp
  | cons entry bucket ih =>
      by_cases hk : entry.1 = k
      · by_cases hl : l = k
        · simp [hl]
        · simpa [List.filter_cons, hk, hl, List.find?_cons, Ne.symm hl] using ih
      by_cases hl : entry.1 = l
      · subst hl
        simp [hk]
      · simpa [List.filter_cons, hk, hl, List.find?_cons] using ih

theorem lruOps_lawful (capacity : Nat) : (lruOps capacity).Lawful where
  get_result bucket k := by
    unfold lruOps
    dsimp only
    cases bucket.find? fun entry => entry.1 = k <;> rfl
  get_content {bucket k l v} h := by
    unfold lruOps at h ⊢
    dsimp only at h ⊢
    cases hfind : bucket.find? fun entry => entry.1 = k with
    | none => simpa [hfind] using h
    | some entry =>
        have hkey : entry.1 = k := by simpa using List.find?_some hfind
        rw [hfind] at h
        by_cases hl : l = k
        · subst hl
          simpa [hkey, hfind] using h
        · simpa only [List.find?_cons, hkey, Ne.symm hl, decide_false, find?_filter_key,
            if_neg hl] using h
  set_content {bucket k v l v'} h := by
    obtain ⟨entry, hfind, hvalue⟩ := Option.map_eq_some_iff.mp h
    have hwhole := (List.take_prefix _ _).find?_eq_some hfind
    by_cases hl : l = k
    · subst hl
      simp only [List.find?_cons, decide_true, Option.some.injEq] at hwhole
      subst hwhole
      exact .inl ⟨rfl, hvalue.symm⟩
    · simp only [List.find?_cons, Ne.symm hl, decide_false, find?_filter_key, if_neg hl] at hwhole
      exact .inr ⟨hl, by simp [lruOps, hwhole, hvalue]⟩
  delete_content {bucket k l v} h := by
    simp only [lruOps, find?_filter_key] at h
    by_cases hl : l = k
    · simp [hl] at h
    · exact ⟨hl, by simpa [lruOps, hl] using h⟩

variable {γ : Type}

abbrev MetaState (γ : Type) := State γ String String

def metaMachine (ops : CacheOps γ String String) : Machine (MetaState γ) (Action MetaRequest) :=
  machine ops MetaRequest.call

/-- `LoadMeta` run with no other call in between: the text it finds, if any. -/
def loadMeta (ops : CacheOps γ String String) (s : MetaState γ) (key : String) :
    Option String × γ :=
  match ops.get s.cache key with
  | (some data, cache) => (some data, cache)
  | (none, cache) =>
      match s.store key with
      | none => (none, cache)
      | some data => (some data, ops.set cache key data)

theorem loadMeta_eq_store {ops : CacheOps γ String String} (hops : ops.Lawful) {s : MetaState γ}
    (h : ∀ {key data}, ops.content s.cache key = some data → s.store key = some data)
    (key : String) : (loadMeta ops s key).1 = s.store key := by
  have hget := hops.get_result s.cache key
  unfold loadMeta
  split
  · rename_i data cache heq
    rw [heq] at hget
    exact (h hget.symm).symm
  split
  · rename_i hnone
    exact hnone.symm
  · rename_i data hsome
    exact hsome.symm

/-- In every interleaving whose fills carry harmless pairs, once no call is in
progress the cache holds what the store holds, and a load returns it. -/
theorem localdata_coherent (ops : CacheOps γ String String) (hops : ops.Lawful)
    (store : String → Option String) (cache : γ) (hempty : ∀ key, ops.content cache key = none)
    (schedule : List (Action MetaRequest)) (s : MetaState γ)
    (hguard : (metaMachine ops).Guarded State.FillGuard ⟨store, cache, []⟩ schedule)
    (hrun : (metaMachine ops).exec ⟨store, cache, []⟩ schedule = some s)
    (hidle : s.calls = []) :
    (∀ key data, ops.content s.cache key = some data → s.store key = some data) ∧
      ∀ key, (loadMeta ops s key).1 = s.store key := by
  have hinit : State.Coherent ops (⟨store, cache, []⟩ : MetaState γ) := by
    intro key data hcached
    have hnone : ops.content cache key = none := hempty key
    rw [hnone] at hcached
    cases hcached
  have hcoherent := State.exec_coherent hops MetaRequest.drops_what_it_writes hinit hguard hrun
  constructor
  · intro key data hcached
    exact hcoherent.idle hidle hcached
  · intro key
    exact loadMeta_eq_store hops (hcoherent.idle hidle) key

def oneRecord : String → Option String := fun key => if key = "k" then some "v" else none

/-- Witness: a record is loaded into the cache while another is saved. -/
theorem localdata_coherent_after_load :
    ∃ s : MetaState (List (String × String)),
      (metaMachine (lruOps 64)).exec ⟨oneRecord, [], []⟩
        [.start (.loadMeta "k"), .step 0, .start (.saveMeta "l" "w"), .step 0, .step 1, .step 0,
          .step 0, .step 0] = some s ∧
      (lruOps 64).content s.cache "k" = some "v" ∧ (loadMeta (lruOps 64) s "l").1 = some "w" := by
  have hguard : (metaMachine (lruOps 64)).Guarded State.FillGuard ⟨oneRecord, [], []⟩
      [.start (.loadMeta "k"), .step 0, .start (.saveMeta "l" "w"), .step 0, .step 1, .step 0,
        .step 0, .step 0] := by
    apply (metaMachine (lruOps 64)).guarded_cons trivial rfl
    apply (metaMachine (lruOps 64)).guarded_cons (by intro k v h; cases h) rfl
    apply (metaMachine (lruOps 64)).guarded_cons trivial rfl
    apply (metaMachine (lruOps 64)).guarded_cons (by intro k v h; cases h) rfl
    apply (metaMachine (lruOps 64)).guarded_cons (by intro k v h; cases h) rfl
    refine (metaMachine (lruOps 64)).guarded_cons ?_ rfl ?_
    · intro k v h
      cases h
      refine .inr ⟨rfl, fun call hcall hw => ?_⟩
      have hcalls : call ∈ [Call.fill "k" "v", Call.mutate [Op.drop "l"]] := hcall
      simp only [List.mem_cons, List.not_mem_nil, or_false] at hcalls
      rcases hcalls with rfl | rfl
      · exact hw
      · simp [Call.WillWrite] at hw
    apply (metaMachine (lruOps 64)).guarded_cons (by intro k v h; cases h) rfl
    exact (metaMachine (lruOps 64)).guarded_cons (by intro k v h; cases h) rfl trivial
  obtain ⟨hcache, hload⟩ := localdata_coherent (lruOps 64) (lruOps_lawful 64) oneRecord []
    (fun _ => rfl) _ _ hguard rfl rfl
  exact ⟨_, rfl, by decide +kernel, (hload "l").trans (by decide +kernel)⟩

/-- A load fetches the record, the record is deleted, and only then does the load
fill the cache: with every call returned, deleted metadata is cached. -/
theorem localdata_stale_after_delete :
    ∃ s : MetaState (List (String × String)),
      (metaMachine (lruOps 64)).exec ⟨oneRecord, [], []⟩
        [.start (.loadMeta "k"), .step 0, .step 0, .start (.delMeta "k"), .step 1, .step 1,
          .step 1, .step 0] = some s ∧
      s.calls = [] ∧ (lruOps 64).content s.cache "k" = some "v" ∧ s.store "k" = none ∧
      (loadMeta (lruOps 64) s "k").1 = some "v" :=
  ⟨_, rfl, rfl, by decide +kernel, by decide +kernel, by decide +kernel⟩

end DataMgr.Metadata
