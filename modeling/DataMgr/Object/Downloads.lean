import DataMgr.Object.AssetLoader

/-! # The downloads that are remembered

`downloaded_` is kept in step with a queue of uris by hand: an asset that is downloaded again
keeps the hash of its first download and takes a second place in the queue, and its first
place, when it is left, takes the entry with it.
-/

namespace DataMgr.Object

open DataMgr.Foundation

namespace Loader

def downloadMachine : Machine Loader LoadAsset :=
  ⟨fun s asset => some (s.updateDownloaded asset).evictDownloaded⟩

/-- The keys of `downloaded_` are the uris in the queue, and these are not too many. -/
structure QueueInv (s : Loader) : Prop where
  keys : ∀ uri, s.downloaded uri ≠ none ↔ uri ∈ s.assetQueue
  size : s.assetQueue.length ≤ lastDownloadAssetSize

/-- What is promised right after `UpdateDownloaded(asset)`. -/
def Remembered (s : Loader) (asset : LoadAsset) : Prop :=
  s.isDownloaded asset = true ∧ s.QueueInv

/-- If the uri is known, then with the same hash; and the front of a full queue is in it once
and is not the new asset. -/
def Consistent (s : Loader) (asset : LoadAsset) : Prop :=
  (∀ hash, s.downloaded asset.uri = some hash → hash = asset.hash) ∧
    ∀ oldAsset later, s.assetQueue = oldAsset :: later →
      s.assetQueue.length = lastDownloadAssetSize → oldAsset ∉ later ++ [asset.uri]

variable {s : Loader} (asset : LoadAsset)

/-- What is left when the queue was full: the front and its entry are gone. -/
def withoutFront (s : Loader) (oldAsset : String) (later : List String) : Loader :=
  { s with downloaded := Function.update s.downloaded oldAsset none, assetQueue := later }

theorem evict_of_full {oldAsset : String} {later : List String}
    (hqueue : s.assetQueue = oldAsset :: later) (hfull : later.length + 1 = lastDownloadAssetSize) :
    (s.updateDownloaded asset).evictDownloaded =
      (s.updateDownloaded asset).withoutFront oldAsset (later ++ [asset.uri]) := by
  simp [evictDownloaded, updateDownloaded, withoutFront, hqueue, hfull]

theorem evict_of_room (hroom : s.assetQueue.length < lastDownloadAssetSize) :
    (s.updateDownloaded asset).evictDownloaded = s.updateDownloaded asset := by
  unfold evictDownloaded
  split
  · rfl
  · exact if_neg (by simpa [updateDownloaded] using hroom)

theorem isDownloaded_updateDownloaded_iff :
    (s.updateDownloaded asset).isDownloaded asset = true ↔
      ∀ hash, s.downloaded asset.uri = some hash → hash = asset.hash := by
  cases hold : s.downloaded asset.uri <;>
    simp [isDownloaded, updateDownloaded, computeIfAbsent, hold]

theorem keys_updateDownloaded (h : s.QueueInv) (uri : String) :
    (s.updateDownloaded asset).downloaded uri ≠ none ↔ uri ∈ s.assetQueue ++ [asset.uri] := by
  by_cases huri : uri = asset.uri <;> simp [updateDownloaded, computeIfAbsent, huri, ← h.keys]

theorem queueInv_withoutFront_iff {oldAsset : String} {later : List String}
    (hkeys : ∀ uri, s.downloaded uri ≠ none ↔ uri ∈ oldAsset :: later)
    (hsize : later.length ≤ lastDownloadAssetSize) :
    (s.withoutFront oldAsset later).QueueInv ↔ oldAsset ∉ later := by
  constructor
  · intro h hin
    exact (h.keys oldAsset).mpr hin (Function.update_self ..)
  · intro hout
    refine ⟨fun uri => ?_, hsize⟩
    have hkey := hkeys uri
    unfold withoutFront
    by_cases huri : uri = oldAsset
    · simpa [huri] using hout
    · rwa [List.mem_cons, or_iff_right huri, ← Function.update_of_ne huri none s.downloaded] at hkey

/-- While the queue is not full, only an old hash is in the way. -/
theorem remembered_step_iff (h : s.QueueInv) :
    (s.updateDownloaded asset).evictDownloaded.Remembered asset ↔ s.Consistent asset := by
  have hkeys := keys_updateDownloaded asset h
  rw [Consistent, ← isDownloaded_updateDownloaded_iff]
  rcases Nat.lt_or_eq_of_le h.size with hroom | hfull
  · rw [evict_of_room asset hroom, Remembered]
    refine and_congr_right fun _ => iff_of_true ⟨hkeys, ?_⟩ fun _ _ _ hfull => absurd hfull hroom.ne
    simpa [updateDownloaded] using hroom
  obtain ⟨oldAsset, later, hqueue⟩ := List.exists_cons_of_length_eq_add_one hfull
  rw [hqueue] at hfull
  simp only [hqueue, List.cons_append] at hkeys
  have hfront : (∀ front rest, s.assetQueue = front :: rest →
      s.assetQueue.length = lastDownloadAssetSize → front ∉ rest ++ [asset.uri]) ↔
      oldAsset ∉ later ++ [asset.uri] := by
    rw [hqueue]
    simp [← hfull]
  rw [hfront, evict_of_full asset hqueue hfull, Remembered,
    queueInv_withoutFront_iff hkeys (by simp [← hfull])]
  refine and_congr_left fun hout => ?_
  have hne : asset.uri ≠ oldAsset := by
    rintro rfl
    simp at hout
  simp only [isDownloaded, withoutFront, Function.update_of_ne hne]

theorem queueInv_start : QueueInv { executors := true } :=
  ⟨fun uri => by simp, Nat.zero_le _⟩

/-- As long as all calls have met the condition, a call does what is promised exactly if it meets
the condition too. -/
theorem downloads_remembered_iff (assets : List LoadAsset) (s : Loader)
    (hrun : downloadMachine.exec { executors := true } assets = some s)
    (hassets : downloadMachine.Guarded Consistent { executors := true } assets)
    (asset : LoadAsset) :
    (s.updateDownloaded asset).evictDownloaded.Remembered asset ↔ s.Consistent asset := by
  refine remembered_step_iff asset (downloadMachine.exec_guarded_invariant ?_ queueInv_start hassets
    hrun)
  intro t other t' ht hright hstep
  cases hstep
  exact ((remembered_step_iff other ht).mpr hright).2

theorem downloads_remembered_iff_two :
    ∃ s, downloadMachine.exec { executors := true } [⟨"a", "1"⟩] = some s ∧
      (s.updateDownloaded ⟨"b", "1"⟩).evictDownloaded.Remembered ⟨"b", "1"⟩ := by
  refine ⟨_, rfl, (downloads_remembered_iff [⟨"a", "1"⟩] _ rfl ?_ _).mpr ?_⟩
  · exact ⟨⟨by simp, by simp⟩, fun _ _ => trivial⟩
  · refine ⟨fun hash hfound => ?_, fun _ _ _ hfull => absurd hfull (by decide)⟩
    simp [updateDownloaded, computeIfAbsent, evictDownloaded, lastDownloadAssetSize] at hfound

/-- An asset that is downloaded again with a new hash is not found as downloaded. -/
theorem new_hash_not_remembered :
    ∃ s, downloadMachine.exec { executors := true } [⟨"a", "1"⟩, ⟨"a", "2"⟩] = some s ∧
      ¬ s.Remembered ⟨"a", "2"⟩ :=
  ⟨_, rfl, fun h => absurd h.1 (by decide)⟩

end Loader

end DataMgr.Object
