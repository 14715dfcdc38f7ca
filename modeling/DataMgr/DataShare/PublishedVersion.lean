import Mathlib

/-! # The version of published data

`PublishStrategy` stores every item as a document with the version it is published with, and
`GetDataStrategy` returns the largest version of the items it hands out. In between, `Query` builds
the items with a constructor whose second argument is the version, and passes the user.
-/

namespace DataMgr.DataShare

structure PublishedDataNode (α : Type) where
  key : String
  bundleName : String
  subscriberId : Int
  value : α
  userId : Int
  timestamp : Int
  version : Int
deriving DecidableEq

variable {α : Type}

def genId (key bundleName : String) (subscriberId : Int) : String :=
  key ++ "_" ++ toString subscriberId ++ "_" ++ bundleName

namespace PublishedDataNode

/-- The id of the document; user `-1` is not a part of it. -/
def id (node : PublishedDataNode α) : String :=
  let id := genId node.key node.bundleName node.subscriberId
  if node.userId = -1 then id else id ++ "_" ++ toString node.userId

def published (node : PublishedDataNode α) (version : Int) : PublishedDataNode α :=
  { node with version := version }

end PublishedDataNode

inductive PublishStatus
  | ok
  | versionNotNewer
  | notAllowed
deriving DecidableEq

variable (initial : Int) (checkPermission : String → Bool) (table : List (PublishedDataNode α))
  (bundleName : String) (userId : Int)

def upsertNode (data : PublishedDataNode α) : PublishStatus × List (PublishedDataNode α) :=
  if data.version ≠ 0 ∧ ∃ old ∈ table.find? (·.id = data.id), data.version ≤ old.version then
    (.versionNotNewer, table)
  else (.ok, table.filter (·.id ≠ data.id) ++ [data])

/-- One call of `PublishStrategy`: what its context and its item hold, and whether the
preprocessing passes. -/
structure Publication (α : Type) where
  allowed : Bool
  uri : String
  calledBundleName : String
  visitedUserId : Int
  version : Int
  subscriberId : Int
  data : α
  now : Int

def Publication.node (p : Publication α) : PublishedDataNode α :=
  PublishedDataNode.published
    ⟨p.uri, p.calledBundleName, p.subscriberId, p.data, p.visitedUserId, p.now, -1⟩ p.version

def publish (p : Publication α) : PublishStatus × List (PublishedDataNode α) :=
  if p.allowed then upsertNode table p.node else (.notAllowed, table)

def publishAll (publications : List (Publication α)) : List (PublishedDataNode α) :=
  publications.foldl (fun table p => (publish table p).2) []

def documentsOf : List (PublishedDataNode α) :=
  table.filter fun node => node.bundleName = bundleName ∧ node.userId = userId

def queryPublished : List (PublishedDataNode α) :=
  (documentsOf table bundleName userId).map (·.published userId)

structure PublishedResult (α : Type) where
  version : Int
  datas : List (String × Int × α)
deriving DecidableEq

/-- `GetDataStrategy::Execute` behind the preprocessing; `initial` is the version of a fresh
`Data`, and `checkPermission` is asked for every key. -/
def getData (calledBundleName : String) (visitedUserId : Int) : PublishedResult α :=
  (queryPublished table calledBundleName visitedUserId).foldl
    (fun data item =>
      if !checkPermission item.key then data
      else
        { version := if item.version > data.version then item.version else data.version
          datas := data.datas ++ [(item.key, item.subscriberId, item.value)] })
    ⟨initial, []⟩

def returned : List (PublishedDataNode α) :=
  (documentsOf table bundleName userId).filter fun node => checkPermission node.key

def publishedVersion (nodes : List (PublishedDataNode α)) : Int :=
  ((nodes.map (·.version)).max?).getD initial

theorem mem_publishAll {publications : List (Publication α)} {node : PublishedDataNode α}
    (h : node ∈ publishAll publications) :
    ∃ p ∈ publications, p.allowed = true ∧ node = p.node := by
  induction publications using List.reverseRecOn with
  | nil => cases h
  | append_singleton rest p ih =>
      rw [publishAll, List.foldl_append, List.foldl_cons, List.foldl_nil, ← publishAll,
        publish] at h
      have hrest : node ∈ publishAll rest →
          ∃ q ∈ rest ++ [p], q.allowed = true ∧ node = q.node := by
        intro hold
        obtain ⟨q, hq, hnode⟩ := ih hold
        exact ⟨q, List.mem_append_left _ hq, hnode⟩
      split at h
      · rename_i hallowed
        unfold upsertNode at h
        split at h
        · exact hrest h
        rcases List.mem_append.mp h with hold | hnew
        · exact hrest (List.mem_of_mem_filter hold)
        · exact ⟨p, List.mem_append_right _ List.mem_cons_self, hallowed,
            List.mem_singleton.mp hnew⟩
      · exact hrest h

theorem getData_eq :
    getData initial checkPermission table bundleName userId =
      ⟨if returned checkPermission table bundleName userId = [] then initial
        else max initial userId,
        (returned checkPermission table bundleName userId).map
          fun node => (node.key, node.subscriberId, node.value)⟩ := by
  unfold getData queryPublished returned
  rw [List.foldl_map]
  generalize documentsOf table bundleName userId = nodes
  induction nodes using List.reverseRecOn with
  | nil => rfl
  | append_singleton rest node ih =>
      rw [List.foldl_append, ih, List.foldl_cons, List.foldl_nil, List.filter_append]
      cases hallowed : checkPermission node.key with
      | false => simp [PublishedDataNode.published, hallowed]
      | true =>
          simp only [PublishedDataNode.published, hallowed, Bool.not_true, Bool.false_eq_true,
            if_false, List.filter_cons_of_pos, List.filter_nil, List.append_eq_nil_iff,
            reduceCtorEq, and_false, List.map_append, List.map_cons, List.map_nil,
            PublishedResult.mk.injEq, and_true]
          split <;> split <;> omega

/-- The version that is returned is the largest one published exactly if nothing is returned, or
the user number is that version. -/
theorem getData_version_iff (initial : Int) (checkPermission : String → Bool)
    (publications : List (Publication α)) (bundleName : String) (userId : Int) :
    (∀ node ∈ returned checkPermission (publishAll publications) bundleName userId,
        ∃ p ∈ publications, p.allowed = true ∧ node = p.node) ∧
      ((getData initial checkPermission (publishAll publications) bundleName userId).version =
          publishedVersion initial
            (returned checkPermission (publishAll publications) bundleName userId) ↔
        (returned checkPermission (publishAll publications) bundleName userId = [] ∨
          max initial userId = publishedVersion initial
            (returned checkPermission (publishAll publications) bundleName userId))) := by
  constructor
  · intro node hnode
    exact mem_publishAll (List.mem_of_mem_filter (List.mem_of_mem_filter hnode))
  · rw [getData_eq]
    by_cases hnone : returned checkPermission (publishAll publications) bundleName userId = []
    · simp [hnone, publishedVersion]
    · simp [hnone]

/-- Version 5 is published for user 100, and version 100 is returned. -/
theorem getData_returns_user :
    (getData 0 (fun _ => true) (publishAll [⟨true, "uri", "bundle", 100, 5, 1, "data", 0⟩]) "bundle"
        100 = ⟨100, [("uri", 1, "data")]⟩) ∧
      publishedVersion 0 (returned (fun _ => true)
        (publishAll [⟨true, "uri", "bundle", 100, 5, 1, "data", 0⟩]) "bundle" 100) = 5 := by
  decide +kernel

end DataMgr.DataShare
