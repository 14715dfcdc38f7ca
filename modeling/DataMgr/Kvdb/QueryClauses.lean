import DataMgr.Kvdb.QueryHelper

/-! # Clauses of a query

A clause is spelled as a keyword and its operands, and lists are closed by `^END`. The
translation puts a device in front of the key prefixes that follow it; a device that no
key prefix follows is a prefix of its own. The handler of a keyword reads one complete
clause, or a list that is not closed.
-/

namespace DataMgr.Kvdb

inductive Clause where
  | compare (kind : CompareKind) (type : FieldType) (fieldName word : String)
  | isNull (negated : Bool) (fieldName : String)
  | inList (negated : Bool) (type : FieldType) (fieldName : String) (values : List String)
  | like (negated : Bool) (fieldName word : String)
  | and
  | or
  | orderBy (isAsc : Bool) (fieldName : String)
  | orderByWriteTime (word : String)
  | limit (number offset : String)
  | beginGroup
  | endGroup
  | keyPrefix (word : String)
  | deviceId (word : String)
  | suggestIndex (word : String)
  | inKeys (values : List String)
deriving DecidableEq, Repr

def CompareKind.keyword : CompareKind → String
  | .equalTo => "^EQUAL"
  | .notEqualTo => "^NOT_EQUAL"
  | .greaterThan => "^GREATER"
  | .lessThan => "^LESS"
  | .greaterThanOrEqualTo => "^GREATER_EQUAL"
  | .lessThanOrEqualTo => "^LESS_EQUAL"

def CompareKind.types : CompareKind → List FieldType
  | .equalTo | .notEqualTo => comparedTypes
  | _ => orderedTypes

def inKeyword (negated : Bool) : String := if negated then "^NOT_IN" else "^IN"

namespace Clause

/-- The type is admitted, and a list has no `^END` inside. -/
def Proper : Clause → Prop
  | .compare kind type _ _ => type ∈ kind.types
  | .inList _ type _ values => type ∈ orderedTypes ∧ endIn ∉ values
  | .inKeys values => endIn ∉ values
  | _ => True

def words : Clause → List String
  | .compare kind type fieldName word => [kind.keyword, type.text, fieldName, word]
  | .isNull negated fieldName => [if negated then "^IS_NOT_NULL" else "^IS_NULL", fieldName]
  | .inList negated type fieldName values =>
      inKeyword negated :: type.text :: fieldName :: startIn :: (values ++ [endIn])
  | .like negated fieldName word => [if negated then "^NOT_LIKE" else "^LIKE", fieldName, word]
  | .and => ["^AND"]
  | .or => ["^OR"]
  | .orderBy isAsc fieldName => [if isAsc then "^ASC" else "^DESC", fieldName]
  | .orderByWriteTime word => ["^OrderByWriteTime", word]
  | .limit number offset => ["^LIMIT", number, offset]
  | .beginGroup => ["^BEGIN_GROUP"]
  | .endGroup => ["^END_GROUP"]
  | .keyPrefix word => [keyPrefixWord, word]
  | .deviceId word => ["^DEVICE_ID", word]
  | .suggestIndex word => ["^SUGGEST_INDEX", word]
  | .inKeys values => "^IN_KEYS" :: startIn :: (values ++ [endIn])

def isDevice : Clause → Bool
  | .deviceId _ => true
  | _ => false

def isKeyPrefix : Clause → Bool
  | .keyPrefix _ => true
  | _ => false

section

variable {δ : Type} (env : QueryEnv δ)

def deviceAfter (device : String) : Clause → String
  | .deviceId word => env.getUuidByNetworkId (stringToString word)
  | _ => device

/-- The call that a clause is translated to; a device clause is a prefix of its own here. -/
def op (device : String) : Clause → QueryOp δ
  | .compare kind type fieldName word =>
      .compare kind (stringToString fieldName) (fieldValue env type word)
  | .isNull false fieldName => .isNull (stringToString fieldName)
  | .isNull true fieldName => .isNotNull (stringToString fieldName)
  | .inList false type fieldName values =>
      .inList (stringToString fieldName) (values.map (fieldValue env type))
  | .inList true type fieldName values =>
      .notIn (stringToString fieldName) (values.map (fieldValue env type))
  | .like false fieldName word => .like (stringToString fieldName) (stringToString word)
  | .like true fieldName word => .notLike (stringToString fieldName) (stringToString word)
  | .and => .and
  | .or => .or
  | .orderBy isAsc fieldName => .orderBy (stringToString fieldName) isAsc
  | .orderByWriteTime word => .orderByWriteTime (word = "^IS_ASC")
  | .limit number offset => .limit (env.stringToInt number) (env.stringToInt offset)
  | .beginGroup => .beginGroup
  | .endGroup => .endGroup
  | .keyPrefix word => .prefixKey (device ++ stringToString word)
  | .deviceId word => .prefixKey (env.getUuidByNetworkId (stringToString word))
  | .suggestIndex word => .suggestIndex (stringToString word)
  | .inKeys values => .inKeys (values.map stringToString).toFinset

end

end Clause

open Clause

def spell (clauses : List Clause) : List String := clauses.flatMap words

/-- The device before these clauses is put in front of a key prefix: one comes before the
next device. -/
def Joined : List Clause → Prop
  | [] => False
  | clause :: rest => clause.isKeyPrefix = true ∨ clause.isDevice = false ∧ Joined rest

instance decidableJoined : (clauses : List Clause) → Decidable (Joined clauses)
  | [] => inferInstanceAs (Decidable False)
  | clause :: rest =>
      have := decidableJoined rest
      inferInstanceAs
        (Decidable (clause.isKeyPrefix = true ∨ clause.isDevice = false ∧ Joined rest))

section

variable {δ : Type} (env : QueryEnv δ)

def translate (device : String) : List Clause → List (QueryOp δ)
  | [] => []
  | clause :: rest =>
      (if clause.isDevice = true ∧ Joined rest then [] else [clause.op env device]) ++
        translate (clause.deviceAfter env device) rest

def readOps (hasPrefixKey : Bool) (device : String) : List Clause → List (QueryOp δ)
  | [] => []
  | clause :: rest =>
      (if clause.isDevice = true ∧ hasPrefixKey = true then [] else [clause.op env device]) ++
        readOps hasPrefixKey (clause.deviceAfter env device) rest

end

inductive OpenList where
  | inList (negated : Bool) (type : FieldType) (fieldName first : String) (values : List String)
  | inKeys (first : String) (values : List String)
deriving DecidableEq, Repr

namespace OpenList

def Proper : OpenList → Prop
  | .inList _ type _ first values => type ∈ orderedTypes ∧ endIn ∉ first :: values
  | .inKeys first values => endIn ∉ first :: values

def words : OpenList → List String
  | .inList negated type fieldName first values =>
      inKeyword negated :: type.text :: fieldName :: startIn :: first :: values
  | .inKeys first values => "^IN_KEYS" :: startIn :: first :: values

/-- A list that is not closed is read as an empty one. -/
def op {δ : Type} : OpenList → QueryOp δ
  | .inList false _ fieldName _ _ => .inList (stringToString fieldName) []
  | .inList true _ fieldName _ _ => .notIn (stringToString fieldName) []
  | .inKeys _ _ => .inKeys ∅

end OpenList

section

variable {δ : Type} {env : QueryEnv δ} {s s' : QueryState δ}

def QueryState.after (env : QueryEnv δ) (s : QueryState δ) (clause : Clause) : QueryState δ :=
  { s with
    deviceId := clause.deviceAfter env s.deviceId
    dbQuery := s.dbQuery ++
      if clause.isDevice = true ∧ s.hasPrefixKey = true then [] else [clause.op env s.deviceId] }

theorem FieldType.text_injective : Function.Injective FieldType.text := by
  intro a b h
  cases a <;> cases b <;> first | rfl | simp [FieldType.text] at h

variable {types : List FieldType} {type : FieldType} {values left rest : List String}
  {keyword : String}

theorem find?_text (h : type ∈ types) :
    (types.find? fun t => t.text = type.text) = some type := by
  have hsame : (fun t : FieldType => decide (t.text = type.text)) = fun t => t == type := by
    simp [FieldType.text_injective.eq_iff, beq_eq_decide]
  rw [hsame]
  induction types with
  | nil => cases h
  | cons first rest ih =>
      by_cases heq : first = type
      · rw [List.find?_cons_of_pos (by simpa using heq), heq]
      · have hrest : type ∈ rest := (List.mem_cons.mp h).resolve_left (Ne.symm heq)
        rw [List.find?_cons_of_neg (by simpa using heq)]
        exact ih hrest

theorem text_of_find? {word : String} (h : (types.find? fun t => t.text = word) = some type) :
    type ∈ types ∧ type.text = word :=
  ⟨List.mem_of_find?_eq_some h, by simpa using List.find?_some h⟩

theorem getList_closed {α : Type} (read : String → α) (h : endIn ∉ values) (rest : List String) :
    getList read (values ++ endIn :: rest) = (values.map read, rest) := by
  have hvalues : ∀ value ∈ values, decide (value ≠ endIn) = true := by
    intro value hvalue
    simp only [ne_eq, decide_eq_true_eq]
    intro heq
    exact h (heq ▸ hvalue)
  rw [getList, List.dropWhile_append_of_pos hvalues, List.takeWhile_append_of_pos hvalues]
  simp

theorem getList_open {α : Type} (read : String → α) (h : endIn ∉ values) :
    getList read values = ([], []) := by
  have hnone : values.dropWhile (· ≠ endIn) = [] := by
    rw [List.dropWhile_eq_nil_iff]
    intro value hvalue
    simp only [ne_eq, decide_eq_true_eq]
    intro heq
    exact h (heq ▸ hvalue)
  rw [getList, hnone]

theorem list_cases (words : List String) :
    (∃ values rest, words = values ++ endIn :: rest ∧ endIn ∉ values) ∨ endIn ∉ words := by
  by_cases h : endIn ∈ words
  · obtain ⟨values, rest, hsplit, hvalues⟩ := List.eq_append_cons_of_mem h
    exact .inl ⟨values, rest, hsplit, hvalues⟩
  · exact .inr h

theorem handleCompare_read (env : QueryEnv δ) (s : QueryState δ) (kind : CompareKind)
    (h : type ∈ types) (keyword fieldName word : String) (rest : List String) :
    handleCompare env kind types s (keyword :: type.text :: fieldName :: word :: rest) =
      some (s.add (.compare kind (stringToString fieldName) (fieldValue env type word)), rest) := by
  rw [handleCompare, find?_text h, Option.map_some]

theorem handleList_read (env : QueryEnv δ) (s : QueryState δ)
    (op : String → List (FieldValue δ) → QueryOp δ) (htype : type ∈ orderedTypes)
    (hvalues : endIn ∉ values) (keyword fieldName : String) (rest : List String) :
    handleList env op s
        (keyword :: type.text :: fieldName :: startIn :: (values ++ endIn :: rest)) =
      some (s.add (op (stringToString fieldName) (values.map (fieldValue env type))), rest) := by
  have hclosed := getList_closed (fieldValue env type) hvalues rest
  cases values with
  | nil => simp_all [handleList, find?_text htype]
  | cons first values => simp_all [handleList, find?_text htype]

def Clause.handler (env : QueryEnv δ) : Clause → Handler δ
  | .compare .equalTo .. => handleEqualTo env
  | .compare .notEqualTo .. => handleNotEqualTo env
  | .compare .greaterThan .. => handleGreaterThan env
  | .compare .lessThan .. => handleLessThan env
  | .compare .greaterThanOrEqualTo .. => handleGreaterThanOrEqualTo env
  | .compare .lessThanOrEqualTo .. => handleLessThanOrEqualTo env
  | .isNull false _ => handleIsNull
  | .isNull true _ => handleIsNotNull
  | .inList false .. => handleIn env
  | .inList true .. => handleNotIn env
  | .like false .. => handleLike
  | .like true .. => handleNotLike
  | .and => handleAnd
  | .or => handleOr
  | .orderBy true _ => handleOrderByAsc
  | .orderBy false _ => handleOrderByDesc
  | .orderByWriteTime _ => handleOrderByWriteTime
  | .limit .. => handleLimit env
  | .beginGroup => handleBeginGroup
  | .endGroup => handleEndGroup
  | .keyPrefix _ => handleKeyPrefix
  | .deviceId _ => handleDeviceId env
  | .suggestIndex _ => handleSetSuggestIndex
  | .inKeys _ => handleInKeys

theorem handleKeyword_eq (env : QueryEnv δ) (clause : Clause) :
    ∃ keyword left, clause.words = keyword :: left ∧
      handleKeyword env keyword = clause.handler env := by
  cases clause with
  | compare kind type fieldName word =>
      refine ⟨_, _, rfl, ?_⟩
      cases kind <;> rfl
  | isNull negated fieldName =>
      refine ⟨_, _, rfl, ?_⟩
      cases negated <;> rfl
  | inList negated type fieldName values =>
      refine ⟨_, _, rfl, ?_⟩
      cases negated <;> rfl
  | like negated fieldName word =>
      refine ⟨_, _, rfl, ?_⟩
      cases negated <;> rfl
  | orderBy isAsc fieldName =>
      refine ⟨_, _, rfl, ?_⟩
      cases isAsc <;> rfl
  | _ => exact ⟨_, _, rfl, rfl⟩

theorem handler_words (env : QueryEnv δ) (s : QueryState δ) {clause : Clause}
    (h : clause.Proper) (rest : List String) :
    clause.handler env s (clause.words ++ rest) = some (s.after env clause, rest) := by
  cases clause with
  | compare kind type fieldName word =>
      have hread := handleCompare_read env s kind h kind.keyword fieldName word rest
      cases kind <;> exact hread
  | inList negated type fieldName values =>
      have hread := fun op =>
        handleList_read env s op h.1 h.2 (inKeyword negated) fieldName rest
      rw [words, List.cons_append, List.cons_append, List.cons_append, List.cons_append,
        List.append_assoc, List.singleton_append]
      cases negated <;> exact hread _
  | inKeys values =>
      rw [words, List.cons_append, List.cons_append, List.append_assoc,
        List.singleton_append]
      have hclosed := getList_closed stringToString h rest
      show handleInKeys s _ = some (s.add (.inKeys (values.map stringToString).toFinset), rest)
      cases values <;> simp_all [handleInKeys]
  | isNull negated fieldName => cases negated <;> rfl
  | like negated fieldName word => cases negated <;> rfl
  | orderBy isAsc fieldName => cases isAsc <;> rfl
  | deviceId word =>
      cases hkey : s.hasPrefixKey <;>
        simp [handler, words, handleDeviceId, QueryState.after, QueryState.add,
          isDevice, deviceAfter, op, hkey]
  | and | or | orderByWriteTime | limit | beginGroup | endGroup | keyPrefix | suggestIndex => rfl

/-- A round reads a complete clause, or takes all words that are left as a list. -/
def Reads (env : QueryEnv δ) (s : QueryState δ) (words : List String) (s' : QueryState δ)
    (rest : List String) : Prop :=
  (∃ clause : Clause, clause.Proper ∧ words = clause.words ++ rest ∧ s' = s.after env clause) ∨
    ∃ list : OpenList, list.Proper ∧ words = list.words ∧ rest = [] ∧ s' = s.add list.op

/-- The handler of a clause is deterministic, so the words alone say what has been read. -/
theorem reads_of_words {words : List String} (clause : Clause) (after : List String)
    (hproper : clause.Proper) (hwords : words = clause.words ++ after)
    (h : clause.handler env s words = some (s', rest)) : Reads env s words s' rest := by
  rw [hwords] at h ⊢
  cases (handler_words env s hproper after).symm.trans h
  exact .inl ⟨clause, hproper, rfl, rfl⟩

theorem chosen {p : Prop} [Decidable p] {f g : Handler δ} {words : List String}
    {result : QueryState δ × List String} (h : (if p then f else g) s words = some result) :
    p ∧ f s words = some result ∨ g s words = some result := by
  by_cases hp : p
  · rw [if_pos hp] at h
    exact .inl ⟨hp, h⟩
  · rw [if_neg hp] at h
    exact .inr h

theorem reads_compare (kind : CompareKind)
    (h : handleCompare env kind kind.types s (kind.keyword :: left) = some (s', rest)) :
    Reads env s (kind.keyword :: left) s' rest := by
  match left, h with
  | fieldType :: fieldName :: word :: after, h =>
      obtain ⟨type, htype, -⟩ := Option.map_eq_some_iff.mp h
      obtain ⟨hmem, rfl⟩ := text_of_find? htype
      refine reads_of_words (.compare kind type fieldName word) _ hmem rfl ?_
      cases kind <;> exact h

theorem reads_list (negated : Bool)
    (h : handleList env (if negated then .notIn else .inList) s (inKeyword negated :: left) =
      some (s', rest)) :
    Reads env s (inKeyword negated :: left) s' rest := by
  match left, h with
  | fieldType :: fieldName :: start :: first :: more, h =>
      have hlist := h
      simp only [handleList] at hlist
      split at hlist
      · cases hlist
      rename_i hstart
      obtain rfl : start = startIn := not_not.mp hstart
      obtain ⟨type, htype, heq⟩ := Option.map_eq_some_iff.mp hlist
      obtain ⟨hmem, rfl⟩ := text_of_find? htype
      rcases list_cases (first :: more) with ⟨values, after, hsplit, hvalues⟩ | hopen
      · refine reads_of_words (.inList negated type fieldName values) after ⟨hmem, hvalues⟩
          (by simp [words, hsplit]) ?_
        cases negated <;> exact h
      · rw [getList_open _ hopen] at heq
        cases heq
        refine .inr ⟨.inList negated type fieldName first more, ⟨hmem, hopen⟩, rfl, rfl, ?_⟩
        cases negated <;> rfl

theorem reads_inKeys (h : handleInKeys s ("^IN_KEYS" :: left) = some (s', rest)) :
    Reads env s ("^IN_KEYS" :: left) s' rest := by
  match left, h with
  | start :: first :: more, h =>
      have hlist := h
      simp only [handleInKeys] at hlist
      split at hlist
      · cases hlist
      rename_i hstart
      obtain rfl : start = startIn := not_not.mp hstart
      rcases list_cases (first :: more) with ⟨values, after, hsplit, hvalues⟩ | hopen
      · exact reads_of_words (.inKeys values) after hvalues (by simp [words, hsplit]) h
      · rw [getList_open _ hopen] at hlist
        cases hlist
        exact .inr ⟨.inKeys first more, hopen, rfl, rfl, rfl⟩

theorem handleKeyword_reads (h : handleKeyword env keyword s (keyword :: left) = some (s', rest)) :
    Reads env s (keyword :: left) s' rest := by
  rcases chosen h with ⟨rfl, h⟩ | h
  · exact reads_compare .equalTo h
  rcases chosen h with ⟨rfl, h⟩ | h
  · exact reads_compare .notEqualTo h
  rcases chosen h with ⟨rfl, h⟩ | h
  · exact reads_compare .greaterThan h
  rcases chosen h with ⟨rfl, h⟩ | h
  · exact reads_compare .lessThan h
  rcases chosen h with ⟨rfl, h⟩ | h
  · exact reads_compare .greaterThanOrEqualTo h
  rcases chosen h with ⟨rfl, h⟩ | h
  · exact reads_compare .lessThanOrEqualTo h
  rcases chosen h with ⟨rfl, h⟩ | h
  · match left, h with
    | word :: _, h => exact reads_of_words (.isNull false word) _ trivial rfl h
  rcases chosen h with ⟨rfl, h⟩ | h
  · exact reads_list false h
  rcases chosen h with ⟨rfl, h⟩ | h
  · exact reads_list true h
  rcases chosen h with ⟨rfl, h⟩ | h
  · match left, h with
    | first :: second :: _, h => exact reads_of_words (.like false first second) _ trivial rfl h
  rcases chosen h with ⟨rfl, h⟩ | h
  · match left, h with
    | first :: second :: _, h => exact reads_of_words (.like true first second) _ trivial rfl h
  rcases chosen h with ⟨rfl, h⟩ | h
  · exact reads_of_words .and _ trivial rfl h
  rcases chosen h with ⟨rfl, h⟩ | h
  · exact reads_of_words .or _ trivial rfl h
  rcases chosen h with ⟨rfl, h⟩ | h
  · match left, h with
    | word :: _, h => exact reads_of_words (.orderBy true word) _ trivial rfl h
  rcases chosen h with ⟨rfl, h⟩ | h
  · match left, h with
    | word :: _, h => exact reads_of_words (.orderBy false word) _ trivial rfl h
  rcases chosen h with ⟨rfl, h⟩ | h
  · match left, h with
    | word :: _, h => exact reads_of_words (.orderByWriteTime word) _ trivial rfl h
  rcases chosen h with ⟨rfl, h⟩ | h
  · match left, h with
    | first :: second :: _, h => exact reads_of_words (.limit first second) _ trivial rfl h
  rcases chosen h with ⟨rfl, h⟩ | h
  · exact reads_of_words .beginGroup _ trivial rfl h
  rcases chosen h with ⟨rfl, h⟩ | h
  · exact reads_of_words .endGroup _ trivial rfl h
  rcases chosen h with ⟨rfl, h⟩ | h
  · match left, h with
    | word :: _, h => exact reads_of_words (.keyPrefix word) _ trivial rfl h
  rcases chosen h with ⟨rfl, h⟩ | h
  · match left, h with
    | word :: _, h => exact reads_of_words (.isNull true word) _ trivial rfl h
  rcases chosen h with ⟨rfl, h⟩ | h
  · match left, h with
    | word :: _, h => exact reads_of_words (.deviceId word) _ trivial rfl h
  rcases chosen h with ⟨rfl, h⟩ | h
  · match left, h with
    | word :: _, h => exact reads_of_words (.suggestIndex word) _ trivial rfl h
  rcases chosen h with ⟨rfl, h⟩ | h
  · exact reads_inKeys h
  · cases h

end

end DataMgr.Kvdb
