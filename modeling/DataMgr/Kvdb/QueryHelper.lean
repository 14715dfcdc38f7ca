import Mathlib

/-! # Query strings

`QueryHelper::StringToDbQuery` reads a query from words separated by blanks. A keyword
decides how many words follow it. The handlers share a cursor into the words; here a
handler gets the words from the cursor on and returns those after the clause, so
`pointer <= end` says that words are left.
-/

namespace DataMgr.Kvdb

def maxQueryLength : Nat := 5 * 1024

def maxQueryComplexity : Nat := 500

def startIn : String := "^START"

def endIn : String := "^END"

def keyPrefixWord : String := "^KEY_PREFIX"

inductive FieldType where
  | integer
  | long
  | double
  | boolean
  | string
deriving DecidableEq, Repr

def FieldType.text : FieldType → String
  | .integer => "INTEGER"
  | .long => "LONG"
  | .double => "DOUBLE"
  | .boolean => "BOOL"
  | .string => "STRING"

/-- The types of a list and of an order comparison. -/
def orderedTypes : List FieldType := [.integer, .long, .double, .string]

/-- The types that can be compared for equality. -/
def comparedTypes : List FieldType := [.integer, .long, .double, .boolean, .string]

inductive CompareKind where
  | equalTo
  | notEqualTo
  | greaterThan
  | lessThan
  | greaterThanOrEqualTo
  | lessThanOrEqualTo
deriving DecidableEq, Repr

inductive FieldValue (δ : Type) where
  | integer (value : Int)
  | long (value : Int)
  | double (value : δ)
  | boolean (value : Bool)
  | string (value : String)
deriving DecidableEq

inductive QueryOp (δ : Type) where
  | compare (kind : CompareKind) (fieldName : String) (value : FieldValue δ)
  | isNull (fieldName : String)
  | isNotNull (fieldName : String)
  | inList (fieldName : String) (values : List (FieldValue δ))
  | notIn (fieldName : String) (values : List (FieldValue δ))
  | like (fieldName fieldValue : String)
  | notLike (fieldName fieldValue : String)
  | and
  | or
  | orderBy (fieldName : String) (isAsc : Bool)
  | orderByWriteTime (isAsc : Bool)
  | limit (number offset : Int)
  | beginGroup
  | endGroup
  | prefixKey (key : String)
  | suggestIndex (index : String)
  | inKeys (keys : Finset String)
deriving DecidableEq

/-- What lies outside: reading numbers from a stream, and the device manager. -/
structure QueryEnv (δ : Type) where
  stringToInt : String → Int
  stringToLong : String → Int
  stringToDouble : String → δ
  getUuidByNetworkId : String → String

/-- The parts between blanks; there is always one. -/
def parts : List Char → List (List Char)
  | [] => [[]]
  | c :: rest =>
      if c = ' ' then [] :: parts rest
      else
        match parts rest with
        | [] => [[c]]
        | part :: others => (c :: part) :: others

/-- The words of a text, as the token iterator gives them: what follows the last blank is
left out if it is empty. -/
def tokens (text : List Char) : List (List Char) :=
  let found := parts text
  if 1 < found.length ∧ found.getLast? = some [] then found.dropLast else found

def queryWords (query : String) : List String :=
  (tokens (query.toList.dropWhile (· = ' '))).map String.ofList

def unescapeSpace : List Char → List Char
  | '^' :: '^' :: rest => ' ' :: unescapeSpace rest
  | c :: rest => c :: unescapeSpace rest
  | [] => []

def unescapeSpecial : List Char → List Char
  | '(' :: '^' :: ')' :: rest => '^' :: unescapeSpecial rest
  | c :: rest => c :: unescapeSpecial rest
  | [] => []

def stringToString (word : String) : String :=
  if word = "^EMPTY_STRING" then ""
  else String.ofList (unescapeSpecial (unescapeSpace word.toList))

/-! The client writes a special character and a blank of a string in another way, so that the
words of a query are found again. -/

def escapeSpecial (text : List Char) : List Char :=
  text.flatMap fun c => if c = '^' then ['(', '^', ')'] else [c]

def escapeSpace (text : List Char) : List Char :=
  text.flatMap fun c => if c = ' ' then ['^', '^'] else [c]

def escapeString (text : String) : String :=
  String.ofList (escapeSpace (escapeSpecial text.toList))

theorem unescapeSpace_cons {c : Char} (h : c ≠ '^') (rest : List Char) :
    unescapeSpace (c :: rest) = c :: unescapeSpace rest := by
  rw [unescapeSpace]
  rintro rest rfl
  exact absurd rfl h

/-- A special character that was escaped stands between parentheses, so two in a row are
always a blank. -/
theorem unescapeSpace_escapeSpace (text : List Char) :
    unescapeSpace (escapeSpace (escapeSpecial text)) = escapeSpecial text := by
  induction text with
  | nil => rfl
  | cons c rest ih =>
      by_cases hspecial : c = '^'
      · subst hspecial
        simpa [escapeSpecial, escapeSpace, unescapeSpace] using ih
      by_cases hspace : c = ' '
      · subst hspace
        simpa [escapeSpecial, escapeSpace, unescapeSpace] using ih
      · have hcons := unescapeSpace_cons hspecial (escapeSpace (escapeSpecial rest))
        rw [ih] at hcons
        simpa [escapeSpecial, escapeSpace, hspecial, hspace] using hcons

theorem unescapeSpecial_cons {c : Char} (h : c ≠ '^') (text : List Char) :
    unescapeSpecial (c :: escapeSpecial text) = c :: unescapeSpecial (escapeSpecial text) := by
  rw [unescapeSpecial]
  rintro rest rfl heq
  cases text with
  | nil => cases heq
  | cons d text =>
      by_cases hspecial : d = '^'
      · simp [escapeSpecial, hspecial] at heq
      · simp [escapeSpecial, hspecial] at heq

theorem unescapeSpecial_escapeSpecial (text : List Char) :
    unescapeSpecial (escapeSpecial text) = text := by
  induction text with
  | nil => rfl
  | cons c rest ih =>
      by_cases hspecial : c = '^'
      · subst hspecial
        simpa [escapeSpecial, unescapeSpecial] using ih
      · have hcons := unescapeSpecial_cons hspecial rest
        rw [ih] at hcons
        simpa [escapeSpecial, hspecial] using hcons

theorem escapeString_ne_empty (text : String) : escapeString text ≠ "^EMPTY_STRING" := by
  intro heq
  have hlist : escapeSpace (escapeSpecial text.toList) = "^EMPTY_STRING".toList := by
    rw [← heq, escapeString, String.toList_ofList]
  cases htext : text.toList with
  | nil => simp [htext, escapeSpace, escapeSpecial] at hlist
  | cons c rest =>
      by_cases hspecial : c = '^'
      · simp [htext, escapeSpace, escapeSpecial, hspecial] at hlist
      by_cases hspace : c = ' '
      · simp [htext, escapeSpace, escapeSpecial, hspace] at hlist
      · simp [htext, escapeSpace, escapeSpecial, hspecial, hspace] at hlist

/-- Reading undoes the client's escaping, and the word for the empty string is read as it. -/
theorem stringToString_escapeString :
    (∀ text : String, stringToString (escapeString text) = text) ∧
      stringToString "^EMPTY_STRING" = "" := by
  refine ⟨fun text => ?_, if_pos rfl⟩
  rw [stringToString, if_neg (escapeString_ne_empty text), escapeString, String.toList_ofList,
    unescapeSpace_escapeSpace, unescapeSpecial_escapeSpecial, String.ofList_toList]

/-- Any other word than `true` is read as false. -/
def stringToBoolean (word : String) : Bool := word = "true"

section

variable {δ : Type} (env : QueryEnv δ)

def fieldValue (type : FieldType) (word : String) : FieldValue δ :=
  match type with
  | .integer => .integer (env.stringToInt word)
  | .long => .long (env.stringToLong word)
  | .double => .double (env.stringToDouble word)
  | .boolean => .boolean (stringToBoolean word)
  | .string => .string (stringToString word)

/-- `GetIntegerList`, `GetLongList`, `GetDoubleList` and `GetStringList`: the values up to
`^END`, none of them if it is missing, and the words after it. -/
def getList {α : Type} (read : String → α) (words : List String) : List α × List String :=
  match words.dropWhile (· ≠ endIn) with
  | [] => ([], [])
  | _ :: rest => ((words.takeWhile (· ≠ endIn)).map read, rest)

/-- `deviceId_`, `hasPrefixKey_` and the query so far. -/
structure QueryState (δ : Type) where
  deviceId : String := ""
  hasPrefixKey : Bool := false
  dbQuery : List (QueryOp δ) := []

def QueryState.add {δ : Type} (s : QueryState δ) (op : QueryOp δ) : QueryState δ :=
  { s with dbQuery := s.dbQuery ++ [op] }

/-- A handler: `none` if it refuses, else the query so far and the words that are left. -/
abbrev Handler (δ : Type) := QueryState δ → List String → Option (QueryState δ × List String)

/-- A comparison: a type it admits, a field and a value. -/
def handleCompare (kind : CompareKind) (types : List FieldType) : Handler δ
  | s, _ :: fieldType :: fieldName :: word :: rest =>
      (types.find? fun type => type.text = fieldType).map fun type =>
        (s.add (.compare kind (stringToString fieldName) (fieldValue env type word)), rest)
  | _, _ => none

def handleEqualTo : Handler δ := handleCompare env .equalTo comparedTypes

def handleNotEqualTo : Handler δ := handleCompare env .notEqualTo comparedTypes

def handleGreaterThan : Handler δ := handleCompare env .greaterThan orderedTypes

def handleLessThan : Handler δ := handleCompare env .lessThan orderedTypes

def handleGreaterThanOrEqualTo : Handler δ := handleCompare env .greaterThanOrEqualTo orderedTypes

def handleLessThanOrEqualTo : Handler δ := handleCompare env .lessThanOrEqualTo orderedTypes

/-- A keyword alone. -/
def handleBare (op : QueryOp δ) : Handler δ
  | s, _ :: rest => some (s.add op, rest)
  | _, [] => none

def handleAnd : Handler δ := handleBare .and

def handleOr : Handler δ := handleBare .or

def handleBeginGroup : Handler δ := handleBare .beginGroup

def handleEndGroup : Handler δ := handleBare .endGroup

/-- A keyword with one word. -/
def handleOne (op : String → QueryOp δ) : Handler δ
  | s, _ :: word :: rest => some (s.add (op word), rest)
  | _, _ => none

def handleIsNull : Handler δ := handleOne fun fieldName => .isNull (stringToString fieldName)

def handleIsNotNull : Handler δ := handleOne fun fieldName => .isNotNull (stringToString fieldName)

def handleOrderByAsc : Handler δ :=
  handleOne fun fieldName => .orderBy (stringToString fieldName) true

def handleOrderByDesc : Handler δ :=
  handleOne fun fieldName => .orderBy (stringToString fieldName) false

def handleOrderByWriteTime : Handler δ :=
  handleOne fun isAsc => .orderByWriteTime (isAsc = "^IS_ASC")

def handleSetSuggestIndex : Handler δ := handleOne fun index => .suggestIndex (stringToString index)

/-- A keyword with two words. -/
def handleTwo (op : String → String → QueryOp δ) : Handler δ
  | s, _ :: first :: second :: rest => some (s.add (op first second), rest)
  | _, _ => none

def handleLike : Handler δ := handleTwo fun fieldName word =>
  .like (stringToString fieldName) (stringToString word)

def handleNotLike : Handler δ := handleTwo fun fieldName word =>
  .notLike (stringToString fieldName) (stringToString word)

def handleLimit : Handler δ := handleTwo fun number offset =>
  .limit (env.stringToInt number) (env.stringToInt offset)

/-- A type, a field and a list of at least one word, its end included. -/
def handleList (op : String → List (FieldValue δ) → QueryOp δ) : Handler δ
  | s, _ :: fieldType :: fieldName :: start :: first :: rest =>
      if start ≠ startIn then none
      else
        (orderedTypes.find? fun type => type.text = fieldType).map fun type =>
          let (values, rest) := getList (fieldValue env type) (first :: rest)
          (s.add (op (stringToString fieldName) values), rest)
  | _, _ => none

def handleIn : Handler δ := handleList env .inList

def handleNotIn : Handler δ := handleList env .notIn

def handleInKeys : Handler δ
  | s, _ :: start :: first :: rest =>
      if start ≠ startIn then none
      else
        let (inKeys, rest) := getList stringToString (first :: rest)
        some (s.add (.inKeys inKeys.toFinset), rest)
  | _, _ => none

def handleKeyPrefix : Handler δ
  | s, _ :: word :: rest => some (s.add (.prefixKey (s.deviceId ++ stringToString word)), rest)
  | _, _ => none

/-- The device becomes a prefix of its own only if no key prefix is expected. -/
def handleDeviceId : Handler δ
  | s, _ :: word :: rest =>
      let deviceId := env.getUuidByNetworkId (stringToString word)
      let s := { s with deviceId }
      some (if s.hasPrefixKey then s else s.add (.prefixKey deviceId), rest)
  | _, _ => none

def handleExtra (keyword : String) : Handler δ :=
  if keyword = "^BEGIN_GROUP" then handleBeginGroup
  else if keyword = "^END_GROUP" then handleEndGroup
  else if keyword = keyPrefixWord then handleKeyPrefix
  else if keyword = "^IS_NOT_NULL" then handleIsNotNull
  else if keyword = "^DEVICE_ID" then handleDeviceId env
  else if keyword = "^SUGGEST_INDEX" then handleSetSuggestIndex
  else if keyword = "^IN_KEYS" then handleInKeys
  else fun _ _ => none

def handle (keyword : String) : Handler δ :=
  if keyword = "^IS_NULL" then handleIsNull
  else if keyword = "^IN" then handleIn env
  else if keyword = "^NOT_IN" then handleNotIn env
  else if keyword = "^LIKE" then handleLike
  else if keyword = "^NOT_LIKE" then handleNotLike
  else if keyword = "^AND" then handleAnd
  else if keyword = "^OR" then handleOr
  else if keyword = "^ASC" then handleOrderByAsc
  else if keyword = "^DESC" then handleOrderByDesc
  else if keyword = "^OrderByWriteTime" then handleOrderByWriteTime
  else if keyword = "^LIMIT" then handleLimit env
  else handleExtra env keyword

/-- The choice of a handler in the body of the loop. -/
def handleKeyword (keyword : String) : Handler δ :=
  if keyword = "^EQUAL" then handleEqualTo env
  else if keyword = "^NOT_EQUAL" then handleNotEqualTo env
  else if keyword = "^GREATER" then handleGreaterThan env
  else if keyword = "^LESS" then handleLessThan env
  else if keyword = "^GREATER_EQUAL" then handleGreaterThanOrEqualTo env
  else if keyword = "^LESS_EQUAL" then handleLessThanOrEqualTo env
  else handle env keyword

/-- The rounds of the loop that are left, the query so far and the words from the cursor
on. The loop ends without an error when its rounds are used up. -/
def queryLoop : Nat → QueryState δ → List String → Option (QueryState δ)
  | _, s, [] => some s
  | 0, s, _ :: _ => some s
  | rounds + 1, s, keyword :: rest =>
      match handleKeyword env keyword s (keyword :: rest) with
      | none => none
      | some (s, left) => queryLoop rounds s left

/-- The query and `isSuccess`, which is an argument as well. -/
def stringToDbQuery (query : String) (isSuccess : Bool) : List (QueryOp δ) × Bool :=
  if query = "" then ([], true)
  else if query.utf8ByteSize > maxQueryLength then ([], false)
  else
    let hasPrefixKey : Bool := keyPrefixWord.toList <:+: query.toList
    match queryWords query with
    | [] => ([], isSuccess)
    | words@(_ :: _) =>
        match queryLoop env (maxQueryComplexity + 1) { hasPrefixKey } words with
        | none => ([], false)
        | some s => (s.dbQuery, true)

end

end DataMgr.Kvdb
