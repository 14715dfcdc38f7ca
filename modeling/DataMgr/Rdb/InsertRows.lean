import DataMgr.Foundation.Concat
import DataMgr.Foundation.OrderedMap
import DataMgr.Rdb.RdbCloud
import DataMgr.Store.GeneralStore
import DataMgr.Utils.Constant

/-! # Inserting rows

`Insert` makes one statement for all its rows. The columns it names are those of the first
row; the values of all rows are bound in one list, each row's values in the order of its own
columns. A row has to have as many columns as the first one, and nothing else is compared.
-/

namespace DataMgr.Rdb

open DataMgr.Foundation DataMgr.Store DataMgr.Utils

universe u v

variable {α : Type u} {β : Type v}

abbrev VBucket (α : Type u) := OrderedMap String α

def popBack (sql : String) : String := String.ofList sql.toList.dropLast

/-- The lists of the columns and of the place holders of a row, and the number of columns. -/
def sqlConcatenate (value : VBucket α) (strColumnSql strRowValueSql : String) :
    Nat × String × String :=
  let columnSql :=
    value.keys.foldl (fun sql column => sql ++ (" " ++ column) ++ ",") (strColumnSql ++ " (")
  let rowValueSql := value.keys.foldl (fun sql _ => sql ++ " ?" ++ ",") (strRowValueSql ++ " (")
  if value.size ≠ 0 then (value.size, popBack columnSql ++ ")", popBack rowValueSql ++ ")")
  else (value.size, columnSql, rowValueSql)

/-- The loop of `Insert`: the values so far and the place holders so far. A row of another size
ends it. -/
def collectRows (columnSize : Nat) (strRowValueSql : String) :
    List (VBucket α) → List α → String → Option (List α × String)
  | [], args, strValueSql => some (args, strValueSql)
  | rowData :: rest, args, strValueSql =>
      if rowData.size ≠ columnSize then none
      else
        collectRows columnSize strRowValueSql rest (args ++ rowData.values)
          (strValueSql ++ strRowValueSql ++ ",")

structure SqlCondition (β : Type v) where
  sql : String
  bindArgs : List β
  readOnly : Bool
deriving DecidableEq, Repr

/-- What `Insert` returns, and the statement that was executed if there was one. -/
structure InsertResult (β : Type v) where
  error : GeneralError
  executed : Option (SqlCondition β) := none
deriving DecidableEq, Repr

/-- `convert` turns a value into one of the database, and `execute` is the database. -/
def insert (convert : α → β) (execute : SqlCondition β → DBStatus) (isClosed delegate : Bool)
    (table : String) (values : List (VBucket α)) : InsertResult β :=
  if isClosed then ⟨.eAlreadyClosed, none⟩
  else
    match values with
    | [] => ⟨.eInvalidArgs, none⟩
    | value :: _ =>
        if table = "" then ⟨.eInvalidArgs, none⟩
        else
          let (columnSize, strColumnSql, strRowValueSql) := sqlConcatenate value "" ""
          if columnSize = 0 then ⟨.eInvalidArgs, none⟩
          else
            match collectRows columnSize strRowValueSql values [] "" with
            | none => ⟨.eInvalidArgs, none⟩
            | some (args, strValueSql) =>
                let sql := "INSERT INTO " ++ table ++ strColumnSql ++ " VALUES " ++
                  popBack strValueSql
                if delegate = false then ⟨.eAlreadyClosed, none⟩
                else
                  let condition := ⟨sql, args.map convert, false⟩
                  if execute condition = .ok then ⟨.eOk, some condition⟩
                  else ⟨.eError, some condition⟩

def listed (items : List String) : String :=
  match items with
  | [] => ""
  | item :: rest => join item "," rest

def insertSql (table : String) (columns : List String) (rows : Nat) : String :=
  "INSERT INTO " ++ table ++ (" (" ++ listed (columns.map (" " ++ ·)) ++ ")") ++ " VALUES " ++
    listed (List.replicate rows (" (" ++ listed (columns.map fun _ => " ?") ++ ")"))

theorem toList_foldl_items (items : List String) (init : String) :
    (items.foldl (fun sql item => sql ++ item ++ ",") init).toList =
      init.toList ++ items.flatMap fun item => item.toList ++ [','] := by
  induction items generalizing init with
  | nil => simp
  | cons item rest ih =>
      rw [List.foldl_cons, ih]
      simp

theorem popBack_foldl (init item : String) (rest : List String) :
    popBack ((item :: rest).foldl (fun sql item => sql ++ item ++ ",") init) =
      init ++ listed (item :: rest) := by
  have hcommas : ∀ (item : List Char) (rest : List String),
      item ++ [','] ++ (rest.flatMap fun item => item.toList ++ [',']) =
        item ++ (rest.flatMap fun item => [','] ++ item.toList) ++ [','] := by
    intro item rest
    induction rest generalizing item with
    | nil => simp
    | cons next rest ih =>
        have hrest := ih next.toList
        simp only [List.flatMap_cons, List.append_assoc] at hrest ⊢
        rw [hrest]
  rw [popBack, toList_foldl_items, List.flatMap_cons, hcommas, ← List.append_assoc,
    List.dropLast_concat, ← String.toList_inj, String.toList_ofList, String.toList_append, listed,
    toList_join]
  rfl

theorem collectRows_eq (columnSize : Nat) (strRowValueSql : String) (values : List (VBucket α))
    (args : List α) (strValueSql : String) :
    collectRows columnSize strRowValueSql values args strValueSql =
      if ∀ row ∈ values, row.size = columnSize then
        some (args ++ values.flatMap OrderedMap.values,
          (List.replicate values.length strRowValueSql).foldl
            (fun sql item => sql ++ item ++ ",") strValueSql)
      else none := by
  induction values generalizing args strValueSql with
  | nil => simp [collectRows]
  | cons row rest ih =>
      unfold collectRows
      by_cases hsize : row.size = columnSize
      · rw [if_neg (not_not_intro hsize), ih]
        simp [hsize, List.replicate_succ]
      · rw [if_pos hsize, if_neg]
        exact fun hall => hsize (hall row List.mem_cons_self)

theorem sqlConcatenate_of_size_pos (value : VBucket α) (hsize : 0 < value.size) :
    sqlConcatenate value "" "" =
      (value.size, " (" ++ listed (value.keys.map (" " ++ ·)) ++ ")",
        " (" ++ listed (value.keys.map fun _ => " ?") ++ ")") := by
  rw [← value.length_keys] at hsize
  obtain ⟨column, rest, hcolumns⟩ := List.exists_cons_of_length_pos hsize
  have hne : value.size ≠ 0 := by
    rw [← value.length_keys]
    omega
  have hcolumnSql := popBack_foldl " (" (" " ++ column) (rest.map (" " ++ ·))
  have hrowSql := popBack_foldl " (" " ?" (rest.map fun _ => " ?")
  rw [← List.map_cons (f := (" " ++ ·)), ← hcolumns, List.foldl_map] at hcolumnSql
  rw [← List.map_cons (f := fun _ : String => " ?") (a := column), ← hcolumns, List.foldl_map]
    at hrowSql
  rw [sqlConcatenate, if_pos hne, String.empty_append]
  simp only [hcolumnSql, hrowSql]

/-- `Insert` gets as far as the database: nothing but the number of columns is asked of the
rows. -/
structure Executes (isClosed delegate : Bool) (table : String) (first : VBucket α)
    (values : List (VBucket α)) : Prop where
  notClosed : isClosed = false
  delegate : delegate = true
  table : table ≠ ""
  columns : 0 < first.size
  sizes : ∀ row ∈ values, row.size = first.size

section

variable (convert : α → β) (execute : SqlCondition β → DBStatus) {isClosed delegate : Bool}
variable {table : String} {first : VBucket α} {rest : List (VBucket α)}

theorem insert_of_executes (h : Executes isClosed delegate table first (first :: rest)) :
    (insert convert execute isClosed delegate table (first :: rest)).executed =
      some ⟨insertSql table first.keys (first :: rest).length,
        ((first :: rest).flatMap OrderedMap.values).map convert, false⟩ := by
  have hsql := sqlConcatenate_of_size_pos first h.columns
  have hrows := popBack_foldl "" (" (" ++ listed (first.keys.map fun _ => " ?") ++ ")")
    (List.replicate rest.length (" (" ++ listed (first.keys.map fun _ => " ?") ++ ")"))
  rw [← List.replicate_succ, ← List.length_cons (a := first), String.empty_append] at hrows
  rw [insert, if_neg (by rw [h.notClosed]; decide)]
  simp only [h.table, hsql, h.columns.ne', collectRows_eq, if_pos h.sizes, hrows, h.delegate,
    if_false, List.nil_append, reduceCtorEq]
  split <;> rfl

theorem insert_of_not_executes (h : ¬ Executes isClosed delegate table first (first :: rest)) :
    (insert convert execute isClosed delegate table (first :: rest)).executed = none := by
  obtain ⟨columnSql, rowSql, hsql⟩ : ∃ columnSql rowSql,
      sqlConcatenate first "" "" = (first.size, columnSql, rowSql) :=
    ⟨_, _, Prod.ext (by unfold sqlConcatenate; split <;> rfl) rfl⟩
  rw [insert]
  simp only [hsql, collectRows_eq]
  split
  · rfl
  rename_i hclosed
  split
  · rfl
  rename_i htable
  split
  · rfl
  rename_i hcolumns
  by_cases hsizes : ∀ row ∈ first :: rest, row.size = first.size
  · have hdelegate : delegate = false := by
      by_contra hdelegate
      exact h ⟨by simpa using hclosed, by simpa using hdelegate, htable,
        Nat.pos_of_ne_zero hcolumns, hsizes⟩
    rw [if_pos hsizes]
    simp only [hdelegate, if_true]
  · rw [if_neg hsizes]

end

/-- The value bound for a row at the position of a column is the row's value of that column, and
no row and no value is left out. -/
structure BoundRight (convert : α → β) (columns : List String) (values : List (VBucket α))
    (bindArgs : List β) : Prop where
  count : bindArgs.length = values.length * columns.length
  bound : ∀ i row, values[i]? = some row → ∀ j column, columns[j]? = some column →
    ∃ value, row.find column = some value ∧
      bindArgs[i * columns.length + j]? = some (convert value)
  named : ∀ row ∈ values, ∀ column ∈ row.keys, column ∈ columns

def SameColumns (first : VBucket α) (values : List (VBucket α)) : Prop :=
  ∀ row ∈ values, ∀ column, column ∈ row.keys ↔ column ∈ first.keys

theorem boundRight_of_sameColumns (convert : α → β) {first : VBucket α}
    {values : List (VBucket α)} (h : SameColumns first values) :
    BoundRight convert first.keys values ((values.flatMap OrderedMap.values).map convert) := by
  have hcolumns : ∀ row ∈ values, row.keys = first.keys := fun row hrow =>
    row.sorted.eq_of_mem_iff first.sorted (h row hrow)
  have hlength : ∀ row ∈ values, row.values.length = first.keys.length := by
    intro row hrow
    rw [row.length_values, ← row.length_keys, hcolumns row hrow]
  refine ⟨?_, ?_, fun row hrow column => (h row hrow column).mp⟩
  · rw [List.length_map, length_flatMap_of_length hlength]
  · intro i row hrow j column hcolumn
    have hmem := List.mem_of_getElem? hrow
    obtain ⟨hj, -⟩ := List.getElem?_eq_some_iff.mp hcolumn
    have hbound := getElem?_flatMap_of_length hlength i hj
    rw [← hcolumns row hmem] at hcolumn
    have hfind := row.find_of_keys hcolumn
    have hvalue : j < row.values.length := by rw [hlength row hmem]; exact hj
    refine ⟨row.values[j], ?_, ?_⟩
    · rw [hfind, List.getElem?_eq_getElem hvalue]
    · rw [List.getElem?_map, hbound, hrow]
      simp [List.getElem?_eq_getElem hvalue]

/-- What is promised of an insertion: whatever is executed binds every value to its column, and
rows with other columns than the first are turned away before anything is executed. -/
structure InsertsRight (convert : α → β) (execute : SqlCondition β → DBStatus)
    (isClosed delegate : Bool) (table : String) (values : List (VBucket α)) : Prop where
  bound : ∀ first ∈ values.head?, ∀ condition,
    (insert convert execute isClosed delegate table values).executed = some condition →
      condition.sql = insertSql table first.keys values.length ∧
        BoundRight convert first.keys values condition.bindArgs
  rejected : ∀ first ∈ values.head?, ¬ SameColumns first values →
    (insert convert execute isClosed delegate table values).executed = none

/-- An insertion is right exactly if the rows that pass the comparison of their sizes have the
columns of the first one. -/
theorem inserts_right_iff (convert : α → β) (execute : SqlCondition β → DBStatus)
    (isClosed delegate : Bool) (table : String) (values : List (VBucket α)) :
    InsertsRight convert execute isClosed delegate table values ↔
      ∀ first ∈ values.head?, Executes isClosed delegate table first values →
        SameColumns first values := by
  constructor
  · intro h first hfirst hexecutes
    by_contra hother
    have hnone := h.rejected first hfirst hother
    obtain ⟨rest, rfl⟩ := List.head?_eq_some_iff.mp hfirst
    rw [insert_of_executes convert execute hexecutes] at hnone
    cases hnone
  · intro h
    refine ⟨?_, ?_⟩
    · intro first hfirst condition hcondition
      have hsame := h first hfirst
      obtain ⟨rest, rfl⟩ := List.head?_eq_some_iff.mp hfirst
      by_cases hexecutes : Executes isClosed delegate table first (first :: rest)
      · rw [insert_of_executes convert execute hexecutes] at hcondition
        cases hcondition
        exact ⟨rfl, boundRight_of_sameColumns convert (hsame hexecutes)⟩
      · rw [insert_of_not_executes convert execute hexecutes] at hcondition
        cases hcondition
    · intro first hfirst hother
      have hsame := h first hfirst
      obtain ⟨rest, rfl⟩ := List.head?_eq_some_iff.mp hfirst
      exact insert_of_not_executes convert execute fun hexecutes => hother (hsame hexecutes)

/-- The second row has a column `c` and no column `b`. -/
def noteRows : List (VBucket Nat) :=
  [⟨[("a", 1), ("b", 2)], by decide⟩, ⟨[("a", 3), ("c", 4)], by decide⟩]

/-- The second row's value of `c` is bound to `b`, and the insertion succeeds. -/
theorem value_bound_to_other_column :
    insert id (fun _ => .ok) false true "notes" noteRows =
        ⟨.eOk, some ⟨"INSERT INTO notes ( a, b) VALUES  ( ?, ?), ( ?, ?)", [1, 2, 3, 4], false⟩⟩ ∧
      ¬ InsertsRight id (fun _ => .ok) false true "notes" noteRows := by
  have hrun : insert id (fun _ => .ok) false true "notes" noteRows =
      ⟨.eOk, some ⟨"INSERT INTO notes ( a, b) VALUES  ( ?, ?), ( ?, ?)", [1, 2, 3, 4], false⟩⟩ := by
    decide +kernel
  refine ⟨hrun, fun h => ?_⟩
  have hbound := (h.bound _ rfl _ (by rw [hrun])).2.bound 1 _ rfl 1 "b" rfl
  obtain ⟨value, hvalue, -⟩ := hbound
  have hnone : OrderedMap.find (⟨[("a", 3), ("c", 4)], by decide⟩ : VBucket Nat) "b" = none := by
    decide
  cases hvalue

end DataMgr.Rdb
