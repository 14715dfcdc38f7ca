import Mathlib

/-! # String and batch helpers

`Constant::Join`, `Constant::Concatenate`, `Constant::Split`,
`Constant::BatchProcess` and `Constant::IsValidPath`. A key of the metadata store is a fixed word
followed by fields, each after the separator, and records are read back by a prefix of their key.
-/

namespace DataMgr.Utils

def keySeparator : String := "###"

def concatenate (stringList : List String) : String := stringList.foldl (· ++ ·) ""

variable (init separator : String)

def join (params : List String) : String :=
  params.foldl (fun result str => result ++ separator ++ str) init

def notEqual (first second : Bool) : Bool := (first || second) && (!first || !second)

@[simp] theorem notEqual_eq_false_iff {first second : Bool} :
    notEqual first second = false ↔ first = second := by
  cases first <;> cases second <;> decide

theorem toList_join (params : List String) :
    (join init separator params).toList =
      init.toList ++ params.flatMap fun str => separator.toList ++ str.toList := by
  induction params generalizing init with
  | nil => simp [join]
  | cons str rest ih =>
      have hstep : join init separator (str :: rest) =
          join (init ++ separator ++ str) separator rest := rfl
      rw [hstep, ih]
      simp [String.toList_append]

theorem join_append (params rest : List String) :
    join init separator (params ++ rest) = join (join init separator params) separator rest := by
  simp [join, List.foldl_append]

/-- A key that starts with the given text, the test behind every prefix query. -/
def HasPrefix (start key : String) : Prop := start.toList <+: key.toList

instance (start key : String) : Decidable (HasPrefix start key) :=
  inferInstanceAs (Decidable (start.toList <+: key.toList))

/-! ## Fields of a key

A field without `#` can be read back from a key, since every separator starts with one.
-/

theorem toList_join_cons (init separator field : String) (rest : List String) :
    (join init separator (field :: rest)).toList =
      init.toList ++ (separator.toList ++ (field.toList ++
        rest.flatMap fun str => separator.toList ++ str.toList)) := by
  simp [toList_join]

theorem join_cons_congr {init separator field : String} {rest rest' : List String}
    (h : join init separator (field :: rest) = join init separator (field :: rest'))
    (other : String) :
    join init separator (other :: rest) = join init separator (other :: rest') := by
  rw [← String.toList_inj, toList_join_cons, toList_join_cons] at h ⊢
  have htail := List.append_cancel_left (List.append_cancel_left (List.append_cancel_left h))
  rw [htail]

theorem takeWhile_field (field : List Char) (rest : List String) (h : '#' ∉ field) :
    (field ++ rest.flatMap fun str => keySeparator.toList ++ str.toList).takeWhile (· ≠ '#') =
      field := by
  have hfield : ∀ c ∈ field, decide (c ≠ '#') = true := by
    intro c hc
    simp only [ne_eq, decide_eq_true_eq]
    intro heq
    exact h (heq ▸ hc)
  rw [List.takeWhile_append_of_pos hfield]
  cases rest with
  | nil => simp
  | cons str rest => simp [keySeparator]

theorem dropWhile_field (field : List Char) (rest : List String) (h : '#' ∉ field) :
    (field ++ rest.flatMap fun str => keySeparator.toList ++ str.toList).dropWhile (· ≠ '#') =
      rest.flatMap fun str => keySeparator.toList ++ str.toList := by
  have hsplit := List.takeWhile_append_dropWhile (p := fun c => decide (c ≠ '#'))
    (l := field ++ rest.flatMap fun str => keySeparator.toList ++ str.toList)
  rw [takeWhile_field field rest h] at hsplit
  exact List.append_cancel_left hsplit

theorem join_cons_ne {field other : String} (hfield : '#' ∉ field.toList)
    (hother : '#' ∉ other.toList) (h : field ≠ other) (init : String) (rest rest' : List String) :
    join init keySeparator (field :: rest) ≠ join init keySeparator (other :: rest') := by
  intro heq
  rw [← String.toList_inj, toList_join_cons, toList_join_cons] at heq
  have htail := congrArg (List.takeWhile (· ≠ '#'))
    (List.append_cancel_left (List.append_cancel_left heq))
  rw [takeWhile_field _ _ hfield, takeWhile_field _ _ hother] at htail
  exact h (String.toList_inj.mp htail)

theorem join_inj {init : String} {fields fields' : List String}
    (hfields : ∀ field ∈ fields, '#' ∉ field.toList)
    (hfields' : ∀ field ∈ fields', '#' ∉ field.toList)
    (h : join init keySeparator fields = join init keySeparator fields') : fields = fields' := by
  rw [← String.toList_inj, toList_join, toList_join] at h
  have htail := List.append_cancel_left h
  clear h
  induction fields generalizing fields' with
  | nil =>
      cases fields' with
      | nil => rfl
      | cons field' rest' => simp [keySeparator] at htail
  | cons field rest ih =>
      cases fields' with
      | nil => simp [keySeparator] at htail
      | cons field' rest' =>
          simp only [List.mem_cons, forall_eq_or_imp] at hfields hfields'
          simp only [List.flatMap_cons, List.append_assoc] at htail
          have hbody := List.append_cancel_left htail
          have hhead := congrArg (List.takeWhile (· ≠ '#')) hbody
          have hrest := congrArg (List.dropWhile (· ≠ '#')) hbody
          rw [takeWhile_field _ _ hfields.1, takeWhile_field _ _ hfields'.1] at hhead
          rw [dropWhile_field _ _ hfields.1, dropWhile_field _ _ hfields'.1] at hrest
          rw [String.toList_inj.mp hhead, ih hfields.2 hfields'.2 hrest]

theorem not_mem_repr {c : Char} (h : c.isDigit = false) (n : Nat) : c ∉ n.repr.toList := by
  intro hmem
  rw [Nat.repr, String.toList_ofList] at hmem
  have hdigit := Nat.isDigit_of_mem_toDigits (by decide) (by decide) hmem
  rw [h] at hdigit
  cases hdigit

theorem not_mem_number {c : Char} (hdigit : c.isDigit = false) (hsign : c ≠ '-') (n : Int) :
    c ∉ (toString n).toList := by
  cases n with
  | ofNat n => exact not_mem_repr hdigit n
  | negSucc n =>
      have htext : toString (Int.negSucc n) = "-" ++ (n + 1).repr := rfl
      rw [htext, String.toList_append, List.mem_append]
      intro h
      cases h with
      | inl hminus => exact hsign (List.mem_singleton.mp hminus)
      | inr hdigits => exact not_mem_repr hdigit (n + 1) hdigits

theorem toString_int_injective {m n : Int} (h : toString m = toString n) : m = n := by
  have hsign : ∀ k : Nat, '-' ∉ k.repr.toList := not_mem_repr (by decide)
  have htext : ∀ k : Nat, (toString (Int.negSucc k)).toList = '-' :: (k + 1).repr.toList := by
    intro k
    change ("-" ++ (k + 1).repr).toList = _
    rw [String.toList_append]
    rfl
  cases m with
  | ofNat m =>
      cases n with
      | ofNat n => exact congrArg Int.ofNat (Nat.repr_injective h)
      | negSucc n =>
          refine absurd ?_ (hsign m)
          change '-' ∈ (toString (Int.ofNat m)).toList
          rw [h, htext]
          exact List.mem_cons_self
  | negSucc m =>
      cases n with
      | ofNat n =>
          refine absurd ?_ (hsign n)
          change '-' ∈ (toString (Int.ofNat n)).toList
          rw [← h, htext]
          exact List.mem_cons_self
      | negSucc n =>
          have htail := congrArg String.toList h
          rw [htext, htext, List.cons.injEq] at htail
          have hnat := Nat.repr_injective (String.toList_inj.mp htail.2)
          rw [Nat.succ.inj hnat]

/-- A field that is followed by a separator is matched as a whole. -/
theorem prefix_field_iff {field other : List Char} (hfield : '#' ∉ field) (hother : '#' ∉ other)
    (rest rest' : List Char) :
    field ++ '#' :: rest <+: other ++ '#' :: rest' ↔ field = other ∧ rest <+: rest' := by
  induction field generalizing other with
  | nil =>
      cases other with
      | nil => simp [List.cons_prefix_cons]
      | cons c other =>
          have hne : '#' ≠ c := fun heq => hother (heq ▸ List.mem_cons_self)
          simp [List.cons_prefix_cons, hne]
  | cons c field ih =>
      have hc : c ≠ '#' := fun heq => hfield (heq ▸ List.mem_cons_self)
      cases other with
      | nil => simp [List.cons_prefix_cons, hc]
      | cons d other =>
          have hrest := ih (fun h => hfield (List.mem_cons_of_mem _ h))
            (fun h => hother (List.mem_cons_of_mem _ h))
          rw [List.cons_append, List.cons_append, List.cons_prefix_cons, hrest, List.cons.injEq,
            and_assoc]

/-- A field that ends the prefix matches every field it is a prefix of. -/
theorem prefix_last_field_iff {field other : List Char} (hfield : '#' ∉ field) (rest : List Char) :
    field <+: other ++ '#' :: rest ↔ field <+: other := by
  induction field generalizing other with
  | nil => simp
  | cons c field ih =>
      have hc : c ≠ '#' := fun heq => hfield (heq ▸ List.mem_cons_self)
      cases other with
      | nil => simp [List.cons_prefix_cons, hc]
      | cons d other =>
          have hplain : '#' ∉ field := fun h => hfield (List.mem_cons_of_mem _ h)
          rw [List.cons_append, List.cons_prefix_cons, ih hplain, List.cons_prefix_cons]

/-- The text before the first occurrence of the delimiter and the text after it. -/
def findDelim (delim : List Char) : List Char → Option (List Char × List Char)
  | [] => none
  | c :: rest =>
      if delim <+: c :: rest then some ([], (c :: rest).drop delim.length)
      else (findDelim delim rest).map fun found => (c :: found.1, found.2)

/-- The rounds of `Split`. Each takes at least the delimiter, so as many rounds as there
are characters are enough. A delimiter at the end leaves no empty last token. -/
def splitLoop (delim : List Char) : Nat → List Char → List (List Char)
  | 0, _ => []
  | _ + 1, [] => []
  | fuel + 1, c :: rest =>
      match findDelim delim (c :: rest) with
      | none => [c :: rest]
      | some (token, after) => token :: splitLoop delim fuel after

def split (str delim : String) : List String :=
  if str = "" then [str]
  else (splitLoop delim.toList str.toList.length str.toList).map String.ofList

def isSpace (c : Char) : Bool := c.isWhitespace || c == '\x0b' || c == '\x0c'

/-- `atoi`: white space, a sign, then digits up to the first other character. -/
def atoi (str : String) : Int :=
  let digits := fun (text : List Char) =>
    ((text.takeWhile Char.isDigit).foldl (fun n c => 10 * n + (c.toNat - '0'.toNat)) 0 : Nat)
  match str.toList.dropWhile isSpace with
  | '-' :: rest => - (digits rest : Int)
  | '+' :: rest => digits rest
  | text => digits text

section

variable {α σ : Type}

/-- The rounds of `BatchProcess`. Each takes at least one element, so as many rounds
as there are elements are enough. -/
def batchLoop (batchSize : Nat) (action : σ → List α → σ × Bool) : Nat → List α → σ → σ × Bool
  | 0, _, s => (s, true)
  | _ + 1, [], s => (s, true)
  | fuel + 1, x :: rest, s =>
      match action s ((x :: rest).take batchSize) with
      | (s', false) => (s', false)
      | (s', true) => batchLoop batchSize action fuel ((x :: rest).drop batchSize) s'

def batchProcess (value : List α) (batchSize : Nat) (action : σ → List α → σ × Bool) (s : σ) :
    σ × Bool :=
  batchLoop batchSize action value.length value s

/-- The batches that `BatchProcess` takes if no action fails. -/
def batchesLoop (batchSize : Nat) : Nat → List α → List (List α)
  | 0, _ => []
  | _ + 1, [] => []
  | fuel + 1, x :: rest =>
      (x :: rest).take batchSize :: batchesLoop batchSize fuel ((x :: rest).drop batchSize)

def batches (value : List α) (batchSize : Nat) : List (List α) :=
  batchesLoop batchSize value.length value

/-- The actions on given batches, up to the first that fails. -/
def runBatches (action : σ → List α → σ × Bool) : List (List α) → σ → σ × Bool
  | [], s => (s, true)
  | batch :: rest, s =>
      match action s batch with
      | (s', false) => (s', false)
      | (s', true) => runBatches action rest s'

theorem batchProcess_eq (value : List α) (batchSize : Nat) (action : σ → List α → σ × Bool)
    (s : σ) : batchProcess value batchSize action s =
      runBatches action (batches value batchSize) s := by
  unfold batchProcess batches
  generalize value.length = fuel
  induction fuel generalizing value s with
  | zero => rfl
  | succ fuel ih =>
      cases value with
      | nil => rfl
      | cons x rest =>
          rw [batchLoop, batchesLoop, runBatches]
          split
          · rfl
          · exact ih _ _

theorem flatten_batches {batchSize : Nat} (h : 0 < batchSize) (value : List α) :
    (batches value batchSize).flatten = value := by
  have hloop : ∀ (fuel : Nat) (value : List α), value.length ≤ fuel →
      (batchesLoop batchSize fuel value).flatten = value := by
    intro fuel
    induction fuel with
    | zero =>
        intro value hlen
        rw [List.eq_nil_of_length_eq_zero (Nat.le_zero.mp hlen)]
        rfl
    | succ fuel ih =>
        intro value hlen
        cases value with
        | nil => rfl
        | cons x rest =>
            have hrest : ((x :: rest).drop batchSize).length ≤ fuel := by
              simp only [List.length_drop, List.length_cons] at hlen ⊢
              omega
            rw [batchesLoop, List.flatten_cons, ih _ hrest, List.take_append_drop]
  exact hloop value.length value le_rfl

end

def fileSeparatorChar : Char := '/'

def pathInvalidFlagTrailing : List Char := "/..".toList

def pathInvalidFlagLen : Nat := 3

/-- The loop over the matches of the leading flag, from a position on: whether one stands at
the start or after a separator. `before` is the character before the position, if any. -/
def leadingInvalid (before : Option Char) : List Char → Bool
  | '.' :: '.' :: '/' :: rest =>
      if before = none ∨ before = some fileSeparatorChar then true
      -- the search goes on behind the match
      else leadingInvalid (some '/') rest
  | c :: rest => leadingInvalid (some c) rest
  | [] => false

def rfind (flag : List Char) : List Char → Option Nat
  | [] => none
  | c :: rest =>
      match rfind flag rest with
      | some pos => some (pos + 1)
      | none => if flag <+: c :: rest then some 0 else none

def isValidPath (path : String) : Bool :=
  if path = ".." || path.toList.contains '\\' then false
  else if leadingInvalid none path.toList then false
  else
    match rfind pathInvalidFlagTrailing path.toList with
    | some pos => path.toList.length - pos ≠ pathInvalidFlagLen
    | none => true

theorem leadingInvalid_iff (before : Option Char) (path : List Char) :
    leadingInvalid before path = true ↔
      ((before = none ∨ before = some '/') ∧ "../".toList <+: path) ∨ "/../".toList <:+: path := by
  fun_induction leadingInvalid before path with
  | case1 before rest hfresh => simpa [List.cons_prefix_cons] using .inl hfresh
  | case2 before rest hfresh ih =>
      have hold : ¬ (before = none ∨ before = some '/') := hfresh
      simp [ih, hold, List.infix_cons_iff, List.cons_prefix_cons]
  | case3 before c rest hflag ih =>
      have hnone : ¬ "../".toList <+: c :: rest := by
        rintro ⟨rest', hrest⟩
        cases hrest
        exact hflag rest' rfl rfl
      simp only [ih, hnone, and_false, false_or, List.infix_cons_iff]
      simp [List.cons_prefix_cons, eq_comm]
  | case4 before => simp

theorem rfind_at_end_iff (path : List Char) :
    (∃ pos, rfind pathInvalidFlagTrailing path = some pos ∧
      path.length - pos = pathInvalidFlagLen) ↔ "/..".toList <:+ path := by
  induction path with
  | nil => simp [rfind]
  | cons c rest ih =>
      rw [List.suffix_cons_iff, ← ih, rfind]
      cases hlater : rfind pathInvalidFlagTrailing rest with
      | some pos =>
          have hne : "/..".toList ≠ c :: rest := by
            intro heq
            cases heq
            cases hlater
          simp only [Option.some.injEq, exists_eq_left', hne, false_or, List.length_cons,
            Nat.add_sub_add_right]
      | none =>
          have hflag : pathInvalidFlagTrailing = "/..".toList := rfl
          simp only [hflag, reduceCtorEq, false_and, exists_false, or_false]
          constructor
          · rintro ⟨pos, hpos, hlength⟩
            split at hpos
            · rename_i hstart
              cases hpos
              exact hstart.eq_of_length hlength.symm
            · cases hpos
          · rintro heq
            rw [← heq]
            exact ⟨0, if_pos List.prefix_rfl, rfl⟩

theorem splitOn_of_not_mem {name : List Char} (h : '/' ∉ name) : name.splitOn '/' = [name] :=
  List.splitOnP_eq_singleton fun _ hc => beq_false_of_ne fun heq => h (heq ▸ hc)

theorem mem_splitOn_iff {name path : List Char} (hname : '/' ∉ name) :
    name ∈ path.splitOn '/' ↔ path = name ∨ name ++ ['/'] <+: path ∨ '/' :: name <:+ path ∨
      '/' :: (name ++ ['/']) <:+: path := by
  have hsplit := splitOn_of_not_mem hname
  constructor
  · induction hn : path.length using Nat.strong_induction_on generalizing path with
    | _ n ih =>
        intro hmem
        by_cases hslash : '/' ∈ path
        · obtain ⟨first, rest, rfl, hfirst⟩ := List.eq_append_cons_of_mem hslash
          rw [List.splitOn_append_cons_self, splitOn_of_not_mem hfirst, List.singleton_append,
            List.mem_cons] at hmem
          rcases hmem with rfl | hlater
          · exact .inr (.inl ⟨rest, by simp⟩)
          rcases ih rest.length (by simp [← hn]; omega) rfl hlater with
            rfl | ⟨after, rfl⟩ | ⟨mid, rfl⟩ | ⟨mid, after, rfl⟩
          · exact .inr (.inr (.inl ⟨first, rfl⟩))
          · exact .inr (.inr (.inr ⟨first, after, by simp⟩))
          · exact .inr (.inr (.inl ⟨first ++ '/' :: mid, by simp⟩))
          · exact .inr (.inr (.inr ⟨first ++ '/' :: mid, after, by simp⟩))
        · rw [splitOn_of_not_mem hslash, List.mem_singleton] at hmem
          exact .inl hmem.symm
  · rintro (rfl | ⟨after, rfl⟩ | ⟨start, rfl⟩ | ⟨start, after, rfl⟩)
    all_goals simp [List.splitOn_append_cons_self, hsplit]

/-- A path is valid exactly if it has no backslash and no component `..`. -/
theorem isValidPath_iff (path : String) :
    isValidPath path = true ↔ '\\' ∉ path.toList ∧
      ∀ component ∈ path.toList.splitOn '/', component ≠ "..".toList := by
  have hdots : (∀ component ∈ path.toList.splitOn '/', component ≠ "..".toList) ↔
      "..".toList ∉ path.toList.splitOn '/' :=
    ⟨fun h hmem => h _ hmem rfl, fun h component hmem heq => h (heq ▸ hmem)⟩
  have htests : isValidPath path = true ↔ ¬ (path = ".." ∨ '\\' ∈ path.toList) ∧
      ¬ leadingInvalid none path.toList = true ∧
      ¬ ∃ pos, rfind pathInvalidFlagTrailing path.toList = some pos ∧
        path.toList.length - pos = pathInvalidFlagLen := by
    unfold isValidPath
    cases rfind pathInvalidFlagTrailing path.toList <;> simp
  have halone : path = ".." ↔ path.toList = "..".toList := String.toList_inj.symm
  rw [hdots, mem_splitOn_iff (by decide), htests, leadingInvalid_iff, rfind_at_end_iff, halone]
  have hstart : "..".toList ++ ['/'] = "../".toList := rfl
  have hlast : '/' :: "..".toList = "/..".toList := rfl
  have hinner : '/' :: "../".toList = "/../".toList := rfl
  tauto

end DataMgr.Utils
