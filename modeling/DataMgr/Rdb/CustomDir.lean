import DataMgr.Utils.Constant

/-! # Custom directories

`IsValidCustomDir` counts the components that go up against those that go down. The count is
the depth below the highest directory that the limit allows, at every step of the walk.
-/

namespace DataMgr.Rdb

open DataMgr.Utils

/-- The loop over the components, with `up`. -/
def customDirLoop (upLimit : Int) : Int → List String → Bool
  | _, [] => true
  | up, comp :: rest =>
      if comp = "" ∨ comp = "." then customDirLoop upLimit up rest
      else if comp ≠ ".." then customDirLoop upLimit (up - 1) rest
      else if up + 1 > upLimit then false
      else customDirLoop upLimit (up + 1) rest

def isValidCustomDir (customDir : String) (upLimit : Int) : Bool :=
  if customDir = "" then true
  else if customDir.toList.head? = some '/' then false
  else customDirLoop upLimit 0 (split customDir "/")

/-- One component, from a directory that is `depth` levels below the root: the new depth, or
none if it goes above the root. -/
def walkStep (depth : Nat) (component : String) : Option Nat :=
  if component = "" ∨ component = "." then some depth
  else if component = ".." then if depth = 0 then none else some (depth - 1)
  else some (depth + 1)

def walk (depth : Nat) (components : List String) : Option Nat := components.foldlM walkStep depth

/-- The parts of a text between slashes. -/
def slashParts (text : List Char) : List String := (text.splitOn '/').map String.ofList

theorem walk_cons (depth : Nat) (component : String) (rest : List String) :
    walk depth (component :: rest) = (walkStep depth component).bind (walk · rest) := rfl

/-- What is left to the limit is the depth of the walk. -/
theorem customDirLoop_eq (upLimit : Int) (depth : Nat) (components : List String) :
    customDirLoop upLimit (upLimit - depth) components = (walk depth components).isSome := by
  induction components generalizing depth with
  | nil => rfl
  | cons component rest ih =>
      rw [customDirLoop, walk_cons, walkStep]
      by_cases hstay : component = "" ∨ component = "."
      · rw [if_pos hstay, if_pos hstay]
        exact ih depth
      rw [if_neg hstay, if_neg hstay]
      by_cases hup : component = ".."
      · rw [if_neg (not_not_intro hup), if_pos hup]
        cases depth with
        | zero => rw [if_pos (by omega)]; rfl
        | succ above =>
            have hone : upLimit - (above + 1 : Nat) + 1 = upLimit - above := by omega
            rw [hone, if_neg (by omega), if_neg (Nat.succ_ne_zero above)]
            exact ih above
      · have hone : upLimit - depth - 1 = upLimit - (depth + 1 : Nat) := by omega
        rw [if_pos hup, if_neg hup, hone]
        exact ih (depth + 1)

theorem findDelim_single (c : Char) (text : List Char) :
    match findDelim [c] text with
    | none => c ∉ text
    | some (token, after) => text = token ++ c :: after ∧ c ∉ token := by
  induction text with
  | nil => simp [findDelim]
  | cons d rest ih =>
      by_cases hd : c = d
      · simp [findDelim, hd]
      · have hne : ¬ [c] <+: d :: rest := by simp [hd]
        rw [findDelim, if_neg hne]
        cases hfound : findDelim [c] rest with
        | none =>
            rw [hfound] at ih
            simpa [hd] using ih
        | some found =>
            rw [hfound] at ih
            simpa [hd] using ih

/-- `Split` leaves out an empty last component, which the walk does not notice. -/
theorem walk_splitLoop (fuel depth : Nat) (text : List Char) (hfuel : text.length ≤ fuel) :
    walk depth ((splitLoop ['/'] fuel text).map String.ofList) = walk depth (slashParts text) := by
  induction fuel generalizing depth text with
  | zero => rw [List.eq_nil_of_length_eq_zero (Nat.le_zero.mp hfuel)]; rfl
  | succ fuel ih =>
      cases text with
      | nil => rfl
      | cons c rest =>
          have hdelim := findDelim_single '/' (c :: rest)
          rw [splitLoop]
          cases hfound : findDelim ['/'] (c :: rest) with
          | none =>
              rw [hfound] at hdelim
              rw [slashParts, List.splitOn_eq_singleton hdelim]
          | some found =>
              obtain ⟨token, after⟩ := found
              rw [hfound] at hdelim
              obtain ⟨htext, htoken⟩ := hdelim
              have hafter : after.length ≤ fuel := by
                rw [htext, List.length_append, List.length_cons] at hfuel
                omega
              rw [htext, slashParts, List.splitOn_append_cons_self_of_not_mem htoken]
              simp only [List.map_cons, walk_cons, ih _ _ hafter, slashParts]

/-- The check accepts exactly the relative directories whose walk stays below the limit. -/
theorem isValidCustomDir_iff (customDir : String) (upLimit : Nat) :
    isValidCustomDir customDir upLimit = true ↔
      customDir.toList.head? ≠ some '/' ∧
        (walk upLimit (slashParts customDir.toList)).isSome = true := by
  unfold isValidCustomDir split
  by_cases hempty : customDir = ""
  · subst hempty
    simp [walk, walkStep, slashParts]
  by_cases hroot : customDir.toList.head? = some '/'
  · simp [hempty, hroot]
  have hloop := customDirLoop_eq upLimit upLimit
    ((splitLoop ['/'] customDir.toList.length customDir.toList).map String.ofList)
  rw [Int.sub_self, walk_splitLoop _ _ _ le_rfl] at hloop
  rw [if_neg hempty, if_neg hroot, if_neg hempty]
  exact (Bool.eq_iff_iff.mp hloop).trans (and_iff_right hroot).symm

end DataMgr.Rdb
