import Mathlib

/-! # The query of a uri

`FormatConstUri` cuts a uri at its last question mark, and `GetQueryParams` reads what follows its
first one. A character position that is not found is the length of the text, as `List.idxOf` has it.
-/

namespace DataMgr.DataShare

abbrev Text := List Char

abbrev QueryParams := Text → Option Text

/-- The text up to its last question mark. -/
def formatConstUri (uri : Text) : Text :=
  if '?' ∈ uri then (uri.rdropWhile (· ≠ '?')).dropLast else uri

/-- The rounds of the loop from `startPos` on. Each takes a character at least, so as many rounds as
there are characters are enough. -/
def queryLoop : Nat → QueryParams → Text → QueryParams
  | 0, params, _ => params
  | _ + 1, params, [] => params
  | fuel + 1, params, c :: rest =>
      let query := c :: rest
      let delimiterIndex := query.idxOf '&'
      let equalIndex := query.idxOf '='
      let next := query.drop (delimiterIndex + 1)
      if equalIndex = query.length ∨ equalIndex > delimiterIndex then queryLoop fuel params next
      else
        let key := query.take equalIndex
        let value := (query.drop (equalIndex + 1)).take (delimiterIndex - equalIndex - 1)
        queryLoop fuel (Function.update params key (some value)) next

def getQueryParams (uri : Text) : QueryParams :=
  if '?' ∈ uri then
    let queryParams := uri.drop (uri.idxOf '?' + 1)
    queryLoop queryParams.length (fun _ => none) queryParams
  else fun _ => none

/-- The pair of a part, if it has an equals sign, is set. -/
def setPair (params : QueryParams) (part : Text) : QueryParams :=
  if '=' ∈ part then
    Function.update params (part.take (part.idxOf '=')) (some (part.drop (part.idxOf '=' + 1)))
  else params

/-- The pairs between ampersands; of those with one key the last. -/
def lastPairs (params : QueryParams) (query : Text) : QueryParams :=
  (query.splitOn '&').foldl setPair params

/-- One round takes the part up to the next ampersand. -/
theorem queryLoop_part (fuel : Nat) (params : QueryParams) {part rest : Text} (hpart : '&' ∉ part)
    (hrest : rest = [] ∨ ∃ after, rest = '&' :: after) (hne : part ++ rest ≠ []) :
    queryLoop (fuel + 1) params (part ++ rest) =
      queryLoop fuel (setPair params part) (rest.drop 1) := by
  have hdelimiter : (part ++ rest).idxOf '&' = part.length := by
    rw [List.idxOf_append_of_notMem hpart]
    rcases hrest with rfl | ⟨after, rfl⟩ <;> simp
  have hnext : (part ++ rest).drop (part.length + 1) = rest.drop 1 := by
    rw [List.drop_append, List.drop_of_length_le (Nat.le_succ _), Nat.add_sub_cancel_left,
      List.nil_append]
  obtain ⟨c, cs, hquery⟩ := List.exists_cons_of_ne_nil hne
  unfold setPair
  rw [hquery, queryLoop, ← hquery]
  rw [hdelimiter, hnext]
  by_cases hequal : '=' ∈ part
  · have hlt := List.idxOf_lt_length_of_mem hequal
    have hindex : (part ++ rest).idxOf '=' = part.idxOf '=' := List.idxOf_append_of_mem hequal
    rw [hindex, if_pos hequal, if_neg (by simp only [List.length_append]; omega),
      List.take_append_of_le_length hlt.le, List.drop_append_of_le_length hlt,
      List.take_left' (by simp only [List.length_drop]; omega)]
  · rw [if_neg hequal, if_pos ?_]
    rw [List.idxOf_append_of_notMem hequal]
    rcases hrest with rfl | ⟨after, rfl⟩
    · simp
    · simp

theorem queryLoop_eq (fuel : Nat) (params : QueryParams) (query : Text) (h : query.length ≤ fuel) :
    queryLoop fuel params query = lastPairs params query := by
  induction fuel generalizing params query with
  | zero =>
      rw [List.length_eq_zero_iff.mp (Nat.le_zero.mp h)]
      rfl
  | succ fuel ih =>
      by_cases hnil : query = []
      · rw [hnil]
        rfl
      by_cases hmem : '&' ∈ query
      · obtain ⟨part, after, rfl, hpart⟩ := List.eq_append_cons_of_mem hmem
        rw [queryLoop_part fuel params hpart (.inr ⟨after, rfl⟩) hnil, List.drop_one,
          List.tail_cons, ih, lastPairs, lastPairs, List.splitOn_append_cons_self_of_not_mem hpart,
          List.foldl_cons]
        simp only [List.length_append, List.length_cons] at h
        omega
      · have hround := queryLoop_part fuel params hmem (.inl rfl) (by simpa using hnil)
        rw [List.append_nil, List.drop_nil] at hround
        rw [hround, lastPairs, List.splitOn_eq_singleton hmem]
        cases fuel <;> rfl

theorem formatConstUri_append (address : Text) {query : Text} (h : '?' ∉ query) :
    formatConstUri (address ++ '?' :: query) = address := by
  have hall : ∀ c ∈ query.reverse, decide (c ≠ '?') = true := by
    intro c hc
    simpa using ne_of_mem_of_not_mem (List.mem_reverse.mp hc) h
  rw [formatConstUri, if_pos (by simp), List.rdropWhile, List.reverse_append, List.reverse_cons,
    List.append_assoc, List.dropWhile_append_of_pos hall]
  simp

theorem drop_address (address query : Text) :
    (address ++ '?' :: query).drop (address.length + 1) = query := by
  simp

theorem getQueryParams_append {address : Text} (h : '?' ∉ address) (query : Text) :
    getQueryParams (address ++ '?' :: query) = lastPairs (fun _ => none) query := by
  have hindex : (address ++ '?' :: query).idxOf '?' = address.length := by
    rw [List.idxOf_append_of_notMem h]
    simp
  rw [getQueryParams, if_pos (by simp), hindex, drop_address]
  exact queryLoop_eq _ _ _ le_rfl

/-- No question mark is left and the pairs of what is cut off are the parameters, exactly if the
uri has one question mark at most. -/
theorem query_split_iff (uri : Text) :
    ('?' ∉ formatConstUri uri ∧ ('?' ∈ uri → getQueryParams uri =
      lastPairs (fun _ => none) (uri.drop ((formatConstUri uri).length + 1)))) ↔
      uri.count '?' ≤ 1 := by
  by_cases hmem : '?' ∈ uri
  · obtain ⟨query, address, hreverse, hquery⟩ :=
      List.eq_append_cons_of_mem (List.mem_reverse.mpr hmem)
    obtain rfl : uri = address.reverse ++ '?' :: query.reverse := by
      simpa using congrArg List.reverse hreverse
    have hlast : '?' ∉ query.reverse := by simpa using hquery
    rw [formatConstUri_append _ hlast, List.count_append, List.count_cons_self,
      List.count_eq_zero.mpr hlast]
    constructor
    · intro hright
      rw [List.count_eq_zero.mpr hright.1]
    · intro hcount
      have hnone : '?' ∉ address.reverse := List.count_eq_zero.mp (by omega)
      refine ⟨hnone, fun _ => ?_⟩
      rw [getQueryParams_append hnone, drop_address]
  · simp [formatConstUri, hmem, List.count_eq_zero.mpr hmem]

/-- The second question mark is where the address is cut, and the first one where the query
starts. -/
theorem parameter_in_address :
    formatConstUri "a?user=1?b".toList = "a?user=1".toList ∧
      getQueryParams "a?user=1?b".toList "user".toList = some "1?b".toList := by
  decide

end DataMgr.DataShare
