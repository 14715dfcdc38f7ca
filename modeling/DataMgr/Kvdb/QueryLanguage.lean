import DataMgr.Kvdb.QueryClauses

/-! # The language of query strings

A query is a sequence of complete clauses. The reader takes exactly this language, except
that it takes a list that is not closed as an empty one, stops after 501 clauses, and
expects a key prefix wherever the text of the query contains its keyword.
-/

namespace DataMgr.Kvdb

open Clause

section

variable {δ : Type} {env : QueryEnv δ} {s s' : QueryState δ}

def ProperAll (clauses : List Clause) : Prop := ∀ clause ∈ clauses, clause.Proper

def QueryState.afterAll (env : QueryEnv δ) (s : QueryState δ) (clauses : List Clause) :
    QueryState δ :=
  clauses.foldl (QueryState.after env) s

variable {list : OpenList} {clauses : List Clause}

/-- The first round reads the first clause. -/
theorem handleKeyword_spell (env : QueryEnv δ) (s : QueryState δ) {clause : Clause}
    (h : ProperAll (clause :: clauses)) (rest : List String) :
    ∃ keyword left, spell (clause :: clauses) ++ rest = keyword :: left ∧
      handleKeyword env keyword s (keyword :: left) =
        some (s.after env clause, spell clauses ++ rest) := by
  obtain ⟨keyword, left, hwords, hhandler⟩ := handleKeyword_eq env clause
  have hread := handler_words env s (h clause List.mem_cons_self) (spell clauses ++ rest)
  rw [hwords] at hread
  refine ⟨keyword, left ++ (spell clauses ++ rest), ?_, by rw [hhandler]; exact hread⟩
  rw [spell, List.flatMap_cons, hwords, List.append_assoc]
  rfl

theorem handleKeyword_open (env : QueryEnv δ) (s : QueryState δ) (h : list.Proper) :
    ∃ keyword left, list.words = keyword :: left ∧
      handleKeyword env keyword s (keyword :: left) = some (s.add list.op, []) := by
  cases list with
  | inList negated type fieldName first values =>
      refine ⟨_, _, rfl, ?_⟩
      have hopen := getList_open (fieldValue env type) h.2
      have htype := find?_text h.1
      have hlist : ∀ op, handleList env op s (inKeyword negated :: type.text :: fieldName ::
          startIn :: first :: values) = some (s.add (op (stringToString fieldName) []), []) := by
        simp [handleList, htype, hopen]
      cases negated <;> exact hlist _
  | inKeys first values =>
      refine ⟨_, _, rfl, ?_⟩
      have hopen := getList_open stringToString h
      have hhandler : handleKeyword env "^IN_KEYS" = handleInKeys := rfl
      rw [hhandler]
      simp [handleInKeys, hopen, OpenList.op]

theorem queryLoop_nil (env : QueryEnv δ) (rounds : Nat) (s : QueryState δ) :
    queryLoop env rounds s [] = some s := by
  cases rounds <;> rfl

theorem queryLoop_zero (env : QueryEnv δ) (s : QueryState δ) (words : List String) :
    queryLoop env 0 s words = some s := by
  cases words <;> rfl

theorem queryLoop_spell (env : QueryEnv δ) (h : ProperAll clauses) (rounds : Nat) (s : QueryState δ)
    (rest : List String) :
    queryLoop env (clauses.length + rounds) s (spell clauses ++ rest) =
      queryLoop env rounds (s.afterAll env clauses) rest := by
  induction clauses generalizing s with
  | nil => simp [spell, QueryState.afterAll]
  | cons clause clauses ih =>
      obtain ⟨keyword, left, hspell, hread⟩ := handleKeyword_spell env s h rest
      have hrounds : (clause :: clauses).length + rounds = (clauses.length + rounds) + 1 := by
        rw [List.length_cons]
        omega
      rw [hspell, hrounds, queryLoop, hread]
      exact ih (fun c hc => h c (List.mem_cons_of_mem clause hc)) (s.after env clause)

theorem queryLoop_open (env : QueryEnv δ) (h : list.Proper) (rounds : Nat) (s : QueryState δ) :
    queryLoop env (rounds + 1) s list.words = some (s.add list.op) := by
  obtain ⟨keyword, left, hwords, hread⟩ := handleKeyword_open env s h
  rw [hwords, queryLoop, hread]
  exact queryLoop_nil env rounds _

/-- The loop ends well after complete clauses and nothing else, after as many complete
clauses as it has rounds, or at a list that is not closed. -/
theorem queryLoop_inv {rounds : Nat} {words : List String}
    (h : queryLoop env rounds s words = some s') :
    ∃ clauses, ProperAll clauses ∧
      (clauses.length ≤ rounds ∧ words = spell clauses ∧ s' = s.afterAll env clauses ∨
        clauses.length = rounds ∧ (∃ rest, rest ≠ [] ∧ words = spell clauses ++ rest) ∨
        clauses.length < rounds ∧ ∃ list : OpenList, list.Proper ∧
          words = spell clauses ++ list.words) := by
  induction rounds generalizing s words with
  | zero =>
      rw [queryLoop_zero] at h
      cases h
      refine ⟨[], by simp [ProperAll], ?_⟩
      cases words with
      | nil => exact .inl ⟨le_rfl, rfl, rfl⟩
      | cons word rest => exact .inr (.inl ⟨rfl, word :: rest, by simp, rfl⟩)
  | succ rounds ih =>
      cases words with
      | nil =>
          cases h
          exact ⟨[], by simp [ProperAll], .inl ⟨Nat.zero_le _, rfl, rfl⟩⟩
      | cons keyword left =>
          rw [queryLoop] at h
          split at h
          · cases h
          rename_i s₁ rest hread
          rcases handleKeyword_reads hread with
            ⟨clause, hproper, hwords, rfl⟩ | ⟨list, hproper, hwords, rfl, rfl⟩
          · obtain ⟨clauses, hall, hcases⟩ := ih h
            refine ⟨clause :: clauses, ?_, ?_⟩
            · intro c hc
              rcases List.mem_cons.mp hc with rfl | hc
              · exact hproper
              · exact hall c hc
            · rw [hwords]
              rcases hcases with
                ⟨hlen, rfl, rfl⟩ | ⟨hlen, after, hne, rfl⟩ | ⟨hlen, list, hlist, rfl⟩
              · exact .inl ⟨Nat.succ_le_succ hlen, rfl, rfl⟩
              · exact .inr (.inl ⟨congrArg Nat.succ hlen, after, hne, by simp [spell]⟩)
              · exact .inr (.inr ⟨Nat.succ_lt_succ hlen, list, hlist, by simp [spell]⟩)
          · exact ⟨[], by simp [ProperAll],
              .inr (.inr ⟨Nat.succ_pos _, list, hproper, hwords⟩)⟩

/-- The reader decides how far the first clauses go. -/
theorem spell_append (env : QueryEnv δ) (s : QueryState δ) {others : List Clause}
    (h : ProperAll clauses) (hothers : ProperAll others) {rest : List String} (hne : rest ≠ [])
    (heq : spell clauses ++ rest = spell others) :
    ∃ more, ProperAll more ∧ more ≠ [] ∧ rest = spell more ∧
      others.length = clauses.length + more.length ∧
      ∃ first, others = first ++ more ∧ s.afterAll env first = s.afterAll env clauses := by
  induction clauses generalizing others s with
  | nil =>
      refine ⟨others, hothers, ?_, heq, by simp, [], rfl, rfl⟩
      rintro rfl
      exact hne heq
  | cons clause clauses ih =>
      obtain ⟨keyword, left, hspell, hread⟩ := handleKeyword_spell env s h rest
      cases others with
      | nil =>
          rw [hspell] at heq
          cases heq
      | cons other others =>
          obtain ⟨keyword', left', hspell', hread'⟩ := handleKeyword_spell env s hothers []
          rw [List.append_nil] at hspell' hread'
          obtain ⟨rfl, rfl⟩ := List.cons.inj (hspell.symm.trans (heq.trans hspell'))
          obtain ⟨hafter, hrest⟩ := Prod.mk.inj (Option.some.inj (hread.symm.trans hread'))
          obtain ⟨more, hmore, hmorene, hrestmore, hlen, first, hfirst, hall⟩ :=
            ih (s.after env clause) (fun c hc => h c (List.mem_cons_of_mem clause hc))
              (fun c hc => hothers c (List.mem_cons_of_mem other hc)) hrest
          refine ⟨more, hmore, hmorene, hrestmore, ?_, other :: first, by rw [hfirst]; rfl, ?_⟩
          · simp only [List.length_cons, hlen]
            omega
          · rw [QueryState.afterAll, List.foldl_cons, ← hafter]
            exact hall

theorem openList_words_ne (h : list.Proper) (clause : Clause) :
    list.words ≠ clause.words := by
  intro heq
  have hlength := congrArg List.length heq
  cases list with
  | inList negated type fieldName first values =>
      cases clause with
      | inList negated' type' fieldName' values' =>
          simp only [OpenList.words, words, List.cons.injEq] at heq
          apply h.2
          rw [heq.2.2.2.2]
          simp
      | inKeys values' => cases negated <;> simp [OpenList.words, words, inKeyword] at heq
      | _ => simp [OpenList.words, words] at hlength
  | inKeys first values =>
      cases clause with
      | inKeys values' =>
          simp only [OpenList.words, words, List.cons.injEq] at heq
          apply h
          rw [heq.2.2]
          simp
      | inList negated' => cases negated' <;> simp [OpenList.words, words, inKeyword] at heq
      | compare kind => cases kind <;> simp [OpenList.words, words, CompareKind.keyword] at heq
      | like negated' => cases negated' <;> simp [OpenList.words, words] at heq
      | limit number offset => simp [OpenList.words, words] at heq
      | _ => simp [OpenList.words, words] at hlength

theorem openList_words_ne_spell (h : list.Proper) (hall : ProperAll clauses) (env : QueryEnv δ)
    (s : QueryState δ) : list.words ≠ spell clauses := by
  intro heq
  obtain ⟨keyword, left, hwords, hread⟩ := handleKeyword_open env s h
  cases clauses with
  | nil =>
      rw [hwords] at heq
      cases heq
  | cons clause clauses =>
      obtain ⟨keyword', left', hspell, hread'⟩ := handleKeyword_spell env s hall []
      rw [List.append_nil] at hspell hread'
      obtain ⟨rfl, rfl⟩ := List.cons.inj (hwords.symm.trans (heq.trans hspell))
      obtain ⟨-, hrest⟩ := Prod.mk.inj (Option.some.inj (hread.symm.trans hread'))
      refine openList_words_ne h clause ?_
      rw [heq, spell, List.flatMap_cons, ← spell, ← hrest, List.append_nil]

theorem afterAll_spec (env : QueryEnv δ) (s : QueryState δ) (clauses : List Clause) :
    (s.afterAll env clauses).dbQuery =
      s.dbQuery ++ readOps env s.hasPrefixKey s.deviceId clauses := by
  induction clauses generalizing s with
  | nil => simp [QueryState.afterAll, readOps]
  | cons clause clauses ih =>
      have hstep : s.afterAll env (clause :: clauses) = (s.after env clause).afterAll env clauses :=
        rfl
      rw [hstep, ih, readOps]
      simp [QueryState.after, List.append_assoc]

/-- The device clauses that no key prefix takes up. -/
def unjoined : List Clause → Nat
  | [] => 0
  | clause :: rest =>
      (if clause.isDevice = true ∧ ¬ Joined rest then 1 else 0) + unjoined rest

theorem length_translate (env : QueryEnv δ) (device : String) (clauses : List Clause) :
    (translate env device clauses).length =
      (readOps env true device clauses).length + unjoined clauses := by
  induction clauses generalizing device with
  | nil => rfl
  | cons clause rest ih =>
      simp only [translate, readOps, unjoined, List.length_append, ih]
      by_cases hdevice : clause.isDevice = true
      · by_cases hjoined : Joined rest <;> simp [hdevice, hjoined]
        omega
      · simp [hdevice]
        omega

theorem translate_of_joined (env : QueryEnv δ) (device : String) (h : unjoined clauses = 0) :
    translate env device clauses = readOps env true device clauses := by
  induction clauses generalizing device with
  | nil => rfl
  | cons clause rest ih =>
      rw [unjoined] at h
      have hrest : unjoined rest = 0 := by omega
      rw [translate, readOps, ih _ hrest]
      by_cases hdevice : clause.isDevice = true
      · have hjoined : Joined rest := by
          by_contra hnot
          simp [hdevice, hnot] at h
        simp [hdevice, hjoined]
      · simp [hdevice]

theorem unjoined_eq_zero_iff (clauses : List Clause) :
    unjoined clauses = 0 ↔
      ∀ first word rest, clauses = first ++ .deviceId word :: rest → Joined rest := by
  induction clauses with
  | nil => simp [unjoined]
  | cons clause rest ih =>
      rw [unjoined, Nat.add_eq_zero_iff, ih]
      constructor
      · rintro ⟨hclause, hrest⟩ first word after hsplit
        cases first with
        | nil =>
            obtain ⟨rfl, rfl⟩ := List.cons.inj hsplit
            by_contra hnot
            simp [isDevice, hnot] at hclause
        | cons other first => exact hrest first word after (List.cons.inj hsplit).2
      · intro h
        constructor
        · cases clause with
          | deviceId word => simp [h [] word rest rfl]
          | _ => simp [isDevice]
        · intro first word after hsplit
          exact h (clause :: first) word after (by rw [hsplit, List.cons_append])

theorem not_joined (h : ∀ clause ∈ clauses, clause.isKeyPrefix = false) :
    ¬ Joined clauses := by
  induction clauses with
  | nil => simp [Joined]
  | cons clause rest ih =>
      simp only [List.mem_cons, forall_eq_or_imp] at h
      simp [Joined, h.1, ih h.2]

theorem translate_eq_readOps_false (env : QueryEnv δ) (device : String)
    (h : ∀ clause ∈ clauses, clause.isKeyPrefix = false) :
    translate env device clauses = readOps env false device clauses := by
  induction clauses generalizing device with
  | nil => rfl
  | cons clause rest ih =>
      have hrest : ∀ clause ∈ rest, clause.isKeyPrefix = false :=
        fun c hc => h c (List.mem_cons_of_mem clause hc)
      rw [translate, readOps, ih _ hrest]
      simp [not_joined hrest]

theorem readOps_append (env : QueryEnv δ) (hasPrefixKey : Bool) (device : String)
    (first more : List Clause) : ∃ device', readOps env hasPrefixKey device (first ++ more) =
      readOps env hasPrefixKey device first ++ readOps env hasPrefixKey device' more := by
  induction first generalizing device with
  | nil => exact ⟨device, rfl⟩
  | cons clause first ih =>
      obtain ⟨device', hmore⟩ := ih (clause.deviceAfter env device)
      exact ⟨device', by rw [List.cons_append, readOps, readOps, hmore, List.append_assoc]⟩

theorem unjoined_append (first more : List Clause) : unjoined more ≤ unjoined (first ++ more) := by
  induction first with
  | nil => exact le_rfl
  | cons clause first ih =>
      rw [List.cons_append, unjoined]
      omega

theorem missed_pos (env : QueryEnv δ) (device : String) {more : List Clause} (h : more ≠ []) :
    0 < (readOps env true device more).length + unjoined more := by
  induction more generalizing device with
  | nil => exact absurd rfl h
  | cons clause rest ih =>
      rw [readOps, unjoined]
      by_cases hdevice : clause.isDevice = true
      · cases rest with
        | nil => simp [hdevice, Joined]
        | cons next rest =>
            have hrest := ih (clause.deviceAfter env device) (by simp)
            simp only [List.length_append]
            omega
      · simp [hdevice]

end

theorem parts_head (text : List Char) :
    ∃ part others, parts text = part :: others ∧ part <+: text := by
  induction text with
  | nil => exact ⟨[], [], rfl, List.nil_prefix⟩
  | cons c rest ih =>
      obtain ⟨part, others, hparts, hstart⟩ := ih
      rw [parts]
      split
      · exact ⟨[], parts rest, rfl, List.nil_prefix⟩
      · rw [hparts]
        exact ⟨c :: part, others, rfl, List.cons_prefix_cons.mpr ⟨rfl, hstart⟩⟩

theorem parts_within {text part : List Char} (h : part ∈ parts text) : part <:+: text := by
  induction text with
  | nil =>
      rw [parts, List.mem_singleton] at h
      rw [h]
  | cons c rest ih =>
      obtain ⟨first, others, hparts, hstart⟩ := parts_head rest
      rw [parts] at h
      split at h
      · rcases List.mem_cons.mp h with rfl | h
        · exact List.nil_infix
        · exact (ih h).trans (List.suffix_cons c rest).isInfix
      rw [hparts] at h ih
      rcases List.mem_cons.mp h with rfl | h
      · exact (List.cons_prefix_cons.mpr ⟨rfl, hstart⟩).isInfix
      · exact (ih (List.mem_cons_of_mem first h)).trans (List.suffix_cons c rest).isInfix

theorem queryWords_within {query word : String} (h : word ∈ queryWords query) :
    word.toList <:+: query.toList := by
  obtain ⟨token, htoken, rfl⟩ := List.mem_map.mp h
  have hpart : token ∈ parts (query.toList.dropWhile (· = ' ')) := by
    rw [tokens] at htoken
    split at htoken
    · exact List.dropLast_subset _ htoken
    · exact htoken
  rw [String.toList_ofList]
  exact (parts_within hpart).trans (List.dropWhile_suffix _).isInfix

def Spells (query : String) (clauses : List Clause) : Prop :=
  ProperAll clauses ∧ if query = "" then clauses = [] else queryWords query = spell clauses

/-- Success is for the strings of the language, and then the query is the translation of
all clauses. -/
structure ReadsExactly {δ : Type} (env : QueryEnv δ) (query : String) (isSuccess : Bool) :
    Prop where
  accepted : (stringToDbQuery env query isSuccess).2 = true ↔ ∃ clauses, Spells query clauses
  translated : ∀ clauses, Spells query clauses → (stringToDbQuery env query isSuccess).2 = true →
    (stringToDbQuery env query isSuccess).1 = translate env "" clauses

/-- One of the first 501 clauses is a list that is not closed. -/
def Unclosed (words : List String) : Prop :=
  ∃ clauses list, ProperAll clauses ∧ OpenList.Proper list ∧
    clauses.length ≤ maxQueryComplexity ∧ words = spell clauses ++ list.words

/-- Words follow the 501st clause. -/
def Overlong (words : List String) : Prop :=
  ∃ clauses rest, ProperAll clauses ∧ clauses.length = maxQueryComplexity + 1 ∧ rest ≠ [] ∧
    words = spell clauses ++ rest

/-- If the text contains the keyword of a key prefix, every device is followed by a key
prefix clause before the next device. -/
def DevicesJoined (query : String) (clauses : List Clause) : Prop :=
  keyPrefixWord.toList <:+: query.toList →
    ∀ first word rest, clauses = first ++ .deviceId word :: rest → Joined rest

section

variable {δ : Type} {env : QueryEnv δ} {query : String} {isSuccess : Bool}

theorem queryWords_ne_nil (query : String) : queryWords query ≠ [] := by
  obtain ⟨part, others, hparts, -⟩ := parts_head (query.toList.dropWhile (· = ' '))
  unfold queryWords tokens
  rw [hparts]
  cases others with
  | nil => simp
  | cons next others =>
      dsimp only
      split <;> simp

def startState (δ : Type) (query : String) : QueryState δ :=
  { hasPrefixKey := decide (keyPrefixWord.toList <:+: query.toList) }

theorem stringToDbQuery_eq (hne : query ≠ "") (hsize : query.utf8ByteSize ≤ maxQueryLength) :
    stringToDbQuery env query isSuccess =
      match queryLoop env (maxQueryComplexity + 1) (startState δ query) (queryWords query) with
      | none => ([], false)
      | some s => (s.dbQuery, true) := by
  unfold stringToDbQuery
  rw [if_neg hne, if_neg (Nat.not_lt.mpr hsize)]
  cases hwords : queryWords query with
  | nil => exact absurd hwords (queryWords_ne_nil query)
  | cons word words => rfl

theorem spells_iff (hne : query ≠ "") (clauses : List Clause) :
    Spells query clauses ↔ ProperAll clauses ∧ queryWords query = spell clauses := by
  rw [Spells, if_neg hne]

variable {clauses : List Clause}

theorem stringToDbQuery_spell (hne : query ≠ "") (hsize : query.utf8ByteSize ≤ maxQueryLength)
    (hproper : ProperAll clauses) (hwords : queryWords query = spell clauses)
    (hlen : clauses.length ≤ maxQueryComplexity + 1) :
    stringToDbQuery env query isSuccess =
      (readOps env (startState δ query).hasPrefixKey "" clauses, true) := by
  have hloop := queryLoop_spell env hproper (maxQueryComplexity + 1 - clauses.length)
    (startState δ query) []
  rw [List.append_nil, queryLoop_nil, Nat.add_sub_cancel' hlen, ← hwords] at hloop
  rw [stringToDbQuery_eq hne hsize, hloop]
  simp [afterAll_spec, startState]

theorem readOps_eq_translate_iff (env : QueryEnv δ) (hwords : queryWords query = spell clauses) :
    readOps env (startState δ query).hasPrefixKey "" clauses = translate env "" clauses ↔
      DevicesJoined query clauses := by
  by_cases hkey : keyPrefixWord.toList <:+: query.toList
  · have htrue : (startState δ query).hasPrefixKey = true := by simp [startState, hkey]
    rw [htrue, DevicesJoined, imp_iff_right hkey, ← unjoined_eq_zero_iff]
    constructor
    · intro heq
      have hlength := length_translate env "" clauses
      rw [← heq] at hlength
      omega
    · intro hjoined
      exact (translate_of_joined env "" hjoined).symm
  · have hfalse : (startState δ query).hasPrefixKey = false := by simp [startState, hkey]
    have hnone : ∀ clause ∈ clauses, clause.isKeyPrefix = false := by
      intro clause hclause
      by_contra hprefixKey
      apply hkey
      apply queryWords_within
      rw [hwords]
      refine List.mem_flatMap.mpr ⟨clause, hclause, ?_⟩
      cases clause <;> first | exact List.mem_cons_self | exact absurd rfl hprefixKey
    rw [hfalse, translate_eq_readOps_false env "" hnone]
    simp [DevicesJoined, hkey]

/-- Clauses after the 501st are missing in what is read. -/
theorem readOps_ne_translate (env : QueryEnv δ) {first more : List Clause} (hmore : more ≠ [])
    (hwords : queryWords query = spell (first ++ more)) :
    readOps env (startState δ query).hasPrefixKey "" first ≠ translate env "" (first ++ more) := by
  intro heq
  have hlength := congrArg List.length heq
  obtain ⟨device, hsplit⟩ := readOps_append env (startState δ query).hasPrefixKey "" first more
  by_cases hkey : (startState δ query).hasPrefixKey = true
  · rw [hkey] at hlength hsplit
    have hmissed := missed_pos env device hmore
    have hle := unjoined_append first more
    rw [length_translate, hsplit, List.length_append] at hlength
    omega
  · have hunseen : DevicesJoined query (first ++ more) := by
      intro hseen
      exact absurd (by simp [startState, hseen]) hkey
    have hall := (readOps_eq_translate_iff env hwords).mpr hunseen
    rw [Bool.not_eq_true] at hkey
    rw [← hall, hsplit, hkey, List.length_append] at hlength
    cases more with
    | nil => exact hmore rfl
    | cons clause rest =>
        simp [readOps] at hlength

/-- Every number is read as zero. -/
def zeroEnv : QueryEnv Unit := ⟨fun _ => 0, fun _ => 0, fun _ => (), id⟩

theorem length_le_spell (clauses : List Clause) : clauses.length ≤ (spell clauses).length := by
  induction clauses with
  | nil => exact Nat.le_refl 0
  | cons clause rest ih =>
      obtain ⟨keyword, left, hclause, -⟩ := handleKeyword_eq zeroEnv clause
      rw [spell, List.flatMap_cons, hclause, ← spell]
      simp only [List.length_cons, List.length_append]
      omega

theorem startIn_mem_words (list : OpenList) : startIn ∈ list.words := by
  cases list <;> simp [OpenList.words]

theorem length_le_of_not_overlong {words : List String} (h : ¬ Overlong words)
    (hproper : ProperAll clauses) (hwords : words = spell clauses) :
    clauses.length ≤ maxQueryComplexity + 1 := by
  by_contra hlong
  refine h ⟨clauses.take (maxQueryComplexity + 1), spell (clauses.drop (maxQueryComplexity + 1)),
    fun c hc => hproper c (List.mem_of_mem_take hc), by simp; omega, ?_, ?_⟩
  · intro hnil
    have hleft : clauses.drop (maxQueryComplexity + 1) ≠ [] := by
      rw [ne_eq, List.drop_eq_nil_iff]
      omega
    have hpos := length_le_spell (clauses.drop (maxQueryComplexity + 1))
    rw [hnil] at hpos
    exact hleft (List.length_eq_zero_iff.mp (Nat.le_zero.mp hpos))
  · rw [hwords, spell, spell, spell, ← List.flatMap_append, List.take_append_drop]

theorem unclosed_ne_spell {words : List String} (h : Unclosed words) {others : List Clause}
    (hothers : ProperAll others) : words ≠ spell others := by
  obtain ⟨clauses, list, hproper, hlist, -, hwords⟩ := h
  intro hsame
  have hopen : list.words ≠ [] := by
    cases list <;> simp [OpenList.words]
  obtain ⟨more, hmore, -, hrest, -⟩ := spell_append zeroEnv {} hproper hothers hopen
    (hwords.symm.trans hsame)
  exact openList_words_ne_spell hlist hmore zeroEnv {} hrest

theorem not_unclosed (hne : query ≠ "") (hsize : query.utf8ByteSize ≤ maxQueryLength)
    (h : ReadsExactly env query isSuccess) : ¬ Unclosed (queryWords query) := by
  intro hunclosed
  obtain ⟨clauses, list, hproper, hlist, hlen, hwords⟩ := hunclosed
  have hsuccess : (stringToDbQuery env query isSuccess).2 = true := by
    have hloop := queryLoop_spell env hproper (maxQueryComplexity - clauses.length + 1)
      (startState δ query) list.words
    have hrounds : clauses.length + (maxQueryComplexity - clauses.length + 1) =
        maxQueryComplexity + 1 := by omega
    rw [queryLoop_open env hlist, hrounds, ← hwords] at hloop
    rw [stringToDbQuery_eq hne hsize, hloop]
  obtain ⟨others, hspells⟩ := h.accepted.mp hsuccess
  obtain ⟨hothers, hsame⟩ := (spells_iff hne others).mp hspells
  exact unclosed_ne_spell ⟨clauses, list, hproper, hlist, hlen, hwords⟩ hothers hsame

theorem not_overlong (hne : query ≠ "") (hsize : query.utf8ByteSize ≤ maxQueryLength)
    (h : ReadsExactly env query isSuccess) : ¬ Overlong (queryWords query) := by
  rintro ⟨clauses, rest, hproper, hlen, hrest, hwords⟩
  have hresult : stringToDbQuery env query isSuccess =
      (((startState δ query).afterAll env clauses).dbQuery, true) := by
    have hloop := queryLoop_spell env hproper 0 (startState δ query) rest
    rw [Nat.add_zero, queryLoop_zero, hlen, ← hwords] at hloop
    rw [stringToDbQuery_eq hne hsize, hloop]
  obtain ⟨others, hspells⟩ := h.accepted.mp (by rw [hresult])
  obtain ⟨hothers, hsame⟩ := (spells_iff hne others).mp hspells
  obtain ⟨more, -, hmore, -, -, first, rfl, hfirst⟩ :=
    spell_append env (startState δ query) hproper hothers hrest (hwords.symm.trans hsame)
  refine readOps_ne_translate env hmore hsame ?_
  have htranslated := h.translated _ hspells (by rw [hresult])
  rw [hresult, ← hfirst, afterAll_spec] at htranslated
  exact htranslated

/-- The strings on which the reader takes exactly its language: no list is left open, there
are no words after the 501st clause, and devices are taken up by key prefixes if the text
mentions one. -/
theorem query_read_exactly_iff (env : QueryEnv δ) (query : String) (isSuccess : Bool)
    (hsize : query.utf8ByteSize ≤ maxQueryLength) :
    ReadsExactly env query isSuccess ↔
      (query ≠ "" → ¬ Unclosed (queryWords query) ∧ ¬ Overlong (queryWords query) ∧
        ∀ clauses, ProperAll clauses → queryWords query = spell clauses →
          DevicesJoined query clauses) := by
  constructor
  · intro h hne
    have hshort := not_overlong hne hsize h
    refine ⟨not_unclosed hne hsize h, hshort, ?_⟩
    intro clauses hproper hwords
    have hlen := length_le_of_not_overlong hshort hproper hwords
    have hresult : stringToDbQuery env query isSuccess = _ :=
      stringToDbQuery_spell hne hsize hproper hwords hlen
    have htranslated := h.translated clauses ((spells_iff hne clauses).mpr ⟨hproper, hwords⟩)
      (by rw [hresult])
    rw [hresult] at htranslated
    exact (readOps_eq_translate_iff env hwords).mp htranslated
  · intro h
    by_cases hne : query = ""
    · subst hne
      constructor
      · exact ⟨fun _ => ⟨[], by simp [ProperAll], rfl⟩, fun _ => rfl⟩
      · rintro clauses ⟨-, hnil⟩ -
        rw [hnil]
        rfl
    · obtain ⟨hclosed, hshort, hjoined⟩ := h hne
      have hread : ∀ clauses, Spells query clauses → stringToDbQuery env query isSuccess =
          (translate env "" clauses, true) := by
        intro clauses hspells
        obtain ⟨hproper, hwords⟩ := (spells_iff hne clauses).mp hspells
        have hlen := length_le_of_not_overlong hshort hproper hwords
        rw [stringToDbQuery_spell hne hsize hproper hwords hlen,
          (readOps_eq_translate_iff env hwords).mpr (hjoined clauses hproper hwords)]
      constructor
      · constructor
        · intro hsuccess
          rw [stringToDbQuery_eq hne hsize] at hsuccess
          split at hsuccess
          · cases hsuccess
          rename_i s' hloop
          obtain ⟨clauses, hproper, hcases⟩ := queryLoop_inv hloop
          rcases hcases with ⟨-, hwords, -⟩ | ⟨hlen, rest, hrest, hwords⟩ |
            ⟨hlen, list, hlist, hwords⟩
          · exact ⟨clauses, (spells_iff hne clauses).mpr ⟨hproper, hwords⟩⟩
          · exact absurd ⟨clauses, rest, hproper, hlen, hrest, hwords⟩ hshort
          · exact absurd ⟨clauses, list, hproper, hlist, Nat.lt_succ_iff.mp hlen, hwords⟩ hclosed
        · rintro ⟨clauses, hspells⟩
          rw [hread clauses hspells]
      · intro clauses hspells _
        rw [hread clauses hspells]

end

theorem query_read_exactly_three_clauses :
    (stringToDbQuery zeroEnv "^LIKE name a% ^ORDER ^LIMIT 10 0" false).2 = false ∧
    stringToDbQuery zeroEnv "^LIKE name a% ^ASC age ^LIMIT 10 0" false =
      ([.like "name" "a%", .orderBy "age" true, .limit 0 0], true) ∧
    ReadsExactly zeroEnv "^LIKE name a% ^ASC age ^LIMIT 10 0" false := by
  refine ⟨by decide, by decide, ?_⟩
  apply (query_read_exactly_iff zeroEnv "^LIKE name a% ^ASC age ^LIMIT 10 0" false (by decide)).mpr
  intro _
  refine ⟨?_, ?_, ?_⟩
  · rintro ⟨clauses, list, -, -, -, hwords⟩
    have hmem := List.mem_append_right (spell clauses) (startIn_mem_words list)
    rw [← hwords] at hmem
    revert hmem
    decide
  · rintro ⟨clauses, rest, -, hlen, -, hwords⟩
    have hle := length_le_spell clauses
    have hcount := congrArg List.length hwords
    rw [List.length_append, show (queryWords "^LIKE name a% ^ASC age ^LIMIT 10 0").length = 8 by
      decide] at hcount
    rw [hlen, maxQueryComplexity] at hle
    omega
  · intro clauses _ _ hseen
    exact absurd hseen (by decide)

/-- The list has no end: it is taken as an empty one, and the words in it are lost. -/
theorem query_open_list_taken_as_empty :
    stringToDbQuery zeroEnv "^IN STRING name ^START a b" false = ([.inList "name" []], true) ∧
    (¬ ∃ clauses, Spells "^IN STRING name ^START a b" clauses) ∧
    ¬ ReadsExactly zeroEnv "^IN STRING name ^START a b" false := by
  have hresult : stringToDbQuery zeroEnv "^IN STRING name ^START a b" false =
      ([.inList "name" []], true) := by decide
  have hopen : Unclosed (queryWords "^IN STRING name ^START a b") := by
    refine ⟨[], .inList false .string "name" "a" ["b"], ?_, ?_, by decide, by decide⟩
    · simp [ProperAll]
    · exact ⟨by decide, by decide⟩
  refine ⟨hresult, ?_, fun h => not_unclosed (by decide) (by decide) h hopen⟩
  intro hspelled
  obtain ⟨clauses, hspells⟩ := hspelled
  obtain ⟨hproper, hwords⟩ := (spells_iff (by decide) clauses).mp hspells
  exact unclosed_ne_spell hopen hproper hwords

end DataMgr.Kvdb
