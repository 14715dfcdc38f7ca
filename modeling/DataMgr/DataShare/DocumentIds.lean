import DataMgr.DataShare.PublishedVersion
import DataMgr.Utils.Constant

/-! # The ids of documents

The id of a published item, and likewise that of a template, joins the key, the subscriber, the
bundle name and the user by underlines. None of them is escaped.
-/

namespace DataMgr.DataShare

open DataMgr.Utils

structure Owner where
  bundleName : String
  userId : Int
deriving DecidableEq

@[ext] structure DocumentKey where
  key : String
  subscriberId : Int
  owner : Owner
deriving DecidableEq

/-- `GenId` and `Id::Marshal`. `TemplateData::GenId` is that of `PublishedData`. -/
def DocumentKey.id (d : DocumentKey) : String :=
  let id := genId d.key d.owner.bundleName d.subscriberId
  if d.owner.userId = -1 then id else id ++ "_" ++ toString d.owner.userId

namespace Owner

/-- Letters, digits, underlines and dots, with a letter in front. -/
def WellNamed (o : Owner) : Prop :=
  (∃ c ∈ o.bundleName.toList.head?, c.isAlpha = true) ∧
    ∀ c ∈ o.bundleName.toList, c.isAlphanum = true ∨ c = '_' ∨ c = '.'

def text (o : Owner) : List Char :=
  if o.userId = -1 then o.bundleName.toList
  else o.bundleName.toList ++ '_' :: (toString o.userId).toList

end Owner

def numbered (n : Int) (text : List Char) : List Char := (toString n).toList ++ '_' :: text

/-- No two owners are written the same, and none ends in a number and another one. -/
def Distinguishable (owners : Set Owner) : Prop :=
  ∀ o ∈ owners, ∀ o' ∈ owners, (o.text = o'.text → o = o') ∧
    ∀ (start : List Char) (n : Int), o.text ≠ start ++ '_' :: numbered n o'.text

theorem DocumentKey.toList_id (d : DocumentKey) :
    d.id.toList = d.key.toList ++ '_' :: numbered d.subscriberId d.owner.text := by
  unfold DocumentKey.id Owner.text genId numbered
  split <;> simp

/-- A text that is cut at two underlines. -/
theorem cut_cases {a b x y : List Char} (h : a ++ '_' :: x = b ++ '_' :: y) :
    a = b ∧ x = y ∨ (∃ w, b = a ++ '_' :: w ∧ x = w ++ '_' :: y) ∨
      ∃ w, a = b ++ '_' :: w ∧ y = w ++ '_' :: x := by
  rcases List.append_eq_append_iff.mp h with ⟨mid, rfl, hmid⟩ | ⟨mid, rfl, hmid⟩
  · cases mid with
    | nil => exact .inl ⟨by simp, by simpa using hmid⟩
    | cons c w =>
        obtain ⟨rfl, hw⟩ := List.cons.inj hmid
        exact .inr (.inl ⟨w, rfl, hw⟩)
  · cases mid with
    | nil => exact .inl ⟨by simp, by simpa using hmid.symm⟩
    | cons c w =>
        obtain ⟨rfl, hw⟩ := List.cons.inj hmid
        exact .inr (.inr ⟨w, rfl, hw⟩)

theorem number_ne_cut (n : Int) (w x : List Char) : (toString n).toList ≠ w ++ '_' :: x := by
  intro h
  refine not_mem_number (by decide) (by decide) n (h ▸ ?_ : '_' ∈ (toString n).toList)
  exact List.mem_append_right w List.mem_cons_self

theorem numbered_inj {m n : Int} {x y : List Char} (h : numbered m x = numbered n y) :
    m = n ∧ x = y := by
  rcases cut_cases h with ⟨hnumber, htext⟩ | ⟨w, hw, -⟩ | ⟨w, hw, -⟩
  · exact ⟨toString_int_injective (String.toList_inj.mp hnumber), htext⟩
  · exact absurd hw (number_ne_cut n _ _)
  · exact absurd hw (number_ne_cut m _ _)

/-- A name starts with a letter. -/
theorem Owner.WellNamed.text_ne_numbered {o : Owner} (h : o.WellNamed) (n : Int) (x : List Char) :
    o.text ≠ numbered n x := by
  obtain ⟨⟨c, hc, halpha⟩, -⟩ := h
  obtain ⟨rest, hname⟩ := List.head?_eq_some_iff.mp hc
  obtain ⟨after, htext⟩ : ∃ after, o.text = c :: after := by
    unfold Owner.text
    split <;> simp [hname]
  rw [htext, numbered]
  intro heq
  cases hnumber : (toString n).toList with
  | nil =>
      rw [hnumber] at heq
      cases heq
      exact absurd halpha (by decide)
  | cons d digits =>
      rw [hnumber] at heq
      cases heq
      have hdigit : c.isDigit = false := by
        simp only [Char.isAlpha, Char.isUpper, Char.isLower, Char.isDigit] at halpha ⊢
        grind
      refine not_mem_number hdigit ?_ n (hnumber ▸ List.mem_cons_self)
      rintro rfl
      exact absurd halpha (by decide)

/-- The later of two places to cut is inside of the owner's text. -/
theorem numbered_eq_cut {m n : Int} {o : Owner} (h : o.WellNamed) {w x : List Char}
    (heq : numbered m o.text = w ++ '_' :: numbered n x) :
    ∃ start, o.text = start ++ '_' :: numbered n x := by
  rcases cut_cases heq with ⟨-, htext⟩ | ⟨start, -, htext⟩ | ⟨v, hv, -⟩
  · exact absurd htext (h.text_ne_numbered n x)
  · exact ⟨start, htext⟩
  · exact absurd hv (number_ne_cut m _ _)

/-- The ids of different documents differ exactly if their owners can be told apart. -/
theorem document_ids_differ_iff (owners : Set Owner) (hnames : ∀ o ∈ owners, o.WellNamed) :
    (∀ d d' : DocumentKey, d.owner ∈ owners → d'.owner ∈ owners → d ≠ d' → d.id ≠ d'.id) ↔
      Distinguishable owners := by
  constructor
  · intro hdiffer o ho o' ho'
    constructor
    · intro htext
      by_contra hne
      refine hdiffer ⟨"", 0, o⟩ ⟨"", 0, o'⟩ ho ho' (by simp [hne]) (String.toList_inj.mp ?_)
      rw [DocumentKey.toList_id, DocumentKey.toList_id, htext]
    · intro start n htext
      refine hdiffer ⟨"", 0, o⟩ ⟨String.ofList ('_' :: numbered 0 start), n, o'⟩ ho ho' ?_
        (String.toList_inj.mp ?_)
      · intro heq
        have hkey := congrArg (String.toList ∘ DocumentKey.key) heq
        simp at hkey
      · simp [DocumentKey.toList_id, htext, numbered]
  · intro hapart d d' ho ho' hne hid
    rw [← String.toList_inj, DocumentKey.toList_id, DocumentKey.toList_id] at hid
    rcases cut_cases hid with ⟨hkey, heq⟩ | ⟨w, -, heq⟩ | ⟨w, -, heq⟩
    · obtain ⟨hsubscriber, htext⟩ := numbered_inj heq
      have howner := (hapart _ ho _ ho').1 htext
      exact hne (DocumentKey.ext (String.toList_inj.mp hkey) hsubscriber howner)
    · obtain ⟨start, htext⟩ := numbered_eq_cut (hnames _ ho) heq
      exact (hapart _ ho _ ho').2 start _ htext
    · obtain ⟨start, htext⟩ := numbered_eq_cut (hnames _ ho') heq
      exact (hapart _ ho' _ ho).2 start _ htext

theorem document_ids_differ_iff_notes :
    (⟨"k", 1, ⟨"com.notes", 100⟩⟩ : DocumentKey).id ≠
      (⟨"k_1", 1, ⟨"com.notes", 100⟩⟩ : DocumentKey).id := by
  refine (document_ids_differ_iff {⟨"com.notes", 100⟩} ?_).mpr ?_ _ _ rfl rfl (by decide)
  · rintro _ rfl
    exact ⟨⟨'c', rfl, rfl⟩, by simp⟩
  · rintro _ rfl _ rfl
    refine ⟨fun _ => rfl, fun start n heq => ?_⟩
    have hlength := congrArg List.length heq
    simp only [numbered, List.length_append, List.length_cons] at hlength
    omega

/-- The key of one document ends in what the bundle name of the other starts with. -/
theorem document_ids_coincide :
    (⟨"k", 1, ⟨"a_2_b", 100⟩⟩ : DocumentKey).id = (⟨"k_1_a", 2, ⟨"b", 100⟩⟩ : DocumentKey).id := by
  decide

end DataMgr.DataShare
