import Mathlib

/-! # Base64

Groups of three bytes become four characters; a last group of one or two bytes is padded.
The decoder reads up to the first character outside the alphabet, so it never looks at
the padding.
-/

namespace DataMgr.Utils.Base64

def base64Chars : List Char :=
  "ABCDEFGHIJKLMNOPQRSTUVWXYZabcdefghijklmnopqrstuvwxyz0123456789+/".toList

def isBase64Char (c : Char) : Bool := c.isAlphanum || c == '+' || c == '/'

def charOf (idx : UInt8) : Char := base64Chars.getD idx.toNat 'A'

/-- `BASE64_CHARS.find` of a character of the alphabet. -/
def indexOf (c : Char) : UInt8 := UInt8.ofNat (base64Chars.idxOf c)

variable (source : List UInt8) (a b c : UInt8)

def makeCharFour : UInt8 × UInt8 × UInt8 × UInt8 :=
  ((a &&& 0xfc) >>> 2, ((a &&& 0x03) <<< 4) + ((b &&& 0xf0) >>> 4),
    ((b &&& 0x0f) <<< 2) + ((c &&& 0xc0) >>> 6), c &&& 0x3f)

def makeCharTree (w x y z : UInt8) : UInt8 × UInt8 × UInt8 :=
  ((w <<< 2) + ((x &&& 0x30) >>> 4), ((x &&& 0xf) <<< 4) + ((y &&& 0x3c) >>> 2),
    ((y &&& 0x3) <<< 6) + z)

def encodeGroups : List UInt8 → List Char
  | [] => []
  | [a] =>
      let (w, x, _, _) := makeCharFour a 0 0
      [charOf w, charOf x, '=', '=']
  | [a, b] =>
      let (w, x, y, _) := makeCharFour a b 0
      [charOf w, charOf x, charOf y, '=']
  | a :: b :: c :: rest =>
      let (w, x, y, z) := makeCharFour a b c
      charOf w :: charOf x :: charOf y :: charOf z :: encodeGroups rest

def encode : String := String.ofList (encodeGroups source)

/-- The loop of `Decode` over characters of the alphabet. A last group of one character
gives no byte. -/
def decodeGroups : List Char → List UInt8
  | [] => []
  | [_] => []
  | [w, x] => [(makeCharTree (indexOf w) (indexOf x) 0 0).1]
  | [w, x, y] =>
      let (a, b, _) := makeCharTree (indexOf w) (indexOf x) (indexOf y) 0
      [a, b]
  | w :: x :: y :: z :: rest =>
      let (a, b, c) := makeCharTree (indexOf w) (indexOf x) (indexOf y) (indexOf z)
      a :: b :: c :: decodeGroups rest

def decode (encoded : String) : List UInt8 := decodeGroups (encoded.toList.takeWhile isBase64Char)

theorem isBase64Char_charOf (idx : UInt8) : isBase64Char (charOf idx) = true := by
  revert idx
  decide +kernel

theorem indexOf_charOf {idx : UInt8} (h : idx < 64) : indexOf (charOf idx) = idx := by
  revert idx
  decide +kernel

/-! The masks and shifts of both directions as quotients and remainders. -/

theorem toNat_encode_bits (a : UInt8) :
    ((a &&& 0xfc) >>> 2).toNat = a.toNat / 4 ∧
      ((a &&& 0x03) <<< 4).toNat = a.toNat % 4 * 16 ∧
      ((a &&& 0xf0) >>> 4).toNat = a.toNat / 16 ∧
      ((a &&& 0x0f) <<< 2).toNat = a.toNat % 16 * 4 ∧
      ((a &&& 0xc0) >>> 6).toNat = a.toNat / 64 ∧
      (a &&& 0x3f).toNat = a.toNat % 64 := by
  revert a
  decide +kernel

theorem toNat_decode_bits (a : UInt8) :
    (a <<< 2).toNat = a.toNat % 64 * 4 ∧
      ((a &&& 0x30) >>> 4).toNat = a.toNat / 16 % 4 ∧
      ((a &&& 0xf) <<< 4).toNat = a.toNat % 16 * 16 ∧
      ((a &&& 0x3c) >>> 2).toNat = a.toNat / 4 % 16 ∧
      ((a &&& 0x3) <<< 6).toNat = a.toNat % 4 * 64 := by
  revert a
  decide +kernel

theorem makeCharFour_toNat :
    (makeCharFour a b c).1.toNat = a.toNat / 4 ∧
      (makeCharFour a b c).2.1.toNat = a.toNat % 4 * 16 + b.toNat / 16 ∧
      (makeCharFour a b c).2.2.1.toNat = b.toNat % 16 * 4 + c.toNat / 64 ∧
      (makeCharFour a b c).2.2.2.toNat = c.toNat % 64 := by
  have hb := b.toNat_lt
  have hc := c.toNat_lt
  simp only [makeCharFour, UInt8.toNat_add, toNat_encode_bits, true_and, and_true]
  omega

theorem makeCharFour_lt :
    (makeCharFour a b c).1 < 64 ∧ (makeCharFour a b c).2.1 < 64 ∧
      (makeCharFour a b c).2.2.1 < 64 ∧ (makeCharFour a b c).2.2.2 < 64 := by
  have ha := a.toNat_lt
  have hb := b.toNat_lt
  have hc := c.toNat_lt
  simp only [UInt8.lt_iff_toNat_lt, makeCharFour_toNat]
  have hsixty : (64 : UInt8).toNat = 64 := rfl
  omega

theorem makeCharTree_makeCharFour :
    makeCharTree (makeCharFour a b c).1 (makeCharFour a b c).2.1 (makeCharFour a b c).2.2.1
      (makeCharFour a b c).2.2.2 = (a, b, c) := by
  have ha := a.toNat_lt
  have hb := b.toNat_lt
  have hc := c.toNat_lt
  have hfour := makeCharFour_toNat a b c
  simp only [makeCharTree, Prod.mk.injEq, ← UInt8.toNat_inj, UInt8.toNat_add,
    toNat_decode_bits, hfour]
  omega

theorem isBase64Char_padding : isBase64Char '=' = false := by decide

theorem decodeGroups_encodeGroups :
    decodeGroups ((encodeGroups source).takeWhile isBase64Char) = source := by
  induction source using encodeGroups.induct with
  | case1 => rfl
  | case2 a =>
      obtain ⟨hw, hx, -, -⟩ := makeCharFour_lt a 0 0
      have htree := congrArg Prod.fst (makeCharTree_makeCharFour a 0 0)
      simp only [encodeGroups, List.takeWhile_cons, isBase64Char_charOf, isBase64Char_padding,
        if_true, Bool.false_eq_true, if_false, decodeGroups, indexOf_charOf hw, indexOf_charOf hx]
      exact congrArg (fun byte => [byte]) htree
  | case3 a b =>
      obtain ⟨hw, hx, hy, -⟩ := makeCharFour_lt a b 0
      have htree := makeCharTree_makeCharFour a b 0
      simp only [encodeGroups, List.takeWhile_cons, isBase64Char_charOf, isBase64Char_padding,
        if_true, Bool.false_eq_true, if_false, decodeGroups, indexOf_charOf hw, indexOf_charOf hx,
        indexOf_charOf hy]
      exact congrArg (fun bytes : UInt8 × UInt8 × UInt8 => [bytes.1, bytes.2.1]) htree
  | case4 a b c rest _ _ _ _ _ ih =>
      obtain ⟨hw, hx, hy, hz⟩ := makeCharFour_lt a b c
      simp only [encodeGroups, List.takeWhile_cons, isBase64Char_charOf, if_true, decodeGroups,
        indexOf_charOf hw, indexOf_charOf hx, indexOf_charOf hy, indexOf_charOf hz,
        makeCharTree_makeCharFour, ih]

theorem decode_encode : decode (encode source) = source := by
  rw [decode, encode, String.toList_ofList, decodeGroups_encodeGroups]

/-- Groups of four characters of the alphabet, the last of which may be padded; then the bits
that stand for no byte are zero. -/
inductive Canonical : List Char → Prop
  | nil : Canonical []
  | one {w x : Char} (hw : w ∈ base64Chars) (hx : x ∈ base64Chars)
      (hbits : (indexOf x).toNat % 16 = 0) : Canonical [w, x, '=', '=']
  | two {w x y : Char} (hw : w ∈ base64Chars) (hx : x ∈ base64Chars) (hy : y ∈ base64Chars)
      (hbits : (indexOf y).toNat % 4 = 0) : Canonical [w, x, y, '=']
  | group {w x y z : Char} {rest : List Char} (hw : w ∈ base64Chars) (hx : x ∈ base64Chars)
      (hy : y ∈ base64Chars) (hz : z ∈ base64Chars) (hrest : Canonical rest) :
      Canonical (w :: x :: y :: z :: rest)

theorem of_mem_base64Chars {c : Char} (h : c ∈ base64Chars) :
    isBase64Char c = true ∧ indexOf c < 64 ∧ charOf (indexOf c) = c := by
  have hall : base64Chars.all (fun c =>
      isBase64Char c && decide (indexOf c < 64) && decide (charOf (indexOf c) = c)) = true := by
    decide +kernel
  simpa [and_assoc] using List.all_eq_true.mp hall c h

theorem makeCharFour_makeCharTree {w x y z : UInt8} (hw : w < 64) (hx : x < 64) (hy : y < 64)
    (hz : z < 64) :
    makeCharFour (makeCharTree w x y z).1 (makeCharTree w x y z).2.1 (makeCharTree w x y z).2.2 =
      (w, x, y, z) := by
  have hsixty : (64 : UInt8).toNat = 64 := rfl
  rw [UInt8.lt_iff_toNat_lt, hsixty] at hw hx hy hz
  simp only [Prod.ext_iff, ← UInt8.toNat_inj, makeCharFour_toNat]
  simp only [makeCharTree, UInt8.toNat_add, toNat_decode_bits]
  omega

theorem makeCharTree_tail {w x y : UInt8} (h : y.toNat % 4 = 0) :
    (makeCharTree w x y 0).2.2 = 0 ∧
      (x.toNat % 16 = 0 → y = 0 → (makeCharTree w x y 0).2.1 = 0) := by
  simp only [makeCharTree, ← UInt8.toNat_inj, UInt8.toNat_add, toNat_decode_bits, h]
  refine ⟨rfl, ?_⟩
  intro hx hy
  rw [hx, hy]
  rfl

theorem encodeGroups_decodeGroups {encoded : List Char} (h : Canonical encoded) :
    encodeGroups (decodeGroups (encoded.takeWhile isBase64Char)) = encoded := by
  induction h with
  | nil => rfl
  | @one w x hw hx hbits =>
      obtain ⟨hw, hlw, hcw⟩ := of_mem_base64Chars hw
      obtain ⟨hx, hlx, hcx⟩ := of_mem_base64Chars hx
      have hzero : (0 : UInt8) < 64 := by decide
      have hfour := makeCharFour_makeCharTree hlw hlx hzero hzero
      obtain ⟨hc, hb⟩ : _ ∧ (_ → _ → (makeCharTree (indexOf w) (indexOf x) 0 0).2.1 = 0) :=
        makeCharTree_tail rfl
      rw [hb hbits rfl, hc] at hfour
      simp only [List.takeWhile_cons, hw, hx, isBase64Char_padding, if_true, Bool.false_eq_true,
        if_false, decodeGroups, encodeGroups, hfour, hcw, hcx]
  | @two w x y hw hx hy hbits =>
      obtain ⟨hw, hlw, hcw⟩ := of_mem_base64Chars hw
      obtain ⟨hx, hlx, hcx⟩ := of_mem_base64Chars hx
      obtain ⟨hy, hly, hcy⟩ := of_mem_base64Chars hy
      have hzero : (0 : UInt8) < 64 := by decide
      have hfour := makeCharFour_makeCharTree hlw hlx hly hzero
      rw [(makeCharTree_tail hbits).1] at hfour
      simp only [List.takeWhile_cons, hw, hx, hy, isBase64Char_padding, if_true,
        Bool.false_eq_true, if_false, decodeGroups, encodeGroups, hfour, hcw, hcx, hcy]
  | @group w x y z rest hw hx hy hz _ ih =>
      obtain ⟨hw, hlw, hcw⟩ := of_mem_base64Chars hw
      obtain ⟨hx, hlx, hcx⟩ := of_mem_base64Chars hx
      obtain ⟨hy, hly, hcy⟩ := of_mem_base64Chars hy
      obtain ⟨hz, hlz, hcz⟩ := of_mem_base64Chars hz
      simp only [List.takeWhile_cons, hw, hx, hy, hz, if_true, decodeGroups, encodeGroups,
        makeCharFour_makeCharTree hlw hlx hly hlz, hcw, hcx, hcy, hcz, ih]

/-- Decoding undoes encoding, and encoding undoes the decoding of a canonical text. -/
theorem base64_round_trip :
    (∀ source : List UInt8, decode (encode source) = source) ∧
      ∀ encoded : String, Canonical encoded.toList → encode (decode encoded) = encoded := by
  refine ⟨decode_encode, ?_⟩
  intro encoded h
  rw [decode, encode, encodeGroups_decodeGroups h, String.ofList_toList]

theorem base64_round_trip_padded :
    Canonical "TWE=".toList ∧ encode (decode "TWE=") = "TWE=" := by
  have h : Canonical ['T', 'W', 'E', '='] :=
    .two (by decide) (by decide) (by decide) (by decide)
  exact ⟨h, base64_round_trip.2 "TWE=" h⟩

end DataMgr.Utils.Base64
