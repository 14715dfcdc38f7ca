import Mathlib

/-! # Byte memories and little-endian words

A memory gives a byte at every offset, so reading past a buffer's end is a
meaningful operation whose offsets can be reasoned about. Writes are described by
what later reads see: the written slice itself, or a slice disjoint from it.
-/

namespace DataMgr.Foundation

abbrev Bytes := List UInt8

abbrev Memory := Nat → UInt8

/-- The `width` low bytes of a number, least significant first. -/
def leBytes : Nat → Nat → Bytes
  | 0, _ => []
  | width + 1, n => UInt8.ofNat (n % 256) :: leBytes width (n / 256)

def leValue : Bytes → Nat
  | [] => 0
  | b :: rest => b.toNat + 256 * leValue rest

@[simp] theorem length_leBytes (width n : Nat) : (leBytes width n).length = width := by
  induction width generalizing n with
  | zero => rfl
  | succ width ih => simp [leBytes, ih]

theorem leValue_leBytes (width n : Nat) : leValue (leBytes width n) = n % 256 ^ width := by
  induction width generalizing n with
  | zero => simp [leBytes, leValue, Nat.mod_one]
  | succ width ih =>
      have hbyte : (UInt8.ofNat (n % 256)).toNat = n % 256 := by
        rw [UInt8.toNat_ofNat']
        omega
      have hsplit : n % 256 ^ (width + 1) = n % 256 + 256 * (n / 256 % 256 ^ width) := by
        rw [Nat.pow_succ, Nat.mul_comm, Nat.mod_mul]
      rw [leBytes, leValue, ih, hbyte, hsplit]

theorem leValue_lt (bytes : Bytes) : leValue bytes < 256 ^ bytes.length := by
  induction bytes with
  | nil => simp [leValue]
  | cons b rest ih =>
      have hb : b.toNat < 256 := b.toNat_lt
      have hpow : 256 ^ (rest.length + 1) = 256 * 256 ^ rest.length := by
        rw [Nat.pow_succ, Nat.mul_comm]
      rw [leValue, List.length_cons, hpow]
      omega

def readBytes (mem : Memory) : Nat → Nat → Bytes
  | _, 0 => []
  | off, len + 1 => mem off :: readBytes mem (off + 1) len

def writeBytes (mem : Memory) (off : Nat) : Bytes → Memory
  | [] => mem
  | b :: rest => writeBytes (fun a => if a = off then b else mem a) (off + 1) rest

def readLE (mem : Memory) (off width : Nat) : Nat := leValue (readBytes mem off width)

variable (mem : Memory)

@[simp] theorem length_readBytes (off len : Nat) : (readBytes mem off len).length = len := by
  induction len generalizing off with
  | zero => rfl
  | succ len ih => simp [readBytes, ih]

theorem readLE_lt (off width : Nat) : readLE mem off width < 256 ^ width := by
  simpa [readLE] using leValue_lt (readBytes mem off width)

theorem readBytes_congr {mem mem' : Memory} {off len : Nat}
    (h : ∀ a, off ≤ a → a < off + len → mem a = mem' a) :
    readBytes mem off len = readBytes mem' off len := by
  induction len generalizing off with
  | zero => rfl
  | succ len ih =>
      have hhead : mem off = mem' off := h off (Nat.le_refl _) (by omega)
      have htail : readBytes mem (off + 1) len = readBytes mem' (off + 1) len := by
        apply ih
        intro a ha hlt
        exact h a (by omega) (by omega)
      rw [readBytes, readBytes, hhead, htail]

theorem readBytes_add (off a b : Nat) :
    readBytes mem off (a + b) = readBytes mem off a ++ readBytes mem (off + a) b := by
  induction a generalizing off with
  | zero => simp [readBytes]
  | succ a ih =>
      have hlen : a + 1 + b = a + b + 1 := by omega
      have hoff : off + (a + 1) = off + 1 + a := by omega
      rw [hlen, hoff, readBytes, readBytes, ih]
      rfl

theorem writeBytes_of_outside (off : Nat) (bytes : Bytes) {a : Nat}
    (h : a < off ∨ off + bytes.length ≤ a) : writeBytes mem off bytes a = mem a := by
  induction bytes generalizing mem off with
  | nil => rfl
  | cons b rest ih =>
      simp only [List.length_cons] at h
      rw [writeBytes, ih _ _ (by omega)]
      have hne : a ≠ off := by omega
      simp [hne]

theorem readBytes_writeBytes_self (off : Nat) (bytes : Bytes) :
    readBytes (writeBytes mem off bytes) off bytes.length = bytes := by
  induction bytes generalizing mem off with
  | nil => rfl
  | cons b rest ih =>
      have hhead : writeBytes (fun a => if a = off then b else mem a) (off + 1) rest off = b := by
        rw [writeBytes_of_outside _ _ _ (.inl (by omega))]
        simp
      rw [writeBytes, List.length_cons, readBytes, hhead, ih]

theorem readBytes_writeBytes_disjoint {off len at' : Nat} {bytes : Bytes}
    (h : off + len ≤ at' ∨ at' + bytes.length ≤ off) :
    readBytes (writeBytes mem at' bytes) off len = readBytes mem off len := by
  apply readBytes_congr
  intro a ha hlt
  exact writeBytes_of_outside mem at' bytes (by omega)

theorem readLE_writeBytes_self (off width n : Nat) :
    readLE (writeBytes mem off (leBytes width n)) off width = n % 256 ^ width := by
  have hread := readBytes_writeBytes_self mem off (leBytes width n)
  rw [length_leBytes] at hread
  rw [readLE, hread, leValue_leBytes]

theorem readLE_writeBytes_disjoint {off width at' : Nat} {bytes : Bytes}
    (h : off + width ≤ at' ∨ at' + bytes.length ≤ off) :
    readLE (writeBytes mem at' bytes) off width = readLE mem off width := by
  rw [readLE, readBytes_writeBytes_disjoint mem h, readLE]

/-- A buffer at offset zero; what lies past its end is zero. -/
def ofBytes (bytes : Bytes) : Memory := fun a => bytes.getD a 0

theorem readBytes_ofBytes (before bytes after : Bytes) :
    readBytes (ofBytes (before ++ bytes ++ after)) before.length bytes.length = bytes := by
  induction bytes generalizing before with
  | nil => rfl
  | cons b rest ih =>
      have hhead : ofBytes (before ++ b :: rest ++ after) before.length = b := by
        simp [ofBytes]
      have htail := ih (before ++ [b])
      rw [List.length_append, List.length_singleton, List.append_assoc before [b] rest,
        List.singleton_append] at htail
      rw [List.length_cons, readBytes, hhead, htail]

/-! ## Memories that agree below an offset

A writer that only moves forward leaves everything below its pointer alone.
-/

def AgreesBelow (n : Nat) (mem mem' : Memory) : Prop := ∀ a, a < n → mem' a = mem a

namespace AgreesBelow

variable {n : Nat} {mem mem' mem'' : Memory}

theorem trans (h : AgreesBelow n mem mem') (h' : AgreesBelow n mem' mem'') :
    AgreesBelow n mem mem'' := by
  intro a ha
  rw [h' a ha, h a ha]

theorem mono {m : Nat} (h : AgreesBelow n mem mem') (hle : m ≤ n) : AgreesBelow m mem mem' := by
  intro a ha
  exact h a (by omega)

theorem writeBytes {off : Nat} (mem : Memory) (bytes : Bytes) (h : n ≤ off) :
    AgreesBelow n mem (writeBytes mem off bytes) := by
  intro a ha
  exact writeBytes_of_outside mem off bytes (.inl (by omega))

theorem readBytes_eq {off len : Nat} (h : AgreesBelow n mem mem') (hend : off + len ≤ n) :
    readBytes mem' off len = readBytes mem off len := by
  apply readBytes_congr
  intro a _ hlt
  exact h a (by omega)

theorem readLE_eq {off width : Nat} (h : AgreesBelow n mem mem') (hend : off + width ≤ n) :
    readLE mem' off width = readLE mem off width := by
  rw [readLE, h.readBytes_eq hend, readLE]

end AgreesBelow

end DataMgr.Foundation
