/-!
# Byte strings

A byte string is a list of bytes. This file holds the number a byte string writes in either byte
order, the fixed-width writing of a number, hexadecimal text and UTF-8. Main statements: writing in
`size` bytes gives `size` bytes, reading undoes writing of a number that fits, writing undoes
reading, and strict UTF-8 decoding accepts exactly what encoding produces.
-/
namespace SignedRelay

abbrev Bytes := List UInt8

namespace Bytes

/-- The number written with the least significant byte first. -/
def toNatLE : Bytes → Nat
  | [] => 0
  | b :: rest => b.toNat + 256 * toNatLE rest

/-- The number written with the most significant byte first. -/
def toNatBE (data : Bytes) : Nat := toNatLE data.reverse

/-- The low `size` bytes of a number, least significant first. -/
def ofNatLE : Nat → Nat → Bytes
  | 0, _ => []
  | size + 1, n => UInt8.ofNat n :: ofNatLE size (n / 256)

/-- The low `size` bytes of a number, most significant first. -/
def ofNatBE (size n : Nat) : Bytes := (ofNatLE size n).reverse

/-- How many numbers fit in `size` bytes. -/
def capacity : Nat → Nat
  | 0 => 1
  | size + 1 => 256 * capacity size

theorem capacity_le {m n : Nat} (h : m ≤ n) : capacity m ≤ capacity n := by
  induction h with
  | refl => exact Nat.le_refl _
  | step _ ih =>
    rw [capacity]
    omega

@[simp] theorem length_ofNatLE (size n : Nat) : (ofNatLE size n).length = size := by
  induction size generalizing n with
  | zero => rfl
  | succ size ih => simp [ofNatLE, ih]

@[simp] theorem length_ofNatBE (size n : Nat) : (ofNatBE size n).length = size := by
  simp [ofNatBE]

theorem toNatLE_lt (data : Bytes) : toNatLE data < capacity data.length := by
  induction data with
  | nil => exact Nat.zero_lt_one
  | cons b rest ih =>
    have hb : b.toNat < 256 := b.toNat_lt
    simp only [toNatLE, List.length_cons, capacity]
    omega

theorem toNatBE_lt (data : Bytes) : toNatBE data < capacity data.length := by
  simpa [toNatBE] using toNatLE_lt data.reverse

theorem toNatLE_ofNatLE {size n : Nat} (h : n < capacity size) : toNatLE (ofNatLE size n) = n := by
  induction size generalizing n with
  | zero =>
    rw [Nat.lt_one_iff.1 h]
    rfl
  | succ size ih =>
    have hq : n / 256 < capacity size := by
      rw [capacity] at h
      omega
    simp only [ofNatLE, toNatLE, ih hq, UInt8.toNat_ofNat']
    omega

theorem toNatBE_ofNatBE {size n : Nat} (h : n < capacity size) : toNatBE (ofNatBE size n) = n := by
  simp [toNatBE, ofNatBE, toNatLE_ofNatLE h]

theorem ofNatLE_toNatLE (data : Bytes) : ofNatLE data.length (toNatLE data) = data := by
  induction data with
  | nil => rfl
  | cons b rest ih =>
    have hb : b.toNat < 256 := b.toNat_lt
    have hd : (b.toNat + 256 * toNatLE rest) / 256 = toNatLE rest := by omega
    have hm : UInt8.ofNat (b.toNat + 256 * toNatLE rest) = b := by
      apply UInt8.toNat_inj.1
      rw [UInt8.toNat_ofNat']
      omega
    simp only [List.length_cons, ofNatLE, toNatLE, hd, hm, ih]

theorem ofNatBE_toNatBE (data : Bytes) : ofNatBE data.length (toNatBE data) = data := by
  have h := ofNatLE_toNatLE data.reverse
  rw [List.length_reverse] at h
  simp [ofNatBE, toNatBE, h]

theorem toNatLE_append_zeros (data : Bytes) (count : Nat) :
    toNatLE (data ++ List.replicate count 0x00) = toNatLE data := by
  induction data with
  | nil =>
    induction count with
    | zero => rfl
    | succ count ih =>
      have hzeros : toNatLE (List.replicate count 0x00) = 0 := ih
      show 0 + 256 * toNatLE (List.replicate count 0x00) = 0
      rw [hzeros]
  | cons b rest ih => rw [List.cons_append, toNatLE, toNatLE, ih]

/-- The number of a byte string is written in as many bytes or more by the byte string itself, behind
zeros. -/
theorem ofNatBE_toNatBE_of_le {size : Nat} {data : Bytes} (h : data.length ≤ size) :
    ofNatBE size (toNatBE data) = List.replicate (size - data.length) 0x00 ++ data := by
  have hnumber : toNatBE (List.replicate (size - data.length) 0x00 ++ data) = toNatBE data := by
    unfold toNatBE
    rw [List.reverse_append, List.reverse_replicate, toNatLE_append_zeros]
  have hlength : (List.replicate (size - data.length) 0x00 ++ data).length = size := by
    rw [List.length_append, List.length_replicate]
    omega
  have hwritten := ofNatBE_toNatBE (List.replicate (size - data.length) 0x00 ++ data)
  rwa [hlength, hnumber] at hwritten

/-- The lower-case hexadecimal digit of a number below sixteen. -/
def hexDigit (n : Nat) : Char := "0123456789abcdef".toList.getD n '0'

/-- Two lower-case hexadecimal digits a byte. -/
def hexChars (data : Bytes) : List Char :=
  data.flatMap fun b => [hexDigit (b.toNat / 16), hexDigit (b.toNat % 16)]

def hex (data : Bytes) : String := String.ofList data.hexChars

/-- The value of a hexadecimal digit of either case. -/
def hexValue? (c : Char) : Option Nat :=
  if '0' ≤ c ∧ c ≤ '9' then some (c.toNat - 48)
  else if 'a' ≤ c ∧ c ≤ 'f' then some (c.toNat - 87)
  else if 'A' ≤ c ∧ c ≤ 'F' then some (c.toNat - 55)
  else none

/-- The bytes of a hexadecimal text of even length. -/
def ofHex? : List Char → Option Bytes
  | [] => some []
  | [_] => none
  | high :: low :: rest => do
    let h ← hexValue? high
    let l ← hexValue? low
    return UInt8.ofNat (16 * h + l) :: (← ofHex? rest)

@[simp] theorem length_hexChars (data : Bytes) : data.hexChars.length = 2 * data.length := by
  induction data with
  | nil => rfl
  | cons b rest ih =>
    simp only [hexChars, List.flatMap_cons, List.length_append, List.length_cons,
      List.length_nil] at ih ⊢
    omega

/-- The UTF-8 encoding of a text. -/
def utf8 (text : String) : Bytes := text.toByteArray.data.toList

/-- The text that a byte string encodes. Overlong forms, surrogates and numbers beyond the last
code point are no encoding. -/
def ofUtf8? (data : Bytes) : Option String := String.fromUTF8? ⟨data.toArray⟩

theorem ofUtf8?_utf8 (text : String) : ofUtf8? (utf8 text) = some text := by
  simp [ofUtf8?, utf8, String.fromUTF8?, text.isValidUTF8, String.fromUTF8]

theorem utf8_eq_of_ofUtf8? {data : Bytes} {text : String} (h : ofUtf8? data = some text) :
    utf8 text = data := by
  simp only [ofUtf8?, String.fromUTF8?] at h
  split at h
  · cases h
    simp [utf8, String.fromUTF8]
  · simp at h

theorem ofUtf8?_eq_some_iff {data : Bytes} {text : String} :
    ofUtf8? data = some text ↔ utf8 text = data :=
  ⟨utf8_eq_of_ofUtf8?, fun h => h ▸ ofUtf8?_utf8 text⟩

theorem utf8_injective {a b : String} (h : utf8 a = utf8 b) : a = b := by
  have ha := ofUtf8?_utf8 a
  rw [h, ofUtf8?_utf8] at ha
  exact (Option.some.inj ha).symm

theorem utf8_append (a b : String) : utf8 (a ++ b) = utf8 a ++ utf8 b := by
  simp [utf8]

end Bytes

end SignedRelay
