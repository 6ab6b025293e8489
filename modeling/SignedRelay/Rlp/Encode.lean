import SignedRelay.Rlp

/-!
# Writing argument values

The canonical form that is read. A byte below `0x80` stands for itself, and every other item has the
shortest header that gives its length: one byte up to fifty-five, and the length in as few bytes as
it takes above. Main statements: the digits of a number have no zero in front, only such a digit string
is that of its number, and no shorter one is.
-/
namespace SignedRelay

namespace Bytes

/-- The digits of a number to the base 256, least significant first, without zeros at the end. -/
def digitsLE (n : Nat) : Bytes := if n = 0 then [] else UInt8.ofNat n :: digitsLE (n / 256)

theorem digitsLE_zero : digitsLE 0 = [] := by
  rw [digitsLE]
  exact if_pos rfl

theorem digitsLE_of_pos {n : Nat} (h : 0 < n) : digitsLE n = UInt8.ofNat n :: digitsLE (n / 256) := by
  rw [digitsLE]
  exact if_neg (Nat.ne_of_gt h)

/-- The digits of a number to the base 256, most significant first. -/
def digitsBE (n : Nat) : Bytes := (digitsLE n).reverse

theorem digitsLE_toNatLE {data : Bytes} (h : data.getLast? ≠ some 0) :
    digitsLE (toNatLE data) = data := by
  induction data with
  | nil => exact digitsLE_zero
  | cons b rest ih =>
    have hb : b.toNat < 256 := b.toNat_lt
    have hq : (b.toNat + 256 * toNatLE rest) / 256 = toNatLE rest := by omega
    have hm : UInt8.ofNat (b.toNat + 256 * toNatLE rest) = b := by
      apply UInt8.toNat_inj.1
      rw [UInt8.toNat_ofNat']
      omega
    have hrest : digitsLE (toNatLE rest) = rest := by
      apply ih
      intro hlast
      apply h
      rw [List.getLast?_cons, hlast, Option.getD_some]
    have hpos : 0 < b.toNat + 256 * toNatLE rest := by
      rcases Nat.eq_zero_or_pos (toNatLE rest) with hzero | hpos
      · -- A rest without digits is empty, so `b` is the last digit and no zero.
        rw [hzero, digitsLE_zero] at hrest
        subst hrest
        have hne : b ≠ 0 := fun heq => h (by rw [heq]; rfl)
        have hne : b.toNat ≠ 0 := fun heq => hne (UInt8.toNat_inj.1 heq)
        omega
      · omega
    rw [toNatLE, digitsLE_of_pos hpos, hq, hm, hrest]

theorem digitsBE_toNatBE {data : Bytes} (h : data.head? ≠ some 0) :
    digitsBE (toNatBE data) = data := by
  unfold digitsBE toNatBE
  rw [digitsLE_toNatLE (by rwa [List.getLast?_reverse]), List.reverse_reverse]

theorem toNatLE_digitsLE (n : Nat) : toNatLE (digitsLE n) = n := by
  fun_induction digitsLE n with
  | case1 => rfl
  | case2 n hn ih =>
    rw [toNatLE, ih, UInt8.toNat_ofNat']
    omega

theorem toNatBE_digitsBE (n : Nat) : toNatBE (digitsBE n) = n := by
  unfold toNatBE digitsBE
  rw [List.reverse_reverse, toNatLE_digitsLE]

theorem getLast?_digitsLE (n : Nat) : (digitsLE n).getLast? ≠ some 0 := by
  fun_induction digitsLE n with
  | case1 => simp
  | case2 n hn ih =>
    rw [List.getLast?_cons]
    cases hrest : (digitsLE (n / 256)).getLast? with
    | some last =>
      rw [hrest] at ih
      exact ih
    | none =>
      -- Without further digits the number is the digit, which is no zero.
      have hvalue := toNatLE_digitsLE (n / 256)
      rw [List.getLast?_eq_none_iff.1 hrest, toNatLE] at hvalue
      intro hzero
      have hdigit := congrArg UInt8.toNat (Option.some.inj hzero)
      rw [Option.getD_none, UInt8.toNat_ofNat', UInt8.toNat_zero] at hdigit
      omega

theorem head?_digitsBE (n : Nat) : (digitsBE n).head? ≠ some 0 := by
  unfold digitsBE
  rw [List.head?_reverse]
  exact getLast?_digitsLE n

theorem length_digitsLE_le {size n : Nat} (h : n < capacity size) : (digitsLE n).length ≤ size := by
  induction size generalizing n with
  | zero =>
    rw [Nat.lt_one_iff.1 h, digitsLE_zero]
    exact Nat.le_refl 0
  | succ size ih =>
    rcases Nat.eq_zero_or_pos n with rfl | hpos
    · rw [digitsLE_zero]
      exact Nat.zero_le _
    · rw [capacity] at h
      rw [digitsLE_of_pos hpos, List.length_cons]
      exact Nat.succ_le_succ (ih (by omega))

/-- The digits of a number are as few as can hold it. -/
theorem length_digitsBE_le_iff {size n : Nat} :
    (digitsBE n).length ≤ size ↔ n < capacity size := by
  constructor
  · intro h
    have hlt := toNatBE_lt (digitsBE n)
    rw [toNatBE_digitsBE] at hlt
    exact Nat.lt_of_lt_of_le hlt (capacity_le h)
  · intro h
    unfold digitsBE
    rw [List.length_reverse]
    exact length_digitsLE_le h

end Bytes

namespace Rlp

/-- What stands in front of a payload of a given length, in a class of items whose headers start at
`start`. -/
def header (start length : Nat) : Bytes :=
  if length ≤ 55 then [UInt8.ofNat (start + length)]
  else
    let digits := Bytes.digitsBE length
    UInt8.ofNat (start + 55 + digits.length) :: digits

mutual

/-- The canonical encoding of a value. -/
def encode : Rlp → Bytes
  | bytes data => if isOwnEncoding data then data else header 0x80 data.length ++ data
  | list items => header 0xc0 (encodeAll items).length ++ encodeAll items

/-- The encodings of values one behind the other. -/
def encodeAll : List Rlp → Bytes
  | [] => []
  | value :: rest => encode value ++ encodeAll rest

end

/-- What stands behind the header of a value. -/
def payload : Rlp → Bytes
  | bytes data => data
  | list items => encodeAll items

/-- A byte string is the canonical encoding of a value. A header holds at most eight digits of a length,
so a longer payload has no encoding. -/
structure Encodes (value : Rlp) (data : Bytes) : Prop where
  length_payload : value.payload.length < Bytes.capacity 8
  encode_eq : value.encode = data

end Rlp

end SignedRelay
