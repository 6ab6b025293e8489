import SignedRelay.Bytes

/-!
# Base64

Standard alphabet, padded, no blanks. Decoding is strict about the alphabet and about where padding
may stand, and lenient in two ways: bits of the last character that carry no data are ignored, and
after complete quads of four any number of padding characters may follow.
-/
namespace SignedRelay.Base64

def alphabet : List Char :=
  "ABCDEFGHIJKLMNOPQRSTUVWXYZabcdefghijklmnopqrstuvwxyz0123456789+/".toList

/-- The character that stands for a number below sixty-four. -/
def digit (n : Nat) : Char := alphabet.getD n 'A'

/-- The number that a character of the alphabet stands for. -/
def value? (c : Char) : Option Nat :=
  if 'A' ≤ c ∧ c ≤ 'Z' then some (c.toNat - 65)
  else if 'a' ≤ c ∧ c ≤ 'z' then some (c.toNat - 71)
  else if '0' ≤ c ∧ c ≤ '9' then some (c.toNat + 4)
  else if c = '+' then some 62
  else if c = '/' then some 63
  else none

/-- Three bytes give four characters; a rest of one or two bytes is padded to four. -/
def encodeChars : Bytes → List Char
  | a :: b :: c :: rest =>
    digit (a.toNat / 4) :: digit (a.toNat % 4 * 16 + b.toNat / 16) ::
      digit (b.toNat % 16 * 4 + c.toNat / 64) :: digit (c.toNat % 64) :: encodeChars rest
  | [a, b] =>
    [digit (a.toNat / 4), digit (a.toNat % 4 * 16 + b.toNat / 16), digit (b.toNat % 16 * 4), '=']
  | [a] => [digit (a.toNat / 4), digit (a.toNat % 4 * 16), '=', '=']
  | [] => []

def encode (data : Bytes) : String := String.ofList (encodeChars data)

/-- The bytes of a run of alphabet values, and how many values the last quad is short of four. -/
def pack : List Nat → Option (Bytes × Nat)
  | a :: b :: c :: d :: rest => do
    let (data, missing) ← pack rest
    return (UInt8.ofNat (a * 4 + b / 16) :: UInt8.ofNat (b % 16 * 16 + c / 4) ::
      UInt8.ofNat (c % 4 * 64 + d) :: data, missing)
  | [a, b, c] => some ([UInt8.ofNat (a * 4 + b / 16), UInt8.ofNat (b % 16 * 16 + c / 4)], 1)
  | [a, b] => some ([UInt8.ofNat (a * 4 + b / 16)], 2)
  | [_] => none
  | [] => some ([], 0)

/-- Whether a text of `values` alphabet characters, `missing` short of complete quads, may end in
`padding` padding characters. -/
def paddingFits (values missing padding : Nat) : Bool :=
  if missing = 0 then values ≠ 0 || padding = 0 else padding = missing

def decodeChars (text : List Char) : Option Bytes := do
  let padding := text.dropWhile (· ≠ '=')
  let values ← (text.takeWhile (· ≠ '=')).mapM value?
  let (data, missing) ← pack values
  if padding.all (· = '=') && paddingFits values.length missing padding.length then
    some data
  else none

def decode (text : String) : Option Bytes := decodeChars text.toList

end SignedRelay.Base64
