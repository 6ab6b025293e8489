import SignedRelay.Error
import SignedRelay.Text.Identifier

/-!
# Argument types

The types that a method definition can give to its arguments. The width of a number does not affect
how its values are encoded, so it is not kept. In a text, a type is a word followed by array suffixes,
each of which wraps the type read so far: in `uint256[3][]` the outermost array is the one without a
length. A word that looks like a sized number or a sized byte string must have a valid size; every other
word names a struct.
-/
namespace SignedRelay

open Text

inductive ArgType
  | address
  | uint
  | int
  | bool
  | string
  | bytes
  /-- One to thirty-two bytes. -/
  | fixedBytes (size : Nat)
  /-- A struct declared beside the method. -/
  | struct (name : String)
  /-- An array, of any number of elements where no length is given. -/
  | array (element : ArgType) (length : Option Nat)
  deriving DecidableEq, Repr

namespace ArgType

/-- The type under all array suffixes. -/
def base : ArgType → ArgType
  | array element _ => element.base
  | type => type

/-- The array lengths, innermost array first. -/
def lengths : ArgType → List (Option Nat)
  | array element length => element.lengths ++ [length]
  | _ => []

/-- The struct that a type refers to, if any. -/
def structName? (type : ArgType) : Option String :=
  match type.base with
  | struct name => some name
  | _ => none

end ArgType

open Text

/-- The number that a numeral writes, unless the numeral is too long to be read. -/
def numeral (digits : List Char) : Except Fault Nat :=
  if numeralLimit < digits.length then .error (.numeralLength digits.length)
  else .ok (decimal digits)

namespace ArgType

def keywords : List (String × ArgType) :=
  [("address", address), ("bool", bool), ("string", string), ("bytes", bytes),
    ("byte", fixedBytes 1), ("uint", uint), ("int", int)]

/-- The digits of a word that is `stem` followed by at least one digit and nothing else. -/
def digitsAfter? (stem word : List Char) : Option (List Char) :=
  let digits := word.drop stem.length
  if stem.isPrefixOf word && !digits.isEmpty && digits.all Char.isDigit then some digits else none

/-- No size starts with a zero. -/
def canonicalSize (digits : List Char) : Bool := digits.head? != some '0'

/-- A size in bits: a multiple of eight up to 256. -/
def bitSizeFits (size : Nat) : Bool := size % 8 == 0 && 8 ≤ size && size ≤ 256

/-- A size in bytes: one to thirty-two. -/
def byteSizeFits (size : Nat) : Bool := 1 ≤ size && size ≤ 32

/-- The type of a word that ends in `digits` after the stem of a number. -/
def ofSizedInteger (type : ArgType) (word digits : List Char) : Except Error ArgType := do
  let size ← (numeral digits).mapError .fault
  if canonicalSize digits && bitSizeFits size then return type
  else throw (.encoding (.integerSize word))

/-- The type of a word that ends in `digits` after the stem of a byte string. -/
def ofSizedBytes (word digits : List Char) : Except Error ArgType := do
  let size ← (numeral digits).mapError .fault
  if canonicalSize digits && byteSizeFits size then return fixedBytes size
  else throw (.encoding (.byteSize word))

/-- The type that a word stands for. -/
def ofWord (word : List Char) : Except Error ArgType :=
  match keywords.lookup (String.ofList word) with
  | some type => .ok type
  | none =>
    match digitsAfter? "uint".toList word with
    | some digits => ofSizedInteger uint word digits
    | none =>
      match digitsAfter? "int".toList word with
      | some digits => ofSizedInteger int word digits
      | none =>
        match digitsAfter? "bytes".toList word with
        | some digits => ofSizedBytes word digits
        | none => .ok (struct (String.ofList word))

/-- The digits of an array suffix at the head of a text, and what follows it. -/
def suffix? : List Char → Option (List Char × List Char)
  | '[' :: rest =>
    match rest.dropWhile Char.isDigit with
    | ']' :: after => some (rest.takeWhile Char.isDigit, after)
    | _ => none
  | _ => none

theorem append_of_suffix? {text digits rest : List Char} (h : suffix? text = some (digits, rest)) :
    text = '[' :: digits ++ ']' :: rest := by
  unfold suffix? at h
  split at h
  · next tail =>
    split at h
    · next after hdrop =>
      cases h
      rw [List.cons_append, ← hdrop, List.takeWhile_append_dropWhile]
    · simp at h
  · simp at h

theorem isDigit_of_suffix? {text digits rest : List Char}
    (h : suffix? text = some (digits, rest)) : ∀ c ∈ digits, c.isDigit = true := by
  unfold suffix? at h
  split at h
  · split at h
    · cases h
      exact List.all_eq_true.1 List.all_takeWhile
    · cases h
  · cases h

theorem length_lt_of_suffix? {text digits rest : List Char}
    (h : suffix? text = some (digits, rest)) : rest.length < text.length := by
  rw [append_of_suffix? h]
  simp
  omega

/-- The length that the digits of a suffix write; no digits, no length. -/
def suffixLength (digits : List Char) : Except Error (Option Nat) :=
  if digits.isEmpty then .ok none else ((numeral digits).map some).mapError .fault

/-- Wrap a type in the array suffixes of `rest`, the end of `text`, below `depth` earlier ones. -/
def wrap (text : List Char) (bound : Int) (type : ArgType) (depth : Nat) (rest : List Char) :
    Except Error ArgType :=
  if rest.isEmpty then .ok type
  else
    match _h : suffix? rest with
    | none => .error (.encoding (.typeTrailing rest text))
    | some (digits, after) =>
      if bound < depth + 1 then .error (.encoding (.typeNesting bound text))
      else
        match suffixLength digits with
        | .error error => .error error
        | .ok length => wrap text bound (array type length) (depth + 1) after
termination_by rest.length
decreasing_by exact length_lt_of_suffix? _h

/-- The type that a text writes, with at most `bound` array suffixes. -/
def parse (bound : Int) (text : List Char) : Except Error ArgType :=
  match identifier? text with
  | none => .error (.encoding (.typeInvalid text))
  | some (word, rest) =>
    match ofWord word with
    | .error error => .error error
    | .ok type => wrap text bound type 0 rest

end ArgType

end SignedRelay
