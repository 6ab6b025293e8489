import SignedRelay.ArgType

/-!
# How types are written

The grammar of type texts, told without the parser. A type is written as a word with array suffixes
behind it, each of which makes an array of what stands in front of it. A word is a keyword, a stem with
a size, or the name of a struct that could not be taken for either.
-/
namespace SignedRelay.ArgType

open Text

/-- A size is written in digits, without a zero in front. -/
structure WritesSize (digits : List Char) (size : Nat) : Prop where
  all_digits : ∀ c ∈ digits, Digit c
  nonzero : ∃ first, digits.head? = some first ∧ first ≠ '0'
  value : Nat.ofDigitChars 10 digits 0 = size

/-- A size of a number, in bits. -/
def IsBitSize (size : Nat) : Prop := 8 ∣ size ∧ 8 ≤ size ∧ size ≤ 256

/-- A size of a byte string, in bytes. -/
def IsByteSize (size : Nat) : Prop := 1 ≤ size ∧ size ≤ 32

/-- What the words of sized types start with. -/
def stems : List String := ["uint", "int", "bytes"]

/-- A keyword, or a stem with digits behind it, whatever size they write. -/
def LooksAtomic (word : List Char) : Prop :=
  (∃ entry ∈ keywords, word = entry.1.toList) ∨
    ∃ stem ∈ stems, ∃ digits, digits ≠ [] ∧ (∀ c ∈ digits, Digit c) ∧ word = stem.toList ++ digits

/-- The type that a word stands for. -/
inductive Denotes : List Char → ArgType → Prop
  | keyword {entry : String × ArgType} : entry ∈ keywords → Denotes entry.1.toList entry.2
  | uint {digits : List Char} {size : Nat} : WritesSize digits size → IsBitSize size →
    Denotes ("uint".toList ++ digits) uint
  | int {digits : List Char} {size : Nat} : WritesSize digits size → IsBitSize size →
    Denotes ("int".toList ++ digits) int
  | fixedBytes {digits : List Char} {size : Nat} : WritesSize digits size → IsByteSize size →
    Denotes ("bytes".toList ++ digits) (fixedBytes size)
  | struct {name : String} : ¬LooksAtomic name.toList → Denotes name.toList (struct name)

/-- The length that the digits of an array suffix write: none if there are no digits. A length may have
zeros in front, but no more digits than can be read. -/
inductive WritesLength : List Char → Option Nat → Prop
  | none : WritesLength [] none
  | some {digits : List Char} : digits ≠ [] → (∀ c ∈ digits, Digit c) →
    digits.length ≤ numeralLimit → WritesLength digits (some (Nat.ofDigitChars 10 digits 0))

/-- The digits of an array suffix in their brackets. -/
def suffix (digits : List Char) : List Char := '[' :: digits ++ [']']

/-- A text writes a type. The last suffix is that of the outermost array. -/
inductive Writes : List Char → ArgType → Prop
  | word {word : List Char} {type : ArgType} : Identifier word → Denotes word type →
    Writes word type
  | array {text digits : List Char} {element : ArgType} {length : Option Nat} :
    Writes text element → WritesLength digits length →
    Writes (text ++ suffix digits) (array element length)

/-- A type has no more array suffixes than a bound allows. Any bound allows none. -/
def NestsWithin (bound : Int) (type : ArgType) : Prop :=
  type.lengths = [] ∨ type.lengths.length ≤ bound

/-- The digits of a length, without zeros in front. -/
def renderLength : Option Nat → List Char
  | none => []
  | some length => Nat.toDigits 10 length

/-- One text for each type. Numbers are written without a size. -/
def render : ArgType → List Char
  | address => "address".toList
  | uint => "uint".toList
  | int => "int".toList
  | bool => "bool".toList
  | string => "string".toList
  | bytes => "bytes".toList
  | fixedBytes size => "bytes".toList ++ Nat.toDigits 10 size
  | struct name => name.toList
  | array element length => element.render ++ suffix (renderLength length)

/-- A type that some text writes: its fixed byte strings fit a word, its structs have names that could
not be taken for another type, and the lengths of its arrays are not too long to be read. -/
def Expressible : ArgType → Prop
  | fixedBytes size => IsByteSize size
  | struct name => Identifier name.toList ∧ ¬LooksAtomic name.toList
  | array element length => element.Expressible ∧ (renderLength length).length ≤ numeralLimit
  | _ => True

end SignedRelay.ArgType
