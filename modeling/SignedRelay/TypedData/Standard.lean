import Mathlib.Logic.Relation
import SignedRelay.TypedData

/-!
# Struct hashing by the standard

EIP-712 hashes a struct behind the digest of its encoded type: the text of its declaration, followed
by those of all structs that it refers to, directly or through others, sorted by name. What has no fixed
length is encoded as its digest, and everything else as one word, filled up with zeros. The standard does
not say how a number is carried by a payload: its bytes are taken as they are, most significant first,
for signed numbers and truth values too.
-/
namespace SignedRelay

/-- A field of one struct refers to another. -/
def Definition.Refers (structs : List Declaration) (first second : String) : Prop :=
  ∃ declaration ∈ structs, declaration.name = first ∧ second ∈ references [declaration]

/-- One struct refers to another, directly or through others. -/
def Definition.Reaches (structs : List Declaration) : String → String → Prop :=
  Relation.TransGen (Refers structs)

/-- The struct refers to no struct but itself. -/
def Declaration.SelfContained (declaration : Declaration) : Prop :=
  ∀ name ∈ Definition.references [declaration], name = declaration.name

instance (declaration : Declaration) : Decidable declaration.SelfContained :=
  inferInstanceAs (Decidable (∀ name ∈ Definition.references [declaration], name = declaration.name))

namespace TypedData.Standard

/-- The structs with one of some names. -/
def named (structs : List Declaration) (names : List String) : List Declaration :=
  structs.filter fun declaration => names.contains declaration.name

/-- The structs with none of some names. -/
def others (structs : List Declaration) (names : List String) : List Declaration :=
  structs.filter fun declaration => !names.contains declaration.name

theorem mem_named {structs : List Declaration} {names : List String} {declaration : Declaration} :
    declaration ∈ named structs names ↔ declaration ∈ structs ∧ declaration.name ∈ names := by
  unfold named
  rw [List.mem_filter, List.contains_iff_mem]

theorem mem_others {structs : List Declaration} {names : List String} {declaration : Declaration} :
    declaration ∈ others structs names ↔ declaration ∈ structs ∧ declaration.name ∉ names := by
  unfold others
  rw [List.mem_filter, Bool.not_eq_true', ← Bool.not_eq_true, List.contains_iff_mem]

theorem length_others_lt {pool : List Declaration} {names : List String}
    (h : ¬ (named pool names).isEmpty = true) : (others pool names).length < pool.length := by
  obtain ⟨declaration, hmem⟩ := List.exists_mem_of_ne_nil _ (mt List.isEmpty_iff.2 h)
  obtain ⟨hpool, hname⟩ := mem_named.1 hmem
  apply List.length_filter_lt_length_iff_exists.2
  refine ⟨declaration, hpool, ?_⟩
  simpa using hname

/-- The structs of a pool that some names lead to: those with the names, and then those that these
refer to in what is left. -/
def visit (pool : List Declaration) (names : List String) : List Declaration :=
  if _h : (named pool names).isEmpty then []
  else named pool names ++ visit (others pool names) (Definition.references (named pool names))
termination_by pool.length
decreasing_by exact length_others_lt _h

/-- The other structs that a struct refers to, directly or through others, sorted by name. -/
def dependencies (structs : List Declaration) (declaration : Declaration) : List Declaration :=
  (others (visit structs [declaration.name]) [declaration.name]).mergeSort (·.name ≤ ·.name)

/-- The encoded type of a struct. -/
def encodeType (structs : List Declaration) (declaration : Declaration) : String :=
  String.ofList ((declaration :: dependencies structs declaration).flatMap Declaration.render)

/-- The digest of a struct type. -/
def typeHash (structs : List Declaration) (hasher : Hasher) (declaration : Declaration) : Bytes :=
  hasher.hash (Bytes.utf8 (encodeType structs declaration))

/-- Zeros that fill a byte string up to one word. -/
def zeros (data : Bytes) : Bytes := List.replicate (32 - data.length) 0x00

/-- The word of a byte string, for those that fit their type: a digest where any length is admitted, the
byte string in front of zeros where its bytes are counted from the left, and behind zeros where it is a
number or an address. -/
def leaf? (hasher : Hasher) (type : ArgType) (data : Bytes) : Option Bytes :=
  match type with
  | .string | .bytes => some (hasher.hash data)
  | .fixedBytes size => if data.length ≤ size then some (data ++ zeros data) else none
  | .uint | .int | .bool => if data.length ≤ 32 then some (zeros data ++ data) else none
  | .address => if data.length = 20 then some (zeros data ++ data) else none
  | .array .. | .struct .. => none

mutual

/-- The word of a value, for values that fit their type. -/
def encode? (structs : List Declaration) (hasher : Hasher) (type : ArgType) (value : Rlp) :
    Option Bytes :=
  match value with
  | .bytes data => leaf? hasher type data
  | .list items =>
    match type with
    | .array element length =>
      if length.all (items.length = ·) then
        (encodeElements? structs hasher element items).map hasher.hash
      else none
    | .struct name =>
      match Definition.lookup? structs name with
      | none => none
      | some declaration =>
        if items.length ≠ declaration.params.length then none
        else
          (encodeFields? structs hasher declaration.params items).map fun words =>
            hasher.hash (typeHash structs hasher declaration ++ words)
    | _ => none

/-- The words of values of one type. -/
def encodeElements? (structs : List Declaration) (hasher : Hasher) (type : ArgType) :
    List Rlp → Option Bytes
  | [] => some []
  | value :: rest => do
    let word ← encode? structs hasher type value
    let words ← encodeElements? structs hasher type rest
    return word ++ words

/-- The words of values, each of its parameter's type. -/
def encodeFields? (structs : List Declaration) (hasher : Hasher) (params : List Param)
    (values : List Rlp) : Option Bytes :=
  match params, values with
  | param :: params, value :: rest => do
    let word ← encode? structs hasher param.type value
    let words ← encodeFields? structs hasher params rest
    return word ++ words
  | _, _ => some []

end

end TypedData.Standard

end SignedRelay
