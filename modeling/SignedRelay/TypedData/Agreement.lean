import SignedRelay.TypedData

/-!
# Values that agree up to padding

A word has no place for the zeros in front of a number or behind a fixed byte string. Two values of
a type agree if they differ in nothing else.
-/
namespace SignedRelay

/-- Whether a word can hold a value of the type's base in more than one form. -/
def ArgType.isPadded (type : ArgType) : Bool :=
  match type.base with
  | .uint | .int | .bool | .fixedBytes _ => true
  | _ => false

namespace TypedData

/-- No parameter has a type with padding. -/
def Unpadded (declarations : List Declaration) : Prop :=
  ∀ declaration ∈ declarations, ∀ param ∈ declaration.params, param.type.isPadded = false

/-- Equal as numbers, equal once filled up with zeros, or equal. -/
def AgreeBytes (type : ArgType) (a b : Bytes) : Prop :=
  match type with
  | .uint | .int | .bool => Bytes.toNatBE a = Bytes.toNatBE b
  | .fixedBytes _ => padRight a = padRight b
  | _ => a = b

mutual

/-- Two values of one type that differ at most in padding. -/
inductive Agree (structs : List Declaration) : ArgType → Rlp → Rlp → Prop
  | bytes {type : ArgType} {a b : Bytes} :
    AgreeBytes type a b → Agree structs type (.bytes a) (.bytes b)
  | array {element : ArgType} {length : Option Nat} {items items' : List Rlp} :
    AgreeElements structs element items items' →
    Agree structs (.array element length) (.list items) (.list items')
  | struct {name : String} {declaration : Declaration} {items items' : List Rlp} :
    Definition.lookup? structs name = some declaration →
    AgreeFields structs declaration.params items items' →
    Agree structs (.struct name) (.list items) (.list items')

/-- As many values of one type, each of which agrees with its counterpart. -/
inductive AgreeElements (structs : List Declaration) : ArgType → List Rlp → List Rlp → Prop
  | nil {type : ArgType} : AgreeElements structs type [] []
  | cons {type : ArgType} {value value' : Rlp} {rest rest' : List Rlp} :
    Agree structs type value value' → AgreeElements structs type rest rest' →
    AgreeElements structs type (value :: rest) (value' :: rest')

/-- Values for the same parameters, each of which agrees with its counterpart. -/
inductive AgreeFields (structs : List Declaration) : List Param → List Rlp → List Rlp → Prop
  | nil : AgreeFields structs [] [] []
  | cons {param : Param} {params : List Param} {value value' : Rlp} {rest rest' : List Rlp} :
    Agree structs param.type value value' → AgreeFields structs params rest rest' →
    AgreeFields structs (param :: params) (value :: rest) (value' :: rest')

end

end TypedData

end SignedRelay
