import SignedRelay.Definition
import SignedRelay.Rlp
import SignedRelay.Stack

/-!
# Values that fit a type

A byte string fits a type by its length, a list fits an array or a struct by the number and the types of
its items. How deep a value reaches does not matter for that, and how many calls it keeps open on the stack
is counted apart.
-/
namespace SignedRelay.TypedData

/-- The byte string has a length that the type admits. -/
def FitsBytes (type : ArgType) (data : Bytes) : Prop :=
  match type with
  | .string | .bytes => True
  | .fixedBytes size => data.length ≤ size
  | .uint | .int | .bool => data.length ≤ 32
  | .address => data.length = 20
  | .array .. | .struct .. => False

mutual

/-- A value of the shape that a type asks for, under some struct declarations. -/
inductive Fits (structs : List Declaration) : ArgType → Rlp → Prop
  | bytes {type : ArgType} {data : Bytes} : FitsBytes type data → Fits structs type (.bytes data)
  | array {element : ArgType} {length : Option Nat} {items : List Rlp} :
    (∀ count, length = some count → items.length = count) →
    (∀ item ∈ items, Fits structs element item) → Fits structs (.array element length) (.list items)
  | struct {name : String} {declaration : Declaration} {items : List Rlp} :
    Definition.lookup? structs name = some declaration →
    FitsFields structs declaration.params items → Fits structs (.struct name) (.list items)

/-- One fitting value for each parameter. -/
inductive FitsFields (structs : List Declaration) : List Param → List Rlp → Prop
  | nil : FitsFields structs [] []
  | cons {param : Param} {params : List Param} {item : Rlp} {rest : List Rlp} :
    Fits structs param.type item → FitsFields structs params rest →
    FitsFields structs (param :: params) (item :: rest)

end

section Calls

variable [Stack]

mutual

/-- The most calls that are open at once within the one that encodes a value. -/
def openCalls (structs : List Declaration) (type : ArgType) (value : Rlp) : Nat :=
  match value with
  | .bytes _ => Stack.own type
  | .list items =>
    match type with
    | .array element length =>
      max (Stack.own (.array element length)) (openElements structs element items)
    | .struct name =>
      match Definition.lookup? structs name with
      | some declaration =>
        max (Stack.own (.struct name)) (openFields structs declaration.params items)
      | none => Stack.own (.struct name)
    | type => Stack.own type

/-- The most calls that are open while the elements of an array are encoded. -/
def openElements (structs : List Declaration) (type : ArgType) : List Rlp → Nat
  | [] => 0
  | value :: rest =>
    max (Stack.array + openCalls structs type value) (openElements structs type rest)

/-- The most calls that are open while the fields of a struct are encoded. -/
def openFields (structs : List Declaration) (params : List Param) (values : List Rlp) : Nat :=
  match params, values with
  | param :: params, value :: rest =>
    max (Stack.struct + openCalls structs param.type value) (openFields structs params rest)
  | _, _ => 0

end

end Calls

end SignedRelay.TypedData
