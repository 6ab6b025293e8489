import SignedRelay.ArgType

/-!
# Method definitions

A definition declares the called method and, behind it, the structs that its arguments refer to:
`adopt(uint256 petId,PetObj petObj)PetObj(string name,address owner)`. The text of each declaration
is hashed as it stands, so a declaration keeps its text beside its parts, and each type as it is written
beside the type it means.
-/
namespace SignedRelay

/-- An argument of a method or a field of a struct. -/
structure Param where
  name : String
  /-- The type as it is written. -/
  typeText : String
  type : ArgType
  deriving DecidableEq, Repr

namespace Param

def render (param : Param) : List Char := param.typeText.toList ++ ' ' :: param.name.toList

end Param

/-- The declaration of a method or of a struct. -/
structure Declaration where
  name : String
  params : List Param
  /-- The declaration as it is written. -/
  text : String
  deriving DecidableEq, Repr

/-- Texts in parentheses, with commas between them. -/
def parenthesized (items : List (List Char)) : List Char :=
  '(' :: List.intercalate [','] items ++ [')']

namespace Declaration

/-- What the name and the parameters are written as. -/
def render (declaration : Declaration) : List Char :=
  declaration.name.toList ++ parenthesized (declaration.params.map Param.render)

/-- The name with the types of the parameters, without their names. -/
def signature (declaration : Declaration) : String :=
  String.ofList (declaration.name.toList ++
    parenthesized (declaration.params.map (·.typeText.toList)))

end Declaration

structure Definition where
  method : Declaration
  structs : List Declaration
  deriving DecidableEq, Repr

namespace Definition

/-- All declarations, the method first. -/
def declarations (definition : Definition) : List Declaration :=
  definition.method :: definition.structs

/-- What a definition is written as: its declarations one behind the other. -/
def render (definition : Definition) : List Char :=
  definition.declarations.flatMap Declaration.render

/-- The struct of a given name. -/
def lookup? (structs : List Declaration) (name : String) : Option Declaration :=
  structs.find? (·.name == name)

theorem mem_of_lookup? {structs : List Declaration} {name : String} {declaration : Declaration}
    (h : lookup? structs name = some declaration) : declaration ∈ structs :=
  List.mem_of_find?_eq_some h

theorem name_of_lookup? {structs : List Declaration} {name : String} {declaration : Declaration}
    (h : lookup? structs name = some declaration) : declaration.name = name := by
  unfold lookup? at h
  have hname := List.find?_some h
  exact beq_iff_eq.1 hname

theorem isSome_lookup?_iff {structs : List Declaration} {name : String} :
    (lookup? structs name).isSome = true ↔ ∃ found ∈ structs, found.name = name := by
  unfold lookup?
  simp only [List.find?_isSome, beq_iff_eq]

/-- The names of the structs that the parameters of some declarations refer to, in order. -/
def references (declarations : List Declaration) : List String :=
  (declarations.flatMap Declaration.params).filterMap (·.type.structName?)

/-- The first reference that names no declared struct. -/
def undeclared? (definition : Definition) : Option String :=
  (references definition.declarations).find? fun name =>
    (lookup? definition.structs name).isNone

end Definition

end SignedRelay
