import SignedRelay.MetaCall.Verify
import SignedRelay.Outcome

/-!
# What is hashed for a digest

The byte strings that the hash primitive is applied to on the way to a separator, to the words of
values, and to the digest of a call. Only a computation that succeeds is followed to its end.
-/
namespace SignedRelay

open Outcome (collect)

variable [Stack]

/-- What is hashed for the separator of a domain. -/
def Domain.preimages (hasher : Hasher) (domain : Domain) : List Bytes :=
  collect (domain.fields hasher) fun fields =>
    [Bytes.utf8 typeText, Bytes.utf8 domain.name, Bytes.utf8 domain.version, fields]

namespace TypedData

/-- What is hashed for the word of a byte string. -/
def bytesPreimages (type : ArgType) (data : Bytes) : List Bytes :=
  match type with
  | .string | .bytes => [data]
  | _ => []

mutual

/-- What is hashed for the word of a value. -/
def preimages (context : Context) (type : ArgType) (depth : Int) (value : Rlp) : List Bytes :=
  match value with
  | .bytes data => bytesPreimages type data
  | .list items =>
    match type with
    | .array element _ =>
      elementPreimages (context.inside Stack.array) element (depth + 1) items ++
        collect (encodeElements (context.inside Stack.array) element (depth + 1) items) fun words =>
          [words]
    | .struct name =>
      collect (context.declaration name) fun declaration =>
        Bytes.utf8 declaration.text ::
          fieldPreimages (context.inside Stack.struct) declaration.params (depth + 1) items ++
          collect (encodeFields (context.inside Stack.struct) declaration.params (depth + 1) items)
            fun words => [declarationHash context.hasher declaration ++ words]
    | _ => []

/-- What is hashed for the words of values of one type. -/
def elementPreimages (context : Context) (type : ArgType) (depth : Int) : List Rlp → List Bytes
  | [] => []
  | value :: rest =>
    preimages context type depth value ++ elementPreimages context type depth rest

/-- What is hashed for the words of values, each of its parameter's type. -/
def fieldPreimages (context : Context) (params : List Param) (depth : Int) (values : List Rlp) :
    List Bytes :=
  match params, values with
  | param :: params, value :: rest =>
    preimages context param.type depth value ++ fieldPreimages context params depth rest
  | _, _ => []

end

end TypedData

namespace MetaCall

/-- What is hashed for the words of the header. -/
def headerPreimages (gatewayId : Bytes) (call : MetaCall) (argumentsText : List Char) :
    List Bytes :=
  [Bytes.utf8 (typeText ++ String.ofList argumentsText), gatewayId, Bytes.utf8 call.feeAddress,
    Bytes.utf8 call.contractAddress]

/-- What is hashed for the words of the arguments. -/
def argumentPreimages (hasher : Hasher) (bound : Int) (call : MetaCall)
    (definition : Definition) : List Bytes :=
  collect (Rlp.decodeList bound call.args) fun values =>
    TypedData.fieldPreimages
      { structs := definition.structs, hasher, bound, room := Stack.hashing }
      definition.method.params 0 values

/-- What is hashed for the digest of the signed words. -/
def digestPreimages (hasher : Hasher) (separator words : Bytes) : List Bytes :=
  [words, 0x19 :: 0x01 :: separator ++ hasher.hash words]

/-- What is hashed for the digest of a call under a separator. -/
def preimages (hasher : Hasher) (bound : Int) (separator gatewayId : Bytes) (call : MetaCall) :
    List Bytes :=
  collect (Definition.argumentsText call.methodName.toList) fun argumentsText =>
    call.headerPreimages gatewayId argumentsText ++
    collect (call.headerWords hasher gatewayId argumentsText) fun header =>
      if call.methodName.isEmpty then digestPreimages hasher separator header
      else
        collect (call.methodArguments hasher bound argumentsText) fun (definition, args) =>
          let signature := Bytes.utf8 definition.method.signature
          signature :: Bytes.utf8 (String.ofList argumentsText) ::
            call.argumentPreimages hasher bound definition ++ args ::
            digestPreimages hasher separator (header ++ hasher.hash signature ++ hasher.hash args)

end MetaCall

namespace SigningContext

/-- What is hashed for the digest of a call, the separator of the domain included. -/
def preimages (context : SigningContext) (call : MetaCall) : List Bytes :=
  context.domain.preimages context.crypto.hasher ++
    collect context.separator fun separator =>
      call.preimages context.crypto.hasher context.bound separator context.gatewayId

theorem preimages_of_separator {context : SigningContext} {separator : Bytes}
    (h : context.separator = .ok separator) (call : MetaCall) : context.preimages call =
      context.domain.preimages context.crypto.hasher ++
        call.preimages context.crypto.hasher context.bound separator context.gatewayId := by
  unfold preimages
  rw [Outcome.collect_of_eq_ok h]

end SigningContext

end SignedRelay
