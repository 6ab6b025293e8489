import SignedRelay.MetaCall.Preimages

/-!
# How what is hashed is laid out

The byte strings that are hashed for a digest, each with what it is put together from: a text or bytes
as they were given, words one behind the other, or the mark of typed data in front of a separator and a
digest.
-/
namespace SignedRelay

open Outcome (collect)

variable [Stack]

/-- What a hashed byte string is put together from. -/
inductive Layout
  /-- A text, or bytes as they were given. -/
  | content
  /-- So many words. -/
  | words (count : Nat)
  /-- The two bytes that mark typed data, and two words behind them. -/
  | marked
  deriving DecidableEq, Repr

/-- A byte string that is hashed. -/
structure HashInput where
  layout : Layout
  data : Bytes
  deriving DecidableEq, Repr

/-- The byte string is as long as what it is put together from. -/
def HashInput.Aligned (input : HashInput) : Prop :=
  match input.layout with
  | .content => True
  | .words count => input.data.length = 32 * count
  | .marked => input.data.length = 2 + 32 * 2

/-- Texts, or bytes as they were given. -/
def HashInput.contents (data : List Bytes) : List HashInput := data.map (⟨.content, ·⟩)

/-- What is hashed for the separator of a domain. -/
def Domain.hashInputs (hasher : Hasher) (domain : Domain) : List HashInput :=
  collect (domain.fields hasher) fun fields =>
    HashInput.contents [Bytes.utf8 typeText, Bytes.utf8 domain.name, Bytes.utf8 domain.version]
      ++ [⟨.words 4, fields⟩]

namespace TypedData

mutual

/-- What is hashed for the word of a value: the words of an array are those of its elements, and the
words of a struct are that of its type and those of its fields. -/
def hashInputs (context : Context) (type : ArgType) (depth : Int) (value : Rlp) : List HashInput :=
  match value with
  | .bytes data => HashInput.contents (bytesPreimages type data)
  | .list items =>
    match type with
    | .array element _ =>
      elementHashInputs (context.inside Stack.array) element (depth + 1) items ++
        collect (encodeElements (context.inside Stack.array) element (depth + 1) items) fun words =>
          [⟨.words items.length, words⟩]
    | .struct name =>
      collect (context.declaration name) fun declaration =>
        HashInput.contents [Bytes.utf8 declaration.text] ++
          fieldHashInputs (context.inside Stack.struct) declaration.params (depth + 1) items ++
          collect (encodeFields (context.inside Stack.struct) declaration.params (depth + 1) items)
            fun words =>
              [⟨.words (1 + (declaration.params.zip items).length),
                declarationHash context.hasher declaration ++ words⟩]
    | _ => []

/-- What is hashed for the words of values of one type. -/
def elementHashInputs (context : Context) (type : ArgType) (depth : Int) :
    List Rlp → List HashInput
  | [] => []
  | value :: rest =>
    hashInputs context type depth value ++ elementHashInputs context type depth rest

/-- What is hashed for the words of values, each of its parameter's type. -/
def fieldHashInputs (context : Context) (params : List Param) (depth : Int) (values : List Rlp) :
    List HashInput :=
  match params, values with
  | param :: params, value :: rest =>
    hashInputs context param.type depth value ++ fieldHashInputs context params depth rest
  | _, _ => []

end

end TypedData

namespace MetaCall

/-- What is hashed for the words of the arguments. -/
def argumentHashInputs (hasher : Hasher) (bound : Int) (call : MetaCall) (definition : Definition) :
    List HashInput :=
  collect (Rlp.decodeList bound call.args) fun values =>
    TypedData.fieldHashInputs
      { structs := definition.structs, hasher, bound, room := Stack.hashing }
      definition.method.params 0 values

/-- What is hashed for the digest of the signed words. -/
def digestHashInputs (hasher : Hasher) (separator : Bytes) (count : Nat) (words : Bytes) :
    List HashInput :=
  [⟨.words count, words⟩, ⟨.marked, 0x19 :: 0x01 :: separator ++ hasher.hash words⟩]

/-- How many words are signed: seven of the header, and two more for a method. -/
def signedCount (call : MetaCall) : Nat := if call.methodName.isEmpty then 7 else 9

/-- What is hashed for the digest of a call under a separator. The words of the arguments are that of
their type and one for each. -/
def hashInputs (hasher : Hasher) (bound : Int) (separator gatewayId : Bytes) (call : MetaCall) :
    List HashInput :=
  collect (Definition.argumentsText call.methodName.toList) fun argumentsText =>
    HashInput.contents (call.headerPreimages gatewayId argumentsText) ++
    collect (call.headerWords hasher gatewayId argumentsText) fun header =>
      if call.methodName.isEmpty then digestHashInputs hasher separator call.signedCount header
      else
        collect (call.methodArguments hasher bound argumentsText) fun (definition, args) =>
          let signature := Bytes.utf8 definition.method.signature
          HashInput.contents [signature, Bytes.utf8 (String.ofList argumentsText)] ++
            call.argumentHashInputs hasher bound definition ++
            ⟨.words (1 + definition.method.params.length), args⟩ ::
            digestHashInputs hasher separator call.signedCount
              (header ++ hasher.hash signature ++ hasher.hash args)

/-- What a call is prepared to is laid out in words: the digest is one word, the argument bytes of a
method are that of their type and one for each argument, and the digest is that of words which are as
many as are signed. -/
structure LaidOut (hasher : Hasher) (bound : Int) (separator gatewayId : Bytes) (call : MetaCall)
    (prepared : PreparedCall) : Prop where
  digest : prepared.digest.length = 32
  args_eq_nil : call.methodName = "" → prepared.args = []
  args : call.methodName ≠ "" →
    ∃ definition, Definition.parse bound call.methodName.toList = .ok definition ∧
      prepared.args.length = 32 * (1 + definition.method.params.length)
  signed : ∃ words, words.length = 32 * call.signedCount ∧
    ⟨.words call.signedCount, words⟩ ∈ call.hashInputs hasher bound separator gatewayId ∧
    prepared.digest = MetaCall.digest hasher separator words

end MetaCall

/-- What is hashed for the digest of a call, the separator of the domain included. -/
def SigningContext.hashInputs (context : SigningContext) (call : MetaCall) : List HashInput :=
  context.domain.hashInputs context.crypto.hasher ++
    collect context.separator fun separator =>
      call.hashInputs context.crypto.hasher context.bound separator context.gatewayId

end SignedRelay
