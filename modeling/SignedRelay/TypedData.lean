import SignedRelay.Definition
import SignedRelay.Error
import SignedRelay.Hash.Hasher
import SignedRelay.Rlp
import SignedRelay.Stack
import SignedRelay.Word

/-!
# Encoding typed values

A value is encoded to one word under its type: numbers and addresses padded on the left, fixed byte
strings padded on the right, and everything of variable length by its digest. An array is the digest
of its elements' words, a struct the digest of its type's digest and its fields' words. Each element and
each field is encoded by a call of its own, for which there must be room on the stack.
-/
namespace SignedRelay.TypedData

/-- What an encoding depends on beside the type: the declared structs, the hash primitive, how deep values
may nest, and how many more calls the stack has room for. -/
structure Context where
  structs : List Declaration
  hasher : Hasher
  bound : Int
  room : Int

/-- The digest of the text of a struct's own declaration. -/
def declarationHash (hasher : Hasher) (declaration : Declaration) : Bytes :=
  hasher.hash (Bytes.utf8 declaration.text)

namespace Context

/-- The declaration of a struct. -/
def declaration (context : Context) (name : String) : Except Error Declaration :=
  match Definition.lookup? context.structs name with
  | some declaration => .ok declaration
  | none => .error (.argument (.structUnknown name))

/-- The digest of a struct type. -/
def typeHash (context : Context) (name : String) : Except Error Bytes :=
  (context.declaration name).map (declarationHash context.hasher)

/-- What is left to a call inside of so many others. -/
def inside (context : Context) (calls : Nat) : Context :=
  { context with room := context.room - calls }

@[simp] theorem structs_inside (context : Context) (calls : Nat) :
    (context.inside calls).structs = context.structs := rfl

@[simp] theorem hasher_inside (context : Context) (calls : Nat) :
    (context.inside calls).hasher = context.hasher := rfl

@[simp] theorem bound_inside (context : Context) (calls : Nat) :
    (context.inside calls).bound = context.bound := rfl

@[simp] theorem room_inside (context : Context) (calls : Nat) :
    (context.inside calls).room = context.room - calls := rfl

/-- A call needs room on the stack for the calls of its own, and a depth within the bound. -/
def enter [Stack] (context : Context) (type : ArgType) (depth : Int) : Except Error Unit :=
  if context.room < Stack.own type then .error (.fault .stackExhausted)
  else if context.bound < depth then .error (.argument (.valueNesting context.bound))
  else .ok ()

end Context

/-- Filled up with zero bytes on the right to one word. -/
def padRight (data : Bytes) : Bytes := data ++ List.replicate (32 - data.length) 0x00

/-- The word of a byte string. -/
def encodeBytes (hasher : Hasher) (type : ArgType) (data : Bytes) : Except Error Bytes :=
  match type with
  | .string | .bytes => .ok (hasher.hash data)
  | .fixedBytes size =>
    if size < data.length then .error (.argument (.fixedBytesLength size data.length))
    else .ok (padRight data)
  | .uint | .int | .bool =>
    if 32 < data.length then .error (.argument (.integerLength data.length))
    else (Word.ofInt (Bytes.toNatBE data)).mapError .fault
  | .address =>
    if data.length ≠ 20 then .error (.argument (.addressLength data.length))
    else (Word.ofAddress data).mapError .fault
  | .array .. | .struct .. => .error (.argument .listExpected)

/-- Whether an array type admits a number of elements. -/
def checkCount (declared : Option Nat) (given : Nat) : Except Error Unit :=
  match declared with
  | none => .ok ()
  | some declared =>
    if given = declared then .ok () else .error (.argument (.elementCount declared given))

section Values

variable [Stack]

mutual

/-- The word of a value that is enclosed by `depth` others. -/
def encode (context : Context) (type : ArgType) (depth : Int) (value : Rlp) : Except Error Bytes :=
  match context.enter type depth with
  | .error error => .error error
  | .ok () =>
    match value with
    | .bytes data => encodeBytes context.hasher type data
    | .list items =>
      match type with
      | .array element length =>
        match checkCount length items.length with
        | .error error => .error error
        | .ok () =>
          (encodeElements (context.inside Stack.array) element (depth + 1) items).map
            context.hasher.hash
      | .struct name =>
        match context.declaration name with
        | .error error => .error error
        | .ok declaration =>
          if items.length ≠ declaration.params.length then
            .error (.count (.fields name declaration.params.length items.length))
          else
            (encodeFields (context.inside Stack.struct) declaration.params (depth + 1) items).map
              fun words => context.hasher.hash (declarationHash context.hasher declaration ++ words)
      | _ => .error (.argument .bytesExpected)

/-- The words of values of one type. -/
def encodeElements (context : Context) (type : ArgType) (depth : Int) :
    List Rlp → Except Error Bytes
  | [] => .ok []
  | value :: rest => do
    let word ← encode context type depth value
    let words ← encodeElements context type depth rest
    return word ++ words

/-- The words of values, each of its parameter's type. -/
def encodeFields (context : Context) (params : List Param) (depth : Int) (values : List Rlp) :
    Except Error Bytes :=
  match params, values with
  | param :: params, value :: rest => do
    let word ← encode context param.type depth value
    let words ← encodeFields context params depth rest
    return word ++ words
  | _, _ => .ok []

end

/-- The words of the values of a method's arguments. -/
def encodeArguments (context : Context) (params : List Param) (values : List Rlp) :
    Except Error Bytes :=
  if values.length ≠ params.length then .error (.count (.arguments params.length values.length))
  else encodeFields context params 0 values

end Values

end SignedRelay.TypedData
