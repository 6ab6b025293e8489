import SignedRelay.Definition.Parser
import SignedRelay.Word
import SignedRelay.MetaCall
import SignedRelay.Rlp
import SignedRelay.TypedData

/-!
# The digest of a meta call

What is signed is a struct of words: the digest of its type text, the gateway, the header of the
call, and for a call with a method the digests of the method's signature and of its arguments. The
fee receiver and the contract are accounts with names, so their texts are hashed.
-/
namespace SignedRelay

/-- The digest of a call, the bare name of its method and the bytes of its arguments. -/
structure PreparedCall where
  digest : Bytes
  methodName : String
  args : Bytes
  deriving DecidableEq, Repr

namespace MetaCall

variable [Stack]

/-- The text of the signed struct's type, without that of the arguments. -/
def typeText : String :=
  "NearTx(string gatewayId,uint256 nonce,uint256 feeAmount,address feeReceiver,address receiver,"
    ++ "uint256 value,string method,Arguments arguments)"

/-- A number of the header as a word. -/
def headerWord (value : Int) : Except Error Bytes :=
  match Word.ofInt value with
  | .ok word => .ok word
  | .error _ => .error (.encoding (.wordRange value))

/-- The words of the header: type, gateway, numbers and accounts. -/
def headerWords (hasher : Hasher) (gatewayId : Bytes) (call : MetaCall)
    (argumentsText : List Char) : Except Error Bytes := do
  let nonce ← headerWord call.nonce
  let feeAmount ← headerWord call.feeAmount
  let value ← headerWord call.value
  return hasher.hash (Bytes.utf8 (typeText ++ String.ofList argumentsText)) ++ hasher.hash gatewayId
    ++ nonce ++ feeAmount ++ hasher.hash (Bytes.utf8 call.feeAddress)
    ++ hasher.hash (Bytes.utf8 call.contractAddress) ++ value

/-- The method of a call: its definition, and the words of its arguments behind that of their
type. -/
def methodArguments (hasher : Hasher) (bound : Int) (call : MetaCall) (argumentsText : List Char) :
    Except Error (Definition × Bytes) := do
  let definition ← Definition.parse bound call.methodName.toList
  let values ← Rlp.decodeList bound call.args
  let words ← TypedData.encodeArguments
    { structs := definition.structs, hasher, bound, room := Stack.hashing }
    definition.method.params values
  return (definition, hasher.hash (Bytes.utf8 (String.ofList argumentsText)) ++ words)

/-- The digest of the signed words under a domain. -/
def digest (hasher : Hasher) (separator words : Bytes) : Bytes :=
  hasher.hash (0x19 :: 0x01 :: separator ++ hasher.hash words)

/-- Everything that a signer signs for. A call without a method has neither method nor arguments. -/
def prepare (hasher : Hasher) (bound : Int) (separator gatewayId : Bytes) (call : MetaCall) :
    Except Error PreparedCall := do
  let argumentsText ← Definition.argumentsText call.methodName.toList
  let header ← call.headerWords hasher gatewayId argumentsText
  if call.methodName.isEmpty then
    return { digest := digest hasher separator header, methodName := "", args := [] }
  else
    let (definition, args) ← call.methodArguments hasher bound argumentsText
    let signature := hasher.hash (Bytes.utf8 definition.method.signature)
    return {
      digest := digest hasher separator (header ++ signature ++ hasher.hash args)
      methodName := definition.method.name
      args }

end MetaCall

end SignedRelay
