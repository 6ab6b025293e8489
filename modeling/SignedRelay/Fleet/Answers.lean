import SignedRelay.Fleet

/-!
# What answers say

The answer to an operation on a verified call, told by what the proxy account of the sender reads from
it, and what has no room in the input of that account.
-/
namespace SignedRelay

/-- The amount has no room in sixteen bytes, and is reported. -/
def VerifiedCall.AmountFailure (call : VerifiedCall) (error : GatewayError) : Prop :=
  Bytes.capacity 16 ≤ call.value ∧ error = .proxy (.amountRange call.value)

/-- The gas has no room in eight bytes, and is reported unless it is too long to be written. -/
def Proxy.GasFailure (gas : Int) (error : GatewayError) : Prop :=
  (gas < 0 ∨ Bytes.capacity 8 ≤ gas) ∧
    (¬Unwritable gas ∧ error = .proxy (.gasRange gas) ∨
      Unwritable gas ∧ error = .fault (.unwritable gas))

namespace Gateway

/-- The proxy account of the sender is to transfer the signed amount to the signed contract. -/
structure IsTransfer (gateway : Gateway) (call : VerifiedCall) (action : FunctionCall) : Prop where
  receiverId : action.receiverId = gateway.subAccountId call.sender
  methodName : action.methodName = "transfer"
  args : Proxy.Transfer.decode action.args =
    .ok { amount := call.value, receiverId := call.contractAddress }
  deposit : action.deposit = 0
  gas : action.gas = gateway.config.proxyGas

/-- The proxy account of the sender is to call the signed method of the signed contract, with the
payload as it arrived and some gas to forward. -/
structure IsCall (gateway : Gateway) (call : VerifiedCall) (gas : Int) (action : FunctionCall) :
    Prop where
  receiverId : action.receiverId = gateway.subAccountId call.sender
  methodName : action.methodName = "call"
  args : Proxy.Call.decode action.args = .ok {
    gas
    amount := call.value
    receiverId := call.contractAddress
    methodName := call.methodName
    args := call.rawArgs }
  deposit : action.deposit = 0
  gas : action.gas = gas + gateway.config.proxyGas

/-- The gas that an operation forwards: that of the request, or else that of the gateway. -/
def forwardedGas (gateway : Gateway) (gas : Option Int) : Int := gas.getD gateway.config.proxyGas

/-- The amount of a call, and the gas that an operation forwards, have room in the input of a proxy
account. The operations that send it nothing ask for no room. -/
def Forwardable (gateway : Gateway) (value : Int) : Operation → Prop
  | .verify _ | .receive _ | .create .. => True
  | .proxy _ => value < Bytes.capacity 16
  | .forward _ gas => value < Bytes.capacity 16 ∧
    0 ≤ gateway.forwardedGas gas ∧ gateway.forwardedGas gas < Bytes.capacity 8

/-- An operation that uses up the nonce of the message with the given bytes, and for whose amount and
gas there is room. -/
structure Submits (gateway : Gateway) (data : Bytes) (value : Int) (operation : Operation) : Prop where
  bytes : operation.message.bytes? = some data
  consumes : operation.consumes = true
  forwardable : gateway.Forwardable value operation

/-- What a gateway answers to an operation on a verified call. -/
inductive Answers (gateway : Gateway) (call : VerifiedCall) : Operation → Answer → Prop
  | verify {message : Message} : Answers gateway call (.verify message) (.call call)
  | receive {message : Message} : Answers gateway call (.receive message) (.call call)
  | create {message : Message} {deposit : Int} :
    Answers gateway call (.create message deposit) (.creation {
      accountId := gateway.subAccountId call.sender
      code := gateway.config.proxyCode
      deposit })
  | proxy {message : Message} {action : FunctionCall} : gateway.IsTransfer call action →
    Answers gateway call (.proxy message) (.functionCall action)
  | forward {message : Message} {gas : Option Int} {action : FunctionCall} :
    gateway.IsCall call (gateway.forwardedGas gas) action →
    Answers gateway call (.forward message gas) (.functionCall action)

end Gateway

end SignedRelay
