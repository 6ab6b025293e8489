import SignedRelay.MetaCall.Verify
import SignedRelay.NonceLedger
import SignedRelay.Proxy
import SignedRelay.Text.Base64

/-!
# Gateways

A gateway verifies messages for its account and domain, accepts each sender's nonces in order, and
turns an accepted call into an action: to create the sender's proxy account, to let the proxy
transfer the attached amount, or to let it call the signed method. An action is built before the
nonce is accepted, so a call that cannot be forwarded keeps its nonce.
-/
namespace SignedRelay

/-- A message, as bytes or as Base64 text. -/
inductive Message
  | raw (data : Bytes)
  | text (text : String)
  deriving DecidableEq, Repr

namespace Message

/-- The bytes of a message. -/
def bytes? : Message → Option Bytes
  | .raw data => some data
  | .text encoded => Base64.decode encoded

end Message

/-- Create an account with code and money. -/
structure AccountCreation where
  accountId : String
  code : Bytes
  deposit : Int
  deriving DecidableEq, Repr

/-- Call a method of an account. -/
structure FunctionCall where
  receiverId : String
  methodName : String
  args : Bytes
  deposit : Int
  gas : Int
  deriving DecidableEq, Repr

/-- A million million units of gas. -/
def teraGas : Int := 1000000000000

/-- The settings of a gateway. -/
structure GatewayConfig where
  /-- The account of the gateway, which signatures are bound to. -/
  accountId : String := "gateway"
  domain : Domain := {}
  /-- The gas that a proxy account is given for itself. -/
  proxyGas : Int := 10 * teraGas
  /-- The code of new proxy accounts. -/
  proxyCode : Bytes := []
  deriving DecidableEq, Repr

structure Gateway where
  config : GatewayConfig := {}
  crypto : Crypto := .ethereum

namespace Gateway

variable [Stack]

/-- A step that may change the ledger. What it has changed stays changed if it fails later. -/
abbrev Ledgered := ExceptT GatewayError (StateM NonceLedger)

/-- What the signatures of a gateway's messages are bound to. -/
def signingContext (gateway : Gateway) : SigningContext where
  domain := gateway.config.domain
  gatewayId := Bytes.utf8 gateway.config.accountId
  crypto := gateway.crypto

/-- The proxy account of a sender. -/
def subAccountId (gateway : Gateway) (sender : Bytes) : String :=
  sender.hex ++ "." ++ gateway.config.accountId

/-- The next nonce of a sender. -/
def nextNonce (sender : Bytes) : Ledgered Nat := return (← get).get sender

/-- The call of a message, whatever its nonce. -/
def verify (gateway : Gateway) (message : Message) : Except GatewayError VerifiedCall :=
  match message.bytes? with
  | none => .error .notBase64
  | some data => (gateway.signingContext.verify data).mapError .ofError

/-- Accept the nonce of a verified call. The acceptance is reported with the text of the sender's
address, which is written after the ledger has changed. -/
def accept (call : VerifiedCall) : Ledgered Unit := do
  match (← get).accept call.sender call.nonce with
  | .error mismatch => throw (.incorrectNonce mismatch)
  | .ok ledger =>
    set ledger
    let _reported ← (Address.text call.sender).mapError GatewayError.fault
    return ()

/-- Verify a message and accept its nonce. -/
def receive (gateway : Gateway) (message : Message) : Ledgered VerifiedCall := do
  let call ← gateway.verify message
  accept call
  return call

/-- Create the sender's proxy account. -/
def create (gateway : Gateway) (message : Message) (deposit : Int) : Ledgered AccountCreation := do
  let call ← gateway.receive message
  return {
    accountId := gateway.subAccountId call.sender
    code := gateway.config.proxyCode
    deposit }

/-- The action by which the proxy of a call's sender transfers the attached amount. -/
def transferAction (gateway : Gateway) (call : VerifiedCall) :
    Except GatewayError FunctionCall := do
  let transfer : Proxy.Transfer := { amount := call.value, receiverId := call.contractAddress }
  let args ← transfer.encode
  return {
    receiverId := gateway.subAccountId call.sender
    methodName := "transfer"
    args
    deposit := 0
    gas := gateway.config.proxyGas }

/-- The action by which the proxy of a call's sender calls the signed method, with the arguments as
they arrived. The proxy needs its own gas beside what it forwards. -/
def callAction (gateway : Gateway) (call : VerifiedCall) (gas : Option Int) :
    Except GatewayError FunctionCall := do
  let forwarded := gas.getD gateway.config.proxyGas
  let proxyCall : Proxy.Call := {
    gas := forwarded
    amount := call.value
    receiverId := call.contractAddress
    methodName := call.methodName
    args := call.rawArgs }
  let args ← proxyCall.encode
  return {
    receiverId := gateway.subAccountId call.sender
    methodName := "call"
    args
    deposit := 0
    gas := forwarded + gateway.config.proxyGas }

/-- Let the sender's proxy transfer the attached amount. -/
def proxy (gateway : Gateway) (message : Message) : Ledgered FunctionCall := do
  let call ← gateway.verify message
  let action ← gateway.transferAction call
  accept call
  return action

/-- Let the sender's proxy call the signed method. -/
def forward (gateway : Gateway) (message : Message) (gas : Option Int) : Ledgered FunctionCall := do
  let call ← gateway.verify message
  let action ← gateway.callAction call gas
  accept call
  return action

end Gateway

end SignedRelay
