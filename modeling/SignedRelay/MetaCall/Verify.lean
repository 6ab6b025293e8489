import SignedRelay.MetaCall.Digest
import SignedRelay.Recovery

/-!
# Verifying a meta call

A message is verified by decoding its envelope, rebuilding the digest that its signer signed, and
recovering the signer from the signature.
-/
namespace SignedRelay

variable [Stack]

/-- What a signature is bound to: a domain and the account of a gateway. The primitives and the
nesting bound are those of the party that signs or verifies. -/
structure SigningContext where
  domain : Domain := {}
  gatewayId : Bytes := []
  crypto : Crypto := .ethereum
  bound : Int := defaultNesting

namespace VerifiedCall

/-- The call of a message, under a domain separator. -/
def ofMessage (crypto : Crypto) (bound : Int) (separator gatewayId message : Bytes) :
    Except Error VerifiedCall := do
  let envelope ← (Envelope.decode message).mapError .encoding
  let pending := PendingCall.ofEnvelope envelope
  let prepared ← pending.prepare crypto.hasher bound separator gatewayId
  let signature := envelope.signature ++ Bytes.ofNatLE 1 envelope.v.toNat
  let sender ← (Recovery.signer crypto prepared.digest signature).mapError .signature
  let call ← (pending.populate sender prepared.methodName prepared.args).mapError .fault
  let senderAddress ← (Address.text sender).mapError .fault
  return { toMetaCall := call.toMetaCall, sender, senderAddress }

end VerifiedCall

namespace SigningContext

def separator (context : SigningContext) : Except Fault Bytes :=
  context.domain.separator context.crypto.hasher

def prepare (context : SigningContext) (call : MetaCall) : Except Error PreparedCall := do
  let separator ← context.separator.mapError .fault
  call.prepare context.crypto.hasher context.bound separator context.gatewayId

def verify (context : SigningContext) (message : Bytes) : Except Error VerifiedCall := do
  let separator ← context.separator.mapError .fault
  VerifiedCall.ofMessage context.crypto context.bound separator context.gatewayId message

/-- Whether a message was signed by the owner of an address, whose text may be in any case. -/
def isSignedBy (context : SigningContext) (message : Bytes) (address : String) :
    Except Fault Bool :=
  match context.verify message with
  | .ok call => .ok (Address.lower call.senderAddress == Address.lower address)
  | .error (.refused _) => .ok false
  | .error (.fault fault) => .error fault

end SigningContext

end SignedRelay
