import SignedRelay.Fleet.History
import SignedRelay.MetaCall.Preimages

/-!
# What an acceptance rests on

A call is accepted on the strength of the digest that was signed for it and of the sender that the
signature recovers to. The envelope around them has many forms: two spellings of the recovery byte,
two values of `s`, padded argument values, and any Base64 text of the same bytes.
-/
namespace SignedRelay

variable [Stack]

/-- The call that a message carries, whoever signed it. -/
def Message.call? (message : Message) : Option MetaCall := do
  let data ← message.bytes?
  let envelope ← (Envelope.decode data).toOption
  return (PendingCall.ofEnvelope envelope).toMetaCall

/-- The digest that a gateway works out for a message. -/
def Gateway.digest? (gateway : Gateway) (message : Message) : Option Bytes := do
  let call ← message.call?
  let prepared ← (gateway.signingContext.prepare call).toOption
  return prepared.digest

/-- An accepted call with the digest that was signed for it. -/
structure Authorization where
  digest : Bytes
  call : VerifiedCall
  deriving DecidableEq, Repr

namespace Step

/-- What a step's acceptance rests on, if the step accepts a call. -/
def authorization? (step : Step) (ledgers : Ledgers) : Option Authorization := do
  let call ← step.accepted? ledgers
  let digest ← step.station.gateway.digest? step.operation.message
  return { digest, call }

/-- What the acceptances of a run at one ledger rest on, in order. -/
def authorizationsAt (index : Nat) : List Step → Ledgers → List Authorization
  | [], _ => []
  | step :: rest, ledgers =>
    let later := authorizationsAt index rest (step.run ledgers).2
    if step.station.ledger = index then (step.authorization? ledgers).toList ++ later else later

/-- What is hashed for the digest of a step's message. -/
def preimages (step : Step) : List Bytes :=
  step.operation.message.call?.toList.flatMap step.station.gateway.signingContext.preimages

end Step

end SignedRelay
