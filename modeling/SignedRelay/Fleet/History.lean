import SignedRelay.Fleet

/-!
# What a run has accepted

The calls whose nonces a run of several gateways has used up at one ledger, in order of acceptance, the
answers of a run beside its steps, whose call a step is about, and what it means that one entry of one
ledger has grown.
-/
namespace SignedRelay

variable [Stack]

namespace Step

/-- The call whose nonce a step uses up: that of a successful operation other than verification. -/
def accepted? (step : Step) (ledgers : Ledgers) : Option VerifiedCall :=
  match (step.run ledgers).1, step.station.gateway.verify step.operation.message with
  | .ok _, .ok call => if step.operation.consumes then some call else none
  | _, _ => none

/-- The sender of the call that a step's message verifies to at the step's gateway. -/
def sender? (step : Step) : Option Bytes :=
  (step.station.gateway.verify step.operation.message).toOption.map (·.sender)

/-- The step's message verifies to a call of the given sender. -/
def isFrom (sender : Bytes) (step : Step) : Bool := step.sender? == some sender

/-- The steps of a run, each with its answer. -/
def log (steps : List Step) (ledgers : Ledgers) : List (Step × Except GatewayError Answer) :=
  steps.zip (runAll steps ledgers).1

/-- The calls that the steps of a run accept at one ledger, in order. -/
def acceptedAt (index : Nat) : List Step → Ledgers → List VerifiedCall
  | [], _ => []
  | step :: rest, ledgers =>
    let later := acceptedAt index rest (step.run ledgers).2
    if step.station.ledger = index then (step.accepted? ledgers).toList ++ later else later

end Step

/-- The nonces of one sender's calls, in order. -/
def VerifiedCall.noncesOf (sender : Bytes) (calls : List VerifiedCall) : List Int :=
  (calls.filter (·.sender = sender)).map (·.nonce)

namespace Ledgers

/-- The next nonce of one sender at one ledger is one higher, and all others are as they were. -/
def GrownAt (before after : Ledgers) (index : Nat) (sender : Bytes) : Prop :=
  ∀ i other, (after i).get other =
    if i = index ∧ other = sender then (before i).get other + 1 else (before i).get other

end Ledgers

end SignedRelay
