import SignedRelay.Gateway

/-!
# Gateways at work

Several gateways take steps in turn. Each keeps its nonces in one of several ledgers, and gateways
may share a ledger.
-/
namespace SignedRelay

variable [Stack]

/-- What a gateway is asked to do with a message. -/
inductive Operation
  | verify (message : Message)
  | receive (message : Message)
  | create (message : Message) (deposit : Int)
  | proxy (message : Message)
  | forward (message : Message) (gas : Option Int)
  deriving DecidableEq, Repr

namespace Operation

/-- The message that an operation verifies. -/
def message : Operation → Message
  | verify message | receive message | create message _ | proxy message | forward message _ => message

/-- Whether the nonce of the verified call is used up. -/
def consumes : Operation → Bool
  | verify _ => false
  | receive _ | create .. | proxy _ | forward .. => true

end Operation

/-- What a gateway is asked about a sender, without a message. -/
inductive Inquiry
  | subAccountId (sender : Bytes)
  | nextNonce (sender : Bytes)
  deriving DecidableEq, Repr

/-- What a successful operation answers. -/
inductive Answer
  | call (call : VerifiedCall)
  | creation (action : AccountCreation)
  | functionCall (action : FunctionCall)
  deriving DecidableEq, Repr

namespace Gateway

/-- One operation of a gateway. -/
def perform (gateway : Gateway) : Operation → Ledgered Answer
  | .verify message => do return .call (← gateway.verify message)
  | .receive message => do return .call (← gateway.receive message)
  | .create message deposit => do return .creation (← gateway.create message deposit)
  | .proxy message => do return .functionCall (← gateway.proxy message)
  | .forward message gas => do return .functionCall (← gateway.forward message gas)

/-- What a gateway knows about a sender: the name of the proxy account, or the next nonce. -/
def inquire (gateway : Gateway) : Inquiry → Ledgered (String ⊕ Nat)
  | .subAccountId sender => return .inl (gateway.subAccountId sender)
  | .nextNonce sender => return .inr (← nextNonce sender)

end Gateway

/-- The ledgers by number. -/
abbrev Ledgers := Nat → NonceLedger

/-- A gateway with the number of its ledger. -/
structure Station where
  gateway : Gateway
  ledger : Nat

/-- An operation asked of a station. -/
structure Step where
  station : Station
  operation : Operation

namespace Ledgers

/-- No sender has been seen at any ledger. -/
def fresh : Ledgers := fun _ => .empty

/-- One ledger replaced. -/
def update (ledgers : Ledgers) (index : Nat) (ledger : NonceLedger) : Ledgers :=
  fun i => if i = index then ledger else ledgers i

end Ledgers

namespace Station

/-- The outcome of what a station's gateway does, and the ledgers after it. -/
def run {α : Type} (station : Station) (action : Gateway → Gateway.Ledgered α) (ledgers : Ledgers) :
    Except GatewayError α × Ledgers :=
  let (outcome, ledger) := (action station.gateway).run (ledgers station.ledger)
  (outcome, Ledgers.update ledgers station.ledger ledger)

end Station

namespace Step

/-- The answer to a step and the ledgers after it. -/
def run (step : Step) (ledgers : Ledgers) : Except GatewayError Answer × Ledgers :=
  step.station.run (·.perform step.operation) ledgers

/-- The answers to several steps in turn, and the ledgers after them. -/
def runAll : List Step → Ledgers → List (Except GatewayError Answer) × Ledgers
  | [], ledgers => ([], ledgers)
  | step :: rest, ledgers =>
    let (answer, ledgers) := step.run ledgers
    let (answers, ledgers) := runAll rest ledgers
    (answer :: answers, ledgers)

end Step

end SignedRelay
