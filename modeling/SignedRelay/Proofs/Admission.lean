import SignedRelay.Fleet.History
import SignedRelay.Outcome
import SignedRelay.Proofs.Verification

/-!
# What a gateway step can do

An operation verifies its message, works out its answer and uses up the nonce. Creation uses up the
nonce before it answers, transfer and call answer before they use it up. All have one normal form:
the answer first, the nonce last, and nothing kept of a failure. Main statements: a step fails
without a trace, answers without a trace, or advances the next nonce of one sender at one ledger;
so steps are atomic, and framed by the sender and the ledger.
-/
namespace SignedRelay

namespace Gateway

theorem run_bind {α β : Type} (action : Ledgered α) (next : α → Ledgered β)
    (ledger : NonceLedger) : (action >>= next).run ledger =
      ExceptT.bindCont next (action.run ledger).1 (action.run ledger).2 := rfl

theorem run_bind_ok {α β : Type} {action : Ledgered α} {next : α → Ledgered β} {value : α}
    {before after : NonceLedger} (h : action.run before = (.ok value, after)) :
    (action >>= next).run before = (next value).run after := by
  rw [run_bind, h]
  rfl

theorem run_bind_error {α β : Type} {action : Ledgered α} {next : α → Ledgered β}
    {error : GatewayError} {before after : NonceLedger}
    (h : action.run before = (.error error, after)) :
    (action >>= next).run before = (.error error, after) := by
  rw [run_bind, h]
  rfl

theorem run_lift {α : Type} {outcome result : Except GatewayError α} (h : outcome = result)
    (ledger : NonceLedger) : (liftM outcome : Ledgered α).run ledger = (result, ledger) := by
  subst h
  cases outcome <;> rfl

/-- An outcome that holds only if a call's nonce is the next one, which it then uses up. -/
def admission {α : Type} (call : VerifiedCall) (outcome : Except GatewayError α)
    (ledger : NonceLedger) : Except GatewayError α × NonceLedger :=
  let expected := ledger.get call.sender
  match outcome with
  | .error error => (.error error, ledger)
  | .ok answer =>
    if call.nonce = expected then (.ok answer, ledger.set call.sender (expected + 1))
    else (.error (.incorrectNonce { expected, provided := call.nonce }), ledger)

theorem admission_of_eq {α : Type} {call : VerifiedCall} {ledger : NonceLedger}
    (h : call.nonce = ledger.get call.sender) (answer : α) :
    admission call (.ok answer) ledger =
      (.ok answer, ledger.set call.sender (ledger.get call.sender + 1)) := if_pos h

theorem admission_of_ne {α : Type} {call : VerifiedCall} {ledger : NonceLedger}
    (h : call.nonce ≠ ledger.get call.sender) (answer : α) :
    admission call (.ok answer) ledger = (.error (.incorrectNonce
      { expected := ledger.get call.sender, provided := call.nonce }), ledger) := if_neg h

/-- Only an outcome that was worked out is admitted. -/
theorem eq_ok_of_admission {α : Type} {call : VerifiedCall} {outcome : Except GatewayError α}
    {ledger : NonceLedger} {answer : α} (h : (admission call outcome ledger).1 = .ok answer) :
    outcome = .ok answer := by
  cases outcome with
  | error error => cases h
  | ok found =>
    by_cases hnonce : call.nonce = ledger.get call.sender
    · rw [admission_of_eq hnonce] at h
      exact h
    · rw [admission_of_ne hnonce] at h
      cases h

/-- The report of an acceptance cannot fail where the sender's address has a text, so a nonce that
has been used up is always answered. -/
theorem run_accept_bind {α : Type} {call : VerifiedCall} {shown : String}
    (h : Address.text call.sender = .ok shown) (answer : α) (ledger : NonceLedger) :
    (accept call >>= fun _ => pure answer).run ledger = admission call (.ok answer) ledger := by
  have hget : (get : Ledgered NonceLedger).run ledger = (.ok ledger, ledger) := rfl
  by_cases hnonce : call.nonce = ledger.get call.sender
  · have hledger : ledger.accept call.sender call.nonce =
        .ok (ledger.set call.sender (ledger.get call.sender + 1)) := if_pos hnonce
    have haccept : (accept call).run ledger =
        (.ok (), ledger.set call.sender (ledger.get call.sender + 1)) := by
      unfold accept
      rw [run_bind_ok hget, hledger, h]
      rfl
    rw [run_bind_ok haccept, admission_of_eq hnonce]
    rfl
  · have hledger : ledger.accept call.sender call.nonce =
        .error { expected := ledger.get call.sender, provided := call.nonce } := if_neg hnonce
    have haccept : (accept call).run ledger = (.error (.incorrectNonce
        { expected := ledger.get call.sender, provided := call.nonce }), ledger) := by
      unfold accept
      rw [run_bind_ok hget, hledger]
      rfl
    rw [run_bind_error haccept, admission_of_ne hnonce]

/-- An action that is built before the nonce is used up: none is used up for an action that cannot
be built. -/
theorem run_build_accept {α : Type} {call : VerifiedCall} {shown : String}
    (h : Address.text call.sender = .ok shown) (action : Except GatewayError α)
    (ledger : NonceLedger) :
    (liftM action >>= fun built => accept call >>= fun _ => pure built).run ledger =
      admission call action ledger := by
  cases haction : action with
  | error error => exact run_bind_error (run_lift rfl ledger)
  | ok built =>
    rw [run_bind_ok (run_lift rfl ledger)]
    exact run_accept_bind h built ledger

theorem run_bind_pure_of_admission {α β : Type} {action : Ledgered α} {call : VerifiedCall}
    {outcome : Except GatewayError α} {ledger : NonceLedger}
    (h : action.run ledger = admission call outcome ledger) (f : α → β) :
    (action >>= fun found => pure (f found)).run ledger = admission call (outcome.map f) ledger := by
  cases outcome with
  | error error => exact run_bind_error h
  | ok answer =>
    by_cases hnonce : call.nonce = ledger.get call.sender
    · rw [admission_of_eq hnonce] at h
      rw [run_bind_ok h]
      exact (admission_of_eq hnonce (f answer)).symm
    · rw [admission_of_ne hnonce] at h
      rw [run_bind_error h]
      exact (admission_of_ne hnonce (f answer)).symm

/-- What an operation answers for a verified call, if the nonce is admitted. -/
def answer (gateway : Gateway) : Operation → VerifiedCall → Except GatewayError Answer
  | .verify _, call | .receive _, call => .ok (.call call)
  | .create _ deposit, call => .ok (.creation {
      accountId := gateway.subAccountId call.sender
      code := gateway.config.proxyCode
      deposit })
  | .proxy _, call => (gateway.transferAction call).map .functionCall
  | .forward _ gas, call => (gateway.callAction call gas).map .functionCall

/-- The outcome of an operation on a verified call: the answer first, the nonce last. -/
def settle (gateway : Gateway) (operation : Operation) (call : VerifiedCall) (ledger : NonceLedger) :
    Except GatewayError Answer × NonceLedger :=
  if operation.consumes then admission call (gateway.answer operation call) ledger
  else (gateway.answer operation call, ledger)

theorem run_perform_of_error [Stack] {gateway : Gateway} {operation : Operation} {error : GatewayError}
    (h : gateway.verify operation.message = .error error) (ledger : NonceLedger) :
    (gateway.perform operation).run ledger = (.error error, ledger) := by
  have hverify := run_lift h ledger
  cases operation with
  | verify message => exact run_bind_error hverify
  | receive message => exact run_bind_error (run_bind_error hverify)
  | create message deposit => exact run_bind_error (run_bind_error (run_bind_error hverify))
  | proxy message => exact run_bind_error (run_bind_error hverify)
  | forward message gas => exact run_bind_error (run_bind_error hverify)

theorem run_receive [Stack] {gateway : Gateway} {message : Message} {call : VerifiedCall}
    (h : gateway.verify message = .ok call) (ledger : NonceLedger) :
    (gateway.receive message).run ledger = admission call (.ok call) ledger :=
  (run_bind_ok (run_lift h ledger)).trans (run_accept_bind (text_of_verify h) call ledger)

theorem run_proxy [Stack] {gateway : Gateway} {message : Message} {call : VerifiedCall}
    (h : gateway.verify message = .ok call) (ledger : NonceLedger) :
    (gateway.proxy message).run ledger = admission call (gateway.transferAction call) ledger :=
  (run_bind_ok (run_lift h ledger)).trans (run_build_accept (text_of_verify h) _ ledger)

theorem run_forward [Stack] {gateway : Gateway} {message : Message} {call : VerifiedCall}
    {gas : Option Int}
    (h : gateway.verify message = .ok call) (ledger : NonceLedger) :
    (gateway.forward message gas).run ledger = admission call (gateway.callAction call gas) ledger :=
  (run_bind_ok (run_lift h ledger)).trans (run_build_accept (text_of_verify h) _ ledger)

/-- Whether the nonce or the answer comes first in an operation's definition makes no difference. -/
theorem run_perform_of_ok [Stack] {gateway : Gateway} {operation : Operation} {call : VerifiedCall}
    (h : gateway.verify operation.message = .ok call) (ledger : NonceLedger) :
    (gateway.perform operation).run ledger = gateway.settle operation call ledger := by
  cases operation with
  | verify message => exact run_bind_ok (run_lift h ledger)
  | receive message => exact run_bind_pure_of_admission (run_receive h ledger) _
  | create message deposit =>
    exact run_bind_pure_of_admission (run_bind_pure_of_admission (run_receive h ledger) _) _
  | proxy message => exact run_bind_pure_of_admission (run_proxy h ledger) _
  | forward message gas => exact run_bind_pure_of_admission (run_forward h ledger) _

end Gateway

namespace Ledgers

@[simp] theorem update_self (ledgers : Ledgers) (index : Nat) :
    ledgers.update index (ledgers index) = ledgers := by
  funext i
  unfold update
  split
  · next h => rw [h]
  · rfl

@[simp] theorem update_same (ledgers : Ledgers) (index : Nat) (ledger : NonceLedger) :
    ledgers.update index ledger index = ledger := if_pos rfl

theorem update_of_ne (ledgers : Ledgers) {index i : Nat} (h : i ≠ index) (ledger : NonceLedger) :
    ledgers.update index ledger i = ledgers i := if_neg h

/-- The ledgers after one ledger has used up the next nonce of one sender. -/
def advance (ledgers : Ledgers) (index : Nat) (sender : Bytes) : Ledgers :=
  ledgers.update index ((ledgers index).set sender ((ledgers index).get sender + 1))

theorem grownAt_advance (ledgers : Ledgers) (index : Nat) (sender : Bytes) :
    ledgers.GrownAt (ledgers.advance index sender) index sender := by
  intro i other
  unfold advance
  by_cases hi : i = index
  · subst hi
    rw [update_same]
    by_cases hs : other = sender
    · rw [hs, NonceLedger.get_set_self, if_pos ⟨rfl, rfl⟩]
    · rw [NonceLedger.get_set_of_ne _ hs, if_neg fun h => hs h.2]
  · rw [update_of_ne _ hi, if_neg fun h => hi h.1]

end Ledgers

theorem Station.run_of_eq {α : Type} (station : Station) (action : Gateway → Gateway.Ledgered α)
    {ledgers : Ledgers} {outcome : Except GatewayError α} {ledger : NonceLedger}
    (h : (action station.gateway).run (ledgers station.ledger) = (outcome, ledger)) :
    station.run action ledgers = (outcome, ledgers.update station.ledger ledger) := by
  unfold run
  rw [h]

theorem Gateway.run_inquire (gateway : Gateway) (inquiry : Inquiry) (ledger : NonceLedger) :
    ∃ outcome, (gateway.inquire inquiry).run ledger = (outcome, ledger) := by
  cases inquiry with
  | subAccountId sender => exact ⟨_, rfl⟩
  | nextNonce sender => exact ⟨_, rfl⟩

theorem Station.run_inquire (station : Station) (inquiry : Inquiry) (ledgers : Ledgers) :
    (station.run (·.inquire inquiry) ledgers).2 = ledgers := by
  obtain ⟨outcome, houtcome⟩ := station.gateway.run_inquire inquiry (ledgers station.ledger)
  rw [run_of_eq station (·.inquire inquiry) houtcome, Ledgers.update_self]

namespace Step

variable [Stack]

/-- An operation that leaves its ledger as it is leaves them all. -/
theorem run_of_unchanged {step : Step} {ledgers : Ledgers} {outcome : Except GatewayError Answer}
    (h : (step.station.gateway.perform step.operation).run (ledgers step.station.ledger) =
      (outcome, ledgers step.station.ledger)) : step.run ledgers = (outcome, ledgers) := by
  have hrun := Station.run_of_eq step.station (·.perform step.operation) h
  rwa [Ledgers.update_self] at hrun

section Verified

variable (step : Step) {call : VerifiedCall} {answer : Answer}
  (hverify : step.station.gateway.verify step.operation.message = .ok call)
  (hanswer : step.station.gateway.answer step.operation call = .ok answer)

include hverify hanswer

/-- A call that is due is answered, and moves its sender on. -/
theorem run_of_due {ledgers : Ledgers} (hconsumes : step.operation.consumes = true)
    (hnonce : call.nonce = (ledgers step.station.ledger).get call.sender) :
    step.run ledgers = (.ok answer, ledgers.advance step.station.ledger call.sender) := by
  have hperform := Gateway.run_perform_of_ok hverify (ledgers step.station.ledger)
  unfold Gateway.settle at hperform
  rw [hconsumes, if_pos rfl, hanswer, Gateway.admission_of_eq hnonce] at hperform
  exact Station.run_of_eq step.station (·.perform step.operation) hperform

/-- A call that is not due is refused for its nonce. -/
theorem run_of_not_due {ledgers : Ledgers} (hconsumes : step.operation.consumes = true)
    (hnonce : call.nonce ≠ (ledgers step.station.ledger).get call.sender) :
    step.run ledgers = (.error (.incorrectNonce {
      expected := (ledgers step.station.ledger).get call.sender
      provided := call.nonce }), ledgers) := by
  have hperform := Gateway.run_perform_of_ok hverify (ledgers step.station.ledger)
  unfold Gateway.settle at hperform
  rw [hconsumes, if_pos rfl, hanswer, Gateway.admission_of_ne hnonce] at hperform
  exact run_of_unchanged hperform

end Verified

/-- An answer that cannot be worked out leaves no trace, whether or not its call is due. -/
theorem run_of_answer_error (step : Step) {call : VerifiedCall} {error : GatewayError}
    (hverify : step.station.gateway.verify step.operation.message = .ok call)
    (hanswer : step.station.gateway.answer step.operation call = .error error) (ledgers : Ledgers) :
    step.run ledgers = (.error error, ledgers) := by
  have hperform := Gateway.run_perform_of_ok hverify (ledgers step.station.ledger)
  unfold Gateway.settle at hperform
  rw [hanswer] at hperform
  refine run_of_unchanged (hperform.trans ?_)
  split
  · rfl
  · rfl

/-- Everything that a step can do. A failure, whatever its cause, leaves no trace; a success of a
consuming operation was due, and advances its sender at its station's ledger. -/
theorem run_cases (step : Step) (ledgers : Ledgers) :
    (∃ error, step.run ledgers = (.error error, ledgers)) ∨
    ∃ answer call, step.station.gateway.verify step.operation.message = .ok call ∧
      ((step.operation.consumes = false ∧ step.run ledgers = (.ok answer, ledgers)) ∨
       (step.operation.consumes = true ∧
        call.nonce = (ledgers step.station.ledger).get call.sender ∧
        step.run ledgers = (.ok answer, ledgers.advance step.station.ledger call.sender))) := by
  cases hverify : step.station.gateway.verify step.operation.message with
  | error error => exact Or.inl ⟨error, run_of_unchanged (Gateway.run_perform_of_error hverify _)⟩
  | ok call =>
    cases hanswer : step.station.gateway.answer step.operation call with
    | error error => exact Or.inl ⟨error, run_of_answer_error step hverify hanswer ledgers⟩
    | ok answer =>
      cases hconsumes : step.operation.consumes with
      | false =>
        have hperform := Gateway.run_perform_of_ok hverify (ledgers step.station.ledger)
        unfold Gateway.settle at hperform
        rw [hconsumes, hanswer] at hperform
        exact Or.inr ⟨answer, call, rfl, Or.inl ⟨rfl, run_of_unchanged hperform⟩⟩
      | true =>
        by_cases hnonce : call.nonce = (ledgers step.station.ledger).get call.sender
        · exact Or.inr ⟨answer, call, rfl, Or.inr ⟨rfl, hnonce,
            run_of_due step hverify hanswer hconsumes hnonce⟩⟩
        · exact Or.inl ⟨_, run_of_not_due step hverify hanswer hconsumes hnonce⟩

theorem run_of_error {step : Step} {ledgers : Ledgers} {error : GatewayError}
    (h : (step.run ledgers).1 = .error error) : (step.run ledgers).2 = ledgers := by
  obtain ⟨_, hrun⟩ | ⟨_, _, _, ⟨_, hrun⟩ | ⟨_, _, hrun⟩⟩ := run_cases step ledgers
  · rw [hrun]
  · rw [hrun]
  · rw [hrun] at h
    cases h

theorem run_of_not_consumes {step : Step} (h : step.operation.consumes = false)
    (ledgers : Ledgers) : (step.run ledgers).2 = ledgers := by
  obtain ⟨_, hrun⟩ | ⟨_, _, _, ⟨_, hrun⟩ | ⟨hconsumes, _, _⟩⟩ := run_cases step ledgers
  · rw [hrun]
  · rw [hrun]
  · rw [h] at hconsumes
    cases hconsumes

theorem grownAt_run {step : Step} {ledgers : Ledgers} {answer : Answer}
    (h : (step.run ledgers).1 = .ok answer) (hconsumes : step.operation.consumes = true) :
    ∃ call, step.station.gateway.verify step.operation.message = .ok call ∧
      ledgers.GrownAt (step.run ledgers).2 step.station.ledger call.sender := by
  obtain ⟨_, hrun⟩ | ⟨_, call, hverify, ⟨hkeeps, _⟩ | ⟨_, _, hrun⟩⟩ := run_cases step ledgers
  · rw [hrun] at h
    cases h
  · rw [hconsumes] at hkeeps
    cases hkeeps
  · refine ⟨call, hverify, ?_⟩
    rw [hrun]
    exact ledgers.grownAt_advance step.station.ledger call.sender

/-- A step that fails, for whatever reason and at whatever stage, leaves every ledger as it was. A
consuming operation that succeeds moves one sender on by one, at its own ledger, and touches nothing
else. Verification and inquiries change nothing. -/
theorem run_atomic_and_framed (step : Step) (ledgers : Ledgers) :
    (∀ error, (step.run ledgers).1 = .error error → (step.run ledgers).2 = ledgers) ∧
    (∀ answer, (step.run ledgers).1 = .ok answer → step.operation.consumes = true →
      ∃ call, step.station.gateway.verify step.operation.message = .ok call ∧
        ledgers.GrownAt (step.run ledgers).2 step.station.ledger call.sender) ∧
    (step.operation.consumes = false → (step.run ledgers).2 = ledgers) ∧
    ∀ inquiry, (step.station.run (·.inquire inquiry) ledgers).2 = ledgers := by
  refine ⟨?_, ?_, ?_, ?_⟩
  · intro error h
    exact run_of_error h
  · intro answer h hconsumes
    exact grownAt_run h hconsumes
  · intro h
    exact run_of_not_consumes h ledgers
  · intro inquiry
    exact step.station.run_inquire inquiry ledgers

end Step

end SignedRelay
