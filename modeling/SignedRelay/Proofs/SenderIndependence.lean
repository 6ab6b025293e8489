import SignedRelay.Proofs.EnvelopeCodec
import SignedRelay.Proofs.Replay

/-!
# Senders do not interfere

A step whose message verifies to a call of one sender depends on the ledgers through that sender's
next nonces only, and any other step leaves these nonces alone. So two runs that agree on one
sender's next nonces go on agreeing while they take the same steps of that sender, whatever either
of them does for others in between. Main statements: without the steps of all others, a run gives a
sender the same answers and ends with the same next nonces; and steps of different senders commute.
-/
namespace SignedRelay

/-- Two states of the ledgers have the same next nonce of one sender everywhere. -/
def Ledgers.AgreeFor (sender : Bytes) (first second : Ledgers) : Prop :=
  ∀ index, (first index).get sender = (second index).get sender

namespace Gateway

variable {call : VerifiedCall} {ledger other : NonceLedger}

/-- Whether a call is admitted depends on its sender's next nonce only. -/
theorem admission_congr {α : Type} (outcome : Except GatewayError α)
    (h : ledger.get call.sender = other.get call.sender) :
    (admission call outcome ledger).1 = (admission call outcome other).1 ∧
      (admission call outcome ledger).2.get call.sender =
        (admission call outcome other).2.get call.sender := by
  cases outcome with
  | error error => exact ⟨rfl, h⟩
  | ok answer =>
    by_cases hnonce : call.nonce = ledger.get call.sender
    · rw [admission_of_eq hnonce, admission_of_eq (hnonce.trans (congrArg _ h))]
      refine ⟨rfl, ?_⟩
      rw [NonceLedger.get_set_self, NonceLedger.get_set_self, h]
    · have hother : call.nonce ≠ other.get call.sender := by rwa [← h]
      rw [admission_of_ne hnonce, admission_of_ne hother]
      exact ⟨by rw [h], h⟩

theorem settle_congr (gateway : Gateway) (operation : Operation)
    (h : ledger.get call.sender = other.get call.sender) :
    (gateway.settle operation call ledger).1 = (gateway.settle operation call other).1 ∧
      (gateway.settle operation call ledger).2.get call.sender =
        (gateway.settle operation call other).2.get call.sender := by
  unfold settle
  cases operation.consumes with
  | false => exact ⟨rfl, h⟩
  | true => exact admission_congr (gateway.answer operation call) h

end Gateway

namespace Step

section Runs

variable [Stack] {step : Step} {sender : Bytes} {ledgers other : Ledgers}

theorem isFrom_iff : step.isFrom sender = true ↔
    ∃ call, step.station.gateway.verify step.operation.message = .ok call ∧
      call.sender = sender := by
  unfold isFrom sender?
  cases step.station.gateway.verify step.operation.message with
  | error error => simp [Except.toOption]
  | ok call => simp [Except.toOption]

/-- A step of anyone else, or of no one, leaves a sender's next nonces alone. -/
theorem agreeFor_run (h : step.isFrom sender = false) (ledgers : Ledgers) :
    ledgers.AgreeFor sender (step.run ledgers).2 := by
  intro index
  obtain ⟨error, hrun⟩ | ⟨answer, call, hverify, ⟨_, hrun⟩ | ⟨_, _, hrun⟩⟩ := run_cases step ledgers
  · rw [hrun]
  · rw [hrun]
  · have hne : sender ≠ call.sender := by
      intro heq
      rw [isFrom_iff.2 ⟨call, hverify, heq.symm⟩] at h
      cases h
    rw [hrun, ledgers.grownAt_advance step.station.ledger call.sender index sender,
      if_neg fun hsame => hne hsame.2]

/-- What a step does with a message that verifies. -/
theorem run_of_verify_ok {call : VerifiedCall}
    (h : step.station.gateway.verify step.operation.message = .ok call) (ledgers : Ledgers) :
    step.run ledgers =
      let settled := step.station.gateway.settle step.operation call (ledgers step.station.ledger)
      (settled.1, ledgers.update step.station.ledger settled.2) :=
  Station.run_of_eq step.station (·.perform step.operation) (Gateway.run_perform_of_ok h _)

/-- A step whose message does not verify fails in the same way from any ledgers. -/
theorem run_of_verify_error {error : GatewayError}
    (h : step.station.gateway.verify step.operation.message = .error error) (ledgers : Ledgers) :
    step.run ledgers = (.error error, ledgers) :=
  run_of_unchanged (Gateway.run_perform_of_error h _)

/-- A step of a sender depends on that sender's next nonces only. -/
theorem run_congr (h : step.isFrom sender = true) (hagree : ledgers.AgreeFor sender other) :
    (step.run ledgers).1 = (step.run other).1 ∧
      Ledgers.AgreeFor sender (step.run ledgers).2 (step.run other).2 := by
  obtain ⟨call, hverify, rfl⟩ := isFrom_iff.1 h
  obtain ⟨hanswer, hnonce⟩ := step.station.gateway.settle_congr step.operation
    (hagree step.station.ledger)
  rw [run_of_verify_ok hverify ledgers, run_of_verify_ok hverify other]
  refine ⟨hanswer, fun index => ?_⟩
  dsimp only
  by_cases hindex : index = step.station.ledger
  · rw [hindex, Ledgers.update_same, Ledgers.update_same]
    exact hnonce
  · rw [Ledgers.update_of_ne _ hindex, Ledgers.update_of_ne _ hindex]
    exact hagree index

theorem log_cons (step : Step) (rest : List Step) (ledgers : Ledgers) :
    log (step :: rest) ledgers =
      (step, (step.run ledgers).1) :: log rest (step.run ledgers).2 := rfl

/-- From ledgers that agree for a sender, a run and the same run without the steps of all others give
that sender's steps the same answers and end in ledgers that agree for it. -/
theorem log_filter_isFrom (steps : List Step) (sender : Bytes) {ledgers other : Ledgers}
    (hagree : ledgers.AgreeFor sender other) :
    log (steps.filter (·.isFrom sender)) other =
        (log steps ledgers).filter (·.1.isFrom sender) ∧
      (runAll steps ledgers).2.AgreeFor sender
        (runAll (steps.filter (·.isFrom sender)) other).2 := by
  induction steps generalizing ledgers other with
  | nil => exact ⟨rfl, hagree⟩
  | cons step rest ih =>
    by_cases hfrom : step.isFrom sender = true
    · obtain ⟨hanswer, hafter⟩ := run_congr hfrom hagree
      obtain ⟨hlog, hend⟩ := ih hafter
      rw [List.filter_cons, if_pos hfrom]
      refine ⟨?_, hend⟩
      rw [log_cons, log_cons, List.filter_cons, if_pos hfrom, hlog, hanswer]
    · have hskip : Ledgers.AgreeFor sender (step.run ledgers).2 other := fun index =>
        (agreeFor_run (Bool.not_eq_true _ ▸ hfrom) ledgers index).symm.trans (hagree index)
      obtain ⟨hlog, hend⟩ := ih hskip
      rw [List.filter_cons, if_neg hfrom]
      refine ⟨?_, hend⟩
      rw [log_cons, List.filter_cons, if_neg hfrom, hlog]

/-- A step gives the same answer before and after a step of another sender. -/
theorem answer_run_of_sender_ne {first second : Step} (h : first.sender? ≠ second.sender?)
    (ledgers : Ledgers) : (second.run (first.run ledgers).2).1 = (second.run ledgers).1 := by
  cases hverify : second.station.gateway.verify second.operation.message with
  | error error => rw [run_of_verify_error hverify, run_of_verify_error hverify]
  | ok call =>
    have hsecond : second.isFrom call.sender = true := isFrom_iff.2 ⟨call, hverify, rfl⟩
    have hfirst : first.isFrom call.sender = false := by
      rw [isFrom, beq_eq_false_iff_ne, ← beq_iff_eq.1 hsecond]
      exact h
    exact (run_congr hsecond (agreeFor_run hfirst ledgers)).1.symm

/-- Which of two steps of different senders comes first makes no difference to a sender's steps. -/
theorem filter_isFrom_swap {first second : Step} (h : first.sender? ≠ second.sender?)
    (sender : Bytes) :
    [second, first].filter (·.isFrom sender) = [first, second].filter (·.isFrom sender) := by
  cases hfirst : first.isFrom sender with
  | false => simp only [List.filter_cons, hfirst, Bool.false_eq_true, if_false]
  | true =>
    have hsecond : second.isFrom sender = false := by
      rw [isFrom, beq_eq_false_iff_ne, ← beq_iff_eq.1 hfirst]
      exact h.symm
    simp only [List.filter_cons, hsecond, Bool.false_eq_true, if_false]

/-- Without the steps of all others, a run gives a sender's steps the answers that they have in the
full run, and the sender's next nonces at its end are the same at every ledger. Two steps of different
senders have the same answers in either order, and the same next nonces of everyone after them. -/
theorem senders_independent (steps : List Step) (ledgers : Ledgers) (sender : Bytes) :
    log (steps.filter (·.isFrom sender)) ledgers =
        (log steps ledgers).filter (·.1.isFrom sender) ∧
    (∀ index, ((runAll (steps.filter (·.isFrom sender)) ledgers).2 index).get sender =
        ((runAll steps ledgers).2 index).get sender) ∧
    ∀ first second : Step, first.sender? ≠ second.sender? →
      log [second, first] ledgers = (log [first, second] ledgers).reverse ∧
      ∀ index other, ((runAll [second, first] ledgers).2 index).get other =
        ((runAll [first, second] ledgers).2 index).get other := by
  obtain ⟨hlog, hend⟩ := log_filter_isFrom steps sender (fun _ => rfl)
  refine ⟨hlog, fun index => (hend index).symm, ?_⟩
  intro first second hne
  constructor
  · rw [log_cons, log_cons, log_cons, log_cons, answer_run_of_sender_ne hne,
      answer_run_of_sender_ne hne.symm]
    rfl
  · intro index other
    obtain ⟨_, hswapped⟩ := log_filter_isFrom [second, first] other (fun _ => rfl)
    obtain ⟨_, hgiven⟩ := log_filter_isFrom [first, second] other (fun _ => rfl)
    rw [hswapped index, hgiven index, filter_isFrom_swap hne]

end Runs

/-- A plain call to a contract behind a signature that nobody made on purpose. One is the abscissa of a
point, so the signature belongs to somebody, and to somebody else for each contract. -/
def strayMessage (contractAddress : String) : Bytes :=
  let envelope := { Envelope.blank "" [] with
    signature := Bytes.ofNatBE 32 1 ++ Bytes.ofNatBE 32 1, contractAddress }
  envelope.encode.toOption.getD []

def strayStep (contractAddress : String) (operation : Message → Operation) : Step where
  station := ⟨{ config := { accountId := "g" }, crypto := ⟨.polynomial, .secp256k1⟩ }, 0⟩
  operation := operation (.raw (strayMessage contractAddress))

/-- A call of one sender is received, and repeated behind a call of another. The repetition is refused
with and without the other call, and the other call could as well come first. -/
theorem senders_independent_strayRun :
    let first := strayStep "a" .receive
    let second := strayStep "b" (.forward · none)
    let again := strayStep "a" (.create · 1)
    ∃ sender, [first, second, again].map (·.isFrom sender) = [true, false, true] ∧
      (log [first, second, again] .fresh).map (·.2.isOk) = [true, true, false] ∧
      log [first, again] .fresh =
        (log [first, second, again] .fresh).filter (·.1.isFrom sender) ∧
      log [second, first] .fresh = (log [first, second] .fresh).reverse := by
  intro first second again
  let sender := first.sender?.getD []
  have hfrom : [first, second, again].map (·.isFrom sender) = [true, false, true] := by
    decide +kernel
  have hanswers : (log [first, second, again] .fresh).map (·.2.isOk) = [true, true, false] := by
    decide +kernel
  have hne : first.sender? ≠ second.sender? := by decide +kernel
  have hkept : [first, second, again].filter (·.isFrom sender) = [first, again] := by
    simp only [List.map_cons, List.map_nil, List.cons.injEq, and_true] at hfrom
    simp only [List.filter_cons, List.filter_nil, hfrom, Bool.false_eq_true, if_true, if_false]
  obtain ⟨hlog, _, hswap⟩ := senders_independent [first, second, again] .fresh sender
  rw [hkept] at hlog
  exact ⟨sender, hfrom, hanswers, hlog, (hswap first second hne).1⟩

end Step

end SignedRelay
