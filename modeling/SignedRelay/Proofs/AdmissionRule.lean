import SignedRelay.Proofs.Actions

/-!
# One rule of admission

Two of the operations that use up a nonce do so before they answer, and the other two build their
action first. What they decide is the same nevertheless. Main statement: a message with room in the
input of a proxy account is admitted by all of them or refused by all of them with the same error, and
leaves the same ledgers; without room for its amount, the first two decide as before, and the other two
report the range whatever the nonce.
-/
namespace SignedRelay

open Outcome

/-- The rule by which a station admits a message: the verified call of the message has the next nonce of
its sender, which it then uses up. -/
def Station.admissionRule [Stack] (station : Station) (message : Message) (ledgers : Ledgers) :
    Except GatewayError Unit × Ledgers :=
  match station.gateway.verify message with
  | .error error => (.error error, ledgers)
  | .ok call =>
    let expected := (ledgers station.ledger).get call.sender
    if call.nonce = expected then (.ok (), ledgers.advance station.ledger call.sender)
    else (.error (.incorrectNonce { expected, provided := call.nonce }), ledgers)

namespace Step

variable [Stack]

/-- Whether a step succeeds, or else its error, and the ledgers after it. -/
def verdict (step : Step) (ledgers : Ledgers) : Except GatewayError Unit × Ledgers :=
  ((step.run ledgers).1.map fun _ => (), (step.run ledgers).2)

theorem verdict_of_run {step : Step} {ledgers after : Ledgers} {outcome : Except GatewayError Answer}
    (h : step.run ledgers = (outcome, after)) :
    step.verdict ledgers = (outcome.map fun _ => (), after) := by
  unfold verdict
  rw [h]

/-- An operation that uses up the nonce of its message, and for whose amount and gas there is room,
follows the rule of admission. -/
theorem verdict_eq_admissionRule (step : Step) (ledgers : Ledgers)
    (hconsumes : step.operation.consumes = true)
    (hroom : ∀ call, step.station.gateway.verify step.operation.message = .ok call →
      step.station.gateway.Forwardable call.value step.operation) :
    step.verdict ledgers = step.station.admissionRule step.operation.message ledgers := by
  unfold Station.admissionRule
  cases hverify : step.station.gateway.verify step.operation.message with
  | error error => exact verdict_of_run (run_of_unchanged (Gateway.run_perform_of_error hverify _))
  | ok call =>
    have hbounded := Gateway.bounded_of_verify hverify
    obtain ⟨answer, hanswer⟩ := (Gateway.exists_answer_iff hbounded).2 (hroom call hverify)
    dsimp only
    by_cases hnonce : call.nonce = (ledgers step.station.ledger).get call.sender
    · rw [if_pos hnonce]
      exact verdict_of_run (run_of_due step hverify hanswer hconsumes hnonce)
    · rw [if_neg hnonce]
      exact verdict_of_run (run_of_not_due step hverify hanswer hconsumes hnonce)

section Actions

variable {station : Station} {message : Message} {call : VerifiedCall} {gas : Option Int}
  (hverify : station.gateway.verify message = .ok call)

include hverify

theorem run_proxy_of_error {error : GatewayError}
    (h : station.gateway.transferAction call = .error error) (ledgers : Ledgers) :
    (Step.mk station (.proxy message)).run ledgers = (.error error, ledgers) := by
  have hanswer : station.gateway.answer (.proxy message) call = .error error := by
    unfold Gateway.answer
    dsimp only
    rw [h]
    rfl
  exact run_of_answer_error ⟨station, .proxy message⟩ hverify hanswer ledgers

theorem run_forward_of_error {error : GatewayError}
    (h : station.gateway.callAction call gas = .error error) (ledgers : Ledgers) :
    (Step.mk station (.forward message gas)).run ledgers = (.error error, ledgers) := by
  have hanswer : station.gateway.answer (.forward message gas) call = .error error := by
    unfold Gateway.answer
    dsimp only
    rw [h]
    rfl
  exact run_of_answer_error ⟨station, .forward message gas⟩ hverify hanswer ledgers

/-- Gas that is too long to be written stops the forwarding of every verified message, since the text
of the error that it calls for cannot be made. -/
theorem run_forward_of_unwritable (hgas : Unwritable (station.gateway.forwardedGas gas))
    (ledgers : Ledgers) : (Step.mk station (.forward message gas)).run ledgers =
      (.error (.fault (.unwritable (station.gateway.forwardedGas gas))), ledgers) :=
  run_forward_of_error hverify (Gateway.callAction_of_unwritable call hgas) ledgers

section Large

variable (hvalue : Bytes.capacity 16 ≤ call.value)

include hvalue

theorem run_proxy_of_large (ledgers : Ledgers) : (Step.mk station (.proxy message)).run ledgers =
    (.error (.proxy (.amountRange call.value)), ledgers) := by
  have hbounded := Gateway.bounded_of_verify hverify
  have hnone : ¬∃ action, station.gateway.transferAction call = .ok action := fun haction =>
    absurd ((Gateway.exists_transferAction_iff hbounded).1 haction) (Int.not_lt.2 hvalue)
  obtain ⟨_, ⟨_, rfl⟩, haction⟩ := (Gateway.failsOnly_transferAction hbounded).exists_error hnone
  exact run_proxy_of_error hverify haction ledgers

/-- It depends on the gas whether the amount is reported or the gas. -/
theorem run_forward_of_large (hgas : ¬Unwritable (station.gateway.forwardedGas gas))
    (ledgers : Ledgers) : ∃ error,
      (error = .amountRange call.value ∨ error = .gasRange (station.gateway.forwardedGas gas)) ∧
      (Step.mk station (.forward message gas)).run ledgers = (.error (.proxy error), ledgers) := by
  have hbounded := Gateway.bounded_of_verify hverify
  have hnone : ¬∃ action, station.gateway.callAction call gas = .ok action := fun haction =>
    absurd ((Gateway.exists_callAction_iff hbounded).1 haction).1 (Int.not_lt.2 hvalue)
  obtain ⟨_, herror, haction⟩ := (Gateway.failsOnly_callAction hbounded).exists_error hnone
  obtain ⟨_, rfl⟩ | ⟨_, ⟨_, rfl⟩ | ⟨hlong, _⟩⟩ := herror
  · exact ⟨_, .inl rfl, run_forward_of_error hverify haction ledgers⟩
  · exact ⟨_, .inr rfl, run_forward_of_error hverify haction ledgers⟩
  · exact absurd hlong hgas

end Large

end Actions

end Step

namespace Station

section Rule

variable [Stack] (station : Station) (message : Message) (ledgers : Ledgers) (deposit : Int)
  (gas : Option Int)

theorem verdict_of_receiving {operation : Operation}
    (h : operation ∈ [.receive message, .create message deposit]) :
    (Step.mk station operation).verdict ledgers = station.admissionRule message ledgers := by
  simp only [List.mem_cons, List.not_mem_nil, or_false] at h
  obtain rfl | rfl := h
  · exact Step.verdict_eq_admissionRule ⟨station, _⟩ ledgers rfl fun _ _ => trivial
  · exact Step.verdict_eq_admissionRule ⟨station, _⟩ ledgers rfl fun _ _ => trivial

theorem verdict_of_forwardable
    (hroom : ∀ call, station.gateway.verify message = .ok call →
      station.gateway.Forwardable call.value (.forward message gas)) {operation : Operation}
    (h : operation ∈ [.receive message, .create message deposit, .proxy message,
      .forward message gas]) :
    (Step.mk station operation).verdict ledgers = station.admissionRule message ledgers := by
  simp only [List.mem_cons, List.not_mem_nil, or_false] at h
  obtain rfl | rfl | rfl | rfl := h
  · exact Step.verdict_eq_admissionRule ⟨station, _⟩ ledgers rfl fun _ _ => trivial
  · exact Step.verdict_eq_admissionRule ⟨station, _⟩ ledgers rfl fun _ _ => trivial
  · exact Step.verdict_eq_admissionRule ⟨station, _⟩ ledgers rfl fun call hverify =>
      (hroom call hverify).1
  · exact Step.verdict_eq_admissionRule ⟨station, _⟩ ledgers rfl hroom

/-- The operations that use up a nonce follow one rule of admission where a verified call has room for
its amount and for the gas that is forwarded. Where there is no room for the amount, those that send the
proxy account nothing still follow it, and the others report the range and leave the ledgers, whatever
the nonce, except that gas too long to be written is a fault. -/
theorem consuming_operations_agree :
    ((∀ call, station.gateway.verify message = .ok call →
        station.gateway.Forwardable call.value (.forward message gas)) →
      ∀ operation ∈ [.receive message, .create message deposit, .proxy message,
        .forward message gas],
        (Step.mk station operation).verdict ledgers = station.admissionRule message ledgers) ∧
    ∀ call, station.gateway.verify message = .ok call → Bytes.capacity 16 ≤ call.value →
      (∀ operation ∈ [.receive message, .create message deposit],
        (Step.mk station operation).verdict ledgers = station.admissionRule message ledgers) ∧
      (Step.mk station (.proxy message)).run ledgers =
        (.error (.proxy (.amountRange call.value)), ledgers) ∧
      (¬Unwritable (station.gateway.forwardedGas gas) → ∃ error,
        (error = .amountRange call.value ∨ error = .gasRange (station.gateway.forwardedGas gas)) ∧
        (Step.mk station (.forward message gas)).run ledgers = (.error (.proxy error), ledgers)) ∧
      (Unwritable (station.gateway.forwardedGas gas) →
        (Step.mk station (.forward message gas)).run ledgers =
          (.error (.fault (.unwritable (station.gateway.forwardedGas gas))), ledgers)) := by
  constructor
  · intro hroom operation h
    exact verdict_of_forwardable station message ledgers deposit gas hroom h
  · intro call hverify hvalue
    refine ⟨?_, ?_, ?_, ?_⟩
    · intro operation h
      exact verdict_of_receiving station message ledgers deposit h
    · exact Step.run_proxy_of_large hverify hvalue ledgers
    · intro hgas
      exact Step.run_forward_of_large hverify hvalue hgas ledgers
    · intro hgas
      exact Step.run_forward_of_unwritable hverify hgas ledgers

end Rule

/-- A plain call that attaches more than the input of a proxy account has room for, behind a signature
that nobody made on purpose. -/
def lavishMessage : Message :=
  let envelope := { Envelope.blank "" [] with
    signature := Bytes.ofNatBE 32 1 ++ Bytes.ofNatBE 32 1
    value := Bytes.ofNatBE 32 (Bytes.capacity 16) }
  .raw (envelope.encode.toOption.getD [])

theorem verify_lavishMessage : ∃ call,
    (Step.strayStep "a" .receive).station.gateway.verify lavishMessage = .ok call ∧
      call.value = Bytes.capacity 16 := by
  have hvalue : ((Step.strayStep "a" .receive).station.gateway.verify lavishMessage).toOption.map
      (·.value) = some (Bytes.capacity 16 : Int) := by
    decide +kernel
  obtain ⟨call, hcall, hattached⟩ := Option.map_eq_some_iff.1 hvalue
  exact ⟨call, eq_ok_of_toOption hcall, hattached⟩

/-- A call that attaches nothing is admitted by a fresh station, whichever of the operations is asked
for; of one that attaches too much, only the range is reported. -/
theorem consuming_operations_agree_lavish :
    let station := (Step.strayStep "a" .receive).station
    let message := Message.raw (Step.strayMessage "a")
    (∀ operation ∈ [.receive message, .create message 1, .proxy message, .forward message (some 7)],
      ((Step.mk station operation).verdict .fresh).1.isOk = true) ∧
    ∃ call, station.gateway.verify lavishMessage = .ok call ∧
      (Step.mk station (.proxy lavishMessage)).run .fresh =
        (.error (.proxy (.amountRange call.value)), .fresh) ∧
      (∃ error, (Step.mk station (.forward lavishMessage (some 7))).run .fresh =
        (.error (.proxy error), .fresh)) ∧
      ((Step.mk station (.receive lavishMessage)).verdict .fresh).1.isOk = true := by
  intro station message
  have hvalue : (station.gateway.verify message).toOption.map (·.value) = some 0 := by decide +kernel
  have hroom : ∀ call, station.gateway.verify message = .ok call →
      station.gateway.Forwardable call.value (.forward message (some 7)) := by
    intro call hverify
    rw [hverify] at hvalue
    have hzero : call.value = 0 := Option.some.inj hvalue
    rw [hzero]
    exact ⟨by decide, by decide, by decide⟩
  have hadmitted : (station.admissionRule message .fresh).1.isOk = true := by decide +kernel
  have hlavish : (station.admissionRule lavishMessage .fresh).1.isOk = true := by decide +kernel
  have hshort : ¬Unwritable (station.gateway.forwardedGas (some 7)) := by
    intro hlong
    have hseven : Bytes.capacity 32 ≤ 7 := Nat.le_trans capacity_le_decimalCapacity hlong
    exact absurd hseven (by decide)
  obtain ⟨call, hverify, hattached⟩ := verify_lavishMessage
  obtain ⟨hagree, _⟩ := consuming_operations_agree station message .fresh 1 (some 7)
  obtain ⟨_, hlarge⟩ := consuming_operations_agree station lavishMessage .fresh 1 (some 7)
  obtain ⟨hreceiving, hproxy, hforward, _⟩ := hlarge call hverify (Int.le_of_eq hattached.symm)
  refine ⟨?_, call, hverify, hproxy, ?_, ?_⟩
  · intro operation h
    rw [hagree hroom operation h]
    exact hadmitted
  · obtain ⟨error, _, hrun⟩ := hforward hshort
    exact ⟨error, hrun⟩
  · rw [hreceiving _ List.mem_cons_self]
    exact hlavish

/-- The call that attaches too much, forwarded with gas of a digit more than can be written, is stopped
by a fault, and not by an error of the proxy account. -/
theorem forward_fault_lavish :
    let station := (Step.strayStep "a" .receive).station
    let gas : Int := decimalCapacity numeralLimit
    (∃ call, station.gateway.verify lavishMessage = .ok call ∧ Bytes.capacity 16 ≤ call.value) ∧
    ∀ ledgers, (Step.mk station (.forward lavishMessage (some gas))).run ledgers =
      (.error (.fault (.unwritable gas)), ledgers) := by
  intro station gas
  have hlong : Unwritable (station.gateway.forwardedGas (some gas)) :=
    unwritable_natCast (Nat.le_refl _)
  obtain ⟨call, hverify, hattached⟩ := verify_lavishMessage
  exact ⟨⟨call, hverify, Int.le_of_eq hattached.symm⟩, Step.run_forward_of_unwritable hverify hlong⟩

end Station

end SignedRelay
