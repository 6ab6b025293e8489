import Mathlib.Data.List.Forall2
import SignedRelay.Proofs.Base64Codec
import SignedRelay.Proofs.SenderIndependence

/-!
# Spellings of a message

A gateway works on the bytes of a message, and many texts have the same bytes. A step is verified and
answered alike whichever spelling it carries, so two runs that carry the same bytes go on alike. Main
statements: a text is worth the bytes it decodes to, its standard text among others; a text that does
not decode is refused without a trace; and no spelling of a message is accepted after another.
-/
namespace SignedRelay

/-- The same operation on another message. -/
def Operation.carrying (message : Message) : Operation → Operation
  | .verify _ => .verify message
  | .receive _ => .receive message
  | .create _ deposit => .create message deposit
  | .proxy _ => .proxy message
  | .forward _ gas => .forward message gas

@[simp] theorem Operation.message_carrying (operation : Operation) (message : Message) :
    (operation.carrying message).message = message := by
  cases operation <;> rfl

@[simp] theorem Operation.consumes_carrying (operation : Operation) (message : Message) :
    (operation.carrying message).consumes = operation.consumes := by
  cases operation <;> rfl

namespace Gateway

/-- A message is verified by its bytes. -/
theorem verify_congr [Stack] (gateway : Gateway) {first second : Message}
    (h : first.bytes? = second.bytes?) : gateway.verify first = gateway.verify second := by
  unfold verify
  rw [h]

/-- Once it is verified, a message plays no part in the answer. -/
theorem answer_carrying (gateway : Gateway) (operation : Operation) (message : Message)
    (call : VerifiedCall) :
    gateway.answer (operation.carrying message) call = gateway.answer operation call := by
  cases operation <;> rfl

theorem settle_carrying (gateway : Gateway) (operation : Operation) (message : Message)
    (call : VerifiedCall) (ledger : NonceLedger) :
    gateway.settle (operation.carrying message) call ledger =
      gateway.settle operation call ledger := by
  unfold settle
  rw [answer_carrying, Operation.consumes_carrying]

end Gateway

namespace Step

/-- The same step with another message. -/
def carrying (step : Step) (message : Message) : Step :=
  { step with operation := step.operation.carrying message }

/-- The second step asks the same of the same station as the first, with the same bytes. -/
def Respells (first second : Step) : Prop :=
  ∃ message : Message, message.bytes? = first.operation.message.bytes? ∧
    second = first.carrying message

theorem run_carrying_of_ok [Stack] (step : Step) {message : Message} {call : VerifiedCall}
    (h : step.station.gateway.verify message = .ok call) (ledgers : Ledgers) :
    (step.carrying message).run ledgers =
      let settled := step.station.gateway.settle step.operation call (ledgers step.station.ledger)
      (settled.1, ledgers.update step.station.ledger settled.2) := by
  have hcarried : step.station.gateway.verify (step.operation.carrying message).message =
      .ok call := by
    rw [Operation.message_carrying]
    exact h
  have hrun := (step.carrying message).run_of_verify_ok hcarried ledgers
  rwa [carrying, Gateway.settle_carrying] at hrun

theorem run_carrying_of_error [Stack] (step : Step) {message : Message} {error : GatewayError}
    (h : step.station.gateway.verify message = .error error) (ledgers : Ledgers) :
    (step.carrying message).run ledgers = (.error error, ledgers) := by
  refine (step.carrying message).run_of_verify_error ?_ ledgers
  show step.station.gateway.verify (step.operation.carrying message).message = _
  rw [Operation.message_carrying]
  exact h

/-- A step does the same with every spelling of a message. -/
theorem run_carrying_congr [Stack] (step : Step) {first second : Message}
    (h : first.bytes? = second.bytes?) (ledgers : Ledgers) :
    (step.carrying first).run ledgers = (step.carrying second).run ledgers := by
  have hverify := step.station.gateway.verify_congr h
  cases hsecond : step.station.gateway.verify second with
  | error error =>
    rw [hsecond] at hverify
    rw [run_carrying_of_error step hverify, run_carrying_of_error step hsecond]
  | ok call =>
    rw [hsecond] at hverify
    rw [run_carrying_of_ok step hverify, run_carrying_of_ok step hsecond]

/-- A text is worth the bytes it decodes to. -/
theorem run_carrying_of_decode [Stack] (step : Step) {text : String} {data : Bytes}
    (h : Base64.decode text = some data) (ledgers : Ledgers) :
    (step.carrying (.text text)).run ledgers = (step.carrying (.raw data)).run ledgers := by
  have hbytes : (Message.text text).bytes? = (Message.raw data).bytes? := h
  exact run_carrying_congr step hbytes ledgers

theorem run_carrying_of_not_base64 [Stack] (step : Step) {text : String} (h : Base64.decode text = none)
    (ledgers : Ledgers) : (step.carrying (.text text)).run ledgers = (.error .notBase64, ledgers) := by
  have hbytes : (Message.text text).bytes? = none := h
  refine run_carrying_of_error step ?_ ledgers
  unfold Gateway.verify
  rw [hbytes]

theorem carrying_self (step : Step) : step.carrying step.operation.message = step := by
  obtain ⟨station, operation⟩ := step
  cases operation <;> rfl

theorem run_respelled [Stack] {first second : Step} (h : first.Respells second) (ledgers : Ledgers) :
    second.run ledgers = first.run ledgers := by
  obtain ⟨message, hbytes, rfl⟩ := h
  have hrun := run_carrying_congr first hbytes ledgers
  rwa [carrying_self] at hrun

/-- Two runs that carry the same bytes give the same answers and end with the same ledgers. -/
theorem runAll_respelled [Stack] {steps others : List Step} (h : List.Forall₂ Respells steps others)
    (ledgers : Ledgers) : runAll others ledgers = runAll steps ledgers := by
  have hcons (step : Step) (rest : List Step) (ledgers : Ledgers) :
      runAll (step :: rest) ledgers = ((step.run ledgers).1 ::
        (runAll rest (step.run ledgers).2).1, (runAll rest (step.run ledgers).2).2) := rfl
  induction h generalizing ledgers with
  | nil => rfl
  | cons hstep _ ih => rw [hcons, hcons, run_respelled hstep, ih]

/-- What one spelling of a message has used up is not there for another, whatever happens in between
and whichever operation asks for it. -/
theorem accepted?_of_spent [Stack] {first again : Step} {ledgers : Ledgers} {call : VerifiedCall}
    (hfirst : first.accepted? ledgers = some call) (hstation : again.station = first.station)
    (hbytes : again.operation.message.bytes? = first.operation.message.bytes?)
    (between : List Step) : again.accepted? (runAll (first :: between) ledgers).2 = none := by
  obtain ⟨hnone, _⟩ | ⟨found, hfound, hdue, _⟩ :=
    accepted?_cases again (runAll (first :: between) ledgers).2
  · exact hnone
  have hverify := verify_of_accepted? hfound
  rw [hstation, first.station.gateway.verify_congr hbytes, verify_of_accepted? hfirst] at hverify
  obtain rfl : call = found := Except.ok.inj hverify
  have hlt := nonce_lt_of_accepted? hfirst between
  rw [hstation] at hdue
  omega

/-- For every operation, station and state of the ledgers: the standard text of a message does what its
bytes do, as does every other text that decodes to them; a text that does not decode is refused and
changes nothing, and one with a character outside ASCII does not decode. So whole runs do not depend
on the spellings, and when a message is accepted, no spelling of it is accepted there again. -/
theorem spellings_agree [Stack] :
    (∀ (step : Step) (data : Bytes) (ledgers : Ledgers),
      (step.carrying (.text (Base64.encode data))).run ledgers =
        (step.carrying (.raw data)).run ledgers) ∧
    (∀ (step : Step) (text : String) (data : Bytes) (ledgers : Ledgers),
      Base64.decode text = some data →
      (step.carrying (.text text)).run ledgers = (step.carrying (.raw data)).run ledgers) ∧
    (∀ (step : Step) (text : String) (ledgers : Ledgers), Base64.decode text = none →
      (step.carrying (.text text)).run ledgers = (.error .notBase64, ledgers)) ∧
    (∀ (text : String) (c : Char), c ∈ text.toList → 128 ≤ c.toNat →
      Base64.decode text = none) ∧
    (∀ (steps others : List Step) (ledgers : Ledgers), List.Forall₂ Respells steps others →
      runAll others ledgers = runAll steps ledgers) ∧
    ∀ (first again : Step) (between : List Step) (ledgers : Ledgers) (call : VerifiedCall),
      first.accepted? ledgers = some call → again.station = first.station →
      again.operation.message.bytes? = first.operation.message.bytes? →
      again.accepted? (runAll (first :: between) ledgers).2 = none := by
  refine ⟨?_, ?_, ?_, ?_, ?_, ?_⟩
  · intro step data ledgers
    exact run_carrying_of_decode step (Base64.decode_encode data) ledgers
  · intro step text data ledgers htext
    exact run_carrying_of_decode step htext ledgers
  · intro step text ledgers htext
    exact run_carrying_of_not_base64 step htext ledgers
  · intro text c hmem hc
    exact Base64.decode_eq_none_of_not_ascii hmem hc
  · intro steps others ledgers h
    exact runAll_respelled h ledgers
  · intro first again between ledgers call hfirst hstation hbytes
    exact accepted?_of_spent hfirst hstation hbytes between

/-- A message is submitted as bytes, as its standard text and with more padding than it needs. It is
accepted in whichever spelling comes first, and in that one only. -/
theorem spellings_agree_strayRun :
    let step := strayStep "abc" .receive
    let data := strayMessage "abc"
    let text := Base64.encode data ++ "===="
    let respelled := step.carrying (.text text)
    text ≠ Base64.encode data ∧
      (step.carrying (.text (Base64.encode data))).run .fresh =
        (step.carrying (.raw data)).run .fresh ∧
      respelled.run .fresh = (step.carrying (.raw data)).run .fresh ∧
      (step.carrying (.text "not base64")).run .fresh = (.error .notBase64, .fresh) ∧
      (step.carrying (.text "é")).run .fresh = (.error .notBase64, .fresh) ∧
      runAll [respelled, step] .fresh = runAll [step, respelled] .fresh ∧
      (step.accepted? .fresh).isSome ∧
      respelled.accepted? (runAll [step] .fresh).2 = none := by
  intro step data text respelled
  have hother : text ≠ Base64.encode data := by decide +kernel
  have htext : Base64.decode text = some data :=
    Base64.decode_surplus (by decide +kernel) (by decide +kernel) 4
  have hnone : Base64.decode "not base64" = none := by decide +kernel
  have haccepted : (step.accepted? .fresh).isSome := by decide +kernel
  obtain ⟨call, hcall⟩ := Option.isSome_iff_exists.1 haccepted
  obtain ⟨hstandard, hdecodes, hrefused, hascii, hruns, honce⟩ := spellings_agree
  have hforth : Respells step respelled := ⟨.text text, htext, rfl⟩
  have hback : Respells respelled step := ⟨.raw data, htext.symm, rfl⟩
  refine ⟨hother, hstandard step data .fresh, hdecodes step text data .fresh htext,
    hrefused step _ .fresh hnone, ?_, ?_, haccepted, ?_⟩
  · exact hrefused step _ .fresh (hascii "é" 'é' (by decide +kernel) (by decide))
  · exact (hruns _ _ .fresh (.cons hback (.cons hforth .nil))).symm
  · exact honce step respelled [] .fresh call hcall rfl htext

end Step

end SignedRelay
