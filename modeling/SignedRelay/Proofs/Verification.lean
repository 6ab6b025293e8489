import SignedRelay.Gateway
import SignedRelay.Outcome

/-!
# What a verified call says about its message

Success of verification, taken apart: the envelope, the prepared call, the recovered sender and the
text of its address. Main statement: a message verifies to a call exactly when each of these stages
succeeds and the call is put together from them.
-/
namespace SignedRelay

namespace VerifiedCall

/-- Each stage succeeds, and the call carries the envelope's numbers and accounts with the prepared
name and argument bytes. -/
theorem ofMessage_eq_ok [Stack] {crypto : Crypto} {bound : Int} {separator gatewayId message : Bytes}
    {call : VerifiedCall} :
    ofMessage crypto bound separator gatewayId message = .ok call ↔
      ∃ envelope prepared, Envelope.decode message = .ok envelope ∧
        (PendingCall.ofEnvelope envelope).prepare crypto.hasher bound separator gatewayId =
          .ok prepared ∧
        Recovery.signer crypto prepared.digest
          (envelope.signature ++ Bytes.ofNatLE 1 envelope.v.toNat) = .ok call.sender ∧
        Address.text call.sender = .ok call.senderAddress ∧
        call.toMetaCall = { (PendingCall.ofEnvelope envelope).toMetaCall with
          methodName := prepared.methodName, args := prepared.args } := by
  unfold ofMessage
  constructor
  · intro h
    obtain ⟨envelope, henvelope, h⟩ := Outcome.bind_eq_ok.1 h
    obtain ⟨prepared, hprepared, h⟩ := Outcome.bind_eq_ok.1 h
    obtain ⟨sender, hsender, h⟩ := Outcome.bind_eq_ok.1 h
    obtain ⟨populated, hpopulated, h⟩ := Outcome.bind_eq_ok.1 h
    obtain ⟨text, htext, h⟩ := Outcome.bind_eq_ok.1 h
    cases Outcome.mapError_eq_ok.1 hpopulated
    cases Outcome.pure_eq_ok.1 h
    exact ⟨envelope, prepared, Outcome.mapError_eq_ok.1 henvelope, hprepared,
      Outcome.mapError_eq_ok.1 hsender, Outcome.mapError_eq_ok.1 htext, rfl⟩
  · rintro ⟨envelope, prepared, henvelope, hprepared, hsender, htext, hcall⟩
    refine Outcome.bind_eq_ok.2 ⟨envelope, Outcome.mapError_eq_ok.2 henvelope, ?_⟩
    refine Outcome.bind_eq_ok.2 ⟨prepared, hprepared, ?_⟩
    refine Outcome.bind_eq_ok.2 ⟨call.sender, Outcome.mapError_eq_ok.2 hsender, ?_⟩
    refine Outcome.bind_eq_ok.2 ⟨_, Outcome.mapError_eq_ok.2 rfl, ?_⟩
    refine Outcome.bind_eq_ok.2 ⟨call.senderAddress, Outcome.mapError_eq_ok.2 htext, ?_⟩
    refine Outcome.pure_eq_ok.2 ?_
    rw [← hcall]

end VerifiedCall

theorem SigningContext.verify_eq_ok [Stack] {context : SigningContext} {message : Bytes}
    {call : VerifiedCall} :
    context.verify message = .ok call ↔ ∃ separator, context.separator = .ok separator ∧
      VerifiedCall.ofMessage context.crypto context.bound separator context.gatewayId message =
        .ok call := by
  unfold SigningContext.verify
  rw [Outcome.bind_eq_ok]
  simp only [Outcome.mapError_eq_ok]

namespace Gateway

theorem verify_eq_ok [Stack] {gateway : Gateway} {message : Message} {call : VerifiedCall} :
    gateway.verify message = .ok call ↔
      ∃ data, message.bytes? = some data ∧ gateway.signingContext.verify data = .ok call := by
  unfold verify
  cases message.bytes? with
  | none => simp
  | some data => simp [Outcome.mapError_eq_ok]

theorem exists_ofMessage_of_verify [Stack] {gateway : Gateway} {message : Message} {call : VerifiedCall}
    (h : gateway.verify message = .ok call) :
    ∃ data separator, message.bytes? = some data ∧
      gateway.signingContext.separator = .ok separator ∧
      VerifiedCall.ofMessage gateway.crypto gateway.signingContext.bound separator
        gateway.signingContext.gatewayId data = .ok call := by
  obtain ⟨data, hdata, hverify⟩ := verify_eq_ok.1 h
  obtain ⟨separator, hseparator, hcall⟩ := SigningContext.verify_eq_ok.1 hverify
  exact ⟨data, separator, hdata, hseparator, hcall⟩

/-- The address of a verified sender has a text. It was written once during verification. -/
theorem text_of_verify [Stack] {gateway : Gateway} {message : Message} {call : VerifiedCall}
    (h : gateway.verify message = .ok call) : Address.text call.sender = .ok call.senderAddress := by
  obtain ⟨_, _, _, _, hcall⟩ := exists_ofMessage_of_verify h
  obtain ⟨_, _, _, _, _, htext, _⟩ := VerifiedCall.ofMessage_eq_ok.1 hcall
  exact htext

end Gateway

end SignedRelay
