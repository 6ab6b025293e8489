import SignedRelay.Proofs.Actions
import SignedRelay.Proofs.SingleUse

/-!
# Honest messages are accepted, once

What a private key signs for a gateway verifies there, so whichever operation it is handed to is
answered if its nonce is due and amount and gas have room. The next nonce of its sender is then higher,
and never falls again. Main statement: a signed message whose nonce is due is accepted, its answer says
what was signed, and it is refused for its nonce from then on.
-/
namespace SignedRelay.Step

open Outcome

/-- A call whose nonce has passed is refused for it, however long ago that was. -/
theorem run_of_passed [Stack] (station : Station) {operation : Operation} {call : VerifiedCall}
    {answer : Answer} {after : Ledgers}
    (hverify : station.gateway.verify operation.message = .ok call)
    (hanswer : station.gateway.answer operation call = .ok answer)
    (hconsumes : operation.consumes = true)
    (hpassed : call.nonce < (after station.ledger).get call.sender) (later : List Step) :
    let now := (runAll later after).2
    (Step.mk station operation).run now = (.error (.incorrectNonce {
      expected := (now station.ledger).get call.sender, provided := call.nonce }), now) := by
  have hle := get_le_runAll later after station.ledger call.sender
  exact run_of_not_due ⟨station, operation⟩ hverify hanswer hconsumes (by dsimp only; omega)

/-- Whatever is signed for a gateway, under a scheme whose recovery inverts signing, goes through there.
Handed to any operation that uses up its nonce, raw or as text, while the nonce is the next one of the
address that signed, it is answered with what was signed; that nonce alone moves on, by one; and from
then on the message is refused for its nonce by every such operation, whatever happens in between. -/
theorem honest_message_accepted_once [Stack] {gateway : Gateway}
    (hsized : gateway.crypto.hasher.WordSized) (hlawful : gateway.crypto.scheme.Lawful)
    {request : SigningRequest} {privateKey : String} {data : Bytes}
    (hsign : request.sign gateway.signingContext privateKey = .ok data) :
    ∃ key prepared, ∃ call : VerifiedCall,
      PrivateKey.parse gateway.crypto.scheme privateKey = .ok key ∧
      call.sender = Address.ofPublicKey gateway.crypto.hasher (gateway.crypto.scheme.publicKey key) ∧
      gateway.signingContext.prepare request.call = .ok prepared ∧ request.CarriedBy prepared call ∧
      ∀ (index : Nat) (ledgers : Ledgers) (operation : Operation),
        gateway.Submits data request.value operation →
        request.nonce = (ledgers index).get call.sender →
        ∃ answer after, (Step.mk ⟨gateway, index⟩ operation).run ledgers = (.ok answer, after) ∧
          gateway.Answers call operation answer ∧ ledgers.GrownAt after index call.sender ∧
          (after index).get call.sender = request.nonce + 1 ∧
          ∀ (later : List Step) (again : Operation), gateway.Submits data request.value again →
            let now := (runAll later after).2
            (Step.mk ⟨gateway, index⟩ again).run now = (.error (.incorrectNonce {
              expected := (now index).get call.sender, provided := request.nonce }), now) := by
  obtain ⟨key, prepared, shown, hkey, hprepared, hcall⟩ :=
    SigningRequest.exists_verified_of_sign hsized hlawful hsign
  let call := request.verified prepared (Address.ofPublicKey gateway.crypto.hasher
    (gateway.crypto.scheme.publicKey key)) shown
  -- Whichever operation the message is handed to, it verifies to one call, which can be answered.
  have hverify {operation : Operation} (h : gateway.Submits data request.value operation) :
      gateway.verify operation.message = .ok call := Gateway.verify_eq_ok.2 ⟨data, h.bytes, hcall⟩
  have hanswers {operation : Operation} (h : gateway.Submits data request.value operation) :
      ∃ answer, gateway.answer operation call = .ok answer :=
    (Gateway.exists_answer_iff (Gateway.bounded_of_verify (hverify h))).2 h.forwardable
  refine ⟨key, prepared, call, hkey, rfl, hprepared,
    SigningRequest.carriedBy_verified hprepared _ _, ?_⟩
  intro index ledgers operation hsubmits hnonce
  obtain ⟨answer, hanswer⟩ := hanswers hsubmits
  have hrun : (Step.mk ⟨gateway, index⟩ operation).run ledgers =
      (.ok answer, ledgers.advance index call.sender) :=
    run_of_due ⟨⟨gateway, index⟩, operation⟩ (hverify hsubmits) hanswer hsubmits.consumes hnonce
  have hgrown := ledgers.grownAt_advance index call.sender
  have hnext : ((ledgers.advance index call.sender index).get call.sender : Int) =
      request.nonce + 1 := by
    rw [hgrown index call.sender, if_pos ⟨rfl, rfl⟩, hnonce, Int.natCast_add, Int.natCast_one]
  refine ⟨answer, _, hrun, Gateway.answers_of_answer hanswer, hgrown, hnext, ?_⟩
  intro later again hagain
  obtain ⟨other, hother⟩ := hanswers hagain
  have hpassed : call.nonce < (ledgers.advance index call.sender index).get call.sender := by
    rw [hnext]
    exact Int.lt_add_one_of_le (Int.le_refl _)
  exact run_of_passed ⟨gateway, index⟩ (hverify hagain) hother hagain.consumes hpassed later

/-- The payment is forwarded with seven units of gas from ledgers that have seen no one. After that, not
even the account of its sender can be created with it. -/
theorem honest_message_accepted_once_payment :
    let gateway := paymentGateway 7
    ∃ data, SigningRequest.payment.sign gateway.signingContext SigningRequest.paymentKey = .ok data ∧
      ∃ (call : VerifiedCall) (answer : Answer) (after : Ledgers),
        (Step.mk ⟨gateway, 0⟩ (.forward (.raw data) none)).run .fresh = (.ok answer, after) ∧
        gateway.Answers call (.forward (.raw data) none) answer ∧ call.value = 2 ∧
        (Step.mk ⟨gateway, 0⟩ (.create (.raw data) 1)).run after =
          (.error (.incorrectNonce { expected := 1, provided := 0 }), after) := by
  intro gateway
  have hsized : gateway.crypto.hasher.WordSized := Hasher.wordSized_polynomial
  have hlawful : gateway.crypto.scheme.Lawful := SigningRequest.lawful_paymentScheme
  obtain ⟨data, hsign⟩ := exists_of_isOk
    (x := SigningRequest.payment.sign gateway.signingContext SigningRequest.paymentKey)
    (by decide +kernel)
  have hforward : gateway.Submits data SigningRequest.payment.value (.forward (.raw data) none) :=
    ⟨rfl, rfl, by decide, by decide, by decide⟩
  have hcreate : gateway.Submits data SigningRequest.payment.value (.create (.raw data) 1) :=
    ⟨rfl, rfl, trivial⟩
  obtain ⟨_, _, call, _, _, _, hcarried, honce⟩ :=
    honest_message_accepted_once hsized hlawful hsign
  have hdue : SigningRequest.payment.nonce = (Ledgers.fresh 0).get call.sender :=
    congrArg Int.ofNat (NonceLedger.get_empty call.sender).symm
  obtain ⟨answer, after, hrun, hanswers, _, hnext, hrefused⟩ := honce 0 .fresh _ hforward hdue
  have hone : (after 0).get call.sender = 1 := Int.ofNat.inj hnext
  have hagain : (Step.mk ⟨gateway, 0⟩ (.create (.raw data) 1)).run after =
      (.error (.incorrectNonce { expected := (after 0).get call.sender, provided := 0 }), after) :=
    hrefused [] _ hcreate
  rw [hone] at hagain
  exact ⟨data, hsign, call, answer, after, hrun, hanswers, hcarried.value, hagain⟩

end SignedRelay.Step
