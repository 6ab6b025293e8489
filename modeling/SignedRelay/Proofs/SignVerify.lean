import SignedRelay.MetaCall.Sign
import SignedRelay.Proofs.DefinitionText
import SignedRelay.Proofs.EnvelopeCodec
import SignedRelay.Proofs.Preparation
import SignedRelay.Proofs.Verification
import SignedRelay.Proofs.Words

/-!
# Verification undoes signing

A signed message decodes to the envelope that was signed, prepares to the digest that was signed, and
recovers to the key that signed it. Main statement: whatever a request is signed to verifies, in the
same context, to the call of the request with the address of the key as its sender.
-/
namespace SignedRelay

namespace SigningRequest

theorem envelope_eq_ok {request : SigningRequest} {signature : Signature} {envelope : Envelope} :
    request.envelope signature = .ok envelope ↔
      ∃ nonce feeAmount value, Word.ofInt request.nonce = .ok nonce ∧
        Word.ofInt request.feeAmount = .ok feeAmount ∧ Word.ofInt request.value = .ok value ∧
        { signature := signature.bytes, v := signature.recoveryBit + 27, nonce, feeAmount
          feeAddress := request.feeAddress, contractAddress := request.contractAddress, value
          method := request.methodText, args := request.arguments } = envelope := by
  unfold SigningRequest.envelope
  constructor
  · intro h
    obtain ⟨nonce, hnonce, h⟩ := Outcome.bind_eq_ok.1 h
    obtain ⟨feeAmount, hfee, h⟩ := Outcome.bind_eq_ok.1 h
    obtain ⟨value, hvalue, h⟩ := Outcome.bind_eq_ok.1 h
    exact ⟨nonce, feeAmount, value, hnonce, hfee, hvalue, Outcome.pure_eq_ok.1 h⟩
  · rintro ⟨nonce, feeAmount, value, hnonce, hfee, hvalue, henvelope⟩
    refine Outcome.bind_eq_ok.2 ⟨nonce, hnonce, ?_⟩
    refine Outcome.bind_eq_ok.2 ⟨feeAmount, hfee, ?_⟩
    exact Outcome.bind_eq_ok.2 ⟨value, hvalue, Outcome.pure_eq_ok.2 henvelope⟩

theorem sign_eq_ok [Stack] {request : SigningRequest} {context : SigningContext} {privateKey : String}
    {message : Bytes} : request.sign context privateKey = .ok message ↔
      ∃ prepared key signature envelope, context.prepare request.call = .ok prepared ∧
        PrivateKey.parse context.crypto.scheme privateKey = .ok key ∧
        context.crypto.scheme.sign key prepared.digest = some signature ∧
        request.envelope signature = .ok envelope ∧ envelope.encode = .ok message := by
  unfold sign
  constructor
  · intro h
    obtain ⟨prepared, hprepared, h⟩ := Outcome.bind_eq_ok.1 h
    obtain ⟨key, hkey, h⟩ := Outcome.bind_eq_ok.1 h
    split at h
    · exact absurd h Outcome.throw_ne_ok
    · next signature hsignature =>
      obtain ⟨envelope, henvelope, h⟩ := Outcome.bind_eq_ok.1 h
      exact ⟨prepared, key, signature, envelope, Outcome.mapError_eq_ok.1 hprepared,
        Outcome.mapError_eq_ok.1 hkey, hsignature, henvelope, h⟩
  · rintro ⟨prepared, key, signature, envelope, hprepared, hkey, hsignature, henvelope, hencode⟩
    refine Outcome.bind_eq_ok.2 ⟨prepared, Outcome.mapError_eq_ok.2 hprepared, ?_⟩
    refine Outcome.bind_eq_ok.2 ⟨key, Outcome.mapError_eq_ok.2 hkey, ?_⟩
    rw [hsignature]
    exact Outcome.bind_eq_ok.2 ⟨envelope, henvelope, hencode⟩

/-- The envelope of a request carries the call of the request. -/
theorem ofEnvelope_eq {request : SigningRequest} {signature : Signature} {envelope : Envelope}
    (h : request.envelope signature = .ok envelope) :
    (PendingCall.ofEnvelope envelope).toMetaCall =
      { request.call with rawArgs := request.arguments } := by
  obtain ⟨nonce, feeAmount, value, hnonce, hfee, hvalue, rfl⟩ := envelope_eq_ok.1 h
  unfold PendingCall.ofEnvelope call
  rw [Word.toNatBE_of_ofInt hnonce, Word.toNatBE_of_ofInt hfee, Word.toNatBE_of_ofInt hvalue]

/-- A verified call says what a request asked for, and nothing else. -/
structure CarriedBy (request : SigningRequest) (prepared : PreparedCall) (call : VerifiedCall) :
    Prop where
  nonce : call.nonce = request.nonce
  feeAmount : call.feeAmount = request.feeAmount
  value : call.value = request.value
  feeAddress : call.feeAddress = request.feeAddress
  contractAddress : call.contractAddress = request.contractAddress
  rawArgs : call.rawArgs = request.arguments
  methodName : call.methodName.toList = Definition.bareName request.methodText.toList
  args : call.args = prepared.args

/-- The call that a request becomes once its message is verified. -/
def verified (request : SigningRequest) (prepared : PreparedCall) (sender : Bytes)
    (senderAddress : String) : VerifiedCall where
  toMetaCall := { request.call with
    methodName := prepared.methodName, args := prepared.args, rawArgs := request.arguments }
  sender := sender
  senderAddress := senderAddress

theorem carriedBy_verified [Stack] {request : SigningRequest} {context : SigningContext}
    {prepared : PreparedCall} (h : context.prepare request.call = .ok prepared) (sender : Bytes)
    (senderAddress : String) :
    request.CarriedBy prepared (request.verified prepared sender senderAddress) := by
  obtain ⟨separator, _, hprepare⟩ := SigningContext.prepare_eq_ok.1 h
  exact ⟨rfl, rfl, rfl, rfl, rfl, rfl, MetaCall.methodName_of_prepare hprepare, rfl⟩

variable {context : SigningContext} {request : SigningRequest} {prepared : PreparedCall}

/-- A message decodes to its envelope, prepares to its digest, and recovers to its key. -/
theorem ofMessage_of_sign [Stack] (hsized : context.crypto.hasher.WordSized)
    (hlawful : context.crypto.scheme.Lawful) {separator message : Bytes} {key : Nat}
    {signature : Signature} {envelope : Envelope} {shown : String}
    (hkey : context.crypto.scheme.ValidKey key)
    (hprepare : request.call.prepare context.crypto.hasher context.bound separator
      context.gatewayId = .ok prepared)
    (hsignature : context.crypto.scheme.sign key prepared.digest = some signature)
    (henvelope : request.envelope signature = .ok envelope)
    (hencode : envelope.encode = .ok message)
    (hshown : Address.text (Address.ofPublicKey context.crypto.hasher
      (context.crypto.scheme.publicKey key)) = .ok shown) :
    VerifiedCall.ofMessage context.crypto context.bound separator context.gatewayId message =
      .ok (request.verified prepared (Address.ofPublicKey context.crypto.hasher
        (context.crypto.scheme.publicKey key)) shown) := by
  have hdecode : Envelope.decode message = .ok envelope :=
    Envelope.decode_eq_ok.2 (Envelope.exact_reader.read_eq_ok.2 hencode)
  have hpending := ofEnvelope_eq henvelope
  have hdigest := MetaCall.length_digest_of_prepare hsized hprepare
  have hrecover := hlawful.recover_sign hkey hdigest hsignature
  refine VerifiedCall.ofMessage_eq_ok.2 ⟨envelope, prepared, hdecode, ?_, ?_, hshown, ?_⟩
  · rw [hpending, MetaCall.prepare_rawArgs]
    exact hprepare
  · obtain ⟨_, _, _, _, _, _, rfl⟩ := envelope_eq_ok.1 henvelope
    exact Recovery.signer_of_recover hdigest (hlawful.r_lt hsignature) (hlawful.s_lt hsignature)
      hrecover
  · rw [hpending]
    rfl

/-- What is signed verifies to the call of its request, from the address of its key. -/
theorem exists_verified_of_sign [Stack] (hsized : context.crypto.hasher.WordSized)
    (hlawful : context.crypto.scheme.Lawful) {privateKey : String} {message : Bytes}
    (h : request.sign context privateKey = .ok message) :
    ∃ key prepared shown, PrivateKey.parse context.crypto.scheme privateKey = .ok key ∧
      context.prepare request.call = .ok prepared ∧
      context.verify message = .ok (request.verified prepared (Address.ofPublicKey
        context.crypto.hasher (context.crypto.scheme.publicKey key)) shown) := by
  obtain ⟨prepared, key, signature, envelope, hprepared, hkey, hsignature, henvelope, hencode⟩ :=
    sign_eq_ok.1 h
  obtain ⟨separator, hseparator, hprepare⟩ := SigningContext.prepare_eq_ok.1 hprepared
  have hlength := Address.length_ofPublicKey hsized (context.crypto.scheme.publicKey key)
  have hcall := ofMessage_of_sign hsized hlawful (PrivateKey.validKey_of_parse hkey) hprepare
    hsignature henvelope hencode (if_pos hlength)
  exact ⟨key, prepared, _, hkey, hprepared,
    SigningContext.verify_eq_ok.2 ⟨separator, hseparator, hcall⟩⟩

/-- What a private key signs verifies in the context that it was signed in, to a call that says what
the request asked for, with the key's address as its sender; and it is that address, in letters of
either case, and no other that the message counts as signed by. -/
theorem verify_of_sign [Stack] (context : SigningContext) (hsized : context.crypto.hasher.WordSized)
    (hlawful : context.crypto.scheme.Lawful) (request : SigningRequest) {privateKey : String}
    {message : Bytes} (h : request.sign context privateKey = .ok message) :
    ∃ key prepared separator call,
      PrivateKey.parse context.crypto.scheme privateKey = .ok key ∧
      context.prepare request.call = .ok prepared ∧ context.separator = .ok separator ∧
      VerifiedCall.ofMessage context.crypto context.bound separator context.gatewayId message =
        .ok call ∧
      request.CarriedBy prepared call ∧
      call.sender = Address.ofPublicKey context.crypto.hasher (context.crypto.scheme.publicKey key) ∧
      Address.text call.sender = .ok call.senderAddress ∧
      (context.crypto.hasher = .keccak256 →
        Address.textOfPublicKey (context.crypto.scheme.publicKey key) = .ok call.senderAddress) ∧
      context.isSignedBy message call.senderAddress = .ok true ∧
      ∀ address, context.isSignedBy message address =
        .ok (Address.lower address == '0' :: 'x' :: call.sender.hexChars) := by
  obtain ⟨prepared, key, signature, envelope, hprepared, hkey, hsignature, henvelope, hencode⟩ :=
    sign_eq_ok.1 h
  obtain ⟨separator, hseparator, hprepare⟩ := SigningContext.prepare_eq_ok.1 hprepared
  let publicKey := context.crypto.scheme.publicKey key
  let sender := Address.ofPublicKey context.crypto.hasher publicKey
  have hlength : sender.length = 20 := Address.length_ofPublicKey hsized publicKey
  obtain ⟨shown, hshown⟩ : ∃ shown, Address.text sender = .ok shown := ⟨_, if_pos hlength⟩
  have hcall := ofMessage_of_sign hsized hlawful (PrivateKey.validKey_of_parse hkey) hprepare
    hsignature henvelope hencode hshown
  have hverify := SigningContext.verify_eq_ok.2 ⟨separator, hseparator, hcall⟩
  have hlower := Address.lower_text hshown
  have hsigned (address : String) : context.isSignedBy message address =
      .ok (Address.lower address == '0' :: 'x' :: sender.hexChars) := by
    unfold SigningContext.isSignedBy
    rw [hverify, ← hlower]
    exact congrArg Except.ok Bool.beq_comm
  refine ⟨key, prepared, separator, _, hkey, hprepared, hseparator, hcall,
    carriedBy_verified hprepared _ _, rfl, hshown, ?_, ?_, hsigned⟩
  · intro hkeccak
    have hpoint : publicKey.length = 64 := context.crypto.scheme.length_publicKey key
    have hunmarked : ¬ publicKey.length = 65 := by omega
    show Address.textOfPublicKey publicKey = .ok shown
    unfold Address.textOfPublicKey
    dsimp only
    rw [if_neg hunmarked, if_pos hpoint, ← hkeccak]
    exact hshown
  · refine (hsigned shown).trans ?_
    rw [hlower, beq_self_eq_true]

/-- A payment of two units to a shop, with an amount as its argument. -/
def payment : SigningRequest where
  nonce := 0
  feeAmount := 1
  feeAddress := "fee"
  contractAddress := "shop"
  value := 2
  methodText := "pay(uint256 n)"
  args := some [0xc1, 0x01]

def paymentKey : String := "0x1111111111111111111111111111111111111111111111111111111111111111"

/-- The curve with the signature that `paymentKey` makes for `payment`, where it is hashed by a
polynomial. -/
def paymentScheme : SignatureScheme :=
  .recorded 7719472615821079694904732333912527190217998977709370935963838933860875309329
    (Bytes.ofNatBE 32
      72293588217599865046045222359504258309721575607990052870253129793264940021652)
    { r := 162160907799856412144651492858218043727196006863681278471346802316206340976
      s := 29588841952446380117922051570097691920653468692788211796198939725709095004899
      odd := true }

theorem lawful_paymentScheme : paymentScheme.Lawful :=
  SignatureScheme.lawful_recorded (by decide +kernel) (by decide +kernel) (by decide +kernel)

def paymentContext : SigningContext where
  gatewayId := [0x67]
  crypto := ⟨.polynomial, paymentScheme⟩

/-- The payment is signed, and verifies to a call for two units with nonce zero. -/
theorem verify_of_sign_payment :
    ∃ message, payment.sign paymentContext paymentKey = .ok message ∧
      ∃ call : VerifiedCall, paymentContext.isSignedBy message call.senderAddress = .ok true ∧
        call.value = 2 ∧ call.nonce = 0 := by
  obtain ⟨message, hmessage⟩ : ∃ message, payment.sign paymentContext paymentKey = .ok message :=
    Outcome.exists_of_isOk (by decide +kernel)
  obtain ⟨_, _, _, call, _, _, _, _, hcarried, _, _, _, hsigned, _⟩ :=
    verify_of_sign paymentContext Hasher.wordSized_polynomial lawful_paymentScheme payment hmessage
  exact ⟨message, hmessage, call, hsigned, hcarried.value, hcarried.nonce⟩

end SigningRequest

end SignedRelay
