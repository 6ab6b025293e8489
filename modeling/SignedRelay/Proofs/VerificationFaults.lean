import SignedRelay.Proofs.LongNumerals

/-!
# How verification ends

What is decoded from a message fits the words and the address that it is put into, so no stage in front
of the method text or behind its arguments faults. Main statement: a message gives a call, or is refused
for something else than the range of a number, or faults for a numeral in its method text that is too long
to be read, unless the stack is too small for values within the bound on nesting.
-/
namespace SignedRelay

open Outcome

/-- The cause is a numeral in the method text that a message carries. -/
def Fault.IsNumeralIn (message : Bytes) (cause : Fault) : Prop :=
  ∃ envelope, Envelope.decode message = .ok envelope ∧ cause.IsNumeralOf envelope.method.toList

theorem Recovery.length_of_signer {crypto : Crypto} (hsized : crypto.hasher.WordSized)
    {digest signature sender : Bytes} (h : signer crypto digest signature = .ok sender) :
    sender.length = 20 := by
  unfold signer at h
  dsimp only at h
  split at h
  · cases h
  split at h
  · cases h
  split at h
  · cases h
  split at h
  · cases h
  · cases h
    exact Address.length_ofPublicKey hsized _

/-- Verification fails only in the ways of its stages up to the recovery of the sender. That one has the
length of an address, so that it has a text. -/
theorem VerifiedCall.failsOnly_ofMessage [Stack] {crypto : Crypto} (hsized : crypto.hasher.WordSized)
    {bound : Int} {separator gatewayId message : Bytes} {P : Error → Prop}
    (hdecode : FailsOnly (fun cause => P (.encoding cause)) (Envelope.decode message))
    (hprepare : ∀ envelope, Envelope.decode message = .ok envelope →
      FailsOnly P ((PendingCall.ofEnvelope envelope).prepare crypto.hasher bound separator gatewayId))
    (hsigner : ∀ digest signature : Bytes, digest.length = 32 →
      FailsOnly (fun cause => P (.signature cause)) (Recovery.signer crypto digest signature)) :
    FailsOnly P (ofMessage crypto bound separator gatewayId message) := by
  unfold ofMessage
  refine FailsOnly.bind (FailsOnly.mapError hdecode) fun envelope hmapped => ?_
  refine FailsOnly.bind (hprepare envelope (mapError_eq_ok.1 hmapped)) fun prepared hprepared => ?_
  have hdigest := MetaCall.length_digest_of_prepare hsized hprepared
  refine FailsOnly.bind (FailsOnly.mapError (hsigner _ _ hdigest)) fun sender hmapped => ?_
  have hlength := Recovery.length_of_signer hsized (mapError_eq_ok.1 hmapped)
  -- The sender of a call from an envelope is not known yet, so that it can be set.
  refine FailsOnly.bind (failsOnly_ok _) fun call _ => ?_
  refine FailsOnly.bind ?_ fun senderAddress _ => failsOnly_pure _
  unfold Address.text
  rw [if_pos hlength]
  exact failsOnly_ok _

/-- What a message can fault for: a numeral in its method text, or the nesting of its arguments. -/
def Fault.IsOfMessage [Stack] (bound : Int) (message : Bytes) (cause : Fault) : Prop :=
  cause.IsNumeralIn message ∨ cause.IsExhaustion bound

theorem VerifiedCall.faults_ofMessage [Stack] {crypto : Crypto} (hsized : crypto.hasher.WordSized)
    (bound : Int) (separator gatewayId message : Bytes) :
    FailsOnly (Error.Faults (Fault.IsOfMessage bound message))
      (ofMessage crypto bound separator gatewayId message) := by
  refine failsOnly_ofMessage hsized (fun _ => Envelope.notOfRange_of_decode) ?_
    fun _ _ _ _ _ => trivial
  intro envelope henvelope
  have hheader := PendingCall.exists_headerWords (Envelope.wellFormed_of_decode henvelope)
    crypto.hasher gatewayId
  exact FailsOnly.mono (MetaCall.faults_prepare hheader) fun _ herror =>
    herror.mono fun _ hcause => hcause.imp_left fun hnumeral => ⟨envelope, henvelope, hnumeral⟩

end SignedRelay
