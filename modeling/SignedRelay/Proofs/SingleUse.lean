import Mathlib.Data.List.Nodup
import SignedRelay.Fleet.Authorization
import SignedRelay.Proofs.DigestBinding
import SignedRelay.Proofs.Replay
import SignedRelay.Proofs.SignVerify

/-!
# An authorization is used once

Envelopes can be rewritten without their signer, so it is not the message that protects a call. The
digest determines the nonce, and a ledger accepts a nonce of a sender once. Main statement: in a run
of gateways that hash alike, no two acceptances at one ledger rest on the same digest and sender.
-/
namespace SignedRelay

/-- The digest of a message that verifies is prepared for the call it carries, whose nonce is that of
the verified call. -/
theorem Gateway.digest?_of_verify [Stack] {gateway : Gateway} {message : Message} {call : VerifiedCall}
    (h : gateway.verify message = .ok call) :
    ∃ carried prepared, message.call? = some carried ∧
      gateway.signingContext.prepare carried = .ok prepared ∧
      gateway.digest? message = some prepared.digest ∧ call.nonce = carried.nonce := by
  obtain ⟨data, separator, hdata, hseparator, hcall⟩ := exists_ofMessage_of_verify h
  obtain ⟨envelope, prepared, hdecode, hprepare, _, _, heq⟩ := VerifiedCall.ofMessage_eq_ok.1 hcall
  have hcarried : message.call? = some (PendingCall.ofEnvelope envelope).toMetaCall := by
    unfold Message.call?
    rw [hdata]
    show ((Envelope.decode data).toOption >>= _) = _
    rw [hdecode]
    rfl
  have hprepared : gateway.signingContext.prepare (PendingCall.ofEnvelope envelope).toMetaCall =
      .ok prepared := SigningContext.prepare_eq_ok.2 ⟨separator, hseparator, hprepare⟩
  refine ⟨_, prepared, hcarried, hprepared, ?_, ?_⟩
  · unfold Gateway.digest?
    rw [hcarried]
    show ((gateway.signingContext.prepare _).toOption >>= _) = _
    rw [hprepared]
    rfl
  · rw [heq]

namespace Step

/-- Every acceptance rests on a digest. -/
theorem authorization?_map_call [Stack] (step : Step) (ledgers : Ledgers) :
    (step.authorization? ledgers).map (·.call) = step.accepted? ledgers := by
  unfold authorization?
  cases haccepted : step.accepted? ledgers with
  | none => rfl
  | some call =>
    obtain ⟨_, prepared, _, _, hdigest, _⟩ :=
      Gateway.digest?_of_verify (verify_of_accepted? haccepted)
    rw [hdigest]
    rfl

theorem authorizationsAt_cons [Stack] (index : Nat) (step : Step) (rest : List Step)
    (ledgers : Ledgers) :
    authorizationsAt index (step :: rest) ledgers =
      (if step.station.ledger = index then (step.authorization? ledgers).toList else []) ++
        authorizationsAt index rest (step.run ledgers).2 := by
  show (if step.station.ledger = index then _ else _) = _
  split <;> rfl

theorem authorizationsAt_map_call [Stack] (index : Nat) (steps : List Step) (ledgers : Ledgers) :
    (authorizationsAt index steps ledgers).map (·.call) = acceptedAt index steps ledgers := by
  induction steps generalizing ledgers with
  | nil => rfl
  | cons step rest ih =>
    rw [authorizationsAt_cons, acceptedAt_cons, List.map_append, ih]
    have hstep : (step.authorization? ledgers).toList.map (·.call) =
        (step.accepted? ledgers).toList := by
      rw [← authorization?_map_call, Option.toList_map]
    split
    · rw [hstep]
    · rfl

/-- An authorization of a run was prepared for the message of one of its steps. -/
theorem exists_prepare_of_mem_authorizationsAt [Stack] {index : Nat} {steps : List Step}
    {ledgers : Ledgers}
    {authorization : Authorization} (h : authorization ∈ authorizationsAt index steps ledgers) :
    ∃ step ∈ steps, ∃ carried prepared, step.operation.message.call? = some carried ∧
      step.station.gateway.signingContext.prepare carried = .ok prepared ∧
      prepared.digest = authorization.digest ∧ carried.nonce = authorization.call.nonce := by
  induction steps generalizing ledgers with
  | nil => cases h
  | cons step rest ih =>
    rw [authorizationsAt_cons] at h
    rcases List.mem_append.1 h with hfirst | hlater
    · split at hfirst
      · have hsome : step.authorization? ledgers = some authorization := Option.mem_toList.1 hfirst
        have haccepted : step.accepted? ledgers = some authorization.call := by
          rw [← authorization?_map_call, hsome]
          rfl
        obtain ⟨carried, prepared, hcarried, hprepared, hdigest, hnonce⟩ :=
          Gateway.digest?_of_verify (verify_of_accepted? haccepted)
        have heq : prepared.digest = authorization.digest := by
          unfold authorization? at hsome
          rw [haccepted, hdigest] at hsome
          exact congrArg Authorization.digest (Option.some.inj hsome)
        exact ⟨step, List.mem_cons_self, carried, prepared, hcarried, hprepared, heq, hnonce.symm⟩
      · cases hfirst
    · obtain ⟨found, hfound, hrest⟩ := ih hlater
      exact ⟨found, List.mem_cons_of_mem _ hfound, hrest⟩

theorem preimages_subset [Stack] {step : Step} {steps : List Step} (hmem : step ∈ steps)
    {carried : MetaCall}
    (h : step.operation.message.call? = some carried) :
    step.station.gateway.signingContext.preimages carried ⊆ steps.flatMap preimages := by
  intro data hdata
  refine List.mem_flatMap.2 ⟨step, hmem, ?_⟩
  unfold preimages
  rw [h]
  simpa using hdata

/-- Whatever ledgers a run starts from, the digest of an acceptance determines its nonce. -/
theorem nonce_eq_of_digest_eq [Stack] {hasher : Hasher} (hsized : hasher.WordSized) {steps : List Step}
    (hhasher : ∀ step ∈ steps, step.station.gateway.crypto.hasher = hasher)
    (hinj : hasher.InjectiveOn (steps.flatMap preimages)) {index : Nat} {ledgers : Ledgers}
    {a b : Authorization} (ha : a ∈ authorizationsAt index steps ledgers)
    (hb : b ∈ authorizationsAt index steps ledgers) (hdigest : a.digest = b.digest) :
    a.call.nonce = b.call.nonce := by
  obtain ⟨step, hstep, carried, prepared, hcarried, hprepared, hdigestA, hnonce⟩ :=
    exists_prepare_of_mem_authorizationsAt ha
  obtain ⟨step', hstep', carried', prepared', hcarried', hprepared', hdigestB, hnonce'⟩ :=
    exists_prepare_of_mem_authorizationsAt hb
  have hfirst : step.station.gateway.signingContext.crypto.hasher = hasher := hhasher step hstep
  have hsecond : step'.station.gateway.signingContext.crypto.hasher = hasher := hhasher step' hstep'
  have hsame : prepared.digest = prepared'.digest := by rw [hdigestA, hdigestB, hdigest]
  obtain ⟨_, _, heq, _⟩ := SigningContext.eq_of_digest (hfirst.trans hsecond.symm)
    (by rw [hfirst]; exact hsized) hprepared hprepared' (by rw [hfirst]; exact hinj)
    (preimages_subset hstep hcarried) (preimages_subset hstep' hcarried') hsame
  rw [← hnonce, ← hnonce', heq]

/-- Gateways that hash alike and share a ledger never act twice on one signed authorization, however
its envelope is rewritten and whichever operation it is handed to. Each accepted call of the run has
its entry, and no two entries agree in digest and sender, as long as the primitive does not collide on
what the run hashes for its digests. -/
theorem authorizations_nodup [Stack] {hasher : Hasher} (hsized : hasher.WordSized) {steps : List Step}
    (hhasher : ∀ step ∈ steps, step.station.gateway.crypto.hasher = hasher)
    (hinj : hasher.InjectiveOn (steps.flatMap preimages)) (index : Nat) (ledgers : Ledgers) :
    (authorizationsAt index steps ledgers).map (·.call) = acceptedAt index steps ledgers ∧
    ((authorizationsAt index steps ledgers).map fun a => (a.digest, a.call.sender)).Nodup := by
  have hcalls := authorizationsAt_map_call index steps ledgers
  refine ⟨hcalls, ?_⟩
  -- One entry for each sender and nonce, since a ledger accepts a nonce of a sender once.
  have hnonces : ((authorizationsAt index steps ledgers).map fun a =>
      (a.call.sender, a.call.nonce)).Nodup := by
    have hnodup := VerifiedCall.nodup_sender_nonce fun sender =>
      nodup_noncesOf_acceptedAt steps ledgers index sender
    rwa [← hcalls, List.map_map] at hnodup
  refine List.Nodup.map_on ?_ (List.Nodup.of_map _ hnonces)
  intro a ha b hb heq
  obtain ⟨hdigest, hsender⟩ := Prod.mk.inj heq
  have hnonce := nonce_eq_of_digest_eq hsized hhasher hinj ha hb hdigest
  exact List.inj_on_of_nodup_map hnonces ha hb (Prod.ext hsender hnonce)

/-- The payment as its signer sends it. -/
def paymentMessage : Bytes :=
  (SigningRequest.payment.sign SigningRequest.paymentContext
    SigningRequest.paymentKey).toOption.getD []

/-- The same payment as anyone can rewrite it: with the other value of `s`, and with the other
recovery id, which is not raised by twenty-seven. -/
def twinMessage : Bytes :=
  let twin := (Envelope.decode paymentMessage).toOption.bind fun envelope =>
    let s := Bytes.toNatBE (envelope.signature.drop 32)
    let signature := envelope.signature.take 32 ++ Bytes.ofNatBE 32 (Secp256k1.n - s)
    Envelope.encode { envelope with signature, v := 28 - envelope.v } |>.toOption
  twin.getD []

def paymentGateway (proxyGas : Int) : Gateway where
  config := { accountId := "g", proxyGas }
  crypto := SigningRequest.paymentContext.crypto

/-- The payment is handed to two gateways that share a ledger, in its two forms. -/
def twinRun : List Step :=
  [{ station := ⟨paymentGateway 1, 0⟩, operation := .receive (.raw paymentMessage) },
    { station := ⟨paymentGateway 2, 0⟩
      operation := .forward (.text (Base64.encode twinMessage)) none }]

/-- Each form would be accepted by itself, and one of them is accepted in the run. -/
theorem authorizations_nodup_twinRun :
    (twinRun.map fun step => (step.run .fresh).1.isOk) = [true, true] ∧
    (authorizationsAt 0 twinRun .fresh).map (·.call) = acceptedAt 0 twinRun .fresh ∧
    ((authorizationsAt 0 twinRun .fresh).map fun a => (a.digest, a.call.sender)).Nodup := by
  have hhasher : ∀ step ∈ twinRun, step.station.gateway.crypto.hasher = .polynomial := by
    intro step hstep
    rcases List.mem_pair.1 hstep with rfl | rfl
    · rfl
    · rfl
  have hinj : Hasher.polynomial.InjectiveOn (twinRun.flatMap preimages) := by decide +kernel
  have halone : (twinRun.map fun step => (step.run .fresh).1.isOk) = [true, true] := by
    decide +kernel
  exact ⟨halone, authorizations_nodup Hasher.wordSized_polynomial hhasher hinj 0 .fresh⟩

end Step

end SignedRelay
