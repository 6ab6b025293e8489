import SignedRelay.Proofs.Actions
import SignedRelay.Proofs.VerificationFaults

/-!
# Which faults reach a caller

A gateway puts what it has verified into layouts that it fits, except for an amount or for gas out of
range, which it reports. Main statement: a gateway step, and the check of an expected signer, fault only
for a numeral in the method text of the message that is too long to be read, or for gas to be
forwarded that is too long to be written.
-/
namespace SignedRelay

open Outcome

variable {P : Fault → Prop}

namespace SigningContext

variable [Stack] {context : SigningContext}

theorem faults_verify (h : context.Fits) (message : Bytes) :
    FailsOnly (Error.Faults (Fault.IsOfMessage context.bound message)) (context.verify message) := by
  obtain ⟨separator, hseparator⟩ := h.exists_separator
  unfold verify
  rw [hseparator]
  exact VerifiedCall.faults_ofMessage h.wordSized _ separator _ message

/-- The check of an expected signer answers, except for a numeral that is too long to be read, or for a
bound that the stack does not hold. -/
theorem faults_isSignedBy (h : context.Fits) (message : Bytes) (address : String) :
    FailsOnly (Fault.IsOfMessage context.bound message) (context.isSignedBy message address) := by
  unfold isSignedBy
  split
  · exact failsOnly_ok _
  · exact failsOnly_ok _
  · next cause hverify => exact failsOnly_error (faults_verify h message _ hverify)

end SigningContext

/-- A failure is reported by its own kind of error, or is a fault of a kind. -/
def GatewayError.Faults (P : Fault → Prop) : GatewayError → Prop
  | .fault cause => P cause
  | _ => True

theorem GatewayError.Faults.mono {P Q : Fault → Prop} {error : GatewayError} (h : error.Faults P)
    (himp : ∀ cause, P cause → Q cause) : error.Faults Q := by
  cases error with
  | fault cause => exact himp cause h
  | _ => trivial

theorem GatewayError.faults_ofError {error : Error} (h : error.Faults P) :
    (GatewayError.ofError error).Faults P := by
  cases error with
  | refused refusal => trivial
  | fault cause => exact h

/-- The cause is a numeral in the method text that the bytes of a message carry. -/
def Message.Causes (message : Message) (cause : Fault) : Prop :=
  ∃ data, message.bytes? = some data ∧ cause.IsNumeralIn data

/-- The cause is the gas that a gateway is asked to forward, which is too long to be written. -/
def Gateway.ForwardsUnwritable (gateway : Gateway) (operation : Operation) (cause : Fault) : Prop :=
  ∃ message gas, operation = .forward message gas ∧
    Unwritable (gas.getD gateway.config.proxyGas) ∧
    cause = .unwritable (gas.getD gateway.config.proxyGas)

/-- What the operation of a gateway can fault for. -/
def Gateway.Causes (gateway : Gateway) (operation : Operation) (cause : Fault) : Prop :=
  operation.message.Causes cause ∨ gateway.ForwardsUnwritable operation cause

namespace Gateway

variable {gateway : Gateway} {message : Message} {call : VerifiedCall}

theorem faults_verify [Stack] (h : gateway.signingContext.Fits) (message : Message) :
    FailsOnly (GatewayError.Faults message.Causes) (gateway.verify message) := by
  unfold verify
  split
  · exact failsOnly_error trivial
  · next data hdata =>
    refine FailsOnly.mapError fun error herror => GatewayError.faults_ofError ?_
    refine (SigningContext.faults_verify h data error herror).mono ?_
    rintro cause (hnumeral | ⟨_, hsmall⟩)
    · exact ⟨data, hdata, hnumeral⟩
    · exact absurd Stack.holds_default hsmall

theorem faults_transferAction [Stack] (h : gateway.verify message = .ok call) :
    FailsOnly (GatewayError.Faults P) (gateway.transferAction call) := by
  refine FailsOnly.mono (failsOnly_transferAction (bounded_of_verify h)) ?_
  rintro error ⟨_, rfl⟩
  trivial

theorem faults_callAction [Stack] (h : gateway.verify message = .ok call) {gas : Option Int}
    (hgas : Unwritable (gas.getD gateway.config.proxyGas) →
      P (.unwritable (gas.getD gateway.config.proxyGas))) :
    FailsOnly (GatewayError.Faults P) (gateway.callAction call gas) := by
  refine FailsOnly.mono (failsOnly_callAction (bounded_of_verify h)) ?_
  rintro error (⟨_, rfl⟩ | ⟨_, ⟨_, rfl⟩ | ⟨hlong, rfl⟩⟩)
  · trivial
  · trivial
  · exact hgas hlong

theorem faults_answer [Stack] {operation : Operation}
    (h : gateway.verify operation.message = .ok call) :
    FailsOnly (GatewayError.Faults (gateway.ForwardsUnwritable operation))
      (gateway.answer operation call) := by
  cases operation with
  | verify message => exact failsOnly_ok _
  | receive message => exact failsOnly_ok _
  | create message deposit => exact failsOnly_ok _
  | proxy message => exact (faults_transferAction h).map _
  | forward message gas =>
    exact (faults_callAction h fun hgas => ⟨message, gas, rfl, hgas, rfl⟩).map _

theorem faults_admission {α : Type} {outcome : Except GatewayError α}
    (h : FailsOnly (GatewayError.Faults P) outcome) (ledger : NonceLedger) :
    FailsOnly (GatewayError.Faults P) (admission call outcome ledger).1 := by
  cases houtcome : outcome with
  | error error => exact failsOnly_error (h error houtcome)
  | ok answer =>
    by_cases hnonce : call.nonce = ledger.get call.sender
    · rw [admission_of_eq hnonce]
      exact failsOnly_ok _
    · rw [admission_of_ne hnonce]
      exact failsOnly_error trivial

theorem faults_perform [Stack] (h : gateway.signingContext.Fits) (operation : Operation)
    (ledger : NonceLedger) : FailsOnly (GatewayError.Faults (gateway.Causes operation))
      ((gateway.perform operation).run ledger).1 := by
  cases hverify : gateway.verify operation.message with
  | error error =>
    have hfaults := faults_verify h operation.message error hverify
    rw [run_perform_of_error hverify]
    exact failsOnly_error (hfaults.mono fun _ => Or.inl)
  | ok call =>
    have hanswer : FailsOnly (GatewayError.Faults (gateway.Causes operation))
        (gateway.answer operation call) :=
      FailsOnly.mono (faults_answer hverify) fun _ herror => herror.mono fun _ => Or.inr
    rw [run_perform_of_ok hverify]
    unfold settle
    split
    · exact faults_admission hanswer ledger
    · exact hanswer

end Gateway

theorem SigningContext.fits_default (gatewayId : Bytes) : Fits { gatewayId } where
  wordSized := Hasher.wordSized_keccak256
  chainId_nonneg := (by decide : (0 : Int) ≤ 1)
  chainId_lt := (by decide : (1 : Int) < Bytes.capacity 32)

theorem Gateway.fits_default : ({} : Gateway).signingContext.Fits :=
  SigningContext.fits_default _

/-- Every operation of a gateway stops at a size of too many digits. -/
theorem Step.run_of_sizedMethod [Stack] {message : Bytes} {count : Nat} (hcount : numeralLimit < count)
    (hmessage : Envelope.decode message = .ok (.blank (sizedMethod count) []))
    {operation : Operation} (hoperation : operation.message = .raw message) (ledgers : Ledgers) :
    ((Step.mk ⟨{}, 0⟩ operation).run ledgers).1 = .error (.fault (.numeralLength count)) := by
  have hdata := verify_of_sizedMethod Gateway.fits_default hcount hmessage
  have hverify : ({} : Gateway).verify operation.message =
      .error (.fault (.numeralLength count)) := by
    unfold Gateway.verify
    rw [hoperation]
    show (SigningContext.verify _ message).mapError _ = _
    rw [hdata]
    rfl
  exact congrArg Prod.fst (Gateway.run_perform_of_error hverify (ledgers 0))

/-- Gateways that hash to words and whose chain fits one, and checks of an expected signer under such
a context, fail on a message in no other way than the documented ones, except for a numeral of more
than 4300 digits in the method text of its envelope, and for gas of more than 4300 digits that is to
be forwarded. A check under another bound than the usual one can also exhaust the stack, if that does not
hold the bound. -/
theorem Step.fault_of_overlong [Stack] (step : Step) (ledgers : Ledgers) (context : SigningContext)
    (message : Bytes) (address : String) (hgateway : step.station.gateway.signingContext.Fits)
    (hcontext : context.Fits) :
    (∀ cause, (step.run ledgers).1 = .error (.fault cause) →
      (∃ data, step.operation.message.bytes? = some data ∧ cause.IsNumeralIn data) ∨
      ∃ source gas, step.operation = .forward source gas ∧
        Unwritable (gas.getD step.station.gateway.config.proxyGas) ∧
        cause = .unwritable (gas.getD step.station.gateway.config.proxyGas)) ∧
    (∀ cause, context.isSignedBy message address = .error cause → cause.IsNumeralIn message ∨
      cause = .stackExhausted ∧ ¬Stack.Holds context.bound) := by
  constructor
  · intro cause h
    have hfaults := Gateway.faults_perform hgateway step.operation (ledgers step.station.ledger)
    exact hfaults (.fault cause) h
  · exact SigningContext.faults_isSignedBy hcontext message address

/-- Verification of a message with a size of 4301 digits fails by such a numeral. -/
theorem Step.fault_of_overlong_sizedMethod :
    ∃ message, Envelope.decode message = .ok (.blank (sizedMethod 4301) []) ∧
      ((Step.mk ⟨{}, 0⟩ (.verify (.raw message))).run .fresh).1 =
        .error (.fault (.numeralLength 4301)) ∧
      ∃ data, Message.bytes? (.raw message) = some data ∧
        (Fault.numeralLength 4301).IsNumeralIn data := by
  obtain ⟨message, hmessage⟩ := exists_sizedMessage
  have hrun := run_of_sizedMethod (Nat.lt_succ_self 4300) hmessage
    (rfl : (Operation.verify (.raw message)).message = .raw message) .fresh
  have hfault := fault_of_overlong (Step.mk ⟨{}, 0⟩ (.verify (.raw message))) .fresh {} message ""
    Gateway.fits_default (SigningContext.fits_default [])
  obtain hnumeral | ⟨_, _, hforward, _⟩ := hfault.1 _ hrun
  · exact ⟨message, hmessage, hrun, hnumeral⟩
  · cases hforward

/-- A message with a size of 4301 digits stops every operation of a gateway with a fault, and so does
the check of any expected signer. -/
theorem Step.fault_of_sizedMethod :
    ∃ message, Envelope.decode message = .ok (.blank (sizedMethod 4301) []) ∧
      (∀ operation : Operation, operation.message = .raw message → ∀ ledgers,
        ((Step.mk ⟨{}, 0⟩ operation).run ledgers).1 = .error (.fault (.numeralLength 4301))) ∧
      ∀ address, ({} : SigningContext).isSignedBy message address =
        .error (.numeralLength 4301) := by
  obtain ⟨message, hmessage⟩ := exists_sizedMessage
  have hlong : numeralLimit < 4301 := Nat.lt_succ_self 4300
  refine ⟨message, hmessage, ?_, ?_⟩
  · intro operation hoperation ledgers
    exact run_of_sizedMethod hlong hmessage hoperation ledgers
  · intro address
    have hdata := verify_of_sizedMethod (SigningContext.fits_default []) hlong hmessage
    unfold SigningContext.isSignedBy
    rw [hdata]

end SignedRelay
