import SignedRelay.Fleet.Answers
import SignedRelay.Proofs.EnvelopeCodec
import SignedRelay.Proofs.Preparation
import SignedRelay.Proofs.ProxyCodec
import SignedRelay.Proofs.SenderIndependence

/-!
# What actions say

Whatever stood in an envelope has room in the input of a proxy account: its texts and its payload stood
behind lengths already, and its method was a longer text. So nothing but an amount or gas out of range
stops an action. Main statements: an action says what was verified, it is built exactly if amount and
gas are in range, and the one failure that is not reported as such is that of gas too long to be
written.
-/
namespace SignedRelay

open Outcome

theorem decimalCapacity_mono {m n : Nat} (h : m ≤ n) : decimalCapacity m ≤ decimalCapacity n := by
  induction h with
  | refl => exact Nat.le_refl _
  | @step n _ ih =>
    rw [decimalCapacity_succ]
    omega

/-- Seventy-eight digits are enough for the number of a word. -/
theorem capacity_le_decimalCapacity : Bytes.capacity 32 ≤ decimalCapacity numeralLimit := by
  have hword : Bytes.capacity 32 ≤ decimalCapacity 78 := by decide +kernel
  exact Nat.le_trans hword (decimalCapacity_mono (by decide))

theorem unwritable_natCast {n : Nat} (h : decimalCapacity numeralLimit ≤ n) : Unwritable n := by
  unfold Unwritable
  rwa [Int.natAbs_natCast]

namespace Proxy

theorem ofNumber_eq_error {size : Nat} {error : Int → ProxyError} {value : Int}
    {found : GatewayError} : ofNumber size error value = .error found ↔
      (value < 0 ∨ Bytes.capacity size ≤ value) ∧ outOfRange value (error value) = found := by
  unfold ofNumber
  by_cases h : value < 0 ∨ Bytes.capacity size ≤ value
  · simp [h]
  · simp [h]

theorem failsOnly_ofGas (gas : Int) : FailsOnly (GasFailure gas) (ofGas gas) := by
  intro error h
  obtain ⟨hrange, rfl⟩ := ofNumber_eq_error.1 h
  refine ⟨hrange, ?_⟩
  unfold outOfRange
  by_cases hlong : Unwritable gas
  · exact Or.inr ⟨hlong, if_pos hlong⟩
  · exact Or.inl ⟨hlong, if_neg hlong⟩

/-- Gas that is too long to be written is out of range by far. -/
theorem ofGas_of_unwritable {gas : Int} (h : Unwritable gas) :
    ofGas gas = .error (.fault (.unwritable gas)) := by
  have hlong : Bytes.capacity 32 ≤ gas.natAbs := Nat.le_trans capacity_le_decimalCapacity h
  have hgas : Bytes.capacity 8 ≤ Bytes.capacity 32 := Bytes.capacity_le (by decide)
  exact ofNumber_eq_error.2 ⟨by omega, if_pos h⟩

end Proxy

/-- A bare name is no longer than its method text. -/
theorem Definition.length_utf8_bareName (text : String) :
    (Bytes.utf8 (String.ofList (bareName text.toList))).length ≤ (Bytes.utf8 text).length := by
  have hsplit : text = String.ofList (bareName text.toList) ++
      String.ofList (text.toList.dropWhile (· != '(')) := by
    rw [← String.toList_inj]
    unfold bareName
    rw [String.toList_append, String.toList_ofList, String.toList_ofList,
      List.takeWhile_append_dropWhile]
  have hlength := congrArg (fun text => (Bytes.utf8 text).length) hsplit
  simp only [Bytes.utf8_append, List.length_append] at hlength
  omega

/-- The amount of a call is that of a word, and its texts and its payload have room behind a length. -/
structure VerifiedCall.Bounded (call : VerifiedCall) : Prop where
  value_nonneg : 0 ≤ call.value
  value_lt : call.value < Bytes.capacity 32
  contractAddress : (Bytes.utf8 call.contractAddress).length < Bytes.capacity 4
  methodName : (Bytes.utf8 call.methodName).length < Bytes.capacity 4
  rawArgs : call.rawArgs.length < Bytes.capacity 4

namespace VerifiedCall

variable {call : VerifiedCall}

theorem bounded_of_ofMessage [Stack] {crypto : Crypto} {bound : Int}
    {separator gatewayId message : Bytes}
    (h : ofMessage crypto bound separator gatewayId message = .ok call) : call.Bounded := by
  obtain ⟨envelope, prepared, henvelope, hprepare, _, _, hfields⟩ := ofMessage_eq_ok.1 h
  have hformed := Envelope.wellFormed_of_decode henvelope
  have hname : prepared.methodName =
      String.ofList (Definition.bareName envelope.method.toList) := by
    rw [← String.toList_inj, String.toList_ofList]
    exact MetaCall.methodName_of_prepare hprepare
  have hvalue := Bytes.toNatBE_lt envelope.value
  rw [hformed.value] at hvalue
  -- The name is no field of the envelope, but the front of one.
  have hmethod := Nat.lt_of_le_of_lt (Definition.length_utf8_bareName envelope.method) hformed.method
  rw [← hname] at hmethod
  constructor
  · rw [hfields]
    exact Int.natCast_nonneg _
  · rw [hfields]
    exact Int.ofNat_lt.2 hvalue
  · rw [hfields]
    exact hformed.contractAddress
  · rw [hfields]
    exact hmethod
  · rw [hfields]
    exact hformed.args

theorem Bounded.not_unwritable (h : call.Bounded) : ¬Unwritable call.value := by
  intro hlong
  have hword : Bytes.capacity 32 ≤ call.value.natAbs :=
    Nat.le_trans capacity_le_decimalCapacity hlong
  have hlt := h.value_lt
  have hnonneg := h.value_nonneg
  omega

theorem Bounded.failsOnly_ofAmount (h : call.Bounded) :
    FailsOnly call.AmountFailure (Proxy.ofAmount call.value) := by
  intro error herror
  obtain ⟨hrange, rfl⟩ := Proxy.ofNumber_eq_error.1 herror
  have hnonneg := h.value_nonneg
  exact ⟨by omega, if_neg h.not_unwritable⟩

end VerifiedCall

namespace Gateway

variable {gateway : Gateway} {message : Message} {call : VerifiedCall} {action : FunctionCall}

theorem bounded_of_verify [Stack] (h : gateway.verify message = .ok call) : call.Bounded := by
  obtain ⟨_, _, _, _, hcall⟩ := exists_ofMessage_of_verify h
  exact VerifiedCall.bounded_of_ofMessage hcall

section Transfer

theorem isTransfer_of_transferAction (h : gateway.transferAction call = .ok action) :
    gateway.IsTransfer call action := by
  unfold transferAction at h
  obtain ⟨args, hargs, h⟩ := bind_eq_ok.1 h
  cases pure_eq_ok.1 h
  exact ⟨rfl, rfl, Proxy.Transfer.decode_iff_encode.2 hargs, rfl, rfl⟩

/-- A transfer is stopped by its amount only. -/
theorem failsOnly_transferAction (h : call.Bounded) :
    FailsOnly call.AmountFailure (gateway.transferAction call) := by
  unfold transferAction Proxy.Transfer.encode
  exact FailsOnly.bind (FailsOnly.bind h.failsOnly_ofAmount fun _ _ => failsOnly_pure _) fun _ _ =>
    failsOnly_pure _

theorem exists_transferAction_iff (h : call.Bounded) :
    (∃ action, gateway.transferAction call = .ok action) ↔ call.value < Bytes.capacity 16 := by
  constructor
  · rintro ⟨action, haction⟩
    have hencode := Proxy.Transfer.decode_iff_encode.1 (isTransfer_of_transferAction haction).args
    exact (Proxy.Transfer.encode_eq_ok.1 hencode).1.2
  · intro hvalue
    have hencode : Proxy.Transfer.encode
        { amount := call.value, receiverId := call.contractAddress } = .ok _ :=
      Proxy.Transfer.encode_eq_ok.2 ⟨⟨h.value_nonneg, hvalue⟩, rfl⟩
    exact ⟨_, bind_eq_ok.2 ⟨_, hencode, rfl⟩⟩

end Transfer

section Call

variable {gas : Option Int}

theorem isCall_of_callAction (h : gateway.callAction call gas = .ok action) :
    gateway.IsCall call (gateway.forwardedGas gas) action := by
  unfold callAction at h
  obtain ⟨args, hargs, h⟩ := bind_eq_ok.1 h
  cases pure_eq_ok.1 h
  exact ⟨rfl, rfl, Proxy.Call.decode_iff_encode.2 hargs, rfl, rfl⟩

/-- A call is stopped by its amount or the gas only. -/
theorem failsOnly_callAction (h : call.Bounded) :
    FailsOnly (fun error => call.AmountFailure error ∨
      Proxy.GasFailure (gateway.forwardedGas gas) error) (gateway.callAction call gas) := by
  have hreceiver := Wire.ofVector_eq_ok.2 ⟨h.contractAddress, rfl⟩
  have hmethod := Wire.ofVector_eq_ok.2 ⟨h.methodName, rfl⟩
  have hargs := Wire.ofVector_eq_ok.2 ⟨h.rawArgs, rfl⟩
  unfold callAction Proxy.Call.encode Wire.ofText
  dsimp only
  rw [hreceiver, hmethod, hargs]
  refine FailsOnly.bind ?_ fun args _ => failsOnly_pure _
  refine FailsOnly.bind ((Proxy.failsOnly_ofGas _).mono fun _ => Or.inr) fun gas _ => ?_
  refine FailsOnly.bind (h.failsOnly_ofAmount.mono fun _ => Or.inl) fun amount _ => ?_
  exact failsOnly_ok _

theorem exists_callAction_iff (h : call.Bounded) :
    (∃ action, gateway.callAction call gas = .ok action) ↔ call.value < Bytes.capacity 16 ∧
      0 ≤ gateway.forwardedGas gas ∧ gateway.forwardedGas gas < Bytes.capacity 8 := by
  constructor
  · rintro ⟨action, haction⟩
    have hencode := Proxy.Call.decode_iff_encode.1 (isCall_of_callAction haction).args
    obtain ⟨⟨hgas, _, hvalue⟩, _⟩ := Proxy.Call.encode_eq_ok.1 hencode
    exact ⟨hvalue, hgas⟩
  · rintro ⟨hvalue, hgas⟩
    have hencode : Proxy.Call.encode {
        gas := gateway.forwardedGas gas
        amount := call.value
        receiverId := call.contractAddress
        methodName := call.methodName
        args := call.rawArgs } = .ok _ :=
      Proxy.Call.encode_eq_ok.2 ⟨⟨hgas, h.value_nonneg, hvalue⟩, _, _, _,
        Wire.ofVector_eq_ok.2 ⟨h.contractAddress, rfl⟩,
        Wire.ofVector_eq_ok.2 ⟨h.methodName, rfl⟩, Wire.ofVector_eq_ok.2 ⟨h.rawArgs, rfl⟩, rfl⟩
    exact ⟨_, bind_eq_ok.2 ⟨_, hencode, rfl⟩⟩

/-- The gas is looked at before anything else of a call. -/
theorem callAction_of_ofGas_error (call : VerifiedCall) {error : GatewayError}
    (h : Proxy.ofGas (gateway.forwardedGas gas) = .error error) :
    gateway.callAction call gas = .error error := by
  unfold callAction Proxy.Call.encode
  dsimp only
  unfold forwardedGas at h
  rw [h]
  rfl

/-- Gas that is too long to be written stops every call. -/
theorem callAction_of_unwritable (call : VerifiedCall)
    (h : Unwritable (gateway.forwardedGas gas)) :
    gateway.callAction call gas = .error (.fault (.unwritable (gateway.forwardedGas gas))) :=
  callAction_of_ofGas_error call (Proxy.ofGas_of_unwritable h)

end Call

section Answer

variable {operation : Operation} {answer : Answer}

theorem answers_of_answer (h : gateway.answer operation call = .ok answer) :
    gateway.Answers call operation answer := by
  cases operation with
  | verify message | receive message | create message deposit =>
    cases h
    constructor
  | proxy message =>
    obtain ⟨action, haction, rfl⟩ := map_eq_ok.1 h
    exact .proxy (isTransfer_of_transferAction haction)
  | forward message gas =>
    obtain ⟨action, haction, rfl⟩ := map_eq_ok.1 h
    exact .forward (isCall_of_callAction haction)

/-- An answer can be worked out exactly if amount and gas have room. -/
theorem exists_answer_iff (h : call.Bounded) :
    (∃ answer, gateway.answer operation call = .ok answer) ↔
      gateway.Forwardable call.value operation := by
  cases operation with
  | verify message | receive message | create message deposit => exact iff_of_true ⟨_, rfl⟩ trivial
  | proxy message => exact exists_map_eq_ok.trans (exists_transferAction_iff h)
  | forward message gas => exact exists_map_eq_ok.trans (exists_callAction_iff h)

end Answer

/-- A call that cannot be built is not forwarded, and leaves the ledger. -/
theorem run_forward_of_error [Stack] {gas : Option Int} {error : GatewayError}
    (hverify : gateway.verify message = .ok call)
    (haction : gateway.callAction call gas = .error error) (ledger : NonceLedger) :
    (gateway.forward message gas).run ledger = (.error error, ledger) := by
  rw [run_forward hverify, haction]
  rfl

theorem run_forward_of_unwritable [Stack] {gas : Int} (hverify : gateway.verify message = .ok call)
    (hgas : Unwritable gas) (ledger : NonceLedger) :
    (gateway.forward message (some gas)).run ledger = (.error (.fault (.unwritable gas)), ledger) := by
  have haction : gateway.callAction call (some gas) = .error (.fault (.unwritable gas)) :=
    callAction_of_unwritable call hgas
  exact run_forward_of_error hverify haction ledger

variable {ledger : NonceLedger}

/-- What fails with its message's verification, and else runs an outcome through admission, succeeds
with the outcome for a verified call only. -/
theorem exists_verify_of_run [Stack] {α : Type} {run : Ledgered α}
    {outcome : VerifiedCall → Except GatewayError α}
    (herror : ∀ error, gateway.verify message = .error error → run.run ledger = (.error error, ledger))
    (hok : ∀ call, gateway.verify message = .ok call →
      run.run ledger = admission call (outcome call) ledger)
    {result : α} (h : (run.run ledger).1 = .ok result) :
    ∃ call, gateway.verify message = .ok call ∧ outcome call = .ok result := by
  cases hverify : gateway.verify message with
  | error error =>
    rw [herror error hverify] at h
    cases h
  | ok call =>
    rw [hok call hverify] at h
    exact ⟨call, rfl, eq_ok_of_admission h⟩

theorem transferAction_of_proxy [Stack] (h : ((gateway.proxy message).run ledger).1 = .ok action) :
    ∃ call, gateway.verify message = .ok call ∧ gateway.transferAction call = .ok action :=
  exists_verify_of_run (fun _ hverify => run_bind_error (run_lift hverify ledger))
    (fun _ hverify => run_proxy hverify ledger) h

theorem callAction_of_forward [Stack] {gas : Option Int}
    (h : ((gateway.forward message gas).run ledger).1 = .ok action) :
    ∃ call, gateway.verify message = .ok call ∧ gateway.callAction call gas = .ok action :=
  exists_verify_of_run (fun _ hverify => run_bind_error (run_lift hverify ledger))
    (fun _ hverify => run_forward hverify ledger) h

/-- Whatever a gateway forwards, or has transferred, says what its message verifies to. For a message
that verifies, nothing but an amount or gas out of range stops the action, and each is reported as
such, except that gas too long to be written stops it by a fault. -/
theorem actions_say_what_is_verified [Stack] (gateway : Gateway) (message : Message)
    (ledger : NonceLedger) :
    (∀ gas action, ((gateway.forward message gas).run ledger).1 = .ok action →
      ∃ call, gateway.verify message = .ok call ∧
        gateway.IsCall call (gateway.forwardedGas gas) action) ∧
    (∀ action, ((gateway.proxy message).run ledger).1 = .ok action →
      ∃ call, gateway.verify message = .ok call ∧ gateway.IsTransfer call action) ∧
    ∀ call, gateway.verify message = .ok call →
      (∀ error, gateway.transferAction call = .error error → call.AmountFailure error) ∧
      ∀ gas error, gateway.callAction call gas = .error error →
        call.AmountFailure error ∨ Proxy.GasFailure (gateway.forwardedGas gas) error := by
  refine ⟨?_, ?_, ?_⟩
  · intro gas action h
    obtain ⟨call, hverify, haction⟩ := callAction_of_forward h
    exact ⟨call, hverify, isCall_of_callAction haction⟩
  · intro action h
    obtain ⟨call, hverify, haction⟩ := transferAction_of_proxy h
    exact ⟨call, hverify, isTransfer_of_transferAction haction⟩
  · intro call hverify
    have hbounded := bounded_of_verify hverify
    exact ⟨failsOnly_transferAction hbounded, fun gas => failsOnly_callAction hbounded⟩

/-- A call with seven units of gas is forwarded for a message that verifies, and its action is read as
the call of the contract that the message names. -/
theorem actions_say_what_is_verified_stray :
    let gateway := (Step.strayStep "a" .receive).station.gateway
    let message := Message.raw (Step.strayMessage "a")
    ∃ action call, ((gateway.forward message (some 7)).run .empty).1 = .ok action ∧
      gateway.verify message = .ok call ∧ gateway.IsCall call 7 action ∧
      call.contractAddress = "a" := by
  intro gateway message
  obtain ⟨action, haction⟩ := exists_of_isOk (x := ((gateway.forward message (some 7)).run .empty).1)
    (by decide +kernel)
  obtain ⟨hforward, _, _⟩ := actions_say_what_is_verified gateway message .empty
  obtain ⟨call, hverify, hcall⟩ := hforward (some 7) action haction
  have hcontract : (gateway.verify message).toOption.map (·.contractAddress) = some "a" := by
    decide +kernel
  rw [hverify] at hcontract
  exact ⟨action, call, haction, hverify, hcall, Option.some.inj hcontract⟩

/-- The same message with gas of a digit more than can be written: the gas is too much for the proxy
account, but it is a fault that stops the action, and not the error for gas out of range. -/
theorem forward_fault_stray :
    let gateway := (Step.strayStep "a" .receive).station.gateway
    let message := Message.raw (Step.strayMessage "a")
    let gas : Int := decimalCapacity numeralLimit
    Bytes.capacity 8 ≤ gas ∧
    (∃ call, gateway.verify message = .ok call ∧
      gateway.callAction call (some gas) = .error (.fault (.unwritable gas))) ∧
    ∀ ledger, (gateway.forward message (some gas)).run ledger =
      (.error (.fault (.unwritable gas)), ledger) := by
  intro gateway message gas
  have hlarge : Bytes.capacity 8 ≤ decimalCapacity numeralLimit :=
    Nat.le_trans (Bytes.capacity_le (by decide)) capacity_le_decimalCapacity
  have hlong : Unwritable gas := unwritable_natCast (Nat.le_refl _)
  obtain ⟨call, hverify⟩ := exists_of_isOk (x := gateway.verify message) (by decide +kernel)
  exact ⟨Int.ofNat_le.2 hlarge, ⟨call, hverify, callAction_of_unwritable call hlong⟩,
    run_forward_of_unwritable hverify hlong⟩

end Gateway

end SignedRelay
