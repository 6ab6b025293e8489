import SignedRelay.Proofs.Actions

/-!
# The gas of an action

A transfer is given the gas of the gateway, a call that gas on top of what it forwards. What is forwarded
has to fit the input of the proxy account, but nothing looks at the sum. Main statement: the forwarded
gas fits eight bytes or is refused with the nonce kept, and the attached gas fits exactly if the sum
does.
-/
namespace SignedRelay

open Outcome

/-- The gas has room in eight bytes. -/
def Proxy.FitsGas (gas : Int) : Prop := 0 ≤ gas ∧ gas < Bytes.capacity 8

instance (gas : Int) : Decidable (Proxy.FitsGas gas) :=
  inferInstanceAs (Decidable (0 ≤ gas ∧ gas < Bytes.capacity 8))

theorem Proxy.exists_ofGas_error {gas : Int} (h : ¬FitsGas gas) :
    ∃ error, GasFailure gas error ∧ ofGas gas = .error error := by
  have hrange : gas < 0 ∨ Bytes.capacity 8 ≤ gas := by
    unfold FitsGas at h
    omega
  have herror : ofGas gas = .error (outOfRange gas (.gasRange gas)) :=
    ofNumber_eq_error.2 ⟨hrange, rfl⟩
  exact ⟨_, failsOnly_ofGas gas _ herror, herror⟩

namespace Gateway

variable {gateway : Gateway} {message : Message} {call : VerifiedCall} {gas : Option Int}

/-- Gas that does not fit is refused, whatever the nonce, and keeps it. -/
theorem run_forward_of_not_fits [Stack] (hverify : gateway.verify message = .ok call)
    (hgas : ¬Proxy.FitsGas (gateway.forwardedGas gas)) (ledger : NonceLedger) :
    ∃ error, Proxy.GasFailure (gateway.forwardedGas gas) error ∧
      (gateway.forward message gas).run ledger = (.error error, ledger) := by
  obtain ⟨error, hfailure, herror⟩ := Proxy.exists_ofGas_error hgas
  exact ⟨error, hfailure, run_forward_of_error hverify (callAction_of_ofGas_error call herror) ledger⟩

/-- Gas that fits is forwarded for a call whose nonce is due, with the gas of the gateway on top. -/
theorem run_forward_of_fits [Stack] (hverify : gateway.verify message = .ok call)
    (hgas : Proxy.FitsGas (gateway.forwardedGas gas)) (hvalue : call.value < Bytes.capacity 16)
    {ledger : NonceLedger} (hnonce : call.nonce = ledger.get call.sender) :
    ∃ action, action.gas = gateway.forwardedGas gas + gateway.config.proxyGas ∧
      (gateway.forward message gas).run ledger =
        (.ok action, ledger.set call.sender (ledger.get call.sender + 1)) := by
  obtain ⟨action, haction⟩ := (exists_callAction_iff (bounded_of_verify hverify)).2 ⟨hvalue, hgas⟩
  refine ⟨action, (isCall_of_callAction haction).gas, ?_⟩
  rw [run_forward hverify, haction, admission_of_eq hnonce]

/-- Where the gas of the gateway fits, the gas of a transfer does. Gas to forward that does not fit is
refused and the nonce kept, so what is forwarded fits, and the gas of a call is a sum of two numbers that
fit. It fits exactly if their sum does, for nothing else is asked of the sum: a call whose nonce is due
and whose amount has room is forwarded, and uses up its nonce, for every gas to forward that fits. -/
theorem attached_gas_fits_iff [Stack] (gateway : Gateway) (message : Message) (ledger : NonceLedger)
    (hconfig : Proxy.FitsGas gateway.config.proxyGas) :
    (∀ action, ((gateway.proxy message).run ledger).1 = .ok action → Proxy.FitsGas action.gas) ∧
    (∀ gas action, ((gateway.forward message gas).run ledger).1 = .ok action →
      Proxy.FitsGas (gateway.forwardedGas gas) ∧
        (Proxy.FitsGas action.gas ↔
          gateway.forwardedGas gas + gateway.config.proxyGas < Bytes.capacity 8)) ∧
    ∀ gas call, gateway.verify message = .ok call →
      (¬Proxy.FitsGas (gateway.forwardedGas gas) → ∃ error,
        Proxy.GasFailure (gateway.forwardedGas gas) error ∧
          (gateway.forward message gas).run ledger = (.error error, ledger)) ∧
      (Proxy.FitsGas (gateway.forwardedGas gas) → call.value < Bytes.capacity 16 →
        call.nonce = ledger.get call.sender → ∃ action,
          action.gas = gateway.forwardedGas gas + gateway.config.proxyGas ∧
            (gateway.forward message gas).run ledger =
              (.ok action, ledger.set call.sender (ledger.get call.sender + 1))) := by
  refine ⟨?_, ?_, ?_⟩
  · intro action h
    obtain ⟨call, _, haction⟩ := transferAction_of_proxy h
    rw [(isTransfer_of_transferAction haction).gas]
    exact hconfig
  · intro gas action h
    obtain ⟨call, hverify, haction⟩ := callAction_of_forward h
    obtain ⟨_, hgas⟩ := (exists_callAction_iff (bounded_of_verify hverify)).1 ⟨action, haction⟩
    refine ⟨hgas, ?_⟩
    rw [(isCall_of_callAction haction).gas]
    exact and_iff_right (Int.add_nonneg hgas.1 hconfig.1)
  · intro gas call hverify
    exact ⟨fun hgas => run_forward_of_not_fits hverify hgas ledger,
      fun hgas hvalue hnonce => run_forward_of_fits hverify hgas hvalue hnonce⟩

/-- A message that verifies, with amount and nonce zero, is transferred and forwarded with gas that fits.
Gas one beyond eight bytes is refused. -/
theorem attached_gas_fits_iff_stray :
    let gateway := (Step.strayStep "a" .receive).station.gateway
    let message := Message.raw (Step.strayMessage "a")
    let beyond : Int := Bytes.capacity 8
    Proxy.FitsGas gateway.config.proxyGas ∧
    (∃ action, ((gateway.proxy message).run .empty).1 = .ok action ∧ Proxy.FitsGas action.gas) ∧
    (∃ action, ((gateway.forward message (some 7)).run .empty).1 = .ok action ∧
      Proxy.FitsGas action.gas) ∧
    ∃ error, Proxy.GasFailure beyond error ∧
      (gateway.forward message (some beyond)).run .empty = (.error error, .empty) := by
  intro gateway message beyond
  have hconfig : Proxy.FitsGas gateway.config.proxyGas := by decide
  obtain ⟨transfer, htransfer⟩ := exists_of_isOk (x := ((gateway.proxy message).run .empty).1)
    (by decide +kernel)
  obtain ⟨action, haction⟩ := exists_of_isOk
    (x := ((gateway.forward message (some 7)).run .empty).1) (by decide +kernel)
  obtain ⟨call, hverify⟩ := exists_of_isOk (x := gateway.verify message) (by decide +kernel)
  obtain ⟨hproxy, hforward, hverified⟩ := attached_gas_fits_iff gateway message .empty hconfig
  have hbeyond : ¬Proxy.FitsGas (gateway.forwardedGas (some beyond)) := by decide
  exact ⟨hconfig, ⟨transfer, htransfer, hproxy transfer htransfer⟩,
    ⟨action, haction, (hforward (some 7) action haction).2.2 (by decide)⟩,
    (hverified (some beyond) call hverify).1 hbeyond⟩

/-- The same message with the most gas that fits: with the gas of the gateway on top, its action is given
more gas than eight bytes have room for, and the nonce is used up. -/
theorem forward_overflow_stray :
    let gateway := (Step.strayStep "a" .receive).station.gateway
    let message := Message.raw (Step.strayMessage "a")
    let most : Int := Bytes.capacity 8 - 1
    Proxy.FitsGas gateway.config.proxyGas ∧ ∃ call action, gateway.verify message = .ok call ∧
      (gateway.forward message (some most)).run .empty =
        (.ok action, NonceLedger.empty.set call.sender 1) ∧
      ¬Proxy.FitsGas action.gas := by
  intro gateway message most
  have hfields : (gateway.verify message).toOption.map (fun call => (call.nonce, call.value)) =
      some (0, 0) := by
    decide +kernel
  obtain ⟨call, hcall, hzero⟩ := Option.map_eq_some_iff.1 hfields
  obtain ⟨hnonce, hvalue⟩ := Prod.mk.inj hzero
  have hverify := eq_ok_of_toOption hcall
  have hgas : Proxy.FitsGas (gateway.forwardedGas (some most)) := by decide
  have hroom : call.value < Bytes.capacity 16 := by
    rw [hvalue]
    decide
  have hdue : call.nonce = NonceLedger.empty.get call.sender := hnonce
  obtain ⟨action, hsum, hrun⟩ := run_forward_of_fits hverify hgas hroom hdue
  refine ⟨by decide, call, action, hverify, hrun, ?_⟩
  rw [hsum]
  decide

end Gateway

end SignedRelay
