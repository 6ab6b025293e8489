import SignedRelay.Proofs.Base64Codec
import SignedRelay.Proofs.DefinitionText
import SignedRelay.Proofs.SenderIndependence

/-!
# The check of an expected signer

A client that expects a signer compares the text of an address with the sender that it recovers. A
gateway shows the sender of the same message in the name of a proxy account, which starts with the
address in plain hexadecimal. Main statement: a client with the account and the domain of a gateway
finds the expected signer exactly if the gateway verifies the message and the text, in lower case, is
the address in that name; so the texts that it finds are the spellings of one address.

Only the case of ASCII letters is set aside. No other letter has a hexadecimal digit or an x for its lower
case, so that no text with one is an address either way.
-/
namespace SignedRelay

theorem Bytes.ne_dot_of_mem_hexChars {data : Bytes} {c : Char} (h : c ∈ data.hexChars) :
    (c != '.') = true := by
  have digit {n : Nat} (hn : n < 16) : (hexDigit n != '.') = true := by
    revert n
    decide
  obtain ⟨b, _, hc⟩ := List.mem_flatMap.1 h
  have hb : b.toNat < 256 := b.toNat_lt
  rcases List.mem_cons.1 hc with rfl | hc
  · exact digit (by omega)
  · obtain rfl := List.mem_singleton.1 hc
    exact digit (by omega)

namespace Gateway

/-- The address in the name of a sender's proxy account: what stands in front of the first dot. -/
def namedAddress (gateway : Gateway) (sender : Bytes) : List Char :=
  '0' :: 'x' :: (gateway.subAccountId sender).toList.takeWhile (· != '.')

theorem namedAddress_eq (gateway : Gateway) (sender : Bytes) :
    gateway.namedAddress sender = '0' :: 'x' :: sender.hexChars := by
  have hname : (gateway.subAccountId sender).toList =
      sender.hexChars ++ '.' :: gateway.config.accountId.toList := by
    unfold subAccountId Bytes.hex
    rw [String.toList_append, String.toList_append, String.toList_ofList, List.append_assoc]
    rfl
  unfold namedAddress
  rw [hname, Definition.takeWhile_append_cons (fun _ => Bytes.ne_dot_of_mem_hexChars) rfl]

section Check

variable [Stack] {gateway : Gateway} {message : Message} {data : Bytes}

theorem verify_of_bytes (h : message.bytes? = some data) :
    gateway.verify message = (gateway.signingContext.verify data).mapError .ofError := by
  unfold verify
  rw [h]

/-- For a message that is verified, the check comes down to the name of the proxy account. -/
theorem isSignedBy_of_verify {call : VerifiedCall} (h : message.bytes? = some data)
    (hcall : gateway.verify message = .ok call) (address : String) :
    gateway.signingContext.isSignedBy data address =
      .ok (Address.lower address == gateway.namedAddress call.sender) := by
  have hlower := Address.lower_text (text_of_verify hcall)
  rw [verify_of_bytes h, Outcome.mapError_eq_ok] at hcall
  unfold SigningContext.isSignedBy
  rw [hcall, namedAddress_eq, ← hlower]
  exact congrArg Except.ok Bool.beq_comm

/-- A message that is not verified is signed by nobody, unless its verification faults. -/
theorem isSignedBy_of_verify_error {error : GatewayError} (h : message.bytes? = some data)
    (herror : gateway.verify message = .error error) :
    (∃ refusal, error = .rejected refusal ∧
      ∀ address, gateway.signingContext.isSignedBy data address = .ok false) ∨
    ∃ cause, error = .fault cause ∧
      ∀ address, gateway.signingContext.isSignedBy data address = .error cause := by
  rw [verify_of_bytes h] at herror
  unfold SigningContext.isSignedBy
  cases hverify : gateway.signingContext.verify data with
  | ok call =>
    rw [hverify] at herror
    cases herror
  | error found =>
    rw [hverify] at herror
    cases herror
    cases found with
    | refused refusal => exact .inl ⟨refusal, rfl, fun _ => rfl⟩
    | fault cause => exact .inr ⟨cause, rfl, fun _ => rfl⟩

theorem isSignedBy_eq_true_iff (h : message.bytes? = some data) {address : String} :
    gateway.signingContext.isSignedBy data address = .ok true ↔
      ∃ call, gateway.verify message = .ok call ∧
        Address.lower address = gateway.namedAddress call.sender := by
  cases hverify : gateway.verify message with
  | ok call => simp [isSignedBy_of_verify h hverify]
  | error error =>
    obtain ⟨_, _, hcheck⟩ | ⟨_, _, hcheck⟩ := isSignedBy_of_verify_error h hverify
    · simp [hcheck]
    · simp [hcheck]

theorem isSignedBy_eq_false_iff (h : message.bytes? = some data) {address : String} :
    gateway.signingContext.isSignedBy data address = .ok false ↔
      (∃ refusal, gateway.verify message = .error (.rejected refusal)) ∨
      ∃ call, gateway.verify message = .ok call ∧
        Address.lower address ≠ gateway.namedAddress call.sender := by
  cases hverify : gateway.verify message with
  | ok call => simp [isSignedBy_of_verify h hverify]
  | error error =>
    obtain ⟨_, rfl, hcheck⟩ | ⟨_, rfl, hcheck⟩ := isSignedBy_of_verify_error h hverify
    · simp [hcheck]
    · simp [hcheck]

theorem isSignedBy_eq_error_iff (h : message.bytes? = some data) {address : String}
    {cause : Fault} : gateway.signingContext.isSignedBy data address = .error cause ↔
      gateway.verify message = .error (.fault cause) := by
  cases hverify : gateway.verify message with
  | ok call => simp [isSignedBy_of_verify h hverify]
  | error error =>
    obtain ⟨_, rfl, hcheck⟩ | ⟨_, rfl, hcheck⟩ := isSignedBy_of_verify_error h hverify
    · simp [hcheck]
    · simp [hcheck]

end Check

/-- A client that checks messages for the account and the domain of a gateway finds the expected signer
exactly if the gateway verifies the message, as bytes or as a text of them, and the address in lower case
is the one in the name of the sender's proxy account. It does not find him if the gateway rejects the
message or names another address, and a fault is the same for both. So the texts that it finds for one
message are the spellings of one address in letters of either case, and there are some exactly if the
gateway verifies the message. -/
theorem signer_check_agrees [Stack] (gateway : Gateway) {message : Message} {data : Bytes}
    (h : message.bytes? = some data) :
    let client : SigningContext := {
      domain := gateway.config.domain
      gatewayId := Bytes.utf8 gateway.config.accountId
      crypto := gateway.crypto }
    (∀ address, client.isSignedBy data address = .ok true ↔
      ∃ call, gateway.verify message = .ok call ∧
        Address.lower address = gateway.namedAddress call.sender) ∧
    (∀ address, client.isSignedBy data address = .ok false ↔
      (∃ refusal, gateway.verify message = .error (.rejected refusal)) ∨
      ∃ call, gateway.verify message = .ok call ∧
        Address.lower address ≠ gateway.namedAddress call.sender) ∧
    (∀ address cause, client.isSignedBy data address = .error cause ↔
      gateway.verify message = .error (.fault cause)) ∧
    (∀ address other, client.isSignedBy data address = .ok true →
      (client.isSignedBy data other = .ok true ↔ Address.lower other = Address.lower address)) ∧
    ((∃ address, client.isSignedBy data address = .ok true) ↔
      ∃ call, gateway.verify message = .ok call) := by
  intro client
  refine ⟨fun _ => isSignedBy_eq_true_iff h, fun _ => isSignedBy_eq_false_iff h,
    fun _ _ => isSignedBy_eq_error_iff h, ?_, ?_⟩
  · intro address other hsigned
    obtain ⟨call, hcall, hlower⟩ := (isSignedBy_eq_true_iff h).1 hsigned
    show gateway.signingContext.isSignedBy data other = .ok true ↔ _
    rw [isSignedBy_of_verify h hcall, Except.ok.injEq, beq_iff_eq, hlower]
  · constructor
    · rintro ⟨address, hsigned⟩
      obtain ⟨call, hcall, _⟩ := (isSignedBy_eq_true_iff h).1 hsigned
      exact ⟨call, hcall⟩
    · rintro ⟨call, hcall⟩
      have hlower := Address.lower_text (text_of_verify hcall)
      rw [← namedAddress_eq gateway] at hlower
      exact ⟨call.senderAddress, (isSignedBy_eq_true_iff h).2 ⟨call, hcall, hlower⟩⟩

/-- The address behind a stray message is found in capitals, and its neighbour is not found, by a client
that has the bytes of the message while the gateway has their text. -/
theorem signer_check_agrees_stray :
    let gateway := (Step.strayStep "a" .receive).station.gateway
    let client := gateway.signingContext
    let data := Step.strayMessage "a"
    let message := Message.text (Base64.encode data)
    message.bytes? = some data ∧
    client.isSignedBy data "0X8CF8FF3655036D772044601DA57877E6812AE78C" = .ok true ∧
    client.isSignedBy data "0x8cf8ff3655036d772044601da57877e6812ae78d" = .ok false ∧
    ∃ call, gateway.verify message = .ok call ∧ gateway.namedAddress call.sender =
      "0x8cf8ff3655036d772044601da57877e6812ae78c".toList := by
  intro gateway client data message
  have hbytes : message.bytes? = some data := Base64.decode_encode data
  have hshown : (gateway.verify (.raw data)).toOption.map (gateway.namedAddress ·.sender) =
      some "0x8cf8ff3655036d772044601da57877e6812ae78c".toList := by decide +kernel
  have hsame : gateway.verify message = gateway.verify (.raw data) :=
    (verify_of_bytes hbytes).trans (verify_of_bytes rfl).symm
  obtain ⟨call, hcall⟩ : ∃ call, gateway.verify message = .ok call := by
    rw [hsame]
    exact Outcome.exists_of_isOk (by decide +kernel)
  rw [← hsame, hcall] at hshown
  have hnamed : gateway.namedAddress call.sender =
      "0x8cf8ff3655036d772044601da57877e6812ae78c".toList := Option.some.inj hshown
  obtain ⟨hfound, hmissed, _⟩ := signer_check_agrees gateway hbytes
  refine ⟨hbytes, (hfound _).2 ⟨call, hcall, ?_⟩, (hmissed _).2 (.inr ⟨call, hcall, ?_⟩), call, hcall,
    hnamed⟩
  · rw [hnamed]
    decide +kernel
  · rw [hnamed]
    decide +kernel

end Gateway

end SignedRelay
