import SignedRelay.Proofs.DefinitionGrammar
import SignedRelay.Proofs.EnvelopeCodec
import SignedRelay.Proofs.Preparation
import SignedRelay.Proofs.RlpAcceptance
import SignedRelay.Proofs.TypedEncoding
import SignedRelay.Proofs.Verification

/-!
# The nesting bound only refuses

One bound limits the array suffixes of a type, the lists of the argument payload and the depth of the
values that are hashed, each counted from another start. A result never holds the bound, so that what
succeeds under one bound succeeds under every larger one, with the same result. Main statement: a
larger bound keeps every prepared and every verified call, and no two bounds give one message different
calls.
-/
namespace SignedRelay

variable {bound bound' : Int}

theorem ArgType.NestsWithin.mono {type : ArgType} (h : type.NestsWithin bound)
    (hle : bound ≤ bound') : type.NestsWithin bound' :=
  h.imp_right fun hnests => Int.le_trans hnests hle

theorem ArgType.parse_mono {text : List Char} {type : ArgType} (h : parse bound text = .ok type)
    (hle : bound ≤ bound') : parse bound' text = .ok type := by
  obtain ⟨hwrites, hnests⟩ := parse_eq_ok_iff.1 h
  exact parse_eq_ok_iff.2 ⟨hwrites, hnests.mono hle⟩

theorem Param.WellFormed.mono {param : Param} (h : param.WellFormed bound) (hle : bound ≤ bound') :
    param.WellFormed bound' where
  name := h.name
  type_eq := ArgType.parse_mono h.type_eq hle

theorem Declaration.WellFormed.mono {declaration : Declaration} (h : declaration.WellFormed bound)
    (hle : bound ≤ bound') : declaration.WellFormed bound' where
  name := h.name
  params param hmem := (h.params param hmem).mono hle
  text_eq := h.text_eq

namespace Definition

theorem ReadFrom.mono {text : List Char} {definition : Definition}
    (h : ReadFrom bound text definition) (hle : bound ≤ bound') : ReadFrom bound' text definition where
  render_eq := h.render_eq
  wellFormed declaration hmem := (h.wellFormed declaration hmem).mono hle
  names_nodup := h.names_nodup
  declared := h.declared

theorem parse_mono {text : List Char} {definition : Definition}
    (h : parse bound text = .ok definition) (hle : bound ≤ bound') :
    parse bound' text = .ok definition :=
  ((readFrom_of_parse h).mono hle).parse_eq_ok

end Definition

namespace Rlp

variable [Stack]

theorem decode_mono {data : Bytes} {value : Rlp} (h : decode bound data = .ok value)
    (hle : bound ≤ bound') : decode bound' data = .ok value := by
  obtain ⟨hvalue, hheight, hdepth⟩ := decode_eq_ok_iff.1 h
  exact decode_eq_ok_iff.2 ⟨hvalue, hheight,
    fun depth hlist => Int.lt_of_lt_of_le (hdepth depth hlist) hle⟩

theorem decodeList_mono {data : Bytes} {items : List Rlp} (h : decodeList bound data = .ok items)
    (hle : bound ≤ bound') : decodeList bound' data = .ok items :=
  decodeList_eq_ok_iff.2 (decode_mono (decodeList_eq_ok_iff.1 h) hle)

end Rlp

namespace TypedData

section Values

variable [Stack]

theorem enter_mono {context : Context} {type : ArgType} {depth : Int}
    (h : context.enter type depth = .ok ()) (hle : context.bound ≤ bound) :
    { context with bound }.enter type depth = .ok () := by
  obtain ⟨hroom, hdepth⟩ := enter_eq_ok.1 h
  exact enter_eq_ok.2 ⟨hroom, Int.le_trans hdepth hle⟩

-- The induction is on the value: a struct may hold itself, so its type does not get smaller.
mutual

theorem encode_mono : ∀ (value : Rlp) {context : Context} {type : ArgType} {depth : Int}
    {word : Bytes}, encode context type depth value = .ok word → context.bound ≤ bound →
      encode { context with bound } type depth value = .ok word
  | .bytes data, context, type, depth, word, h, hle => by
    obtain ⟨henter, hword⟩ := encode_bytes_eq_ok.1 h
    exact encode_bytes_eq_ok.2 ⟨enter_mono henter hle, hword⟩
  | .list items, context, type, depth, word, h, hle => by
    obtain ⟨element, length, rfl⟩ | ⟨name, rfl⟩ := array_or_struct_of_encode h
    · obtain ⟨henter, hcount, words, hwords, hhash⟩ := encode_array_eq_ok.1 h
      exact encode_array_eq_ok.2
        ⟨enter_mono henter hle, hcount, words, encodeElements_mono items hwords hle, hhash⟩
    · obtain ⟨henter, declaration, hdeclaration, hlength, words, hwords, hhash⟩ :=
        encode_struct_eq_ok.1 h
      exact encode_struct_eq_ok.2 ⟨enter_mono henter hle, declaration, hdeclaration, hlength, words,
        encodeFields_mono items hwords hle, hhash⟩

theorem encodeElements_mono : ∀ (items : List Rlp) {context : Context} {type : ArgType}
    {depth : Int} {words : Bytes}, encodeElements context type depth items = .ok words →
      context.bound ≤ bound → encodeElements { context with bound } type depth items = .ok words
  | [], context, type, depth, words, h, _ => by
    rw [encodeElements] at h ⊢
    exact h
  | item :: rest, context, type, depth, words, h, hle => by
    obtain ⟨word, others, hword, hothers, hwords⟩ := encodeElements_cons_eq_ok.1 h
    exact encodeElements_cons_eq_ok.2
      ⟨word, others, encode_mono item hword hle, encodeElements_mono rest hothers hle, hwords⟩

theorem encodeFields_mono : ∀ (items : List Rlp) {context : Context} {params : List Param}
    {depth : Int} {words : Bytes}, encodeFields context params depth items = .ok words →
      context.bound ≤ bound → encodeFields { context with bound } params depth items = .ok words
  | item :: rest, context, param :: params, depth, words, h, hle => by
    obtain ⟨word, others, hword, hothers, hwords⟩ := encodeFields_cons_eq_ok.1 h
    exact encodeFields_cons_eq_ok.2
      ⟨word, others, encode_mono item hword hle, encodeFields_mono rest hothers hle, hwords⟩
  | [], context, params, depth, words, h, _ => by
    rw [encodeFields_nil] at h ⊢
    exact h
  | item :: rest, context, [], depth, words, h, _ => by
    rw [encodeFields_no_params] at h ⊢
    exact h

end

theorem encodeArguments_mono {context : Context} {params : List Param} {values : List Rlp}
    {words : Bytes} (h : encodeArguments context params values = .ok words)
    (hle : context.bound ≤ bound) : encodeArguments { context with bound } params values = .ok words := by
  obtain ⟨hlength, hwords⟩ := encodeArguments_eq_ok.1 h
  exact encodeArguments_eq_ok.2 ⟨hlength, encodeFields_mono values hwords hle⟩

end Values

end TypedData

namespace MetaCall

variable [Stack] {hasher : Hasher} {call : MetaCall}

theorem methodArguments_mono {argumentsText : List Char} {definition : Definition} {args : Bytes}
    (h : call.methodArguments hasher bound argumentsText = .ok (definition, args))
    (hle : bound ≤ bound') :
    call.methodArguments hasher bound' argumentsText = .ok (definition, args) := by
  obtain ⟨values, words, hparse, hvalues, hwords, hargs⟩ := methodArguments_eq_ok.1 h
  exact methodArguments_eq_ok.2 ⟨values, words, Definition.parse_mono hparse hle,
    Rlp.decodeList_mono hvalues hle, TypedData.encodeArguments_mono hwords hle, hargs⟩

theorem prepare_mono {separator gatewayId : Bytes} {prepared : PreparedCall}
    (h : call.prepare hasher bound separator gatewayId = .ok prepared) (hle : bound ≤ bound') :
    call.prepare hasher bound' separator gatewayId = .ok prepared := by
  cases hmethod : call.methodName.isEmpty with
  | true =>
    -- A call without a method has nothing that nests.
    exact (prepare_eq_ok_of_empty hmethod).2 ((prepare_eq_ok_of_empty hmethod).1 h)
  | false =>
    obtain ⟨argumentsText, header, definition, args, htext, hheader, hargs, hprepared⟩ :=
      (prepare_eq_ok_of_nonempty hmethod).1 h
    exact (prepare_eq_ok_of_nonempty hmethod).2 ⟨argumentsText, header, definition, args, htext,
      hheader, methodArguments_mono hargs hle, hprepared⟩

end MetaCall

theorem VerifiedCall.ofMessage_mono [Stack] {crypto : Crypto} {separator gatewayId message : Bytes}
    {call : VerifiedCall} (h : ofMessage crypto bound separator gatewayId message = .ok call)
    (hle : bound ≤ bound') : ofMessage crypto bound' separator gatewayId message = .ok call := by
  obtain ⟨envelope, prepared, henvelope, hprepared, hrest⟩ := ofMessage_eq_ok.1 h
  exact ofMessage_eq_ok.2 ⟨envelope, prepared, henvelope, MetaCall.prepare_mono hprepared hle, hrest⟩

/-- One of two bounds is the larger one, and keeps what the other gives. -/
theorem VerifiedCall.ofMessage_unique [Stack] {crypto : Crypto} {separator gatewayId message : Bytes}
    {call call' : VerifiedCall} (h : ofMessage crypto bound separator gatewayId message = .ok call)
    (h' : ofMessage crypto bound' separator gatewayId message = .ok call') : call = call' := by
  rcases Int.le_total bound bound' with hle | hle
  · rw [ofMessage_mono h hle] at h'
    exact Except.ok.inj h'
  · rw [ofMessage_mono h' hle] at h
    exact (Except.ok.inj h).symm

/-- A call that is prepared under one bound is prepared under every larger one with the same digest,
name and arguments, and a message that verifies under one bound verifies under every larger one to the
same call. So whatever two parties with different bounds both accept is the same to them, and from the
same sender. -/
theorem nesting_bound_only_refuses [Stack] (crypto : Crypto) (separator gatewayId : Bytes) :
    (∀ (call : MetaCall) (bound bound' : Int) (prepared : PreparedCall), bound ≤ bound' →
      call.prepare crypto.hasher bound separator gatewayId = .ok prepared →
        call.prepare crypto.hasher bound' separator gatewayId = .ok prepared) ∧
    (∀ (message : Bytes) (bound bound' : Int) (call : VerifiedCall), bound ≤ bound' →
      VerifiedCall.ofMessage crypto bound separator gatewayId message = .ok call →
        VerifiedCall.ofMessage crypto bound' separator gatewayId message = .ok call) ∧
    ∀ (message : Bytes) (bound bound' : Int) (call call' : VerifiedCall),
      VerifiedCall.ofMessage crypto bound separator gatewayId message = .ok call →
        VerifiedCall.ofMessage crypto bound' separator gatewayId message = .ok call' →
          call = call' := by
  refine ⟨?_, ?_, ?_⟩
  · intro call bound bound' prepared hle h
    exact MetaCall.prepare_mono h hle
  · intro message bound bound' call hle h
    exact VerifiedCall.ofMessage_mono h hle
  · intro message bound bound' call call' h h'
    exact VerifiedCall.ofMessage_unique h h'

/-- A sum of numbers, which nests one list in the list of the arguments, behind a signature that nobody
made on purpose. -/
def nestedSum : Envelope :=
  { Envelope.blank "sum(uint256[] n)" [0xc2, 0xc1, 0x01] with
    signature := Bytes.ofNatBE 32 1 ++ Bytes.ofNatBE 32 1 }

/-- Under a bound of one the sum is refused, but under two it verifies, and so it does under the usual
bound, with the same digest and to the same call. -/
theorem nesting_bound_only_refuses_nestedSum :
    let crypto : Crypto := ⟨.polynomial, .secp256k1⟩
    let message := nestedSum.encode.toOption.getD []
    let pending := PendingCall.ofEnvelope nestedSum
    (2 : Int) ≤ defaultNesting ∧
    (VerifiedCall.ofMessage crypto 1 [] [0x67] message).isOk = false ∧
    (∃ prepared, pending.prepare crypto.hasher 2 [] [0x67] = .ok prepared ∧
      pending.prepare crypto.hasher defaultNesting [] [0x67] = .ok prepared) ∧
    ∃ call, VerifiedCall.ofMessage crypto 2 [] [0x67] message = .ok call ∧
      VerifiedCall.ofMessage crypto defaultNesting [] [0x67] message = .ok call := by
  intro crypto message pending
  have hle : (2 : Int) ≤ defaultNesting := by decide
  have hshallow : (VerifiedCall.ofMessage crypto 1 [] [0x67] message).isOk = false := by
    decide +kernel
  obtain ⟨prepared, hprepared⟩ := Outcome.exists_of_isOk
    (x := pending.prepare crypto.hasher 2 [] [0x67]) (by decide +kernel)
  obtain ⟨call, hcall⟩ := Outcome.exists_of_isOk
    (x := VerifiedCall.ofMessage crypto 2 [] [0x67] message) (by decide +kernel)
  obtain ⟨hprepare, hverify, _⟩ := nesting_bound_only_refuses crypto [] [0x67]
  exact ⟨hle, hshallow, ⟨prepared, hprepared, hprepare _ 2 defaultNesting prepared hle hprepared⟩,
    call, hcall, hverify message 2 defaultNesting call hle hcall⟩

end SignedRelay
