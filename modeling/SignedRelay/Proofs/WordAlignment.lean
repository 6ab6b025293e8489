import SignedRelay.Proofs.DigestBinding
import SignedRelay.Proofs.HashInputs
import SignedRelay.Proofs.SenderIndependence
import SignedRelay.Proofs.Verification
import SignedRelay.Proofs.VerificationFaults
import SignedRelay.Proofs.WordBinding

/-!
# Everything signed is laid out in words

A readable type has room for its fixed byte strings in one word, so every value has one word, and what
is hashed for it and for a digest is so many words one behind the other. Main statement: under a hash
primitive with digests of one word, this holds for every value, every call and every domain; digests have
thirty-two bytes, so the recovery of a signer never refuses one for its length, and senders have twenty.
-/
namespace SignedRelay

open Outcome

namespace HashInput

theorem aligned_contents (data : List Bytes) : ∀ input ∈ contents data, input.Aligned := by
  intro input hinput
  obtain ⟨content, _, rfl⟩ := List.mem_map.1 hinput
  trivial

end HashInput

theorem Domain.aligned_hashInputs {hasher : Hasher} (hsized : hasher.WordSized) (domain : Domain) :
    ∀ input ∈ domain.hashInputs hasher, input.Aligned := by
  refine forall_mem_collect fun fields hfields => ?_
  obtain ⟨chainId, hchain, rfl⟩ := fields_eq_ok.1 hfields
  exact List.forall_mem_append.2 ⟨HashInput.aligned_contents _,
    List.forall_mem_singleton.2 (Word.length_flatten (length_fieldWords hsized hchain))⟩

namespace TypedData

variable [Stack] {context : Context}

section Lengths

variable (hsized : context.hasher.WordSized)

include hsized

theorem length_of_encodeElements {type : ArgType} (htype : type.Sized) {depth : Int}
    {values : List Rlp} {words : Bytes}
    (h : encodeElements context type depth values = .ok words) :
    words.length = 32 * values.length := by
  induction values generalizing words with
  | nil =>
    rw [encodeElements] at h
    obtain rfl := Except.ok.inj h
    rfl
  | cons value rest ih =>
    obtain ⟨word, others, hword, hothers, rfl⟩ := encodeElements_cons_eq_ok.1 h
    rw [List.length_append, length_of_encode hsized htype hword, ih hothers, List.length_cons]
    omega

theorem length_of_encodeFields {params : List Param}
    (hparams : ∀ param ∈ params, param.type.Sized) {depth : Int} {values : List Rlp} {words : Bytes}
    (h : encodeFields context params depth values = .ok words) :
    words.length = 32 * (params.zip values).length := by
  induction params generalizing values words with
  | nil =>
    rw [encodeFields_no_params] at h
    obtain rfl := Except.ok.inj h
    rfl
  | cons param params ih =>
    cases values with
    | nil =>
      rw [encodeFields_nil] at h
      obtain rfl := Except.ok.inj h
      rfl
    | cons value rest =>
      obtain ⟨word, others, hword, hothers, rfl⟩ := encodeFields_cons_eq_ok.1 h
      obtain ⟨htype, hrest⟩ := List.forall_mem_cons.1 hparams
      rw [List.length_append, length_of_encode hsized htype hword, ih hrest hothers,
        List.zip_cons_cons, List.length_cons]
      omega

theorem length_of_encodeArguments {params : List Param}
    (hparams : ∀ param ∈ params, param.type.Sized) {values : List Rlp} {words : Bytes}
    (h : encodeArguments context params values = .ok words) :
    words.length = 32 * params.length := by
  obtain ⟨hcount, hfields⟩ := encodeArguments_eq_ok.1 h
  rw [length_of_encodeFields hsized hparams hfields, List.length_zip, hcount, Nat.min_self]

end Lengths

mutual

/-- What is hashed for the word of a value is aligned, whether or not the value has one. -/
theorem aligned_hashInputs : ∀ (value : Rlp) {context : Context} {type : ArgType} (depth : Int),
    context.hasher.WordSized → SizedStructs context.structs → type.Sized →
    ∀ input ∈ hashInputs context type depth value, input.Aligned
  | .bytes data, context, type, depth, _, _, _ => by
    unfold hashInputs
    exact HashInput.aligned_contents _
  | .list items, context, type, depth, hsized, hstructs, htype => by
    have hinside (calls : Nat) : (context.inside calls).hasher.WordSized := hsized
    unfold hashInputs
    cases type with
    | array element length =>
      have helement : element.Sized := htype
      refine List.forall_mem_append.2
        ⟨aligned_elementHashInputs items (depth + 1) (hinside Stack.array) hstructs helement, ?_⟩
      refine forall_mem_collect fun words hwords => List.forall_mem_singleton.2 ?_
      exact length_of_encodeElements (hinside Stack.array) helement hwords
    | struct name =>
      refine forall_mem_collect fun declaration hdeclaration => ?_
      have hparams := hstructs declaration
        (Definition.mem_of_lookup? (declaration_eq_ok.1 hdeclaration))
      refine List.forall_mem_append.2 ⟨List.forall_mem_append.2 ⟨HashInput.aligned_contents _,
        aligned_fieldHashInputs items (depth + 1) (hinside Stack.struct) hstructs hparams⟩, ?_⟩
      refine forall_mem_collect fun words hwords => List.forall_mem_singleton.2 ?_
      show (declarationHash context.hasher declaration ++ words).length = _
      have hhash : (declarationHash context.hasher declaration).length = 32 := hsized _
      rw [List.length_append, hhash, length_of_encodeFields (hinside Stack.struct) hparams hwords]
      omega
    | _ => exact List.forall_mem_nil _

theorem aligned_elementHashInputs : ∀ (values : List Rlp) {context : Context} {type : ArgType}
    (depth : Int), context.hasher.WordSized → SizedStructs context.structs → type.Sized →
    ∀ input ∈ elementHashInputs context type depth values, input.Aligned
  | [], context, type, depth, _, _, _ => by
    unfold elementHashInputs
    exact List.forall_mem_nil _
  | value :: rest, context, type, depth, hsized, hstructs, htype => by
    unfold elementHashInputs
    exact List.forall_mem_append.2 ⟨aligned_hashInputs value depth hsized hstructs htype,
      aligned_elementHashInputs rest depth hsized hstructs htype⟩

theorem aligned_fieldHashInputs : ∀ (values : List Rlp) {context : Context} {params : List Param}
    (depth : Int), context.hasher.WordSized → SizedStructs context.structs →
    (∀ param ∈ params, param.type.Sized) →
    ∀ input ∈ fieldHashInputs context params depth values, input.Aligned
  | [], context, params, depth, _, _, _ => by
    unfold fieldHashInputs
    cases params with
    | nil => exact List.forall_mem_nil _
    | cons param params => exact List.forall_mem_nil _
  | value :: rest, context, [], depth, _, _, _ => by
    unfold fieldHashInputs
    exact List.forall_mem_nil _
  | value :: rest, context, param :: params, depth, hsized, hstructs, hparams => by
    obtain ⟨htype, hrest⟩ := List.forall_mem_cons.1 hparams
    unfold fieldHashInputs
    exact List.forall_mem_append.2 ⟨aligned_hashInputs value depth hsized hstructs htype,
      aligned_fieldHashInputs rest depth hsized hstructs hrest⟩

end

end TypedData

namespace MetaCall

variable {hasher : Hasher} {bound : Int} {separator gatewayId : Bytes} {call : MetaCall}
  {argumentsText : List Char}

theorem length_of_headerWords (hsized : hasher.WordSized) {header : Bytes}
    (h : call.headerWords hasher gatewayId argumentsText = .ok header) :
    header.length = 32 * 7 := by
  obtain ⟨nonce, feeAmount, value, hnonce, hfee, hvalue, rfl⟩ := headerWords_eq_ok.1 h
  exact Word.length_flatten (length_headerList hsized hnonce hfee hvalue)

/-- The words of the arguments are that of their type and one for each. -/
theorem length_of_methodArguments [Stack] (hsized : hasher.WordSized) {definition : Definition}
    {args : Bytes}
    (h : call.methodArguments hasher bound argumentsText = .ok (definition, args)) :
    args.length = 32 * (1 + definition.method.params.length) := by
  obtain ⟨values, words, hparse, _, hwords, rfl⟩ := methodArguments_eq_ok.1 h
  have hparams := (Definition.readFrom_of_parse hparse).sized List.mem_cons_self
  rw [List.length_append, hsized, TypedData.length_of_encodeArguments hsized hparams hwords]
  omega

theorem aligned_argumentHashInputs [Stack] (hsized : hasher.WordSized) {definition : Definition}
    (hparse : Definition.parse bound call.methodName.toList = .ok definition) :
    ∀ input ∈ call.argumentHashInputs hasher bound definition, input.Aligned := by
  have hread := Definition.readFrom_of_parse hparse
  refine forall_mem_collect fun values _ => ?_
  exact TypedData.aligned_fieldHashInputs values 0 hsized hread.sizedStructs
    (hread.sized List.mem_cons_self)

/-- The mark stands in front of two words if the separator is one. -/
theorem aligned_digestHashInputs (hsized : hasher.WordSized) {count : Nat} {words : Bytes}
    (hwords : words.length = 32 * count) :
    ∀ input ∈ digestHashInputs hasher separator count words,
      (input.layout = .marked → separator.length = 32) → input.Aligned := by
  refine List.forall_mem_cons.2 ⟨fun _ => hwords, List.forall_mem_singleton.2 fun hmarked => ?_⟩
  have hseparator := hmarked rfl
  show (0x19 :: 0x01 :: separator ++ hasher.hash words).length = _
  rw [List.length_append, hsized, List.length_cons, List.length_cons, hseparator]

/-- What is hashed for the digest of a call is aligned, whatever stands for its domain, up to the byte
string that the digest is of: that one holds the separator as it was given. -/
theorem aligned_hashInputs [Stack] (hsized : hasher.WordSized) :
    ∀ input ∈ call.hashInputs hasher bound separator gatewayId,
      (input.layout = .marked → separator.length = 32) → input.Aligned := by
  refine forall_mem_collect fun argumentsText _ => ?_
  refine List.forall_mem_append.2
    ⟨fun input hinput _ => HashInput.aligned_contents _ input hinput, ?_⟩
  refine forall_mem_collect fun header hheader => ?_
  have hlength := length_of_headerWords hsized hheader
  unfold signedCount
  split
  · exact aligned_digestHashInputs hsized hlength
  · refine forall_mem_collect fun ⟨definition, args⟩ hargs => ?_
    obtain ⟨_, _, hparse, _⟩ := methodArguments_eq_ok.1 hargs
    refine List.forall_mem_append.2 ⟨fun input hinput _ => ?_, ?_⟩
    · exact List.forall_mem_append.2 ⟨HashInput.aligned_contents _,
        aligned_argumentHashInputs hsized hparse⟩ input hinput
    · refine List.forall_mem_cons.2
        ⟨fun _ => length_of_methodArguments hsized hargs, aligned_digestHashInputs hsized ?_⟩
      rw [List.length_append, List.length_append, hlength, hsized, hsized]

/-- Whatever is prepared is laid out in words. -/
theorem laidOut_of_prepare [Stack] (hsized : hasher.WordSized) {prepared : PreparedCall}
    (h : call.prepare hasher bound separator gatewayId = .ok prepared) :
    call.LaidOut hasher bound separator gatewayId prepared := by
  have hdigest := length_digest_of_prepare hsized h
  cases hmethod : call.methodName.isEmpty with
  | true =>
    obtain ⟨header, hheader, rfl⟩ := (prepare_eq_ok_of_empty hmethod).1 h
    have hlength := length_of_headerWords hsized hheader
    have hcount : call.signedCount = 7 := by rw [signedCount, if_pos hmethod]
    have hmem : ⟨.words call.signedCount, header⟩ ∈
        call.hashInputs hasher bound separator gatewayId := by
      unfold hashInputs
      rw [collect_of_eq_ok (argumentsText_of_empty hmethod), collect_of_eq_ok hheader, if_pos hmethod]
      exact List.mem_append_right _ List.mem_cons_self
    exact {
      digest := hdigest
      args_eq_nil := fun _ => rfl
      args := fun hname => absurd (String.isEmpty_iff.1 hmethod) hname
      signed := ⟨header, by rw [hcount, hlength], hmem, rfl⟩ }
  | false =>
    obtain ⟨argumentsText, header, definition, args, htext, hheader, hargs, rfl⟩ :=
      (prepare_eq_ok_of_nonempty hmethod).1 h
    obtain ⟨_, _, hparse, _⟩ := methodArguments_eq_ok.1 hargs
    have hcount : call.signedCount = 9 := by rw [signedCount, hmethod, if_neg Bool.false_ne_true]
    have hlength : (header ++ (methodWords hasher definition args).flatten).length = 32 * 9 := by
      rw [List.length_append, length_of_headerWords hsized hheader,
        Word.length_flatten (length_methodWords hsized definition args)]
      rfl
    have hmem : ⟨.words call.signedCount, header ++ (methodWords hasher definition args).flatten⟩ ∈
        call.hashInputs hasher bound separator gatewayId := by
      unfold hashInputs
      rw [collect_of_eq_ok htext, collect_of_eq_ok hheader, hmethod, if_neg Bool.false_ne_true,
        collect_of_eq_ok hargs]
      simp [digestHashInputs, methodWords]
    exact {
      digest := hdigest
      args_eq_nil := fun hname => by simp [hname] at hmethod
      args := fun _ => ⟨definition, hparse, length_of_methodArguments hsized hargs⟩
      signed := ⟨_, by rw [hcount, hlength], hmem, rfl⟩ }

end MetaCall

/-- All that is hashed for the digest of a call is aligned, the separator of the domain included. -/
theorem SigningContext.aligned_hashInputs [Stack] {context : SigningContext}
    (hsized : context.crypto.hasher.WordSized) (call : MetaCall) :
    ∀ input ∈ context.hashInputs call, input.Aligned := by
  refine List.forall_mem_append.2 ⟨Domain.aligned_hashInputs hsized _, ?_⟩
  refine forall_mem_collect fun separator hseparator input hinput => ?_
  exact MetaCall.aligned_hashInputs hsized input hinput fun _ => length_separator hsized hseparator

/-- Recovery does not refuse a digest of one word for its length. -/
theorem Recovery.failures_signer {crypto : Crypto} {digest : Bytes} (hdigest : digest.length = 32)
    (signature : Bytes) : FailsOnly (fun cause => ∀ length, cause ≠ .digestLength length)
      (signer crypto digest signature) := by
  unfold signer
  rw [if_neg fun hne => hne hdigest]
  dsimp only
  split
  · exact failsOnly_error nofun
  split
  · exact failsOnly_error nofun
  split
  · exact failsOnly_error nofun
  · exact failsOnly_ok _

namespace VerifiedCall

variable [Stack] {crypto : Crypto} {bound : Int} {separator gatewayId message : Bytes}

/-- No message is refused for the length of its digest. -/
theorem ofMessage_ne_digestLength (hsized : crypto.hasher.WordSized) (length : Nat) :
    ofMessage crypto bound separator gatewayId message ≠
      .error (.signature (.digestLength length)) := by
  have hfails : FailsOnly (· ≠ .signature (.digestLength length))
      (ofMessage crypto bound separator gatewayId message) := by
    refine failsOnly_ofMessage hsized (fun _ _ => nofun) ?_ ?_
    · intro envelope henvelope
      have hheader := PendingCall.exists_headerWords (Envelope.wellFormed_of_decode henvelope)
        crypto.hasher gatewayId
      exact FailsOnly.mono (MetaCall.failures_prepare hheader) fun _ herror => herror.ne_signature _
    · intro digest signature hdigest cause hcause heq
      cases heq
      exact Recovery.failures_signer hdigest signature _ hcause length rfl
  exact fun herror => hfails _ herror rfl

theorem length_sender_of_ofMessage (hsized : crypto.hasher.WordSized) {call : VerifiedCall}
    (h : ofMessage crypto bound separator gatewayId message = .ok call) :
    call.sender.length = 20 := by
  obtain ⟨_, _, _, _, hsender, _⟩ := ofMessage_eq_ok.1 h
  exact Recovery.length_of_signer hsized hsender

end VerifiedCall

/-- Under a hash primitive with digests of one word, everything signed is laid out in words. Whatever
the definition whose structs are in use, a value of a readable type has one word and arguments have one
each, and what is hashed for a value is aligned; so is what a call is prepared to, and all that is hashed
for it in a signing context. No message is refused for the length of its digest, and the sender of a
verified call has twenty bytes. -/
theorem signed_words_aligned [Stack] {crypto : Crypto} (hsized : crypto.hasher.WordSized)
    (bound room : Int) :
    (∀ (defined : Int) (text : List Char) (definition : Definition),
      Definition.parse defined text = .ok definition →
      let context : TypedData.Context :=
        { structs := definition.structs, hasher := crypto.hasher, bound, room }
      (∀ type : ArgType, type.Readable → ∀ (depth : Int) (value : Rlp),
        (∀ word, TypedData.encode context type depth value = .ok word → word.length = 32) ∧
        (TypedData.hashInputs context type depth value).map HashInput.data =
          TypedData.preimages context type depth value ∧
        ∀ input ∈ TypedData.hashInputs context type depth value, input.Aligned) ∧
      ∀ params : List Param, (∀ param ∈ params, param.type.Readable) →
        ∀ (values : List Rlp) (words : Bytes),
          TypedData.encodeArguments context params values = .ok words →
            words.length = 32 * params.length) ∧
    (∀ (separator gatewayId : Bytes) (call : MetaCall),
      (∀ prepared, call.prepare crypto.hasher bound separator gatewayId = .ok prepared →
        call.LaidOut crypto.hasher bound separator gatewayId prepared) ∧
      (call.hashInputs crypto.hasher bound separator gatewayId).map HashInput.data =
        call.preimages crypto.hasher bound separator gatewayId ∧
      ∀ count words, ⟨.words count, words⟩ ∈ call.hashInputs crypto.hasher bound separator gatewayId →
        words.length = 32 * count) ∧
    (∀ (context : SigningContext) (call : MetaCall), context.crypto = crypto →
      (context.hashInputs call).map HashInput.data = context.preimages call ∧
      ∀ input ∈ context.hashInputs call, input.Aligned) ∧
    ∀ separator gatewayId message : Bytes,
      (∀ length, VerifiedCall.ofMessage crypto bound separator gatewayId message ≠
        .error (.signature (.digestLength length))) ∧
      ∀ call, VerifiedCall.ofMessage crypto bound separator gatewayId message = .ok call →
        call.sender.length = 20 := by
  refine ⟨?values, ?calls, ?contexts, ?messages⟩
  case values =>
    intro defined text definition hparse context
    have hread := Definition.readFrom_of_parse hparse
    refine ⟨fun type htype depth value => ⟨?_, ?_, ?_⟩, fun params hparams values words hwords => ?_⟩
    · exact fun word hword => TypedData.length_of_encode hsized htype.sized hword
    · exact TypedData.map_data_hashInputs value context type depth
    · exact TypedData.aligned_hashInputs value depth hsized hread.sizedStructs htype.sized
    · exact TypedData.length_of_encodeArguments hsized
        (fun param hparam => (hparams param hparam).sized) hwords
  case calls =>
    intro separator gatewayId call
    refine ⟨fun prepared h => MetaCall.laidOut_of_prepare hsized h,
      call.map_data_hashInputs _ _ _ _, fun count words hinput => ?_⟩
    exact MetaCall.aligned_hashInputs hsized _ hinput nofun
  case contexts =>
    rintro context call rfl
    exact ⟨context.map_data_hashInputs call, SigningContext.aligned_hashInputs hsized call⟩
  case messages =>
    intro separator gatewayId message
    exact ⟨VerifiedCall.ofMessage_ne_digestLength hsized,
      fun call hcall => VerifiedCall.length_sender_of_ofMessage hsized hcall⟩

/-- Under a polynomial: the word of a struct with a list of tags in it, the words of a payment with one
argument, and the sender of a call whose signature nobody made on purpose. -/
theorem signed_words_aligned_payment :
    let crypto : Crypto := ⟨.polynomial, .secp256k1⟩
    let structs : TypedData.Context :=
      { structs := TypedData.tagging.structs, hasher := .polynomial, bound := 32, room := 32 }
    let tagged : Rlp := .list [.bytes [0x01], .list [.bytes [0x01], .bytes []]]
    let call := SigningContext.payment [0xc1, 0x01]
    let context := SigningContext.paymentContext 32
    Hasher.polynomial.WordSized ∧
    Definition.parse 4 "tag(A a)A(uint256 n,bytes2[] tags)".toList = .ok TypedData.tagging ∧
    (∃ word, TypedData.encode structs (.struct "A") 0 tagged = .ok word ∧ word.length = 32) ∧
    ((TypedData.hashInputs structs (.struct "A") 0 tagged).map (·.layout) =
        [.content, .words 2, .words 3] ∧
      ∀ input ∈ TypedData.hashInputs structs (.struct "A") 0 tagged, input.Aligned) ∧
    (∃ prepared, call.prepare .polynomial 32 [] [0x67] = .ok prepared ∧
      call.LaidOut .polynomial 32 [] [0x67] prepared) ∧
    ((context.hashInputs call).map (·.layout) = List.replicate 3 .content ++ [.words 4] ++
        List.replicate 6 .content ++ [.words 2, .words 9, .marked] ∧
      ∀ input ∈ context.hashInputs call, input.Aligned) ∧
    ∃ verified, VerifiedCall.ofMessage crypto 32 [] [0x67] (Step.strayMessage "a") = .ok verified ∧
      verified.sender.length = 20 := by
  intro crypto structs tagged call context
  have hsized : crypto.hasher.WordSized := Hasher.wordSized_polynomial
  have hparse : Definition.parse 4 "tag(A a)A(uint256 n,bytes2[] tags)".toList =
      .ok TypedData.tagging := Outcome.eq_ok_of_toOption (by decide +kernel)
  have htype : ArgType.Readable (.struct "A") :=
    ⟨0, "A".toList, Outcome.eq_ok_of_toOption (by decide +kernel)⟩
  obtain ⟨word, hword⟩ := Outcome.exists_of_isOk
    (x := TypedData.encode structs (.struct "A") 0 tagged) (by decide +kernel)
  obtain ⟨prepared, hprepared⟩ := Outcome.exists_of_isOk
    (x := call.prepare .polynomial 32 [] [0x67]) (by decide +kernel)
  obtain ⟨verified, hverified⟩ := Outcome.exists_of_isOk
    (x := VerifiedCall.ofMessage crypto 32 [] [0x67] (Step.strayMessage "a")) (by decide +kernel)
  have hlayouts : (context.hashInputs call).map (·.layout) = List.replicate 3 .content ++
      [.words 4] ++ List.replicate 6 .content ++ [.words 2, .words 9, .marked] := by decide +kernel
  obtain ⟨hvalues, hcalls, hcontexts, hmessages⟩ := signed_words_aligned hsized 32 32
  obtain ⟨hencoded, _, haligned⟩ := (hvalues 4 _ _ hparse).1 _ htype 0 tagged
  refine ⟨hsized, hparse, ⟨word, hword, hencoded word hword⟩, ⟨by decide +kernel, haligned⟩,
    ⟨prepared, hprepared, (hcalls [] [0x67] call).1 prepared hprepared⟩,
    ⟨hlayouts, (hcontexts context call rfl).2⟩, verified, hverified, ?_⟩
  exact (hmessages [] [0x67] (Step.strayMessage "a")).2 verified hverified

end SignedRelay
