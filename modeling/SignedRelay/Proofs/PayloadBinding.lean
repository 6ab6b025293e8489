import SignedRelay.Proofs.DigestBinding
import SignedRelay.Proofs.EnvelopeCodec
import SignedRelay.Proofs.RlpCanonical
import SignedRelay.Proofs.WordBinding

/-!
# What a digest says about the payload

The payload of a call is signed through the words of its arguments, and only for a call with a
method. Main statement: two envelopes share a digest exactly when they share the header and the
method text, and their payloads are read as arguments that agree up to padding; a payload without
padded types is bound to the byte.
-/
namespace SignedRelay

namespace MetaCall

/-- Two payloads for a method: any two where there is none, and else two that are read as arguments
that agree up to padding. -/
inductive AgreePayloads [Stack] (bound : Int) (methodName : String) (payload payload' : Bytes) : Prop
  | plain : methodName = "" → AgreePayloads bound methodName payload payload'
  | method {definition : Definition} {values values' : List Rlp} :
    Definition.parse bound methodName.toList = .ok definition →
    Rlp.decodeList bound payload = .ok values → Rlp.decodeList bound payload' = .ok values' →
    TypedData.AgreeFields definition.structs definition.method.params values values' →
    AgreePayloads bound methodName payload payload'

variable {hasher : Hasher} {bound : Int} {separator gatewayId : Bytes} {inputs : List Bytes}
  {a b : MetaCall}

/-- Arguments without padded types are read from one payload only. -/
theorem AgreePayloads.eq_of_unpadded [Stack] {methodName : String} {payload payload' : Bytes}
    (h : AgreePayloads bound methodName payload payload') {definition : Definition}
    (hparse : Definition.parse bound methodName.toList = .ok definition)
    (hunpadded : TypedData.Unpadded definition.declarations) : payload = payload' := by
  cases h with
  | plain hempty =>
    subst hempty
    cases hparse
  | method hparse' hvalues hvalues' hagree =>
    obtain rfl := Except.ok.inj (hparse.symm.trans hparse')
    have hstructs : TypedData.Unpadded definition.structs :=
      fun declaration hmem => hunpadded declaration (List.mem_cons_of_mem _ hmem)
    have heq := TypedData.eq_of_agreeFields hstructs hagree
      (hunpadded definition.method List.mem_cons_self)
    rw [← Rlp.encode_of_decodeList hvalues, ← Rlp.encode_of_decodeList hvalues', heq]

theorem nonempty_of_methodArguments [Stack] {call : MetaCall} {argumentsText : List Char} {args : Bytes}
    {definition : Definition}
    (h : call.methodArguments hasher bound argumentsText = .ok (definition, args)) :
    call.methodName.isEmpty = false := by
  obtain ⟨_, _, hparse, _⟩ := methodArguments_eq_ok.1 h
  cases hmethod : call.methodName.isEmpty with
  | true =>
    rw [String.isEmpty_iff.1 hmethod] at hparse
    cases hparse
  | false => rfl

theorem Signed.headerWords_eq [Stack] {call : MetaCall} {argumentsText : List Char}
    {nonce feeAmount value : Bytes} {tail : List Bytes}
    (h : Signed hasher bound gatewayId call inputs argumentsText nonce feeAmount value tail) :
    call.headerWords hasher gatewayId argumentsText =
      .ok (call.headerList hasher gatewayId argumentsText nonce feeAmount value).flatten :=
  headerWords_eq_ok.2 ⟨nonce, feeAmount, value, h.nonce_eq, h.feeAmount_eq, h.value_eq, rfl⟩

/-- What is hashed for the arguments is among what is hashed for the digest. -/
theorem argumentPreimages_subset [Stack] {call : MetaCall} {argumentsText : List Char}
    {header args : Bytes} {definition : Definition}
    (htext : Definition.argumentsText call.methodName.toList = .ok argumentsText)
    (hheader : call.headerWords hasher gatewayId argumentsText = .ok header)
    (hargs : call.methodArguments hasher bound argumentsText = .ok (definition, args))
    (hin : call.preimages hasher bound separator gatewayId ⊆ inputs) :
    call.argumentPreimages hasher bound definition ⊆ inputs := by
  unfold preimages at hin
  rw [Outcome.collect_of_eq_ok htext, Outcome.collect_of_eq_ok hheader,
    nonempty_of_methodArguments hargs, if_neg Bool.false_ne_true,
    Outcome.collect_of_eq_ok hargs] at hin
  exact fun data hdata => hin (by simp [hdata])

/-- The same signed arguments of one method come from payloads that agree. -/
theorem agreePayloads_of_args [Stack] (hsized : hasher.WordSized) (hinj : hasher.InjectiveOn inputs)
    (hname : a.methodName = b.methodName) {argumentsText : List Char} {args : Bytes}
    {definition definition' : Definition}
    (ha : a.methodArguments hasher bound argumentsText = .ok (definition, args))
    (hb : b.methodArguments hasher bound argumentsText = .ok (definition', args))
    (hinA : a.argumentPreimages hasher bound definition ⊆ inputs)
    (hinB : b.argumentPreimages hasher bound definition' ⊆ inputs) :
    AgreePayloads bound a.methodName a.args b.args := by
  obtain ⟨values, words, hparse, hvalues, hwords, hargs⟩ := methodArguments_eq_ok.1 ha
  obtain ⟨values', words', hparse', hvalues', hwords', hargs'⟩ := methodArguments_eq_ok.1 hb
  rw [← hname] at hparse'
  obtain rfl := Except.ok.inj (hparse.symm.trans hparse')
  obtain rfl := List.append_cancel_left (hargs.trans hargs'.symm)
  unfold argumentPreimages at hinA hinB
  rw [Outcome.collect_of_eq_ok hvalues] at hinA
  rw [Outcome.collect_of_eq_ok hvalues'] at hinB
  have hread := Definition.readFrom_of_parse hparse
  have hagree := TypedData.agreeFields_of_encodeArguments (hread.separates hsized hinj)
    (hread.sized List.mem_cons_self) hwords hwords' hinA hinB
  exact .method hparse hvalues hvalues' hagree

/-- Payloads that agree give the same signed arguments. -/
theorem args_eq_of_agreePayloads [Stack] (hname : a.methodName = b.methodName)
    (hmethod : a.methodName.isEmpty = false) {argumentsText : List Char} {args args' : Bytes}
    {definition definition' : Definition}
    (ha : a.methodArguments hasher bound argumentsText = .ok (definition, args))
    (hb : b.methodArguments hasher bound argumentsText = .ok (definition', args'))
    (hagree : AgreePayloads bound a.methodName a.args b.args) :
    definition = definition' ∧ args = args' := by
  obtain ⟨values, words, hparse, hvalues, hwords, rfl⟩ := methodArguments_eq_ok.1 ha
  obtain ⟨values', words', hparse', hvalues', hwords', rfl⟩ := methodArguments_eq_ok.1 hb
  rw [← hname] at hparse'
  obtain rfl := Except.ok.inj (hparse.symm.trans hparse')
  cases hagree with
  | plain hempty =>
    rw [hempty] at hmethod
    cases hmethod
  | method hfound hread hread' hagree =>
    obtain rfl := Except.ok.inj (hparse.symm.trans hfound)
    obtain rfl := Except.ok.inj (hvalues.symm.trans hread)
    obtain rfl := Except.ok.inj (hvalues'.symm.trans hread')
    rw [TypedData.encodeArguments_eq_of_agree hagree hwords hwords']
    exact ⟨rfl, rfl⟩

/-- Everything of two calls but the arguments is the same. -/
structure SameHeader (a b : MetaCall) : Prop where
  nonce_eq : a.nonce = b.nonce
  feeAmount_eq : a.feeAmount = b.feeAmount
  feeAddress_eq : a.feeAddress = b.feeAddress
  contractAddress_eq : a.contractAddress = b.contractAddress
  value_eq : a.value = b.value
  methodName_eq : a.methodName = b.methodName

theorem SameHeader.headerWords_eq (h : SameHeader a b) (argumentsText : List Char) :
    a.headerWords hasher gatewayId argumentsText = b.headerWords hasher gatewayId argumentsText := by
  unfold headerWords
  rw [h.nonce_eq, h.feeAmount_eq, h.feeAddress_eq, h.contractAddress_eq, h.value_eq]

variable {preparedA preparedB : PreparedCall}

/-- The words behind the header come from payloads that agree. -/
theorem agreePayloads_of_tail [Stack] (hsized : hasher.WordSized) (hinj : hasher.InjectiveOn inputs)
    (hname : a.methodName = b.methodName) {argumentsText : List Char} {tail : List Bytes}
    (hargumentsA : ∀ definition args,
      a.methodArguments hasher bound argumentsText = .ok (definition, args) →
        a.argumentPreimages hasher bound definition ⊆ inputs)
    (hargumentsB : ∀ definition args,
      b.methodArguments hasher bound argumentsText = .ok (definition, args) →
        b.argumentPreimages hasher bound definition ⊆ inputs)
    {tail' : List Bytes} (ha : MethodTail hasher bound a inputs argumentsText tail)
    (hb : MethodTail hasher bound b inputs argumentsText tail') (htail : tail = tail') :
    AgreePayloads bound a.methodName a.args b.args := by
  cases ha with
  | plain hempty => exact .plain hempty
  | method hargs hsignature hmem =>
    cases hb with
    | plain => cases htail
    | method hargs' hsignature' hmem' =>
      obtain ⟨_, hhash⟩ := List.cons.inj htail
      obtain rfl := hinj _ hmem _ hmem' (List.cons.inj hhash).1
      exact agreePayloads_of_args hsized hinj hname hargs hargs' (hargumentsA _ _ hargs)
        (hargumentsB _ _ hargs')

/-- Equal digests come from one header and from payloads that agree. -/
theorem sameHeader_of_digest [Stack] (hsized : hasher.WordSized) (hinj : hasher.InjectiveOn inputs)
    (ha : a.prepare hasher bound separator gatewayId = .ok preparedA)
    (hb : b.prepare hasher bound separator gatewayId = .ok preparedB)
    (hinA : a.preimages hasher bound separator gatewayId ⊆ inputs)
    (hinB : b.preimages hasher bound separator gatewayId ⊆ inputs)
    (hdigest : preparedA.digest = preparedB.digest) :
    SameHeader a b ∧ AgreePayloads bound a.methodName a.args b.args := by
  obtain ⟨textA, nonceA, feeA, valueA, tailA, hsignedA, hdigestA, hinDigestA⟩ :=
    exists_signed_of_prepare ha hinA
  obtain ⟨textB, nonceB, feeB, valueB, tailB, hsignedB, hdigestB, hinDigestB⟩ :=
    exists_signed_of_prepare hb hinB
  rw [hdigestA, hdigestB] at hdigest
  obtain ⟨_, hwords⟩ := digest_inj hinj rfl hdigest hinDigestA hinDigestB
  have hlist := Word.flatten_inj (hsignedA.length_words hsized) (hsignedB.length_words hsized) hwords
  obtain ⟨_, hnonce, hfee, hfeeAddress, hcontract, hvalue, hname⟩ :=
    hsignedA.call_eq hinj hsignedB hlist
  refine ⟨⟨hnonce, hfee, hfeeAddress, hcontract, hvalue, hname⟩, ?_⟩
  have htext := hsignedB.text_eq
  rw [← hname, hsignedA.text_eq] at htext
  obtain rfl := Except.ok.inj htext
  obtain ⟨_, htail⟩ := List.append_inj hlist rfl
  refine agreePayloads_of_tail hsized hinj hname ?_ ?_ hsignedA.tail_eq hsignedB.tail_eq htail
  · intro definition args hargs
    exact argumentPreimages_subset hsignedA.text_eq hsignedA.headerWords_eq hargs hinA
  · intro definition args hargs
    exact argumentPreimages_subset hsignedB.text_eq hsignedB.headerWords_eq hargs hinB

/-- One header and payloads that agree give one digest. -/
theorem digest_eq_of_sameHeader [Stack] (hheader : SameHeader a b)
    (hagree : AgreePayloads bound a.methodName a.args b.args)
    (ha : a.prepare hasher bound separator gatewayId = .ok preparedA)
    (hb : b.prepare hasher bound separator gatewayId = .ok preparedB) :
    preparedA = preparedB := by
  have hname := hheader.methodName_eq
  cases hmethod : a.methodName.isEmpty with
  | true =>
    obtain ⟨header, hwords, rfl⟩ := (prepare_eq_ok_of_empty hmethod).1 ha
    obtain ⟨header', hwords', rfl⟩ := (prepare_eq_ok_of_empty (hname ▸ hmethod)).1 hb
    rw [hheader.headerWords_eq] at hwords
    obtain rfl := Except.ok.inj (hwords.symm.trans hwords')
    rfl
  | false =>
    obtain ⟨text, header, definition, args, htext, hwords, hargs, rfl⟩ :=
      (prepare_eq_ok_of_nonempty hmethod).1 ha
    obtain ⟨text', header', definition', args', htext', hwords', hargs', rfl⟩ :=
      (prepare_eq_ok_of_nonempty (hname ▸ hmethod)).1 hb
    rw [← hname] at htext'
    obtain rfl := Except.ok.inj (htext.symm.trans htext')
    rw [hheader.headerWords_eq] at hwords
    obtain rfl := Except.ok.inj (hwords.symm.trans hwords')
    obtain ⟨rfl, rfl⟩ := args_eq_of_agreePayloads hname hmethod hargs hargs' hagree
    rfl

/-- Two envelopes whose calls are signed for under one primitive, separator and gateway share a
digest exactly if they share the header and their payloads agree, as long as the primitive does not
collide on what is hashed for the two digests. Without padded types in the definition, the payloads
are then equal. -/
theorem digest_binds_payload [Stack] (hsized : hasher.WordSized) (a b : Envelope)
    (ha : (PendingCall.ofEnvelope a).prepare hasher bound separator gatewayId = .ok preparedA)
    (hb : (PendingCall.ofEnvelope b).prepare hasher bound separator gatewayId = .ok preparedB)
    (hinj : hasher.InjectiveOn
      ((PendingCall.ofEnvelope a).preimages hasher bound separator gatewayId ++
        (PendingCall.ofEnvelope b).preimages hasher bound separator gatewayId)) :
    let callA := PendingCall.ofEnvelope a
    let callB := PendingCall.ofEnvelope b
    (preparedA.digest = preparedB.digest ↔ callA.SameHeader callB.toMetaCall ∧
      AgreePayloads bound a.method callA.rawArgs callB.rawArgs) ∧
    (preparedA.digest = preparedB.digest → ∀ definition,
      Definition.parse bound a.method.toList = .ok definition →
      TypedData.Unpadded definition.declarations → callA.rawArgs = callB.rawArgs) := by
  have hbound (hdigest : preparedA.digest = preparedB.digest) :=
    sameHeader_of_digest hsized hinj ha hb (List.subset_append_left _ _)
      (List.subset_append_right _ _) hdigest
  refine ⟨⟨hbound, ?_⟩, ?_⟩
  · rintro ⟨hheader, hagree⟩
    rw [digest_eq_of_sameHeader hheader hagree ha hb]
  · intro hdigest definition hparse hunpadded
    exact (hbound hdigest).2.eq_of_unpadded hparse hunpadded

/-- A method and its payload, signed for under a polynomial. -/
def prepareBlank [Stack] (method : String) (args : Bytes) : Except Error PreparedCall :=
  (PendingCall.ofEnvelope (.blank method args)).prepare .polynomial defaultNesting [] [0x67]

def blankPreimages [Stack] (method : String) (args : Bytes) : List Bytes :=
  (PendingCall.ofEnvelope (.blank method args)).preimages .polynomial defaultNesting [] [0x67]

theorem exists_shared_digest {x y : Except Error PreparedCall} (hx : x.isOk = true)
    (hy : y.isOk = true)
    (h : x.toOption.map PreparedCall.digest = y.toOption.map PreparedCall.digest) :
    ∃ preparedA preparedB, x = .ok preparedA ∧ y = .ok preparedB ∧
      preparedA.digest = preparedB.digest := by
  obtain ⟨preparedA, rfl⟩ := Outcome.exists_of_isOk hx
  obtain ⟨preparedB, rfl⟩ := Outcome.exists_of_isOk hy
  exact ⟨preparedA, preparedB, rfl, rfl, Option.some.inj h⟩

/-- The number one with and without a zero byte in front of it: one digest, and payloads that
agree. -/
theorem digest_binds_number :
    let method := "pay(uint256 n)"
    let payload := [0xc1, 0x01]
    let padded := [0xc3, 0x82, 0x00, 0x01]
    Hasher.polynomial.InjectiveOn (blankPreimages method payload ++ blankPreimages method padded) ∧
    ∃ preparedA preparedB, prepareBlank method payload = .ok preparedA ∧
      prepareBlank method padded = .ok preparedB ∧ preparedA.digest = preparedB.digest ∧
      (PendingCall.ofEnvelope (.blank method payload)).SameHeader
        (PendingCall.ofEnvelope (.blank method padded)).toMetaCall ∧
      AgreePayloads defaultNesting method payload padded := by
  intro method payload padded
  have hinj : Hasher.polynomial.InjectiveOn
      (blankPreimages method payload ++ blankPreimages method padded) := by decide +kernel
  obtain ⟨preparedA, preparedB, ha, hb, hdigest⟩ :=
    exists_shared_digest (x := prepareBlank method payload) (y := prepareBlank method padded)
      (by decide +kernel) (by decide +kernel) (by decide +kernel)
  have hbound := digest_binds_payload Hasher.wordSized_polynomial _ _ ha hb hinj
  exact ⟨hinj, preparedA, preparedB, ha, hb, hdigest, hbound.1.1 hdigest⟩

/-- Two payloads of one method differ and can both be received, and share a digest without a
collision. -/
structure SharedDigest [Stack] (method : String) (payload payload' : Bytes) : Prop where
  received : ∃ message, Envelope.decode message = .ok (.blank method payload)
  received' : ∃ message, Envelope.decode message = .ok (.blank method payload')
  rawArgs_ne : (PendingCall.ofEnvelope (.blank method payload)).rawArgs ≠
    (PendingCall.ofEnvelope (.blank method payload')).rawArgs
  injective : Hasher.polynomial.InjectiveOn
    (blankPreimages method payload ++ blankPreimages method payload')
  digest_eq : ∃ preparedA preparedB, prepareBlank method payload = .ok preparedA ∧
    prepareBlank method payload' = .ok preparedB ∧ preparedA.digest = preparedB.digest

theorem SharedDigest.of_checked [Stack] {method : String} {payload payload' : Bytes}
    (hmethod : (Bytes.utf8 method).length < Bytes.capacity 4)
    (hpayload : payload.length < Bytes.capacity 4) (hpayload' : payload'.length < Bytes.capacity 4)
    (hne : payload ≠ payload')
    (hinj : Hasher.polynomial.InjectiveOn
      (blankPreimages method payload ++ blankPreimages method payload'))
    (hok : (prepareBlank method payload).isOk = true)
    (hok' : (prepareBlank method payload').isOk = true)
    (hsame : (prepareBlank method payload).toOption.map PreparedCall.digest =
      (prepareBlank method payload').toOption.map PreparedCall.digest) :
    SharedDigest method payload payload' where
  received := Envelope.exists_decode_blank hmethod hpayload
  received' := Envelope.exists_decode_blank hmethod hpayload'
  rawArgs_ne := hne
  injective := hinj
  digest_eq := exists_shared_digest hok hok' hsame

/-- A call without a method leaves its payload free, and a method does not tell a number from one
behind a zero byte, or a fixed byte string from one before it. -/
theorem sharedDigest_of_payloads :
    SharedDigest "" [] [0xc1, 0x01] ∧
    SharedDigest "pay(uint256 n)" [0xc1, 0x01] [0xc3, 0x82, 0x00, 0x01] ∧
    SharedDigest "tag(bytes2 b)" [0xc1, 0x01] [0xc3, 0x82, 0x01, 0x00] := by
  refine ⟨.of_checked ?_ ?_ ?_ ?_ ?_ ?_ ?_ ?_, .of_checked ?_ ?_ ?_ ?_ ?_ ?_ ?_ ?_,
    .of_checked ?_ ?_ ?_ ?_ ?_ ?_ ?_ ?_⟩
  all_goals decide +kernel

end MetaCall

end SignedRelay
