import SignedRelay.MetaCall.Preimages
import SignedRelay.Proofs.DefinitionText
import SignedRelay.Proofs.Preparation
import SignedRelay.Proofs.Words

/-!
# What a digest binds

Two computations of one digest, read backwards hash by hash. As long as the hash primitive does not
collide on what the two have hashed, equal digests come from equal words, and equal words from equal
texts and numbers. Main statement: calls that share a digest share their domain, gateway, header and
method definition.
-/
namespace SignedRelay

namespace Domain

variable {hasher : Hasher} {inputs : List Bytes}

theorem preimages_of_fields {domain : Domain} {fields : Bytes}
    (h : domain.fields hasher = .ok fields) : domain.preimages hasher =
      [Bytes.utf8 typeText, Bytes.utf8 domain.name, Bytes.utf8 domain.version, fields] :=
  Outcome.collect_of_eq_ok h _

theorem length_fieldWords (hsized : hasher.WordSized) {domain : Domain} {chainId : Bytes}
    (h : Word.ofInt domain.chainId = .ok chainId) :
    ∀ word ∈ domain.fieldWords hasher chainId, word.length = 32 := by
  intro word hword
  simp only [fieldWords, List.mem_cons, List.not_mem_nil, or_false] at hword
  rcases hword with rfl | rfl | rfl | rfl
  · exact hsized _
  · exact hsized _
  · exact hsized _
  · exact Word.length_of_ofInt h

/-- A separator belongs to one domain. -/
theorem eq_of_separator (hsized : hasher.WordSized) (hinj : hasher.InjectiveOn inputs)
    {first second : Domain} {separator : Bytes} (hfirst : first.separator hasher = .ok separator)
    (hsecond : second.separator hasher = .ok separator)
    (hin : first.preimages hasher ⊆ inputs) (hin' : second.preimages hasher ⊆ inputs) :
    first = second := by
  obtain ⟨fields, hfields, hhash⟩ := separator_eq_ok.1 hfirst
  obtain ⟨fields', hfields', hhash'⟩ := separator_eq_ok.1 hsecond
  rw [preimages_of_fields hfields] at hin
  rw [preimages_of_fields hfields'] at hin'
  have heq : fields = fields' :=
    hinj _ (hin (by simp)) _ (hin' (by simp)) (hhash.trans hhash'.symm)
  obtain ⟨chainId, hchain, hwords⟩ := fields_eq_ok.1 hfields
  obtain ⟨chainId', hchain', hwords'⟩ := fields_eq_ok.1 hfields'
  have hlist := Word.flatten_inj (length_fieldWords hsized hchain)
    (length_fieldWords hsized hchain') (by rw [hwords, hwords', heq])
  simp only [fieldWords, List.cons.injEq, and_true, true_and] at hlist
  obtain ⟨hname, hversion, rfl⟩ := hlist
  have hname := Bytes.utf8_injective (hinj _ (hin (by simp)) _ (hin' (by simp)) hname)
  have hversion := Bytes.utf8_injective (hinj _ (hin (by simp)) _ (hin' (by simp)) hversion)
  have hchainId := Word.ofInt_inj hchain hchain'
  cases first
  cases second
  simp only [Domain.mk.injEq]
  exact ⟨hchainId, hname, hversion⟩

end Domain

namespace MetaCall

variable {hasher : Hasher} {inputs : List Bytes}

theorem length_headerList (hsized : hasher.WordSized) {gatewayId : Bytes} {call : MetaCall}
    {argumentsText : List Char} {nonce feeAmount value : Bytes}
    (hnonce : Word.ofInt call.nonce = .ok nonce)
    (hfee : Word.ofInt call.feeAmount = .ok feeAmount)
    (hvalue : Word.ofInt call.value = .ok value) :
    ∀ word ∈ call.headerList hasher gatewayId argumentsText nonce feeAmount value,
      word.length = 32 := by
  intro word hword
  simp only [headerList, List.mem_cons, List.not_mem_nil, or_false] at hword
  rcases hword with rfl | rfl | rfl | rfl | rfl | rfl | rfl
  · exact hsized _
  · exact hsized _
  · exact Word.length_of_ofInt hnonce
  · exact Word.length_of_ofInt hfee
  · exact hsized _
  · exact hsized _
  · exact Word.length_of_ofInt hvalue

theorem length_methodWords (hsized : hasher.WordSized) (definition : Definition) (args : Bytes) :
    ∀ word ∈ methodWords hasher definition args, word.length = 32 := by
  intro word hword
  simp only [methodWords, List.mem_cons, List.not_mem_nil, or_false] at hword
  rcases hword with rfl | rfl
  · exact hsized _
  · exact hsized _

/-- A digest belongs to one separator and one string of words. -/
theorem digest_inj (hinj : hasher.InjectiveOn inputs) {separator separator' words words' : Bytes}
    (hlength : separator.length = separator'.length)
    (h : digest hasher separator words = digest hasher separator' words')
    (hin : digestPreimages hasher separator words ⊆ inputs)
    (hin' : digestPreimages hasher separator' words' ⊆ inputs) :
    separator = separator' ∧ words = words' := by
  unfold digestPreimages at hin hin'
  have hsigned := hinj _ (hin (by simp)) _ (hin' (by simp)) h
  simp only [List.cons_append, List.cons.injEq, true_and] at hsigned
  obtain ⟨hseparator, hhash⟩ := List.append_inj hsigned hlength
  exact ⟨hseparator, hinj _ (hin (by simp)) _ (hin' (by simp)) hhash⟩

/-- The signed words behind the header: none for a call without a method, and two for one with a
method, whose preimages are among the given byte strings. -/
inductive MethodTail [Stack] (hasher : Hasher) (bound : Int) (call : MetaCall) (inputs : List Bytes)
    (argumentsText : List Char) : List Bytes → Prop
  | plain : call.methodName = "" → MethodTail hasher bound call inputs argumentsText []
  | method {definition : Definition} {args : Bytes} :
    call.methodArguments hasher bound argumentsText = .ok (definition, args) →
    Bytes.utf8 definition.method.signature ∈ inputs → args ∈ inputs →
    MethodTail hasher bound call inputs argumentsText (methodWords hasher definition args)

/-- The words that a call is signed for, with the preimages among the given byte strings. -/
structure Signed [Stack] (hasher : Hasher) (bound : Int) (gatewayId : Bytes) (call : MetaCall)
    (inputs : List Bytes) (argumentsText : List Char) (nonce feeAmount value : Bytes)
    (tail : List Bytes) : Prop where
  text_eq : Definition.argumentsText call.methodName.toList = .ok argumentsText
  nonce_eq : Word.ofInt call.nonce = .ok nonce
  feeAmount_eq : Word.ofInt call.feeAmount = .ok feeAmount
  value_eq : Word.ofInt call.value = .ok value
  header_subset : call.headerPreimages gatewayId argumentsText ⊆ inputs
  tail_eq : MethodTail hasher bound call inputs argumentsText tail

theorem exists_signed_of_prepare [Stack] {bound : Int} {separator gatewayId : Bytes} {call : MetaCall}
    {prepared : PreparedCall}
    (h : call.prepare hasher bound separator gatewayId = .ok prepared)
    (hin : call.preimages hasher bound separator gatewayId ⊆ inputs) :
    ∃ argumentsText nonce feeAmount value tail,
      Signed hasher bound gatewayId call inputs argumentsText nonce feeAmount value tail ∧
      let words :=
        (call.headerList hasher gatewayId argumentsText nonce feeAmount value ++ tail).flatten
      prepared.digest = digest hasher separator words ∧
        digestPreimages hasher separator words ⊆ inputs := by
  unfold preimages at hin
  cases hmethod : call.methodName.isEmpty with
  | true =>
    obtain ⟨header, hheader, rfl⟩ := (prepare_eq_ok_of_empty hmethod).1 h
    have htext := argumentsText_of_empty hmethod
    rw [Outcome.collect_of_eq_ok htext, Outcome.collect_of_eq_ok hheader, hmethod, if_pos rfl] at hin
    obtain ⟨hinHeader, hinDigest⟩ := List.append_subset.1 hin
    obtain ⟨nonce, feeAmount, value, hnonce, hfee, hvalue, rfl⟩ := headerWords_eq_ok.1 hheader
    refine ⟨_, nonce, feeAmount, value, [],
      ⟨htext, hnonce, hfee, hvalue, hinHeader, .plain (String.isEmpty_iff.1 hmethod)⟩, ?_⟩
    rw [List.append_nil]
    exact ⟨rfl, hinDigest⟩
  | false =>
    obtain ⟨argumentsText, header, definition, args, htext, hheader, hargs, rfl⟩ :=
      (prepare_eq_ok_of_nonempty hmethod).1 h
    rw [Outcome.collect_of_eq_ok htext, Outcome.collect_of_eq_ok hheader, hmethod,
      if_neg Bool.false_ne_true, Outcome.collect_of_eq_ok hargs] at hin
    obtain ⟨hinHeader, hinMethod⟩ := List.append_subset.1 hin
    obtain ⟨hinSignature, hinArgs⟩ := List.append_subset.1 hinMethod
    obtain ⟨nonce, feeAmount, value, hnonce, hfee, hvalue, rfl⟩ := headerWords_eq_ok.1 hheader
    refine ⟨argumentsText, nonce, feeAmount, value, methodWords hasher definition args,
      ⟨htext, hnonce, hfee, hvalue, hinHeader, .method hargs (hinSignature (by simp))
        (hinArgs (by simp))⟩, ?_⟩
    rw [List.flatten_append]
    refine ⟨rfl, ?_⟩
    have hinDigest := (List.cons_subset.1 hinArgs).2
    simpa [methodWords] using hinDigest

namespace Signed

variable [Stack] {bound bound' : Int} {gatewayId gatewayId' : Bytes} {call call' : MetaCall}
  {argumentsText argumentsText' : List Char} {nonce feeAmount value : Bytes}
  {nonce' feeAmount' value' : Bytes} {tail tail' : List Bytes}

theorem length_words (hsized : hasher.WordSized)
    (h : Signed hasher bound gatewayId call inputs argumentsText nonce feeAmount value tail) :
    ∀ word ∈ call.headerList hasher gatewayId argumentsText nonce feeAmount value ++ tail,
      word.length = 32 := by
  refine List.forall_mem_append.2
    ⟨length_headerList hsized h.nonce_eq h.feeAmount_eq h.value_eq, ?_⟩
  cases h.tail_eq with
  | plain => exact List.forall_mem_nil _
  | method => exact length_methodWords hsized _ _

/-- The texts of two methods agree if those of their arguments and their signatures do, and a method
is told from none by the number of words. -/
theorem methodName_eq (hinj : hasher.InjectiveOn inputs)
    (h : Signed hasher bound gatewayId call inputs argumentsText nonce feeAmount value tail)
    (h' : Signed hasher bound' gatewayId' call' inputs argumentsText nonce' feeAmount' value' tail')
    (htail : tail = tail') : call.methodName = call'.methodName := by
  have htext := h.text_eq
  have htext' := h'.text_eq
  cases h.tail_eq with
  | plain hname =>
    cases h'.tail_eq with
    | plain hname' => rw [hname, hname']
    | method => cases htail
  | method hargs hsignature =>
    cases h'.tail_eq with
    | plain => cases htail
    | method hargs' hsignature' =>
      obtain ⟨_, _, hparse, _⟩ := methodArguments_eq_ok.1 hargs
      obtain ⟨_, _, hparse', _⟩ := methodArguments_eq_ok.1 hargs'
      have hhash := (List.cons.inj htail).1
      have heq := Bytes.utf8_injective (hinj _ hsignature _ hsignature' hhash)
      exact String.toList_inj.1 (Definition.text_unique hparse hparse' htext htext' heq)

/-- The same words are signed for one gateway, one header and one method text. -/
theorem call_eq (hinj : hasher.InjectiveOn inputs)
    (h : Signed hasher bound gatewayId call inputs argumentsText nonce feeAmount value tail)
    (h' : Signed hasher bound' gatewayId' call' inputs argumentsText' nonce' feeAmount' value' tail')
    (hwords : call.headerList hasher gatewayId argumentsText nonce feeAmount value ++ tail =
      call'.headerList hasher gatewayId' argumentsText' nonce' feeAmount' value' ++ tail') :
    gatewayId = gatewayId' ∧ call.nonce = call'.nonce ∧ call.feeAmount = call'.feeAmount ∧
      call.feeAddress = call'.feeAddress ∧ call.contractAddress = call'.contractAddress ∧
      call.value = call'.value ∧ call.methodName = call'.methodName := by
  obtain ⟨hheader, htail⟩ := List.append_inj hwords rfl
  simp only [headerList, List.cons.injEq, and_true] at hheader
  obtain ⟨htype, hgateway, rfl, rfl, hfeeAddress, hcontract, rfl⟩ := hheader
  have hin := h.header_subset
  have hin' := h'.header_subset
  unfold headerPreimages at hin hin'
  have htype := Bytes.utf8_injective (hinj _ (hin (by simp)) _ (hin' (by simp)) htype)
  have htext : argumentsText = argumentsText' :=
    String.ofList_inj.1 (String.append_right_inj _ |>.1 htype)
  subst htext
  exact ⟨hinj _ (hin (by simp)) _ (hin' (by simp)) hgateway,
    Word.ofInt_inj h.nonce_eq h'.nonce_eq,
    Word.ofInt_inj h.feeAmount_eq h'.feeAmount_eq,
    Bytes.utf8_injective (hinj _ (hin (by simp)) _ (hin' (by simp)) hfeeAddress),
    Bytes.utf8_injective (hinj _ (hin (by simp)) _ (hin' (by simp)) hcontract),
    Word.ofInt_inj h.value_eq h'.value_eq,
    methodName_eq hinj h h' htail⟩

end Signed

end MetaCall

namespace SigningContext

theorem length_separator {context : SigningContext} (hsized : context.crypto.hasher.WordSized)
    {separator : Bytes} (h : context.separator = .ok separator) : separator.length = 32 := by
  obtain ⟨fields, _, rfl⟩ := Domain.separator_eq_ok.1 h
  exact hsized fields

/-- A digest belongs to one domain, gateway, header and method text, as long as there is no collision
among byte strings that include its preimages. -/
theorem eq_of_digest [Stack] {first second : SigningContext} {a b : MetaCall}
    {preparedA preparedB : PreparedCall} {inputs : List Bytes}
    (hhasher : first.crypto.hasher = second.crypto.hasher)
    (hsized : first.crypto.hasher.WordSized)
    (ha : first.prepare a = .ok preparedA) (hb : second.prepare b = .ok preparedB)
    (hinj : first.crypto.hasher.InjectiveOn inputs)
    (hinA : first.preimages a ⊆ inputs) (hinB : second.preimages b ⊆ inputs)
    (hdigest : preparedA.digest = preparedB.digest) :
    first.domain = second.domain ∧ first.gatewayId = second.gatewayId ∧ a.nonce = b.nonce ∧
      a.feeAmount = b.feeAmount ∧ a.feeAddress = b.feeAddress ∧
      a.contractAddress = b.contractAddress ∧ a.value = b.value ∧ a.methodName = b.methodName := by
  obtain ⟨separatorA, hseparatorA, hprepareA⟩ := prepare_eq_ok.1 ha
  obtain ⟨separatorB, hseparatorB, hprepareB⟩ := prepare_eq_ok.1 hb
  have hlengthA := length_separator hsized hseparatorA
  have hlengthB := length_separator (hhasher ▸ hsized) hseparatorB
  rw [preimages_of_separator hseparatorA] at hinA
  rw [preimages_of_separator hseparatorB] at hinB
  unfold SigningContext.separator at hseparatorA hseparatorB
  rw [← hhasher] at hseparatorB hprepareB hinB
  obtain ⟨hinDomainA, hinCallA⟩ := List.append_subset.1 hinA
  obtain ⟨hinDomainB, hinCallB⟩ := List.append_subset.1 hinB
  obtain ⟨textA, nonceA, feeA, valueA, tailA, hsignedA, hdigestA, hinDigestA⟩ :=
    MetaCall.exists_signed_of_prepare hprepareA hinCallA
  obtain ⟨textB, nonceB, feeB, valueB, tailB, hsignedB, hdigestB, hinDigestB⟩ :=
    MetaCall.exists_signed_of_prepare hprepareB hinCallB
  rw [hdigestA, hdigestB] at hdigest
  obtain ⟨rfl, hwords⟩ := MetaCall.digest_inj hinj (hlengthA.trans hlengthB.symm) hdigest
    hinDigestA hinDigestB
  have hdomain := Domain.eq_of_separator hsized hinj hseparatorA hseparatorB hinDomainA hinDomainB
  have hlist := Word.flatten_inj (hsignedA.length_words hsized) (hsignedB.length_words hsized) hwords
  exact ⟨hdomain, hsignedA.call_eq hinj hsignedB hlist⟩

/-- Two calls that are signed for under one hash primitive, each in a context of its own, share a
digest only if they share the domain, the gateway, the header and the definition of the method, as
long as the primitive does not collide on what is hashed for the two digests. -/
theorem digest_binds_call [Stack] {first second : SigningContext} {a b : MetaCall}
    {preparedA preparedB : PreparedCall} (hhasher : first.crypto.hasher = second.crypto.hasher)
    (hsized : first.crypto.hasher.WordSized)
    (ha : first.prepare a = .ok preparedA) (hb : second.prepare b = .ok preparedB)
    (hinj : first.crypto.hasher.InjectiveOn (first.preimages a ++ second.preimages b))
    (hdigest : preparedA.digest = preparedB.digest) :
    first.domain = second.domain ∧ first.gatewayId = second.gatewayId ∧ a.nonce = b.nonce ∧
      a.feeAmount = b.feeAmount ∧ a.feeAddress = b.feeAddress ∧
      a.contractAddress = b.contractAddress ∧ a.value = b.value ∧ a.methodName = b.methodName :=
  eq_of_digest hhasher hsized ha hb hinj (List.subset_append_left _ _)
    (List.subset_append_right _ _) hdigest

/-- A payment of two units to a shop, with an amount as its argument. -/
def payment (args : Bytes) : MetaCall where
  nonce := 0
  feeAmount := 1
  feeAddress := "fee"
  contractAddress := "shop"
  methodName := "pay(uint256 n)"
  value := 2
  args := args

/-- A party that hashes by a polynomial, with a nesting bound of its own. -/
def paymentContext (bound : Int) : SigningContext where
  gatewayId := [0x67]
  crypto := ⟨.polynomial, .secp256k1⟩
  bound := bound

/-- The argument one with and without a leading zero byte, under different bounds: the digest is the
same, and so is all that it binds. -/
theorem digest_binds_payment :
    let a := payment [0xc1, 0x01]
    let b := payment [0xc3, 0x82, 0x00, 0x01]
    (∃ preparedA preparedB, (paymentContext 32).prepare a = .ok preparedA ∧
      (paymentContext 4).prepare b = .ok preparedB ∧ preparedA.digest = preparedB.digest) ∧
    (paymentContext 32).domain = (paymentContext 4).domain ∧
    (paymentContext 32).gatewayId = (paymentContext 4).gatewayId ∧ a.nonce = b.nonce ∧
    a.feeAmount = b.feeAmount ∧ a.feeAddress = b.feeAddress ∧
    a.contractAddress = b.contractAddress ∧ a.value = b.value ∧ a.methodName = b.methodName := by
  intro a b
  obtain ⟨preparedA, ha⟩ : ∃ prepared, (paymentContext 32).prepare a = .ok prepared :=
    Outcome.exists_of_isOk (by decide +kernel)
  obtain ⟨preparedB, hb⟩ : ∃ prepared, (paymentContext 4).prepare b = .ok prepared :=
    Outcome.exists_of_isOk (by decide +kernel)
  have hdigest : preparedA.digest = preparedB.digest := by
    have hsame : ((paymentContext 32).prepare a).toOption.map (·.digest) =
        ((paymentContext 4).prepare b).toOption.map (·.digest) := by decide +kernel
    rw [ha, hb] at hsame
    exact Option.some.inj hsame
  have hinj : Hasher.polynomial.InjectiveOn
      ((paymentContext 32).preimages a ++ (paymentContext 4).preimages b) := by decide +kernel
  exact ⟨⟨preparedA, preparedB, ha, hb, hdigest⟩,
    digest_binds_call rfl Hasher.wordSized_polynomial ha hb hinj hdigest⟩

end SigningContext

end SignedRelay
