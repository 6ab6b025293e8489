import SignedRelay.MetaCall.Verify
import SignedRelay.Proofs.DefinitionText

/-!
# What a prepared call is put together from

Success of preparation, taken apart: the words of the domain and of the header, and the method with
its arguments. Main statement: a call is prepared exactly when its text has arguments, its numbers fit
a word and its method, if it has one, reads its arguments; the digest is then that of these words.
-/
namespace SignedRelay

namespace Domain

/-- The words of a domain: the digests of its texts, and its chain. -/
def fieldWords (hasher : Hasher) (domain : Domain) (chainId : Bytes) : List Bytes :=
  [hasher.hash (Bytes.utf8 typeText), hasher.hash (Bytes.utf8 domain.name),
    hasher.hash (Bytes.utf8 domain.version), chainId]

theorem fields_eq_ok {hasher : Hasher} {domain : Domain} {fields : Bytes} :
    domain.fields hasher = .ok fields ↔ ∃ chainId, Word.ofInt domain.chainId = .ok chainId ∧
      (domain.fieldWords hasher chainId).flatten = fields := by
  unfold Domain.fields
  rw [Outcome.bind_eq_ok]
  simp only [Outcome.pure_eq_ok, fieldWords, List.flatten_cons, List.flatten_nil, List.append_nil,
    List.append_assoc]

theorem separator_eq_ok {hasher : Hasher} {domain : Domain} {separator : Bytes} :
    domain.separator hasher = .ok separator ↔
      ∃ fields, domain.fields hasher = .ok fields ∧ hasher.hash fields = separator :=
  Outcome.map_eq_ok

end Domain

namespace MetaCall

theorem headerWord_eq_ok {value : Int} {word : Bytes} :
    headerWord value = .ok word ↔ Word.ofInt value = .ok word := by
  unfold headerWord
  cases Word.ofInt value with
  | error error => simp
  | ok found => simp

/-- The words of the header, given those of its numbers. -/
def headerList (hasher : Hasher) (gatewayId : Bytes) (call : MetaCall) (argumentsText : List Char)
    (nonce feeAmount value : Bytes) : List Bytes :=
  [hasher.hash (Bytes.utf8 (typeText ++ String.ofList argumentsText)), hasher.hash gatewayId, nonce,
    feeAmount, hasher.hash (Bytes.utf8 call.feeAddress),
    hasher.hash (Bytes.utf8 call.contractAddress), value]

theorem headerWords_eq_ok {hasher : Hasher} {gatewayId : Bytes} {call : MetaCall}
    {argumentsText : List Char} {header : Bytes} :
    call.headerWords hasher gatewayId argumentsText = .ok header ↔
      ∃ nonce feeAmount value, Word.ofInt call.nonce = .ok nonce ∧
        Word.ofInt call.feeAmount = .ok feeAmount ∧ Word.ofInt call.value = .ok value ∧
        (call.headerList hasher gatewayId argumentsText nonce feeAmount value).flatten =
          header := by
  unfold headerWords
  constructor
  · intro h
    obtain ⟨nonce, hnonce, h⟩ := Outcome.bind_eq_ok.1 h
    obtain ⟨feeAmount, hfee, h⟩ := Outcome.bind_eq_ok.1 h
    obtain ⟨value, hvalue, h⟩ := Outcome.bind_eq_ok.1 h
    refine ⟨nonce, feeAmount, value, headerWord_eq_ok.1 hnonce, headerWord_eq_ok.1 hfee,
      headerWord_eq_ok.1 hvalue, ?_⟩
    rw [← Outcome.pure_eq_ok.1 h]
    simp [headerList]
  · rintro ⟨nonce, feeAmount, value, hnonce, hfee, hvalue, rfl⟩
    refine Outcome.bind_eq_ok.2 ⟨nonce, headerWord_eq_ok.2 hnonce, ?_⟩
    refine Outcome.bind_eq_ok.2 ⟨feeAmount, headerWord_eq_ok.2 hfee, ?_⟩
    refine Outcome.bind_eq_ok.2 ⟨value, headerWord_eq_ok.2 hvalue, Outcome.pure_eq_ok.2 ?_⟩
    simp [headerList]

theorem methodArguments_eq_ok [Stack] {hasher : Hasher} {bound : Int} {call : MetaCall}
    {argumentsText : List Char} {definition : Definition} {args : Bytes} :
    call.methodArguments hasher bound argumentsText = .ok (definition, args) ↔
      ∃ values words, Definition.parse bound call.methodName.toList = .ok definition ∧
        Rlp.decodeList bound call.args = .ok values ∧
        TypedData.encodeArguments
          { structs := definition.structs, hasher, bound, room := Stack.hashing }
          definition.method.params values = .ok words ∧
        hasher.hash (Bytes.utf8 (String.ofList argumentsText)) ++ words = args := by
  unfold methodArguments
  constructor
  · intro h
    obtain ⟨found, hparse, h⟩ := Outcome.bind_eq_ok.1 h
    obtain ⟨values, hvalues, h⟩ := Outcome.bind_eq_ok.1 h
    obtain ⟨words, hwords, h⟩ := Outcome.bind_eq_ok.1 h
    obtain ⟨rfl, hargs⟩ := Prod.mk.inj (Outcome.pure_eq_ok.1 h)
    exact ⟨values, words, hparse, hvalues, hwords, hargs⟩
  · rintro ⟨values, words, hparse, hvalues, hwords, rfl⟩
    refine Outcome.bind_eq_ok.2 ⟨definition, hparse, ?_⟩
    refine Outcome.bind_eq_ok.2 ⟨values, hvalues, ?_⟩
    exact Outcome.bind_eq_ok.2 ⟨words, hwords, rfl⟩

/-- The signed words behind the header, for a method with its argument bytes. -/
def methodWords (hasher : Hasher) (definition : Definition) (args : Bytes) : List Bytes :=
  [hasher.hash (Bytes.utf8 definition.method.signature), hasher.hash args]

theorem argumentsText_of_empty {call : MetaCall} (h : call.methodName.isEmpty = true) :
    Definition.argumentsText call.methodName.toList = .ok "Arguments()".toList := by
  rw [String.isEmpty_iff.1 h]
  rfl

/-- A call without a method is prepared from its header. -/
theorem prepare_eq_ok_of_empty [Stack] {hasher : Hasher} {bound : Int} {separator gatewayId : Bytes}
    {call : MetaCall} {prepared : PreparedCall} (hempty : call.methodName.isEmpty = true) :
    call.prepare hasher bound separator gatewayId = .ok prepared ↔
      ∃ header, call.headerWords hasher gatewayId "Arguments()".toList = .ok header ∧
        { digest := digest hasher separator header, methodName := "", args := [] } = prepared := by
  unfold prepare
  rw [Outcome.bind_of_eq_ok (argumentsText_of_empty hempty), Outcome.bind_eq_ok]
  simp only [hempty, if_true]
  simp only [Outcome.pure_eq_ok]

/-- A call with a method is prepared from its header, its definition and its arguments. -/
theorem prepare_eq_ok_of_nonempty [Stack] {hasher : Hasher} {bound : Int} {separator gatewayId : Bytes}
    {call : MetaCall} {prepared : PreparedCall} (hmethod : call.methodName.isEmpty = false) :
    call.prepare hasher bound separator gatewayId = .ok prepared ↔
      ∃ argumentsText header definition args,
        Definition.argumentsText call.methodName.toList = .ok argumentsText ∧
        call.headerWords hasher gatewayId argumentsText = .ok header ∧
        call.methodArguments hasher bound argumentsText = .ok (definition, args) ∧
        { digest := digest hasher separator (header ++ (methodWords hasher definition args).flatten)
          methodName := definition.method.name
          args } = prepared := by
  unfold prepare
  simp only [hmethod, Bool.false_eq_true, if_false]
  constructor
  · intro h
    obtain ⟨argumentsText, htext, h⟩ := Outcome.bind_eq_ok.1 h
    obtain ⟨header, hheader, h⟩ := Outcome.bind_eq_ok.1 h
    obtain ⟨⟨definition, args⟩, hargs, h⟩ := Outcome.bind_eq_ok.1 h
    refine ⟨argumentsText, header, definition, args, htext, hheader, hargs, ?_⟩
    rw [← Outcome.pure_eq_ok.1 h]
    simp [methodWords]
  · rintro ⟨argumentsText, header, definition, args, htext, hheader, hargs, rfl⟩
    refine Outcome.bind_eq_ok.2 ⟨argumentsText, htext, ?_⟩
    refine Outcome.bind_eq_ok.2 ⟨header, hheader, ?_⟩
    refine Outcome.bind_eq_ok.2 ⟨(definition, args), hargs, Outcome.pure_eq_ok.2 ?_⟩
    simp [methodWords]

/-- Behind its header, only the method and the arguments of a call can stop its preparation. -/
theorem prepare_eq_error_iff_of_header [Stack] {hasher : Hasher} {bound : Int}
    {separator gatewayId : Bytes}
    {call : MetaCall} {argumentsText : List Char} {header : Bytes} {error : Error}
    (hmethod : call.methodName.isEmpty = false)
    (htext : Definition.argumentsText call.methodName.toList = .ok argumentsText)
    (hheader : call.headerWords hasher gatewayId argumentsText = .ok header) :
    call.prepare hasher bound separator gatewayId = .error error ↔
      call.methodArguments hasher bound argumentsText = .error error := by
  unfold prepare
  rw [Outcome.bind_of_eq_ok htext, Outcome.bind_of_eq_ok hheader, hmethod, if_neg Bool.false_ne_true]
  exact Outcome.bind_eq_error_iff fun _ => ⟨_, rfl⟩

/-- The arguments as they arrived are not among what is signed. -/
theorem prepare_rawArgs [Stack] (hasher : Hasher) (bound : Int) (separator gatewayId : Bytes)
    (call : MetaCall) (rawArgs : Bytes) :
    MetaCall.prepare hasher bound separator gatewayId { call with rawArgs } =
      call.prepare hasher bound separator gatewayId := rfl

theorem length_digest_of_prepare [Stack] {hasher : Hasher} (hsized : hasher.WordSized) {bound : Int}
    {separator gatewayId : Bytes} {call : MetaCall} {prepared : PreparedCall}
    (h : call.prepare hasher bound separator gatewayId = .ok prepared) :
    prepared.digest.length = 32 := by
  cases hmethod : call.methodName.isEmpty with
  | true =>
    obtain ⟨_, _, rfl⟩ := (prepare_eq_ok_of_empty hmethod).1 h
    exact hsized _
  | false =>
    obtain ⟨_, _, _, _, _, _, _, rfl⟩ := (prepare_eq_ok_of_nonempty hmethod).1 h
    exact hsized _

theorem methodName_of_prepare [Stack] {hasher : Hasher} {bound : Int} {separator gatewayId : Bytes}
    {call : MetaCall} {prepared : PreparedCall}
    (h : call.prepare hasher bound separator gatewayId = .ok prepared) :
    prepared.methodName.toList = Definition.bareName call.methodName.toList := by
  cases hmethod : call.methodName.isEmpty with
  | true =>
    obtain ⟨_, _, rfl⟩ := (prepare_eq_ok_of_empty hmethod).1 h
    rw [String.isEmpty_iff.1 hmethod]
    rfl
  | false =>
    obtain ⟨_, _, _, _, _, _, hargs, rfl⟩ := (prepare_eq_ok_of_nonempty hmethod).1 h
    obtain ⟨_, _, hparse, _⟩ := methodArguments_eq_ok.1 hargs
    exact (Definition.bareName_of_parse hparse).symm

end MetaCall

theorem SigningContext.prepare_eq_ok [Stack] {context : SigningContext} {call : MetaCall}
    {prepared : PreparedCall} :
    context.prepare call = .ok prepared ↔ ∃ separator, context.separator = .ok separator ∧
      call.prepare context.crypto.hasher context.bound separator context.gatewayId =
        .ok prepared := by
  unfold SigningContext.prepare
  rw [Outcome.bind_eq_ok]
  simp only [Outcome.mapError_eq_ok]

end SignedRelay
