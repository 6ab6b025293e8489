import SignedRelay.MetaCall.Verify
import SignedRelay.Proofs.DefinitionParsing
import SignedRelay.Proofs.EnvelopeCodec
import SignedRelay.Proofs.Preparation
import SignedRelay.Proofs.TypedAcceptance
import SignedRelay.Proofs.TypeWords

/-!
# Which faults a message can cause

Reading a numeral is the one step that can fault, as long as the stack holds values within the bound on
nesting: everything else that reads or hashes a call refuses what it cannot take. Main statement: preparing
a call whose numbers fit a word faults only for a numeral in the text of its method that is too long to be
read, or for a stack that does not hold the bound, and refuses no number and no signature.
-/
namespace SignedRelay

open Outcome Text

/-- The refusal is of something else than a number that does not fit a word. -/
def Refusal.NotOfRange : Refusal → Prop
  | .encoding (.wordRange _) => False
  | _ => True

/-- A failure is a refusal, but not of a number that does not fit a word, or a fault of a kind. -/
def Error.Faults (P : Fault → Prop) : Error → Prop
  | .refused refusal => refusal.NotOfRange
  | .fault cause => P cause

theorem Error.Faults.mono {P Q : Fault → Prop} {error : Error} (h : error.Faults P)
    (himp : ∀ cause, P cause → Q cause) : error.Faults Q := by
  cases error with
  | refused refusal => exact h
  | fault cause => exact himp cause h

/-- The refusal is of what a call contains: neither of a number that does not fit a word, nor of a
signature. -/
def Refusal.OfContent : Refusal → Prop
  | .encoding (.wordRange _) | .signature _ => False
  | _ => True

/-- A failure is a refusal of what a call contains, or a fault of a kind. -/
def Error.OfContent (P : Fault → Prop) : Error → Prop
  | .refused refusal => refusal.OfContent
  | .fault cause => P cause

theorem Error.OfContent.mono {P Q : Fault → Prop} {error : Error} (h : error.OfContent P)
    (himp : ∀ cause, P cause → Q cause) : error.OfContent Q := by
  cases error with
  | refused refusal => exact h
  | fault cause => exact himp cause h

theorem Error.OfContent.faults {P : Fault → Prop} {error : Error} (h : error.OfContent P) :
    error.Faults P := by
  cases error with
  | fault cause => exact h
  | refused refusal =>
    cases refusal with
    | encoding cause =>
      cases cause with
      | wordRange value => exact h
      | _ => trivial
    | _ => trivial

theorem Error.OfContent.ne_signature {P : Fault → Prop} {error : Error} (h : error.OfContent P)
    (cause : SignatureError) : error ≠ .signature cause := by
  rintro rfl
  exact h

theorem Error.IsMisfit.ofContent {P : Fault → Prop} {error : Error} (h : error.IsMisfit) :
    error.OfContent P := by
  obtain ⟨cause, rfl⟩ | ⟨cause, rfl⟩ := h
  · trivial
  · trivial

theorem failsOnly_fault {α : Type} {P : Fault → Prop} {x : Except Fault α} (h : FailsOnly P x) :
    FailsOnly (Error.OfContent P) (x.mapError .fault) :=
  FailsOnly.mapError h

/-- The cause is a numeral of a text that is too long to be read. -/
def Fault.IsNumeralOf (text : List Char) (cause : Fault) : Prop :=
  ∃ digits, digits <:+: text ∧ (∀ c ∈ digits, c.isDigit = true) ∧ numeralLimit < digits.length ∧
    cause = .numeralLength digits.length

theorem Fault.IsNumeralOf.mono {part text : List Char} {cause : Fault}
    (h : cause.IsNumeralOf part) (hpart : part <:+: text) : cause.IsNumeralOf text := by
  obtain ⟨digits, hrun, hdigits, hlong, hcause⟩ := h
  exact ⟨digits, hrun.trans hpart, hdigits, hlong, hcause⟩

/-- The stack is exhausted, and does not hold values within a bound on nesting. -/
def Fault.IsExhaustion [Stack] (bound : Int) (cause : Fault) : Prop :=
  cause = .stackExhausted ∧ ¬Stack.Holds bound

/-- The cause is a numeral of a method text, or the nesting of the arguments behind it. -/
def Fault.IsOfMethod [Stack] (bound : Int) (text : List Char) (cause : Fault) : Prop :=
  cause.IsNumeralOf text ∨ cause.IsExhaustion bound

/-- The computation fails only for what a call contains, and faults only for a numeral of a text. -/
abbrev FailsByContent {α : Type} (text : List Char) (x : Except Error α) : Prop :=
  FailsOnly (Error.OfContent (Fault.IsNumeralOf text)) x

theorem FailsByContent.mono {α : Type} {part text : List Char} {x : Except Error α}
    (h : FailsByContent part x) (hpart : part <:+: text) : FailsByContent text x :=
  FailsOnly.mono h fun _ herror => herror.mono fun _ hcause => hcause.mono hpart

namespace ArgType

theorem failures_numeral {digits text : List Char} (hpart : digits <:+: text)
    (hdigits : ∀ c ∈ digits, c.isDigit = true) :
    FailsOnly (Fault.IsNumeralOf text) (numeral digits) := by
  unfold numeral
  split
  · next hlong => exact failsOnly_error ⟨digits, hpart, hdigits, hlong, rfl⟩
  · exact failsOnly_ok _

theorem failures_ofSizedInteger {type : ArgType} {word digits text : List Char}
    (hpart : digits <:+: text) (hdigits : ∀ c ∈ digits, c.isDigit = true) :
    FailsByContent text (ofSizedInteger type word digits) := by
  unfold ofSizedInteger
  refine FailsOnly.bind (failsOnly_fault (failures_numeral hpart hdigits)) fun size _ => ?_
  split
  · exact failsOnly_pure _
  · exact failsOnly_throw trivial

theorem failures_ofSizedBytes {word digits text : List Char}
    (hpart : digits <:+: text) (hdigits : ∀ c ∈ digits, c.isDigit = true) :
    FailsByContent text (ofSizedBytes word digits) := by
  unfold ofSizedBytes
  refine FailsOnly.bind (failsOnly_fault (failures_numeral hpart hdigits)) fun size _ => ?_
  split
  · exact failsOnly_pure _
  · exact failsOnly_throw trivial

theorem digits_of_digitsAfter? {stem word digits : List Char}
    (h : digitsAfter? stem word = some digits) :
    digits <:+ word ∧ ∀ c ∈ digits, c.isDigit = true := by
  obtain ⟨rfl, _, hdigits⟩ := digitsAfter?_eq_some_iff.1 h
  exact ⟨List.suffix_append _ _, fun c hc => isDigit_iff.2 (hdigits c hc)⟩

theorem failures_ofWord (word : List Char) : FailsByContent word (ofWord word) := by
  unfold ofWord
  split
  · exact failsOnly_ok _
  split
  · next hdigits =>
    obtain ⟨hback, hall⟩ := digits_of_digitsAfter? hdigits
    exact failures_ofSizedInteger hback.isInfix hall
  split
  · next hdigits =>
    obtain ⟨hback, hall⟩ := digits_of_digitsAfter? hdigits
    exact failures_ofSizedInteger hback.isInfix hall
  split
  · next hdigits =>
    obtain ⟨hback, hall⟩ := digits_of_digitsAfter? hdigits
    exact failures_ofSizedBytes hback.isInfix hall
  · exact failsOnly_ok _

theorem failures_suffixLength {text digits rest : List Char}
    (h : suffix? text = some (digits, rest)) : FailsByContent text (suffixLength digits) := by
  have hpart : digits <:+: text := ⟨['['], ']' :: rest, (append_of_suffix? h).symm⟩
  unfold suffixLength
  split
  · exact failsOnly_ok _
  · exact failsOnly_fault ((failures_numeral hpart (isDigit_of_suffix? h)).map some)

theorem failures_wrap (text : List Char) (bound : Int) (type : ArgType) (depth : Nat)
    (rest : List Char) : FailsByContent rest (wrap text bound type depth rest) := by
  fun_induction wrap text bound type depth rest with
  | case1 type depth rest hempty => exact failsOnly_ok _
  | case2 type depth rest hempty hback => exact failsOnly_error trivial
  | case3 type depth rest hempty digits after hback hbound => exact failsOnly_error trivial
  | case4 type depth rest hempty digits after hback hbound error hlength =>
    exact failsOnly_error (failures_suffixLength hback error hlength)
  | case5 type depth rest hempty digits after hback hbound length hlength ih =>
    have hafter : after <:+ rest := ⟨'[' :: digits ++ [']'], by simp [append_of_suffix? hback]⟩
    exact FailsByContent.mono ih hafter.isInfix

/-- Reading a type fails only for its text, and faults only for a numeral in it. -/
theorem failures_parse (bound : Int) (text : List Char) : FailsByContent text (parse bound text) := by
  unfold parse
  split
  · exact failsOnly_error trivial
  · next word rest hidentifier =>
    have htext := Text.append_of_identifier? hidentifier
    split
    · next error hword =>
      have hfront : word <+: text := ⟨rest, htext⟩
      exact failsOnly_error ((failures_ofWord word).mono hfront.isInfix error hword)
    · have hback : rest <:+ text := ⟨word, htext⟩
      exact (failures_wrap text bound _ 0 rest).mono hback.isInfix

end ArgType

namespace Definition.Parser

variable {bound : Int}

theorem failures_name {P : Fault → Prop} (text : List Char) :
    FailsOnly (Error.OfContent P) (name text) := by
  unfold name
  split
  · exact failsOnly_ok _
  · exact failsOnly_error trivial

theorem failures_consume {P : Fault → Prop} (c : Char) (text : List Char) :
    FailsOnly (Error.OfContent P) (consume c text) := by
  cases text with
  | nil => exact failsOnly_error trivial
  | cons head rest =>
    by_cases h : head = c
    · rw [consume, if_pos h]
      exact failsOnly_ok rest
    · rw [consume, if_neg h]
      exact failsOnly_error trivial

theorem failures_param (text : List Char) : FailsByContent text (param bound text) := by
  unfold param
  split
  · exact failsOnly_error trivial
  · have hfront : text.takeWhile (· != ' ') <+: text := List.takeWhile_prefix _
    refine FailsOnly.bind ((ArgType.failures_parse bound _).mono hfront.isInfix) fun type _ => ?_
    exact FailsOnly.bind (failures_name _) fun named _ => failsOnly_pure _

theorem suffix_of_param {text rest : List Char} {found : Param}
    (h : param bound text = .ok (found, rest)) : rest <:+ text :=
  ⟨found.render, (param_sound h).1.symm⟩

theorem suffix_of_declaration {text rest : List Char} {found : Declaration}
    (h : declaration bound text = .ok (found, rest)) : rest <:+ text :=
  ⟨found.render, (declaration_sound h).1.symm⟩

theorem failures_moreParams (text : List Char) : FailsByContent text (moreParams bound text) := by
  fun_induction moreParams bound text with
  | case1 afterComma error hparam =>
    have hback : afterComma <:+ ',' :: afterComma := List.suffix_cons _ _
    exact failsOnly_error ((failures_param afterComma).mono hback.isInfix error hparam)
  | case2 afterComma first tail hparam ih =>
    have hback := (suffix_of_param hparam).trans (List.suffix_cons ',' afterComma)
    exact FailsOnly.bind (ih.mono hback.isInfix) fun others _ => failsOnly_pure _
  | case3 text hcomma => exact failsOnly_ok _

theorem failures_params (text : List Char) : FailsByContent text (params bound text) := by
  unfold params
  refine FailsOnly.bind (failures_consume '(' text) fun inside hopen => ?_
  have hinside : inside <:+ text := ⟨['('], (consume_eq_ok.1 hopen).symm⟩
  split
  · exact failsOnly_throw trivial
  · split
    · refine FailsOnly.bind ((failures_param _).mono hinside.isInfix) fun first hfirst => ?_
      have hafter := (suffix_of_param hfirst).trans hinside
      refine FailsOnly.bind ((failures_moreParams _).mono hafter.isInfix) fun others _ => ?_
      exact FailsOnly.bind (failures_consume ')' _) fun last _ => failsOnly_pure _
    · exact FailsOnly.bind (failures_consume ')' _) fun last _ => failsOnly_pure _

theorem failures_declaration (text : List Char) : FailsByContent text (declaration bound text) := by
  unfold declaration
  refine FailsOnly.bind (failures_name text) fun named hname => ?_
  have hback : named.2 <:+ text := ⟨named.1.toList, append_of_name hname⟩
  exact FailsOnly.bind ((failures_params named.2).mono hback.isInfix) fun listed _ =>
    failsOnly_pure _

theorem failures_structs (earlier : List Declaration) (text : List Char) :
    FailsByContent text (structs bound earlier text) := by
  fun_induction structs bound earlier text with
  | case1 earlier text hempty => exact failsOnly_ok _
  | case2 earlier text hempty error hdeclaration =>
    exact failsOnly_error (failures_declaration text error hdeclaration)
  | case3 earlier text hempty first rest hdeclaration hrepeated => exact failsOnly_error trivial
  | case4 earlier text hempty first rest hdeclaration hrepeated ih =>
    exact ih.mono (suffix_of_declaration hdeclaration).isInfix

end Definition.Parser

/-- Reading a definition fails only for its text, and faults only for a numeral in it. -/
theorem Definition.failures_parse (bound : Int) (text : List Char) :
    FailsByContent text (Definition.parse bound text) := by
  unfold Definition.parse
  refine FailsOnly.bind (Parser.failures_declaration text) fun method hmethod => ?_
  have hback := (Parser.suffix_of_declaration hmethod).isInfix
  refine FailsOnly.bind ((Parser.failures_structs [] method.2).mono hback) fun structs _ => ?_
  dsimp only
  split
  · exact failsOnly_throw trivial
  · exact failsOnly_pure _

theorem Definition.failures_argumentsText {P : Fault → Prop} (text : List Char) :
    FailsOnly (Error.OfContent P) (Definition.argumentsText text) := by
  unfold argumentsText
  split
  · exact failsOnly_ok _
  · split
    · exact failsOnly_error trivial
    · exact failsOnly_ok _

section Arguments

variable [Stack]

theorem Rlp.failures_decodeList (bound : Int) (data : Bytes) :
    FailsOnly (Error.OfContent (Fault.IsExhaustion bound)) (Rlp.decodeList bound data) := by
  unfold decodeList
  obtain ⟨value, hdecode⟩ | hdecode | hdecode | ⟨hlarge, hdecode⟩ := decode_cases bound data
  · rw [hdecode]
    cases value with
    | bytes content => exact failsOnly_error trivial
    | list items => exact failsOnly_ok _
  · rw [hdecode]
    exact failsOnly_error trivial
  · rw [hdecode]
    exact failsOnly_error trivial
  · rw [hdecode]
    exact failsOnly_error ⟨rfl, fun hholds => absurd hholds.bound_le (Int.not_le.2 hlarge)⟩

/-- Where the stack holds the bound under which arguments are read, it has room for them. -/
theorem TypedData.hasRoom_of_decodeList {structs : List Declaration} {hasher : Hasher} {bound : Int}
    {params : List Param} {data : Bytes} {values : List Rlp}
    (hvalues : Rlp.decodeList bound data = .ok values) (hholds : Stack.Holds bound) :
    Context.HasRoom { structs, hasher, bound, room := Stack.hashing } params values := by
  refine hasRoom_of_holds hholds (Int.le_refl _) (fun value hmem => ?_) params
  exact Int.le_of_lt (Rlp.height_lt_of_decodeList hvalues value hmem)

/-- No value faults, unless it exhausts the stack. -/
theorem TypedData.failures_encodeArguments {bound : Int} {data : Bytes} {values : List Rlp}
    (hvalues : Rlp.decodeList bound data = .ok values) (structs : List Declaration) (hasher : Hasher)
    (params : List Param) : FailsOnly (Error.OfContent (Fault.IsExhaustion bound))
      (encodeArguments { structs, hasher, bound, room := Stack.hashing } params values) := by
  refine FailsOnly.mono (misfits_encodeArguments params values) ?_
  rintro error (hmisfit | ⟨rfl, hnone⟩)
  · exact hmisfit.ofContent
  · exact ⟨rfl, fun hholds => hnone (hasRoom_of_decodeList hvalues hholds)⟩

namespace MetaCall

variable {hasher : Hasher} {bound : Int} {separator gatewayId : Bytes} {call : MetaCall}

theorem failures_methodArguments (argumentsText : List Char) :
    FailsOnly (Error.OfContent (Fault.IsOfMethod bound call.methodName.toList))
      (call.methodArguments hasher bound argumentsText) := by
  have ofArguments {α : Type} {x : Except Error α}
      (h : FailsOnly (Error.OfContent (Fault.IsExhaustion bound)) x) :
      FailsOnly (Error.OfContent (Fault.IsOfMethod bound call.methodName.toList)) x :=
    h.mono fun _ herror => herror.mono fun _ => Or.inr
  have hparse : FailsOnly (Error.OfContent (Fault.IsOfMethod bound call.methodName.toList))
      (Definition.parse bound call.methodName.toList) :=
    FailsOnly.mono (Definition.failures_parse bound _) fun _ herror => herror.mono fun _ => Or.inl
  unfold methodArguments
  refine FailsOnly.bind hparse fun definition _ => ?_
  refine FailsOnly.bind (ofArguments (Rlp.failures_decodeList bound _)) fun values hvalues => ?_
  exact FailsOnly.bind (ofArguments (TypedData.failures_encodeArguments hvalues _ _ _))
    fun words _ => failsOnly_pure _

/-- Preparing a call whose header has its words fails only for its content. -/
theorem failures_prepare (hheader : ∀ argumentsText, ∃ header,
      call.headerWords hasher gatewayId argumentsText = .ok header) :
    FailsOnly (Error.OfContent (Fault.IsOfMethod bound call.methodName.toList))
      (call.prepare hasher bound separator gatewayId) := by
  unfold prepare
  refine FailsOnly.bind (Definition.failures_argumentsText _) fun argumentsText _ => ?_
  obtain ⟨header, hwords⟩ := hheader argumentsText
  rw [hwords]
  refine FailsOnly.bind (failsOnly_ok header) fun header _ => ?_
  split
  · exact failsOnly_pure _
  · exact FailsOnly.bind (failures_methodArguments _) fun found _ => failsOnly_pure _

/-- Preparing a call whose header has its words faults only for its method and its arguments. -/
theorem faults_prepare (hheader : ∀ argumentsText, ∃ header,
      call.headerWords hasher gatewayId argumentsText = .ok header) :
    FailsOnly (Error.Faults (Fault.IsOfMethod bound call.methodName.toList))
      (call.prepare hasher bound separator gatewayId) :=
  FailsOnly.mono (failures_prepare hheader) fun _ herror => herror.faults

end MetaCall

end Arguments

/-- The numbers of an envelope have the length of a word, so that they fit one. -/
theorem PendingCall.exists_headerWords {envelope : Envelope} (h : envelope.WellFormed)
    (hasher : Hasher) (gatewayId : Bytes) (argumentsText : List Char) :
    ∃ header, (ofEnvelope envelope).headerWords hasher gatewayId argumentsText = .ok header := by
  have hnonce := Word.ofInt_toNatBE (Nat.le_of_eq h.nonce)
  have hfee := Word.ofInt_toNatBE (Nat.le_of_eq h.feeAmount)
  have hvalue := Word.ofInt_toNatBE (Nat.le_of_eq h.value)
  exact ⟨_, MetaCall.headerWords_eq_ok.2 ⟨_, _, _, hnonce, hfee, hvalue, rfl⟩⟩

theorem Envelope.notOfRange_of_decode {message : Bytes} {error : EncodingError}
    (h : Envelope.decode message = .error error) : (Refusal.encoding error).NotOfRange := by
  unfold Envelope.decode at h
  cases hread : Wire.read Envelope.reader message with
  | ok envelope =>
    rw [hread] at h
    cases h
  | error damage =>
    rw [hread] at h
    cases h
    cases damage with
    | short needed available => trivial
    | notText => trivial
    | trailing count => trivial

namespace SigningContext

/-- The digests of a context have one word, and so has its chain. -/
structure Fits (context : SigningContext) : Prop where
  wordSized : context.crypto.hasher.WordSized
  chainId_nonneg : 0 ≤ context.domain.chainId
  chainId_lt : context.domain.chainId < Bytes.capacity 32

variable {context : SigningContext}

theorem Fits.exists_separator (h : context.Fits) :
    ∃ separator, context.separator = .ok separator := by
  have hchain := Word.ofInt_eq_ok.2 ⟨⟨h.chainId_nonneg, h.chainId_lt⟩, rfl⟩
  exact ⟨_, Domain.separator_eq_ok.2 ⟨_, Domain.fields_eq_ok.2 ⟨_, hchain, rfl⟩, rfl⟩⟩

end SigningContext

end SignedRelay
