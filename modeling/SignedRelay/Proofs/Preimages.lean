import SignedRelay.MetaCall.Preimages
import SignedRelay.Proofs.Preparation
import SignedRelay.Proofs.TypedEncoding

/-!
# The preimages are all that is hashed

A computation that succeeds gives the same result with any primitive that agrees on its preimages, so
none of the byte strings it hashes is left out of them. Main statement: the digest of a call depends
on the hash primitive only through the preimages of the call.
-/
namespace SignedRelay

namespace Hasher.AgreeOn

variable {hasher other : Hasher} {inputs : List Bytes}

theorem mono {fewer : List Bytes} (h : hasher.AgreeOn other inputs) (hsub : fewer ⊆ inputs) :
    hasher.AgreeOn other fewer := fun data hdata => h data (hsub hdata)

end Hasher.AgreeOn

namespace TypedData

variable {context : Context} {other : Hasher}

theorem encodeBytes_congr {type : ArgType} {data : Bytes}
    (hagree : context.hasher.AgreeOn other (bytesPreimages type data)) :
    encodeBytes other type data = encodeBytes context.hasher type data := by
  cases type with
  | string => exact congrArg Except.ok (hagree data List.mem_cons_self)
  | bytes => exact congrArg Except.ok (hagree data List.mem_cons_self)
  | _ => rfl

section Values

variable [Stack]

mutual

/-- The word of a value depends on the primitive only through its preimages. -/
theorem encode_congr : ∀ (value : Rlp) {context : Context} {type : ArgType} {depth : Int}
    {word : Bytes}, encode context type depth value = .ok word →
    context.hasher.AgreeOn other (preimages context type depth value) →
    encode { context with hasher := other } type depth value = .ok word
  | .bytes data, context, type, depth, word, h, hagree => by
    obtain ⟨hdepth, hbytes⟩ := encode_bytes_eq_ok.1 h
    refine encode_bytes_eq_ok.2 ⟨hdepth, ?_⟩
    rw [encodeBytes_congr hagree]
    exact hbytes
  | .list items, context, type, depth, word, h, hagree => by
    obtain ⟨element, length, rfl⟩ | ⟨name, rfl⟩ := array_or_struct_of_encode h
    · obtain ⟨hdepth, hcount, words, hwords, rfl⟩ := encode_array_eq_ok.1 h
      rw [preimages, Outcome.collect_of_eq_ok hwords] at hagree
      have helements := encodeElements_congr items hwords
        (hagree.mono (List.subset_append_left _ _))
      exact encode_array_eq_ok.2 ⟨hdepth, hcount, words, helements, hagree words (by simp)⟩
    · obtain ⟨hdepth, declaration, hdeclaration, hlength, words, hwords, rfl⟩ :=
        encode_struct_eq_ok.1 h
      rw [preimages, Outcome.collect_of_eq_ok hdeclaration, Outcome.collect_of_eq_ok hwords] at hagree
      have hfields := encodeFields_congr items hwords
        (hagree.mono (fun data hdata => by simp [hdata]))
      have htype : declarationHash other declaration = declarationHash context.hasher declaration :=
        hagree _ (by simp)
      refine encode_struct_eq_ok.2 ⟨hdepth, declaration, hdeclaration, hlength, words, hfields, ?_⟩
      show other.hash (declarationHash other declaration ++ words) = _
      rw [htype]
      exact hagree _ (by simp)

theorem encodeElements_congr : ∀ (items : List Rlp) {context : Context} {type : ArgType}
    {depth : Int} {words : Bytes},
    encodeElements context type depth items = .ok words →
    context.hasher.AgreeOn other (elementPreimages context type depth items) →
    encodeElements { context with hasher := other } type depth items = .ok words
  | [], context, type, depth, words, h, _ => by
    rw [encodeElements] at h ⊢
    exact h
  | value :: rest, context, type, depth, words, h, hagree => by
    obtain ⟨word, others, hword, hothers, rfl⟩ := encodeElements_cons_eq_ok.1 h
    rw [elementPreimages] at hagree
    refine encodeElements_cons_eq_ok.2 ⟨word, others, ?_, ?_, rfl⟩
    · exact encode_congr value hword (hagree.mono (List.subset_append_left _ _))
    · exact encodeElements_congr rest hothers (hagree.mono (List.subset_append_right _ _))

theorem encodeFields_congr : ∀ (items : List Rlp) {context : Context} {params : List Param}
    {depth : Int} {words : Bytes}, encodeFields context params depth items = .ok words →
    context.hasher.AgreeOn other (fieldPreimages context params depth items) →
    encodeFields { context with hasher := other } params depth items = .ok words
  | [], context, params, depth, words, h, _ => by
    cases params with
    | nil => exact h
    | cons => exact h
  | value :: rest, context, [], depth, words, h, _ => h
  | value :: rest, context, param :: params, depth, words, h, hagree => by
    obtain ⟨word, others, hword, hothers, rfl⟩ := encodeFields_cons_eq_ok.1 h
    rw [fieldPreimages] at hagree
    refine encodeFields_cons_eq_ok.2 ⟨word, others, ?_, ?_, rfl⟩
    · exact encode_congr value hword (hagree.mono (List.subset_append_left _ _))
    · exact encodeFields_congr rest hothers (hagree.mono (List.subset_append_right _ _))

end

end Values

end TypedData

namespace MetaCall

variable {hasher other : Hasher} {bound : Int} {separator gatewayId : Bytes} {call : MetaCall}

theorem headerWords_congr {argumentsText : List Char}
    (hagree : hasher.AgreeOn other (call.headerPreimages gatewayId argumentsText)) :
    call.headerWords other gatewayId argumentsText =
      call.headerWords hasher gatewayId argumentsText := by
  unfold headerPreimages at hagree
  unfold headerWords
  rw [hagree _ (by simp), hagree gatewayId (by simp), hagree (Bytes.utf8 call.feeAddress) (by simp),
    hagree (Bytes.utf8 call.contractAddress) (by simp)]

theorem methodArguments_congr [Stack] {argumentsText : List Char} {definition : Definition}
    {args : Bytes}
    (h : call.methodArguments hasher bound argumentsText = .ok (definition, args))
    (hagree : hasher.AgreeOn other (Bytes.utf8 (String.ofList argumentsText) ::
      call.argumentPreimages hasher bound definition)) :
    call.methodArguments other bound argumentsText = .ok (definition, args) := by
  obtain ⟨values, words, hparse, hvalues, hwords, rfl⟩ := methodArguments_eq_ok.1 h
  obtain ⟨hcount, hfields⟩ := TypedData.encodeArguments_eq_ok.1 hwords
  unfold argumentPreimages at hagree
  rw [Outcome.collect_of_eq_ok hvalues] at hagree
  have hother := TypedData.encodeFields_congr values hfields
    (hagree.mono (List.subset_cons_self _ _))
  refine methodArguments_eq_ok.2 ⟨values, words, hparse, hvalues,
    TypedData.encodeArguments_eq_ok.2 ⟨hcount, hother⟩, ?_⟩
  rw [hagree _ List.mem_cons_self]

theorem digest_congr {words : Bytes}
    (hagree : hasher.AgreeOn other (digestPreimages hasher separator words)) :
    digest other separator words = digest hasher separator words := by
  unfold digestPreimages at hagree
  unfold digest
  rw [hagree words (by simp)]
  exact hagree _ (by simp)

/-- What is prepared for a call depends on the primitive only through the preimages. -/
theorem prepare_congr [Stack] {prepared : PreparedCall}
    (h : call.prepare hasher bound separator gatewayId = .ok prepared)
    (hagree : hasher.AgreeOn other (call.preimages hasher bound separator gatewayId)) :
    call.prepare other bound separator gatewayId = .ok prepared := by
  unfold preimages at hagree
  cases hmethod : call.methodName.isEmpty with
  | true =>
    obtain ⟨header, hheader, rfl⟩ := (prepare_eq_ok_of_empty hmethod).1 h
    rw [argumentsText_of_empty hmethod, Outcome.collect_of_eq_ok rfl,
      Outcome.collect_of_eq_ok hheader, hmethod, if_pos rfl] at hagree
    refine (prepare_eq_ok_of_empty hmethod).2 ⟨header, ?_, ?_⟩
    · rw [headerWords_congr (hagree.mono (List.subset_append_left _ _))]
      exact hheader
    · rw [digest_congr (hagree.mono (List.subset_append_right _ _))]
  | false =>
    obtain ⟨argumentsText, header, definition, args, htext, hheader, hargs, rfl⟩ :=
      (prepare_eq_ok_of_nonempty hmethod).1 h
    rw [Outcome.collect_of_eq_ok htext, Outcome.collect_of_eq_ok hheader, hmethod,
      if_neg Bool.false_ne_true, Outcome.collect_of_eq_ok hargs] at hagree
    refine (prepare_eq_ok_of_nonempty hmethod).2
      ⟨argumentsText, header, definition, args, htext, ?_, ?_, ?_⟩
    · rw [headerWords_congr (hagree.mono (List.subset_append_left _ _))]
      exact hheader
    · refine methodArguments_congr hargs (hagree.mono fun data hdata => ?_)
      rcases List.mem_cons.1 hdata with rfl | hdata
      · simp
      · simp [hdata]
    · have hwords : methodWords other definition args = methodWords hasher definition args := by
        unfold methodWords
        rw [hagree (Bytes.utf8 definition.method.signature) (by simp), hagree args (by simp)]
      have happend : header ++ (methodWords hasher definition args).flatten =
          header ++ hasher.hash (Bytes.utf8 definition.method.signature) ++ hasher.hash args := by
        simp [methodWords]
      have hdigest := hagree.mono fun data hdata =>
        List.mem_append_right _ (List.mem_append_right _ (List.mem_cons_of_mem args hdata))
      rw [hwords, happend, digest_congr hdigest]

end MetaCall

namespace SigningContext

/-- The same context with another hash primitive. -/
def withHasher (context : SigningContext) (hasher : Hasher) : SigningContext :=
  { context with crypto := { context.crypto with hasher } }

theorem separator_congr {context : SigningContext} {other : Hasher} {separator : Bytes}
    (h : context.separator = .ok separator)
    (hagree : context.crypto.hasher.AgreeOn other
      (context.domain.preimages context.crypto.hasher)) :
    (context.withHasher other).separator = .ok separator := by
  obtain ⟨fields, hfields, rfl⟩ := Domain.separator_eq_ok.1 h
  unfold Domain.preimages at hagree
  rw [Outcome.collect_of_eq_ok hfields] at hagree
  obtain ⟨chainId, hchain, rfl⟩ := Domain.fields_eq_ok.1 hfields
  have hwords : context.domain.fieldWords other chainId =
      context.domain.fieldWords context.crypto.hasher chainId := by
    unfold Domain.fieldWords
    rw [hagree (Bytes.utf8 Domain.typeText) (by simp),
      hagree (Bytes.utf8 context.domain.name) (by simp),
      hagree (Bytes.utf8 context.domain.version) (by simp)]
  refine Domain.separator_eq_ok.2 ⟨_, Domain.fields_eq_ok.2 ⟨chainId, hchain, rfl⟩, ?_⟩
  show other.hash (context.domain.fieldWords other chainId).flatten = _
  rw [hwords]
  exact hagree _ (by simp)

/-- A primitive that agrees on everything hashed for a call prepares the call alike: there is nothing
else that a digest could depend on. -/
theorem prepare_of_agreeOn_preimages [Stack] {context : SigningContext} {other : Hasher}
    {call : MetaCall}
    {prepared : PreparedCall} (h : context.prepare call = .ok prepared)
    (hagree : context.crypto.hasher.AgreeOn other (context.preimages call)) :
    (context.withHasher other).prepare call = .ok prepared := by
  obtain ⟨separator, hseparator, hprepare⟩ := prepare_eq_ok.1 h
  rw [preimages_of_separator hseparator] at hagree
  refine prepare_eq_ok.2 ⟨separator, ?_, ?_⟩
  · exact separator_congr hseparator (hagree.mono (List.subset_append_left _ _))
  · exact MetaCall.prepare_congr hprepare (hagree.mono (List.subset_append_right _ _))

end SigningContext

end SignedRelay
