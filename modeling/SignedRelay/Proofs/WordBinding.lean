import SignedRelay.Proofs.DefinitionParsing
import SignedRelay.Proofs.TypedAgreement

/-!
# Which values share a word

Under the structs of a definition, every type that can be written has words of one length, so the words
of elements and fields can be taken apart again. Main statement: two values of a type share a word
exactly if they agree up to padding, as long as the hash primitive does not collide on what the two
have hashed, and so do two lists of arguments.
-/
namespace SignedRelay

/-- Some text is read as the type. -/
def ArgType.Readable (type : ArgType) : Prop :=
  ∃ bound text, ArgType.parse bound text = .ok type

theorem ArgType.Readable.sized {type : ArgType} (h : type.Readable) : type.Sized := by
  obtain ⟨bound, text, hparse⟩ := h
  exact sized_of_parse hparse

namespace Definition.ReadFrom

variable {bound nesting room : Int} {text : List Char} {definition : Definition}

theorem sized (h : ReadFrom bound text definition) {declaration : Declaration}
    (hmem : declaration ∈ definition.declarations) :
    ∀ param ∈ declaration.params, param.type.Sized :=
  fun param hparam => ArgType.sized_of_parse ((h.wellFormed declaration hmem).params param hparam).type_eq

theorem sizedStructs (h : ReadFrom bound text definition) :
    TypedData.SizedStructs definition.structs :=
  fun _ hmem => h.sized (List.mem_cons_of_mem _ hmem)

/-- Whatever the nesting bound for values and the room for them, the structs of a definition that is read
can tell values apart. -/
theorem separates (h : ReadFrom bound text definition) {hasher : Hasher} {inputs : List Bytes}
    (hsized : hasher.WordSized) (hinj : hasher.InjectiveOn inputs) :
    TypedData.Context.Separates
      { structs := definition.structs, hasher, bound := nesting, room } inputs where
  wordSized := hsized
  sizedStructs := h.sizedStructs
  injective := hinj

end Definition.ReadFrom

namespace TypedData

section Arguments

variable [Stack] {context : Context} {params : List Param} {values values' : List Rlp}
  {words words' : Bytes}

/-- Arguments that agree up to padding have the same words. -/
theorem encodeArguments_eq_of_agree (hagree : AgreeFields context.structs params values values')
    (ha : encodeArguments context params values = .ok words)
    (hb : encodeArguments context params values' = .ok words') : words = words' :=
  encodeFields_eq_of_agree hagree rfl (encodeArguments_eq_ok.1 ha).2 (encodeArguments_eq_ok.1 hb).2

/-- Arguments with the same words agree up to padding. -/
theorem agreeFields_of_encodeArguments {inputs : List Bytes} (hseparates : context.Separates inputs)
    (hparams : ∀ param ∈ params, param.type.Sized)
    (ha : encodeArguments context params values = .ok words)
    (hb : encodeArguments context params values' = .ok words)
    (hinA : fieldPreimages context params 0 values ⊆ inputs)
    (hinB : fieldPreimages context params 0 values' ⊆ inputs) :
    AgreeFields context.structs params values values' := by
  obtain ⟨hcount, hfields⟩ := encodeArguments_eq_ok.1 ha
  obtain ⟨hcount', hfields'⟩ := encodeArguments_eq_ok.1 hb
  exact agreeFields_of_encode values values' hseparates hparams hcount hcount' hfields hfields' hinA
    hinB

end Arguments

/-- Under the structs of an accepted definition, two values of a readable type that are both encoded
have the same word if they agree up to padding. Where the hash primitive does not collide on what is
hashed for the two, they have it only then. The same holds of two lists of arguments. -/
theorem words_eq_iff_agree [Stack] {defined : Int} {text : List Char} {definition : Definition}
    {hasher : Hasher} (hdefinition : Definition.parse defined text = .ok definition)
    (hsized : hasher.WordSized) (bound room : Int) :
    let context : Context := { structs := definition.structs, hasher, bound, room }
    (∀ type : ArgType, type.Readable → ∀ (depth : Int) (value value' : Rlp) (word word' : Bytes),
      encode context type depth value = .ok word → encode context type depth value' = .ok word' →
        (Agree definition.structs type value value' → word = word') ∧
        (hasher.InjectiveOn
            (preimages context type depth value ++ preimages context type depth value') →
          word = word' → Agree definition.structs type value value')) ∧
    (∀ params : List Param, (∀ param ∈ params, param.type.Readable) →
      ∀ (values values' : List Rlp) (words words' : Bytes),
        encodeArguments context params values = .ok words →
        encodeArguments context params values' = .ok words' →
          (AgreeFields definition.structs params values values' → words = words') ∧
          (hasher.InjectiveOn
              (fieldPreimages context params 0 values ++ fieldPreimages context params 0 values') →
            words = words' → AgreeFields definition.structs params values values')) := by
  intro context
  have hread := Definition.readFrom_of_parse hdefinition
  refine ⟨?_, ?_⟩
  · intro type htype depth value value' word word' hword hword'
    refine ⟨fun hagree => encode_eq_of_agree hagree rfl hword hword', ?_⟩
    rintro hinj rfl
    exact agree_of_encode value value' (hread.separates hsized hinj) htype.sized hword hword'
      (List.subset_append_left _ _) (List.subset_append_right _ _)
  · intro params hparams values values' words words' hwords hwords'
    refine ⟨fun hagree => encodeArguments_eq_of_agree hagree hwords hwords', ?_⟩
    rintro hinj rfl
    exact agreeFields_of_encodeArguments (hread.separates hsized hinj)
      (fun param hparam => (hparams param hparam).sized) hwords hwords'
      (List.subset_append_left _ _) (List.subset_append_right _ _)

/-- A method with one argument, a struct of a number and of short tags. -/
def tagging : Definition where
  method :=
    { name := "tag"
      params := [{ name := "a", typeText := "A", type := .struct "A" }]
      text := "tag(A a)" }
  structs :=
    [{ name := "A"
       params := [{ name := "n", typeText := "uint256", type := .uint },
         { name := "tags", typeText := "bytes2[]", type := .array (.fixedBytes 2) none }]
       text := "A(uint256 n,bytes2[] tags)" }]

/-- Under the structs of that definition and a polynomial, a zero byte in front of the number and one
behind the tag leave the word of the struct as it is, and that of the argument. -/
theorem words_eq_iff_agree_tagging :
    let context : Context :=
      { structs := tagging.structs, hasher := .polynomial, bound := 2, room := Stack.hashing }
    let plain : Rlp := .list [.bytes [0x01], .list [.bytes [0x01]]]
    let padded : Rlp := .list [.bytes [0x00, 0x01], .list [.bytes [0x01, 0x00]]]
    Definition.parse 4 "tag(A a)A(uint256 n,bytes2[] tags)".toList = .ok tagging ∧
    Hasher.polynomial.InjectiveOn
      (preimages context (.struct "A") 0 plain ++ preimages context (.struct "A") 0 padded) ∧
    Agree tagging.structs (.struct "A") plain padded ∧
    ∃ words, encodeArguments context tagging.method.params [plain] = .ok words ∧
      encodeArguments context tagging.method.params [padded] = .ok words := by
  intro context plain padded
  have hparse : Definition.parse 4 "tag(A a)A(uint256 n,bytes2[] tags)".toList = .ok tagging :=
    Outcome.eq_ok_of_toOption (by decide +kernel)
  have hinj : Hasher.polynomial.InjectiveOn
      (preimages context (.struct "A") 0 plain ++ preimages context (.struct "A") 0 padded) := by
    decide +kernel
  have htype : ArgType.Readable (.struct "A") :=
    ⟨0, "A".toList, Outcome.eq_ok_of_toOption (by decide +kernel)⟩
  obtain ⟨hvalues, harguments⟩ := words_eq_iff_agree hparse Hasher.wordSized_polynomial 2 Stack.hashing
  obtain ⟨word, hword⟩ := Outcome.exists_of_isOk (x := encode context (.struct "A") 0 plain)
    (by decide +kernel)
  obtain ⟨word', hword'⟩ := Outcome.exists_of_isOk (x := encode context (.struct "A") 0 padded)
    (by decide +kernel)
  have hsame : (encode context (.struct "A") 0 plain).toOption =
      (encode context (.struct "A") 0 padded).toOption := by decide +kernel
  rw [hword, hword'] at hsame
  have hagree := (hvalues _ htype 0 plain padded word word' hword hword').2 hinj
    (Option.some.inj hsame)
  obtain ⟨words, hwords⟩ := Outcome.exists_of_isOk
    (x := encodeArguments context tagging.method.params [plain]) (by decide +kernel)
  obtain ⟨words', hwords'⟩ := Outcome.exists_of_isOk
    (x := encodeArguments context tagging.method.params [padded]) (by decide +kernel)
  have hparams : ∀ param ∈ tagging.method.params, param.type.Readable :=
    List.forall_mem_singleton.2 htype
  have heq := (harguments _ hparams _ _ words words' hwords hwords').1 (.cons hagree .nil)
  exact ⟨hparse, hinj, hagree, words, hwords, heq ▸ hwords'⟩

end TypedData

end SignedRelay
