import SignedRelay.MetaCall.Preimages
import SignedRelay.Proofs.TypeParsing
import SignedRelay.Proofs.TypedEncoding
import SignedRelay.Proofs.Words
import SignedRelay.TypedData.Agreement

/-!
# What a word says about its value

A value is encoded to one word. Main statements: values that agree up to padding have the same word,
and values with the same word agree up to padding, as long as the hash primitive does not collide on
what the two have hashed. Without padded types, values that agree are equal.
-/
namespace SignedRelay

/-- The fixed byte strings among the fields of some structs fit a word. -/
def TypedData.SizedStructs (structs : List Declaration) : Prop :=
  ∀ declaration ∈ structs, ∀ param ∈ declaration.params, param.type.Sized

namespace TypedData

variable {context : Context} {type : ArgType} {depth : Int} {word words : Bytes}

theorem length_padRight {data : Bytes} (h : data.length ≤ 32) : (padRight data).length = 32 := by
  unfold padRight
  rw [List.length_append, List.length_replicate]
  omega

theorem length_of_encodeBytes (hsized : context.hasher.WordSized) (htype : type.Sized) {data : Bytes}
    (h : encodeBytes context.hasher type data = .ok word) : word.length = 32 := by
  have number (h : encodeBytes context.hasher .uint data = .ok word) : word.length = 32 :=
    Word.length_of_ofInt (encodeBytes_uint_eq_ok.1 h).2
  cases type with
  | string | bytes =>
    cases h
    exact hsized data
  | uint => exact number h
  | int => exact number h
  | bool => exact number h
  | fixedBytes size =>
    obtain ⟨hfits, rfl⟩ := encodeBytes_fixedBytes_eq_ok.1 h
    have hsize : size ≤ 32 := htype size rfl
    exact length_padRight (by omega)
  | address => exact Word.length_of_ofAddress (encodeBytes_address_eq_ok.1 h)
  | array element length => cases h
  | struct name => cases h

/-- Whatever is encoded is encoded to one word. -/
theorem length_of_encode [Stack] (hsized : context.hasher.WordSized) (htype : type.Sized) {value : Rlp}
    (h : encode context type depth value = .ok word) : word.length = 32 := by
  cases value with
  | bytes data =>
    obtain ⟨_, hbytes⟩ := encode_bytes_eq_ok.1 h
    exact length_of_encodeBytes hsized htype hbytes
  | list items =>
    obtain ⟨element, length, rfl⟩ | ⟨name, rfl⟩ := array_or_struct_of_encode h
    · obtain ⟨_, _, words, _, rfl⟩ := encode_array_eq_ok.1 h
      exact hsized words
    · obtain ⟨_, declaration, _, _, words, _, rfl⟩ := encode_struct_eq_ok.1 h
      exact hsized _

/-- The context can tell values apart whose hashed byte strings are among the given. -/
structure Context.Separates (context : Context) (inputs : List Bytes) : Prop where
  wordSized : context.hasher.WordSized
  sizedStructs : SizedStructs context.structs
  injective : context.hasher.InjectiveOn inputs

theorem Context.Separates.inside {inputs : List Bytes} (h : context.Separates inputs) (calls : Nat) :
    (context.inside calls).Separates inputs :=
  ⟨h.wordSized, h.sizedStructs, h.injective⟩

section Injectivity

variable {inputs : List Bytes}

/-- Byte strings with the same word agree. -/
theorem agreeBytes_of_encodeBytes {hasher : Hasher} (hinj : hasher.InjectiveOn inputs) {a b : Bytes}
    (ha : encodeBytes hasher type a = .ok word) (hb : encodeBytes hasher type b = .ok word)
    (hinA : bytesPreimages type a ⊆ inputs) (hinB : bytesPreimages type b ⊆ inputs) :
    AgreeBytes type a b := by
  have number (ha : encodeBytes hasher .uint a = .ok word)
      (hb : encodeBytes hasher .uint b = .ok word) : Bytes.toNatBE a = Bytes.toNatBE b :=
    Int.ofNat.inj (Word.ofInt_inj (encodeBytes_uint_eq_ok.1 ha).2 (encodeBytes_uint_eq_ok.1 hb).2)
  cases type with
  | string | bytes =>
    exact hinj a (hinA List.mem_cons_self) b (hinB List.mem_cons_self)
      (Except.ok.inj (ha.trans hb.symm))
  | uint => exact number ha hb
  | int => exact number ha hb
  | bool => exact number ha hb
  | fixedBytes size =>
    exact (encodeBytes_fixedBytes_eq_ok.1 ha).2.trans (encodeBytes_fixedBytes_eq_ok.1 hb).2.symm
  | address =>
    exact Word.ofAddress_inj (encodeBytes_address_eq_ok.1 ha) (encodeBytes_address_eq_ok.1 hb)
  | array element length => cases ha
  | struct name => cases ha

variable [Stack]

mutual

/-- Values with the same word agree up to padding. -/
theorem agree_of_encode : ∀ (value value' : Rlp) {context : Context} {type : ArgType} {depth : Int}
    {word : Bytes}, context.Separates inputs → type.Sized → encode context type depth value = .ok word →
    encode context type depth value' = .ok word → preimages context type depth value ⊆ inputs →
    preimages context type depth value' ⊆ inputs → Agree context.structs type value value'
  | .bytes a, .bytes b, context, type, depth, word, hseparates, htype, ha, hb, hinA, hinB => by
    obtain ⟨_, hbytesA⟩ := encode_bytes_eq_ok.1 ha
    obtain ⟨_, hbytesB⟩ := encode_bytes_eq_ok.1 hb
    exact .bytes (agreeBytes_of_encodeBytes hseparates.injective hbytesA hbytesB hinA hinB)
  | .bytes a, .list items, context, type, depth, word, hseparates, htype, ha, hb, hinA, hinB => by
    obtain ⟨_, hbytes⟩ := encode_bytes_eq_ok.1 ha
    obtain ⟨element, length, rfl⟩ | ⟨name, rfl⟩ := array_or_struct_of_encode hb
    · cases hbytes
    · cases hbytes
  | .list items, .bytes b, context, type, depth, word, hseparates, htype, ha, hb, hinA, hinB => by
    obtain ⟨_, hbytes⟩ := encode_bytes_eq_ok.1 hb
    obtain ⟨element, length, rfl⟩ | ⟨name, rfl⟩ := array_or_struct_of_encode ha
    · cases hbytes
    · cases hbytes
  | .list items, .list items', context, type, depth, word, hseparates, htype, ha, hb, hinA, hinB => by
    obtain ⟨element, length, rfl⟩ | ⟨name, rfl⟩ := array_or_struct_of_encode ha
    · obtain ⟨_, _, words, hwords, hhash⟩ := encode_array_eq_ok.1 ha
      obtain ⟨_, _, words', hwords', hhash'⟩ := encode_array_eq_ok.1 hb
      rw [preimages, Outcome.collect_of_eq_ok hwords] at hinA
      rw [preimages, Outcome.collect_of_eq_ok hwords'] at hinB
      obtain ⟨hinElements, hinWords⟩ := List.append_subset.1 hinA
      obtain ⟨hinElements', hinWords'⟩ := List.append_subset.1 hinB
      have heq : words = words' := hseparates.injective _ (hinWords List.mem_cons_self) _
        (hinWords' List.mem_cons_self) (hhash.trans hhash'.symm)
      subst heq
      have helement : element.Sized := htype
      have hagree := agreeElements_of_encode items items' (hseparates.inside Stack.array) helement
        hwords hwords' hinElements hinElements'
      exact .array hagree
    · obtain ⟨_, declaration, hdeclaration, hcount, words, hwords, hhash⟩ :=
        encode_struct_eq_ok.1 ha
      obtain ⟨_, declaration', hdeclaration', hcount', words', hwords', hhash'⟩ :=
        encode_struct_eq_ok.1 hb
      obtain rfl := Except.ok.inj (hdeclaration.symm.trans hdeclaration')
      rw [preimages, Outcome.collect_of_eq_ok hdeclaration, Outcome.collect_of_eq_ok hwords] at hinA
      rw [preimages, Outcome.collect_of_eq_ok hdeclaration, Outcome.collect_of_eq_ok hwords'] at hinB
      have heq := hseparates.injective _ (hinA (by simp)) _ (hinB (by simp)) (hhash.trans hhash'.symm)
      obtain rfl := List.append_cancel_left heq
      have hlookup := declaration_eq_ok.1 hdeclaration
      have hparams := hseparates.sizedStructs declaration (Definition.mem_of_lookup? hlookup)
      have hagree := agreeFields_of_encode items items' (hseparates.inside Stack.struct) hparams hcount
        hcount' hwords hwords' (fun data hdata => hinA (by simp [hdata]))
        (fun data hdata => hinB (by simp [hdata]))
      exact .struct hlookup hagree

theorem agreeElements_of_encode : ∀ (items items' : List Rlp) {context : Context} {type : ArgType}
    {depth : Int} {words : Bytes}, context.Separates inputs → type.Sized →
    encodeElements context type depth items = .ok words →
    encodeElements context type depth items' = .ok words →
    elementPreimages context type depth items ⊆ inputs →
    elementPreimages context type depth items' ⊆ inputs →
    AgreeElements context.structs type items items'
  | [], [], context, type, depth, words, hseparates, htype, ha, hb, hinA, hinB => .nil
  | [], value :: rest, context, type, depth, words, hseparates, htype, ha, hb, hinA, hinB => by
    obtain ⟨word, others, hword, _, heq⟩ := encodeElements_cons_eq_ok.1 hb
    rw [encodeElements] at ha
    obtain rfl := Except.ok.inj ha
    have hlength := length_of_encode hseparates.wordSized htype hword
    rw [(List.append_eq_nil_iff.1 heq).1] at hlength
    cases hlength
  | value :: rest, [], context, type, depth, words, hseparates, htype, ha, hb, hinA, hinB => by
    obtain ⟨word, others, hword, _, heq⟩ := encodeElements_cons_eq_ok.1 ha
    rw [encodeElements] at hb
    obtain rfl := Except.ok.inj hb
    have hlength := length_of_encode hseparates.wordSized htype hword
    rw [(List.append_eq_nil_iff.1 heq).1] at hlength
    cases hlength
  | value :: rest, value' :: rest', context, type, depth, words, hseparates, htype, ha, hb, hinA,
      hinB => by
    obtain ⟨word, others, hword, hothers, rfl⟩ := encodeElements_cons_eq_ok.1 ha
    obtain ⟨word', others', hword', hothers', heq⟩ := encodeElements_cons_eq_ok.1 hb
    have hlength := length_of_encode hseparates.wordSized htype hword
    have hlength' := length_of_encode hseparates.wordSized htype hword'
    obtain ⟨rfl, rfl⟩ := List.append_inj heq (hlength'.trans hlength.symm)
    rw [elementPreimages] at hinA hinB
    obtain ⟨hinFirst, hinRest⟩ := List.append_subset.1 hinA
    obtain ⟨hinFirst', hinRest'⟩ := List.append_subset.1 hinB
    exact .cons (agree_of_encode value value' hseparates htype hword hword' hinFirst hinFirst')
      (agreeElements_of_encode rest rest' hseparates htype hothers hothers' hinRest hinRest')

theorem agreeFields_of_encode : ∀ (items items' : List Rlp) {context : Context}
    {params : List Param} {depth : Int} {words : Bytes}, context.Separates inputs →
    (∀ param ∈ params, param.type.Sized) → items.length = params.length →
    items'.length = params.length → encodeFields context params depth items = .ok words →
    encodeFields context params depth items' = .ok words →
    fieldPreimages context params depth items ⊆ inputs →
    fieldPreimages context params depth items' ⊆ inputs →
    AgreeFields context.structs params items items'
  | [], [], _, [], depth, words, _, _, _, _, _, _, _, _ => .nil
  | [], [], _, param :: params, depth, words, _, _, hcount, _, _, _, _, _ => absurd hcount (by simp)
  | [], value :: rest, _, params, depth, words, _, _, hcount, hcount', _, _, _, _ =>
    absurd (hcount.trans hcount'.symm) (by simp)
  | value :: rest, [], _, params, depth, words, _, _, hcount, hcount', _, _, _, _ =>
    absurd (hcount.trans hcount'.symm) (by simp)
  | value :: rest, value' :: rest', _, [], depth, words, _, _, hcount, _, _, _, _, _ =>
    absurd hcount (by simp)
  | value :: rest, value' :: rest', context, param :: params, depth, words, hseparates, hparams,
      hcount, hcount', ha, hb, hinA, hinB => by
    obtain ⟨word, others, hword, hothers, rfl⟩ := encodeFields_cons_eq_ok.1 ha
    obtain ⟨word', others', hword', hothers', heq⟩ := encodeFields_cons_eq_ok.1 hb
    obtain ⟨htype, hrest⟩ := List.forall_mem_cons.1 hparams
    have hlength := length_of_encode hseparates.wordSized htype hword
    have hlength' := length_of_encode hseparates.wordSized htype hword'
    obtain ⟨rfl, rfl⟩ := List.append_inj heq (hlength'.trans hlength.symm)
    rw [fieldPreimages] at hinA hinB
    obtain ⟨hinFirst, hinRest⟩ := List.append_subset.1 hinA
    obtain ⟨hinFirst', hinRest'⟩ := List.append_subset.1 hinB
    exact .cons (agree_of_encode value value' hseparates htype hword hword' hinFirst hinFirst')
      (agreeFields_of_encode rest rest' hseparates hrest (Nat.succ.inj hcount) (Nat.succ.inj hcount')
        hothers hothers' hinRest hinRest')

end

end Injectivity

theorem encodeBytes_eq_of_agreeBytes {hasher : Hasher} {a b word' : Bytes}
    (hagree : AgreeBytes type a b) (ha : encodeBytes hasher type a = .ok word)
    (hb : encodeBytes hasher type b = .ok word') : word = word' := by
  have number (hagree : Bytes.toNatBE a = Bytes.toNatBE b)
      (ha : encodeBytes hasher .uint a = .ok word) (hb : encodeBytes hasher .uint b = .ok word') :
      word = word' := by
    have hword := (encodeBytes_uint_eq_ok.1 ha).2
    rw [hagree] at hword
    exact Except.ok.inj (hword.symm.trans (encodeBytes_uint_eq_ok.1 hb).2)
  cases type with
  | string | bytes | address =>
    obtain rfl : a = b := hagree
    exact Except.ok.inj (ha.symm.trans hb)
  | uint => exact number hagree ha hb
  | int => exact number hagree ha hb
  | bool => exact number hagree ha hb
  | fixedBytes size =>
    have hpad : padRight a = padRight b := hagree
    rw [← (encodeBytes_fixedBytes_eq_ok.1 ha).2, ← (encodeBytes_fixedBytes_eq_ok.1 hb).2, hpad]
  | array element length => cases ha
  | struct name => cases ha

variable {structs : List Declaration}

section Words

variable [Stack]

mutual

/-- Values that agree up to padding have the same word. -/
theorem encode_eq_of_agree {type : ArgType} {value value' : Rlp} : Agree structs type value value' →
    ∀ {context : Context} {depth : Int} {word word' : Bytes}, context.structs = structs →
    encode context type depth value = .ok word → encode context type depth value' = .ok word' →
    word = word'
  | .bytes hagree, context, depth, word, word', _, ha, hb =>
    encodeBytes_eq_of_agreeBytes hagree (encode_bytes_eq_ok.1 ha).2 (encode_bytes_eq_ok.1 hb).2
  | .array hagree, context, depth, word, word', hstructs, ha, hb => by
    obtain ⟨_, _, words, hwords, rfl⟩ := encode_array_eq_ok.1 ha
    obtain ⟨_, _, words', hwords', rfl⟩ := encode_array_eq_ok.1 hb
    have hinside : (context.inside Stack.array).structs = structs := hstructs
    rw [encodeElements_eq_of_agree hagree hinside hwords hwords']
  | .struct hlookup hagree, context, depth, word, word', hstructs, ha, hb => by
    obtain ⟨_, declaration, hdeclaration, _, words, hwords, rfl⟩ := encode_struct_eq_ok.1 ha
    obtain ⟨_, declaration', hdeclaration', _, words', hwords', rfl⟩ := encode_struct_eq_ok.1 hb
    obtain rfl := Except.ok.inj ((declaration_eq_ok.2 (hstructs ▸ hlookup)).symm.trans hdeclaration)
    obtain rfl := Except.ok.inj (hdeclaration.symm.trans hdeclaration')
    have hinside : (context.inside Stack.struct).structs = structs := hstructs
    rw [encodeFields_eq_of_agree hagree hinside hwords hwords']

theorem encodeElements_eq_of_agree {type : ArgType} {items items' : List Rlp} :
    AgreeElements structs type items items' →
    ∀ {context : Context} {depth : Int} {words words' : Bytes}, context.structs = structs →
    encodeElements context type depth items = .ok words →
    encodeElements context type depth items' = .ok words' → words = words'
  | .nil, context, depth, words, words', _, ha, hb => Except.ok.inj (ha.symm.trans hb)
  | .cons hfirst hrest, context, depth, words, words', hstructs, ha, hb => by
    obtain ⟨word, others, hword, hothers, rfl⟩ := encodeElements_cons_eq_ok.1 ha
    obtain ⟨word', others', hword', hothers', rfl⟩ := encodeElements_cons_eq_ok.1 hb
    rw [encode_eq_of_agree hfirst hstructs hword hword',
      encodeElements_eq_of_agree hrest hstructs hothers hothers']

theorem encodeFields_eq_of_agree {params : List Param} {items items' : List Rlp} :
    AgreeFields structs params items items' →
    ∀ {context : Context} {depth : Int} {words words' : Bytes}, context.structs = structs →
    encodeFields context params depth items = .ok words →
    encodeFields context params depth items' = .ok words' → words = words'
  | .nil, context, depth, words, words', _, ha, hb => Except.ok.inj (ha.symm.trans hb)
  | .cons hfirst hrest, context, depth, words, words', hstructs, ha, hb => by
    obtain ⟨word, others, hword, hothers, rfl⟩ := encodeFields_cons_eq_ok.1 ha
    obtain ⟨word', others', hword', hothers', rfl⟩ := encodeFields_cons_eq_ok.1 hb
    rw [encode_eq_of_agree hfirst hstructs hword hword',
      encodeFields_eq_of_agree hrest hstructs hothers hothers']

end

end Words

theorem eq_of_agreeBytes (hunpadded : type.isPadded = false) {a b : Bytes}
    (h : AgreeBytes type a b) : a = b := by
  cases type with
  | uint | int | bool | fixedBytes size => cases hunpadded
  | _ => exact h

mutual

/-- Where no type has padding, values agree only if they are equal. -/
theorem eq_of_agree (hstructs : Unpadded structs) {type : ArgType} {value value' : Rlp} :
    Agree structs type value value' → type.isPadded = false → value = value'
  | .bytes hagree, hunpadded => congrArg Rlp.bytes (eq_of_agreeBytes hunpadded hagree)
  | .array hagree, hunpadded => congrArg Rlp.list (eq_of_agreeElements hstructs hagree hunpadded)
  | .struct hlookup hagree, _ =>
    congrArg Rlp.list (eq_of_agreeFields hstructs hagree (hstructs _ (Definition.mem_of_lookup? hlookup)))

theorem eq_of_agreeElements (hstructs : Unpadded structs) {type : ArgType}
    {items items' : List Rlp} :
    AgreeElements structs type items items' → type.isPadded = false → items = items'
  | .nil, _ => rfl
  | .cons hfirst hrest, hunpadded => by
    rw [eq_of_agree hstructs hfirst hunpadded, eq_of_agreeElements hstructs hrest hunpadded]

theorem eq_of_agreeFields (hstructs : Unpadded structs) {params : List Param}
    {items items' : List Rlp} : AgreeFields structs params items items' →
    (∀ param ∈ params, param.type.isPadded = false) → items = items'
  | .nil, _ => rfl
  | .cons hfirst hrest, hunpadded => by
    obtain ⟨hparam, hparams⟩ := List.forall_mem_cons.1 hunpadded
    rw [eq_of_agree hstructs hfirst hparam, eq_of_agreeFields hstructs hrest hparams]

end

end TypedData

end SignedRelay
