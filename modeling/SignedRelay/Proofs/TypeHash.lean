import SignedRelay.Proofs.DefinitionParsing
import SignedRelay.Proofs.TypedAcceptance
import SignedRelay.TypedData.Standard

/-!
# Type digests and the standard

A struct is hashed behind the digest of its own declaration. Main statements: the dependencies of a
struct are the other structs that it reaches, in strict order of their names; and its type digest is
that of the standard exactly where it has none, and its values are then hashed by the standard.
-/
namespace SignedRelay

open Definition (Refers Reaches references mem_references_iff mem_references_singleton)

namespace TypedData.Standard

variable {structs pool : List Declaration} {names : List String} {declaration : Declaration}

/-- Nothing is visited that the names do not lead to. -/
theorem reaches_of_mem_visit (hpool : ∀ declaration ∈ pool, declaration ∈ structs)
    (h : declaration ∈ visit pool names) : declaration ∈ pool ∧
      ∃ name ∈ names, Relation.ReflTransGen (Refers structs) name declaration.name := by
  fun_induction visit pool names with
  | case1 pool names hempty => cases h
  | case2 pool names hnonempty ih =>
    rcases List.mem_append.1 h with hfound | hlater
    · obtain ⟨hmem, hname⟩ := mem_named.1 hfound
      exact ⟨hmem, declaration.name, hname, .refl⟩
    · have hothers : ∀ declaration ∈ others pool names, declaration ∈ structs :=
        fun declaration hother => hpool declaration (mem_others.1 hother).1
      obtain ⟨hother, start, hstart, hreach⟩ := ih hothers hlater
      obtain ⟨found, hfound, hreference⟩ := mem_references_iff.1 hstart
      obtain ⟨hmem, hname⟩ := mem_named.1 hfound
      exact ⟨(mem_others.1 hother).1, found.name, hname,
        .head ⟨found, hpool found hmem, rfl, hreference⟩ hreach⟩

/-- What has one of the names is visited, and so is whatever a visited struct refers to, as far as
the pool has it. -/
theorem visit_closed (pool : List Declaration) (names : List String) :
    (∀ declaration ∈ pool, declaration.name ∈ names → declaration ∈ visit pool names) ∧
    ∀ found ∈ visit pool names, ∀ declaration ∈ pool,
      declaration.name ∈ references [found] → declaration ∈ visit pool names := by
  fun_induction visit pool names with
  | case1 pool names hempty =>
    refine ⟨?_, nofun⟩
    intro declaration hmem hname
    have hnamed := mem_named.2 ⟨hmem, hname⟩
    rwa [List.isEmpty_iff.1 hempty] at hnamed
  | case2 pool names hnonempty ih =>
    -- A struct of the pool has one of the names, or is still in what is left of the pool.
    have visited {declaration : Declaration} (hmem : declaration ∈ pool)
        (hleft : declaration ∈ others pool names →
          declaration ∈ visit (others pool names) (references (named pool names))) :
        declaration ∈ named pool names ++
          visit (others pool names) (references (named pool names)) := by
      by_cases hname : declaration.name ∈ names
      · exact List.mem_append_left _ (mem_named.2 ⟨hmem, hname⟩)
      · exact List.mem_append_right _ (hleft (mem_others.2 ⟨hmem, hname⟩))
    constructor
    · intro declaration hmem hname
      exact List.mem_append_left _ (mem_named.2 ⟨hmem, hname⟩)
    · intro found hfound declaration hmem hreference
      refine visited hmem fun hother => ?_
      rcases List.mem_append.1 hfound with hnamed | hlater
      · exact ih.1 declaration hother (mem_references_iff.2 ⟨found, hnamed, hreference⟩)
      · exact ih.2 found hlater declaration hother hreference

theorem visit_nodup (hpool : (pool.map (·.name)).Nodup) (names : List String) :
    ((visit pool names).map (·.name)).Nodup := by
  fun_induction visit pool names with
  | case1 pool names hempty => exact List.nodup_nil
  | case2 pool names hnonempty ih =>
    have hfiltered (p : Declaration → Bool) : ((pool.filter p).map (·.name)).Nodup :=
      hpool.sublist (List.filter_sublist.map _)
    rw [List.map_append, List.nodup_append]
    refine ⟨hfiltered _, ih (hfiltered _), ?_⟩
    intro name hname other hother heq
    obtain ⟨found, hfound, rfl⟩ := List.mem_map.1 hname
    obtain ⟨declaration, hlater, rfl⟩ := List.mem_map.1 hother
    have hleft := (reaches_of_mem_visit (fun _ h => h) hlater).1
    exact (mem_others.1 hleft).2 (heq ▸ (mem_named.1 hfound).2)

section Dependencies

variable {bound : Int} {text : List Char} {definition : Definition} {first second : Declaration}

theorem mem_visit_iff : second ∈ visit structs [first.name] ↔
    second ∈ structs ∧ Relation.ReflTransGen (Refers structs) first.name second.name := by
  constructor
  · intro hvisited
    obtain ⟨hmem, start, hstart, hreach⟩ := reaches_of_mem_visit (fun _ h => h) hvisited
    rw [List.mem_singleton] at hstart
    exact ⟨hmem, hstart ▸ hreach⟩
  · rintro ⟨hsecond, hreach⟩
    obtain ⟨hstart, hclosed⟩ := visit_closed structs [first.name]
    have reached {name : String}
        (hreach : Relation.ReflTransGen (Refers structs) first.name name) :
        ∀ declaration ∈ structs, declaration.name = name →
          declaration ∈ visit structs [first.name] := by
      induction hreach with
      | refl =>
        rintro declaration hmem hname
        exact hstart declaration hmem (List.mem_singleton.2 hname)
      | tail _ hrefers ih =>
        rintro declaration hmem rfl
        obtain ⟨found, hfound, hname, hreference⟩ := hrefers
        exact hclosed found (ih found hfound hname) declaration hmem hreference
    exact reached hreach second hsecond rfl

/-- The dependencies of a struct are the other structs that it reaches. -/
theorem mem_dependencies_iff : second ∈ dependencies structs first ↔ second ∈ structs ∧
    second.name ≠ first.name ∧ Reaches structs first.name second.name := by
  unfold dependencies Reaches
  rw [List.mem_mergeSort, mem_others, List.mem_singleton, mem_visit_iff,
    Relation.reflTransGen_iff_eq_or_transGen]
  constructor
  · rintro ⟨⟨hsecond, heq | hreach⟩, hne⟩
    · exact absurd heq hne
    · exact ⟨hsecond, hne, hreach⟩
  · rintro ⟨hsecond, hne, hreach⟩
    exact ⟨⟨hsecond, Or.inr hreach⟩, hne⟩

/-- The dependencies of a struct stand in the order of their names, each once. -/
theorem dependencies_sorted (h : definition.ReadFrom bound text) (first : Declaration) :
    (dependencies definition.structs first).Pairwise (·.name < ·.name) := by
  have hsorted : (dependencies definition.structs first).Pairwise
      fun a b => (a.name ≤ b.name : Bool) := by
    apply List.pairwise_mergeSort
    · intro a b c hab hbc
      exact decide_eq_true (String.le_trans (of_decide_eq_true hab) (of_decide_eq_true hbc))
    · intro a b
      rw [Bool.or_eq_true, decide_eq_true_iff, decide_eq_true_iff]
      exact String.le_total a.name b.name
  have hnodup : (dependencies definition.structs first).Pairwise
      fun a b => a.name ≠ b.name := by
    have hvisited := List.pairwise_map.1 (visit_nodup h.names_nodup [first.name])
    exact (List.mergeSort_perm _ _).symm.pairwise (hvisited.filter _) fun hne => hne.symm
  refine (hsorted.and hnodup).imp ?_
  rintro a b ⟨hle, hne⟩
  exact Std.lt_of_le_of_ne (of_decide_eq_true hle) hne

/-- A struct has no dependencies exactly if it refers to no other struct. -/
theorem dependencies_eq_nil_iff (h : definition.ReadFrom bound text)
    (hfirst : first ∈ definition.structs) :
    dependencies definition.structs first = [] ↔ first.SelfContained := by
  constructor
  · intro hnil name hreference
    obtain ⟨found, hfound, rfl⟩ :=
      h.exists_of_mem_references (List.mem_cons_of_mem _ hfirst) hreference
    have hreach : Reaches definition.structs first.name found.name :=
      .single ⟨first, hfirst, rfl, hreference⟩
    apply Decidable.byContradiction
    intro hne
    have hmem := mem_dependencies_iff.2 ⟨hfound, hne, hreach⟩
    rw [hnil] at hmem
    cases hmem
  · intro hself
    have stays {name : String} (hreach : Reaches definition.structs first.name name) :
        name = first.name := by
      induction hreach with
      | single hrefers =>
        obtain ⟨declaration, hmem, hname, hreference⟩ := hrefers
        obtain rfl := h.eq_of_name_eq hmem hfirst hname
        exact hself _ hreference
      | tail _ hrefers ih =>
        obtain ⟨declaration, hmem, hname, hreference⟩ := hrefers
        obtain rfl := h.eq_of_name_eq hmem hfirst (hname.trans ih)
        exact hself _ hreference
    rw [List.eq_nil_iff_forall_not_mem]
    intro declaration hmem
    obtain ⟨_, hne, hreach⟩ := mem_dependencies_iff.1 hmem
    exact hne (stays hreach)

/-- The encoded type is the text of the struct alone exactly if it refers to no other struct. -/
theorem encodeType_eq_text_iff (h : definition.ReadFrom bound text)
    (hfirst : first ∈ definition.structs) :
    encodeType definition.structs first = first.text ↔ first.SelfContained := by
  rw [← dependencies_eq_nil_iff h hfirst]
  unfold encodeType
  rw [(h.wellFormed first (List.mem_cons_of_mem _ hfirst)).text_eq, String.ofList_inj,
    List.flatMap_cons]
  constructor
  · intro heq
    have hrest := List.append_cancel_left (heq.trans (List.append_nil _).symm)
    cases hdependencies : dependencies definition.structs first with
    | nil => rfl
    | cons next others =>
      rw [hdependencies, List.flatMap_cons] at hrest
      have hnext := (List.append_eq_nil_iff.1 hrest).1
      simp [Declaration.render, parenthesized] at hnext
  · intro hnil
    rw [hnil, List.flatMap_nil, List.append_nil]

end Dependencies

/-- A struct that the type refers to refers to no other struct. -/
def Plain (structs : List Declaration) (type : ArgType) : Prop :=
  ∀ declaration ∈ structs, type.structName? = some declaration.name → declaration.SelfContained

/-- The word of a byte string is that of the standard, for every byte string of any type. -/
theorem leaf?_eq_encodeBytes (hasher : Hasher) (type : ArgType) (data : Bytes) :
    leaf? hasher type data = (encodeBytes hasher type data).toOption := by
  have number : leaf? hasher .uint data = (encodeBytes hasher .uint data).toOption := by
    by_cases hlength : data.length ≤ 32
    · have hword : encodeBytes hasher .uint data = .ok (zeros data ++ data) := encodeBytes_uint_eq_ok.2
        ⟨hlength, (Word.ofInt_toNatBE hlength).trans (congrArg _ (Bytes.ofNatBE_toNatBE_of_le hlength))⟩
      rw [hword]
      exact if_pos hlength
    · unfold leaf? encodeBytes
      dsimp only
      rw [if_neg hlength, if_pos (Nat.not_le.1 hlength)]
      rfl
  cases type with
  | string | bytes => rfl
  | uint => exact number
  | int => exact number
  | bool => exact number
  | fixedBytes size =>
    unfold leaf? encodeBytes
    by_cases hlength : data.length ≤ size
    · simp [hlength, Nat.not_lt.2 hlength, padRight, zeros, Except.toOption]
    · simp [hlength, Nat.not_le.1 hlength, Except.toOption]
  | address =>
    by_cases hlength : data.length = 20
    · have hzeros : List.replicate 12 0x00 ++ data = zeros data ++ data := by rw [zeros, hlength]
      have hword : encodeBytes hasher .address data = .ok (zeros data ++ data) :=
        encodeBytes_address_eq_ok.2 (Word.ofAddress_eq_ok.2 ⟨hlength, hzeros⟩)
      rw [hword]
      exact if_pos hlength
    · unfold leaf? encodeBytes
      dsimp only
      rw [if_neg hlength, if_pos hlength]
      rfl
  | array element length => rfl
  | struct name => rfl

theorem all_count_of_checkCount {declared : Option Nat} {given : Nat}
    (h : checkCount declared given = .ok ()) : declared.all (given = ·) = true := by
  cases declared with
  | none => rfl
  | some count => simpa using checkCount_eq_ok.1 h count rfl

section Values

variable {bound : Int} {text : List Char} {definition : Definition} {hasher : Hasher}

theorem plain_of_selfContained (h : definition.ReadFrom bound text)
    (hmem : declaration ∈ definition.structs) (hself : declaration.SelfContained) :
    ∀ param ∈ declaration.params, Plain definition.structs param.type := by
  intro param hparam found hfound hname
  have heq := hself _ (mem_references_singleton.2 ⟨param, hparam, hname⟩)
  rwa [h.eq_of_name_eq hfound hmem heq]

theorem typeHash_of_selfContained (h : definition.ReadFrom bound text)
    (hmem : declaration ∈ definition.structs) (hself : declaration.SelfContained) :
    typeHash definition.structs hasher declaration = declarationHash hasher declaration := by
  unfold typeHash declarationHash
  rw [(encodeType_eq_text_iff h hmem).2 hself]

variable [Stack]

mutual

/-- Values whose structs refer to no others are encoded as in the standard. -/
theorem encode?_of_encode (h : definition.ReadFrom bound text) : ∀ (value : Rlp) (context : Context)
    {type : ArgType} {depth : Int} {word : Bytes}, context.structs = definition.structs →
    Plain definition.structs type → encode context type depth value = .ok word →
    encode? definition.structs context.hasher type value = some word
  | .bytes data, context, type, depth, word, _, _, hencode => by
    unfold encode?
    rw [leaf?_eq_encodeBytes, (encode_bytes_eq_ok.1 hencode).2]
    rfl
  | .list items, context, type, depth, word, hstructs, hplain, hencode => by
    obtain ⟨element, length, rfl⟩ | ⟨name, rfl⟩ := array_or_struct_of_encode hencode
    · obtain ⟨_, hcount, words, hwords, rfl⟩ := encode_array_eq_ok.1 hencode
      have helement : Plain definition.structs element := hplain
      have helements : encodeElements? definition.structs context.hasher element items = some words :=
        encodeElements?_of_encode h items (context.inside Stack.array) hstructs helement hwords
      unfold encode?
      dsimp only
      rw [if_pos (all_count_of_checkCount hcount), helements]
      rfl
    · obtain ⟨_, declaration, hdeclaration, hlength, words, hwords, rfl⟩ :=
        encode_struct_eq_ok.1 hencode
      have hlookup := declaration_eq_ok.1 hdeclaration
      rw [hstructs] at hlookup
      have hmem := Definition.mem_of_lookup? hlookup
      have hname := Definition.name_of_lookup? hlookup
      have hself := hplain declaration hmem (hname ▸ rfl)
      have hparams := plain_of_selfContained h hmem hself
      have hfields : encodeFields? definition.structs context.hasher declaration.params items =
          some words :=
        encodeFields?_of_encode h items (context.inside Stack.struct) hstructs hparams hwords
      unfold encode?
      dsimp only
      rw [hlookup]
      dsimp only
      rw [if_neg (not_not_intro hlength), hfields, typeHash_of_selfContained h hmem hself]
      rfl

theorem encodeElements?_of_encode (h : definition.ReadFrom bound text) : ∀ (items : List Rlp)
    (context : Context) {type : ArgType} {depth : Int} {words : Bytes},
    context.structs = definition.structs → Plain definition.structs type →
    encodeElements context type depth items = .ok words →
    encodeElements? definition.structs context.hasher type items = some words
  | [], context, type, depth, words, _, _, hencode => by
    rw [encodeElements] at hencode
    rw [encodeElements?, Except.ok.inj hencode]
  | value :: rest, context, type, depth, words, hstructs, hplain, hencode => by
    obtain ⟨word, others, hword, hothers, rfl⟩ := encodeElements_cons_eq_ok.1 hencode
    rw [encodeElements?, encode?_of_encode h value context hstructs hplain hword,
      encodeElements?_of_encode h rest context hstructs hplain hothers]
    rfl

theorem encodeFields?_of_encode (h : definition.ReadFrom bound text) : ∀ (items : List Rlp)
    (context : Context) {params : List Param} {depth : Int} {words : Bytes},
    context.structs = definition.structs →
    (∀ param ∈ params, Plain definition.structs param.type) →
    encodeFields context params depth items = .ok words →
    encodeFields? definition.structs context.hasher params items = some words
  | [], _, [], depth, words, _, _, hencode => by
    unfold encodeFields at hencode
    unfold encodeFields?
    exact congrArg some (Except.ok.inj hencode)
  | [], _, param :: params, depth, words, _, _, hencode => by
    unfold encodeFields at hencode
    unfold encodeFields?
    exact congrArg some (Except.ok.inj hencode)
  | value :: rest, _, [], depth, words, _, _, hencode => by
    unfold encodeFields at hencode
    unfold encodeFields?
    exact congrArg some (Except.ok.inj hencode)
  | value :: rest, context, param :: params, depth, words, hstructs, hplain, hencode => by
    obtain ⟨word, others, hword, hothers, rfl⟩ := encodeFields_cons_eq_ok.1 hencode
    obtain ⟨hfirst, hrest⟩ := List.forall_mem_cons.1 hplain
    rw [encodeFields?, encode?_of_encode h value context hstructs hfirst hword,
      encodeFields?_of_encode h rest context hstructs hrest hothers]
    rfl

end

/-- Where the primitive does not take a struct's own text and its encoded type for each other, the
type digest is that of the standard exactly if the struct refers to no other. Its values then have
the words of the standard, whatever the primitive. -/
theorem typeHash_eq_standard_iff (limit room : Int)
    (hparse : Definition.parse bound text = .ok definition)
    (hmem : declaration ∈ definition.structs) (hinj : hasher.InjectiveOn
      [Bytes.utf8 declaration.text, Bytes.utf8 (encodeType definition.structs declaration)]) :
    let context : Context := { structs := definition.structs, hasher, bound := limit, room }
    (context.typeHash declaration.name = .ok (typeHash definition.structs hasher declaration) ↔
      declaration.SelfContained) ∧
    (declaration.SelfContained → ∀ depth value word,
      encode context (.struct declaration.name) depth value = .ok word →
      encode? definition.structs hasher (.struct declaration.name) value = some word) := by
  have h := Definition.readFrom_of_parse hparse
  intro context
  have hown : context.typeHash declaration.name = .ok (declarationHash hasher declaration) := by
    unfold Context.typeHash
    rw [declaration_eq_ok.2 (h.lookup?_of_mem hmem)]
    rfl
  constructor
  · rw [hown, Except.ok.injEq, ← encodeType_eq_text_iff h hmem]
    unfold declarationHash typeHash
    constructor
    · intro hhash
      have heq := hinj _ List.mem_cons_self _ (List.mem_cons_of_mem _ List.mem_cons_self) hhash
      exact (Bytes.utf8_injective heq).symm
    · intro heq
      rw [heq]
  · intro hself depth value word hencode
    refine encode?_of_encode h value context rfl ?_ hencode
    intro found hfound hname
    rwa [h.eq_of_name_eq hfound hmem (Option.some.inj hname).symm]

end Values

theorem exists_parse_of_structs {bound : Int} {text : List Char} {structs : List Declaration}
    (h : (Definition.parse bound text).toOption.map (·.structs) = some structs) :
    ∃ definition, Definition.parse bound text = .ok definition ∧ definition.structs = structs := by
  obtain ⟨definition, hparse, hstructs⟩ := Option.map_eq_some_iff.1 h
  exact ⟨definition, Outcome.eq_ok_of_toOption hparse, hstructs⟩

/-- A struct whose values hold others of their own type. -/
def treeStruct : Declaration where
  name := "Tree"
  params := [{ name := "age", typeText := "uint8", type := .uint },
    { name := "twigs", typeText := "Tree[]", type := .array (.struct "Tree") none }]
  text := "Tree(uint8 age,Tree[] twigs)"

/-- A tree with one twig has the type digest and the word of the standard. -/
theorem typeHash_eq_standard_tree :
    let context : Context :=
      { structs := [treeStruct], hasher := .polynomial, bound := 32, room := 32 }
    let tree : Rlp := .list [.bytes [0x02], .list [.list [.bytes [0x01], .list []]]]
    context.typeHash "Tree" = .ok (typeHash [treeStruct] .polynomial treeStruct) ∧
    ∃ word, encode context (.struct "Tree") 0 tree = .ok word ∧
      encode? [treeStruct] .polynomial (.struct "Tree") tree = some word := by
  intro context tree
  obtain ⟨definition, hparse, hstructs⟩ : ∃ definition,
      Definition.parse 32 "plant(Tree t)Tree(uint8 age,Tree[] twigs)".toList = .ok definition ∧
        definition.structs = [treeStruct] := exists_parse_of_structs (by decide +kernel)
  have hself : treeStruct.SelfContained := by decide
  have hinj : Hasher.polynomial.InjectiveOn
      [Bytes.utf8 treeStruct.text, Bytes.utf8 (encodeType definition.structs treeStruct)] := by
    rw [hstructs]
    decide +kernel
  have hstandard := typeHash_eq_standard_iff 32 32 hparse (hstructs ▸ List.mem_cons_self) hinj
  rw [hstructs] at hstandard
  obtain ⟨word, hword⟩ : ∃ word, encode context (.struct "Tree") 0 tree = .ok word :=
    Outcome.exists_of_isOk (by decide +kernel)
  exact ⟨hstandard.1.2 hself, word, hword, hstandard.2 hself 0 tree word hword⟩

def outerStruct : Declaration where
  name := "Outer"
  params := [{ name := "i", typeText := "Inner", type := .struct "Inner" }]
  text := "Outer(Inner i)"

def innerStruct : Declaration where
  name := "Inner"
  params := [{ name := "x", typeText := "uint256", type := .uint }]
  text := "Inner(uint256 x)"

/-- A struct with another inside has neither the type digest nor the word of the standard. -/
theorem typeHash_ne_standard_nested :
    let structs := [outerStruct, innerStruct]
    let context : Context := { structs, hasher := .polynomial, bound := 32, room := 32 }
    let value : Rlp := .list [.list [.bytes [0x01]]]
    (∃ definition, Definition.parse 32 "nest(Outer o)Outer(Inner i)Inner(uint256 x)".toList =
      .ok definition ∧ definition.structs = structs) ∧
    encodeType structs outerStruct = "Outer(Inner i)Inner(uint256 x)" ∧
    context.typeHash "Outer" ≠ .ok (typeHash structs .polynomial outerStruct) ∧
    ∃ word standard, encode context (.struct "Outer") 0 value = .ok word ∧
      encode? structs .polynomial (.struct "Outer") value = some standard ∧ word ≠ standard := by
  intro structs context value
  refine ⟨exists_parse_of_structs (by decide +kernel), ?_, ?_, ?_⟩
  · decide +kernel
  · intro heq
    have hne : (context.typeHash "Outer").toOption ≠
        some (typeHash structs .polynomial outerStruct) := by decide +kernel
    rw [heq] at hne
    exact hne rfl
  · obtain ⟨word, hword⟩ : ∃ word, encode context (.struct "Outer") 0 value = .ok word :=
      Outcome.exists_of_isOk (by decide +kernel)
    have hsome : (encode? structs .polynomial (.struct "Outer") value).isSome := by decide +kernel
    obtain ⟨standard, hstandard⟩ := Option.isSome_iff_exists.1 hsome
    have hne : (encode context (.struct "Outer") 0 value).toOption ≠
        encode? structs .polynomial (.struct "Outer") value := by decide +kernel
    refine ⟨word, standard, hword, hstandard, ?_⟩
    rw [hword, hstandard] at hne
    exact fun heq => hne (congrArg some heq)

end TypedData.Standard

end SignedRelay
