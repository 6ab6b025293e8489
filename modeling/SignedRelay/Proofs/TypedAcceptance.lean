import SignedRelay.Proofs.RlpNesting
import SignedRelay.Proofs.TypedEncoding
import SignedRelay.Proofs.Words
import SignedRelay.TypedData.Conformance

/-!
# Which values are encoded

Encoding looks at the stack and at the depth before it looks at the value, and at the number of items
before it looks at the items. Main statement: a value for which the stack has room is encoded exactly if it
fits its type and stays within the nesting bound, and is refused as a misfit if not. No word is given for a
value that keeps more calls open than there is room for.
-/
namespace SignedRelay

open Outcome

/-- A value that does not fit its type, or a number of values other than the declared one. -/
def Error.IsMisfit (error : Error) : Prop :=
  (∃ cause, error = .argument cause) ∨ ∃ cause, error = .count cause

/-- A byte string for a list or a list for a byte string, or the wrong size or number of items: neither
the declarations nor the bound have a part in it. -/
def ArgumentError.IsShape : ArgumentError → Prop
  | .bytesExpected | .listExpected | .fixedBytesLength .. | .integerLength _ | .addressLength _
  | .elementCount .. => True
  | .structUnknown _ | .argumentsNotList | .valueNesting _ => False

/-- A misfit of the shape of a value only. -/
def Error.IsShape (error : Error) : Prop :=
  (∃ cause, cause.IsShape ∧ error = .argument cause) ∨ ∃ cause, error = .count cause

theorem Error.IsShape.isMisfit {error : Error} (h : error.IsShape) : error.IsMisfit :=
  h.imp_left fun ⟨cause, _, herror⟩ => ⟨cause, herror⟩

/-- The failure is of a kind, or else the stack is exhausted, which it can be under some condition. -/
def Error.OrExhausted (P : Error → Prop) (exhausts : Prop) (error : Error) : Prop :=
  P error ∨ error = .fault .stackExhausted ∧ exhausts

namespace TypedData

variable {context : Context}

theorem exists_encodeBytes_iff {hasher : Hasher} {type : ArgType} {data : Bytes} :
    (∃ word, encodeBytes hasher type data = .ok word) ↔ FitsBytes type data := by
  have number : (∃ word, encodeBytes hasher .uint data = .ok word) ↔ data.length ≤ 32 := by
    constructor
    · rintro ⟨word, hword⟩
      exact (encodeBytes_uint_eq_ok.1 hword).1
    · intro hlength
      exact ⟨_, encodeBytes_uint_eq_ok.2 ⟨hlength, Word.ofInt_toNatBE hlength⟩⟩
  cases type with
  | string | bytes => exact iff_of_true ⟨_, rfl⟩ trivial
  | uint => exact number
  | int => exact number
  | bool => exact number
  | fixedBytes size =>
    constructor
    · rintro ⟨word, hword⟩
      exact (encodeBytes_fixedBytes_eq_ok.1 hword).1
    · intro hfits
      exact ⟨_, encodeBytes_fixedBytes_eq_ok.2 ⟨hfits, rfl⟩⟩
  | address =>
    constructor
    · rintro ⟨word, hword⟩
      exact (Word.ofAddress_eq_ok.1 (encodeBytes_address_eq_ok.1 hword)).1
    · intro hlength
      exact ⟨_, encodeBytes_address_eq_ok.2 (Word.ofAddress_eq_ok.2 ⟨hlength, rfl⟩)⟩
  | array element length => exact iff_of_false (fun ⟨_, h⟩ => by cases h) id
  | struct name => exact iff_of_false (fun ⟨_, h⟩ => by cases h) id

theorem checkCount_eq_ok {declared : Option Nat} {given : Nat} :
    checkCount declared given = .ok () ↔ ∀ count, declared = some count → given = count := by
  unfold checkCount
  cases declared with
  | none => simp
  | some count => simp

theorem FitsFields.length_eq {structs : List Declaration} : ∀ {params : List Param}
    {items : List Rlp}, FitsFields structs params items → items.length = params.length
  | _, _, .nil => rfl
  | _, _, .cons _ hrest => congrArg Nat.succ hrest.length_eq

section Calls

variable [Stack] {structs : List Declaration}

theorem openCalls_bytes {type : ArgType} {data : Bytes} :
    openCalls structs type (.bytes data) = Stack.own type := by
  rw [openCalls]

theorem openCalls_array {element : ArgType} {length : Option Nat} {items : List Rlp} :
    openCalls structs (.array element length) (.list items) =
      max (Stack.own (.array element length)) (openElements structs element items) := by
  rw [openCalls]

theorem openCalls_struct {name : String} {declaration : Declaration} {items : List Rlp}
    (hlookup : Definition.lookup? structs name = some declaration) :
    openCalls structs (.struct name) (.list items) =
      max (Stack.own (.struct name)) (openFields structs declaration.params items) := by
  unfold openCalls
  dsimp only
  rw [hlookup]

/-- Whatever the value is, its own calls are among those that it keeps open. -/
theorem own_le_openCalls (type : ArgType) (value : Rlp) :
    Stack.own type ≤ openCalls structs type value := by
  unfold openCalls
  split
  · exact Nat.le_refl _
  · split
    · exact Nat.le_max_left _ _
    · split
      · exact Nat.le_max_left _ _
      · exact Nat.le_refl _
    · exact Nat.le_refl _

theorem openElements_le_iff {type : ArgType} {items : List Rlp} {limit : Nat} :
    openElements structs type items ≤ limit ↔
      ∀ item ∈ items, Stack.array + openCalls structs type item ≤ limit := by
  induction items with
  | nil => simp [openElements]
  | cons item rest ih => rw [openElements, Nat.max_le, ih, List.forall_mem_cons]

theorem openFields_le_iff {params : List Param} {items : List Rlp} {limit : Nat} :
    openFields structs params items ≤ limit ↔
      ∀ pair ∈ params.zip items, Stack.struct + openCalls structs pair.1.type pair.2 ≤ limit := by
  induction params generalizing items with
  | nil => simp [openFields]
  | cons param params ih =>
    cases items with
    | nil => simp [openFields]
    | cons item rest => rw [openFields, Nat.max_le, ih, List.zip_cons_cons, List.forall_mem_cons]

mutual

/-- Each step inward keeps no more calls open than a list can, and the last one no more than a type can. -/
theorem openCalls_le : ∀ (value : Rlp) (type : ArgType),
    openCalls structs type value ≤ Stack.level * value.height + Stack.most
  | .bytes data, type => by
    rw [openCalls_bytes]
    exact Nat.le_add_left_of_le (Stack.own_le type)
  | .list items, type => by
    have hown : Stack.own type ≤ Stack.level * Rlp.heightAll items + Stack.most :=
      Nat.le_add_left_of_le (Stack.own_le type)
    unfold openCalls
    rw [Rlp.height]
    cases type with
    | array element length => exact Nat.max_le.2 ⟨hown, openElements_le items element⟩
    | struct name =>
      dsimp only
      split
      · next declaration _ => exact Nat.max_le.2 ⟨hown, openFields_le items declaration.params⟩
      · exact hown
    | _ => exact hown

theorem openElements_le : ∀ (items : List Rlp) (type : ArgType),
    openElements structs type items ≤ Stack.level * Rlp.heightAll items + Stack.most
  | [], type => by
    rw [openElements]
    exact Nat.zero_le _
  | item :: rest, type => by
    have hitem := openCalls_le item type
    have hrest := openElements_le rest type
    have hstep := Stack.array_le_level
    rw [openElements, Rlp.heightAll, ← Nat.mul_max_mul_left, Nat.mul_succ]
    omega

theorem openFields_le : ∀ (items : List Rlp) (params : List Param),
    openFields structs params items ≤ Stack.level * Rlp.heightAll items + Stack.most
  | [], [] => Nat.zero_le _
  | [], param :: params => Nat.zero_le _
  | item :: rest, [] => Nat.zero_le _
  | item :: rest, param :: params => by
    have hitem := openCalls_le item param.type
    have hrest := openFields_le rest params
    have hstep := Stack.struct_le_level
    rw [openFields, Rlp.heightAll, ← Nat.mul_max_mul_left, Nat.mul_succ]
    omega

end

/-- Where the stack holds a bound, it has room for every value that is no higher. -/
theorem openCalls_le_of_holds {bound : Int} (hholds : Stack.Holds bound) {value : Rlp}
    (hheight : value.height ≤ bound) (type : ArgType) :
    openCalls structs type value ≤ Stack.hashing :=
  Nat.le_trans (openCalls_le value type) (hholds.level_mul_le hheight)

end Calls

section Acceptance

variable [Stack]

/-- A value at a depth stays within the bound, and finds room on the stack. -/
structure Context.Admits (context : Context) (type : ArgType) (depth : Int) (value : Rlp) : Prop where
  height_le : depth + value.height ≤ context.bound
  calls_le : openCalls context.structs type value ≤ context.room

theorem admits_bytes_iff {type : ArgType} {depth : Int} {data : Bytes} :
    context.Admits type depth (.bytes data) ↔ context.enter type depth = .ok () := by
  rw [enter_eq_ok]
  constructor
  · rintro ⟨hheight, hcalls⟩
    rw [Rlp.height] at hheight
    rw [openCalls_bytes] at hcalls
    omega
  · rintro ⟨hroom, hdepth⟩
    refine ⟨?_, ?_⟩
    · rw [Rlp.height]
      omega
    · rw [openCalls_bytes]
      exact hroom

theorem admits_array_iff {element : ArgType} {length : Option Nat} {depth : Int} {items : List Rlp} :
    context.Admits (.array element length) depth (.list items) ↔
      context.enter (.array element length) depth = .ok () ∧
        ∀ item ∈ items, (context.inside Stack.array).Admits element (depth + 1) item := by
  have hcalls : (openCalls context.structs (.array element length) (.list items) : Int) ≤ context.room ↔
      Stack.own (.array element length) ≤ context.room ∧
        openElements context.structs element items ≤ context.room.toNat := by
    rw [openCalls_array]
    omega
  rw [enter_eq_ok]
  constructor
  · rintro ⟨hheight, hroom⟩
    obtain ⟨hdepth, hitems⟩ := Rlp.height_list_le_iff.1 hheight
    obtain ⟨hroom, hopen⟩ := hcalls.1 hroom
    refine ⟨⟨hroom, hdepth⟩, fun item hmem => ⟨hitems item hmem, ?_⟩⟩
    have hitem := openElements_le_iff.1 hopen item hmem
    rw [Context.structs_inside, Context.room_inside]
    omega
  · rintro ⟨⟨hroom, hdepth⟩, hitems⟩
    refine ⟨Rlp.height_list_le_iff.2 ⟨hdepth, fun item hmem => (hitems item hmem).height_le⟩, ?_⟩
    refine hcalls.2 ⟨hroom, openElements_le_iff.2 fun item hmem => ?_⟩
    have hitem := (hitems item hmem).calls_le
    rw [Context.structs_inside, Context.room_inside] at hitem
    omega

theorem admits_struct_iff {name : String} {declaration : Declaration} {depth : Int} {items : List Rlp}
    (hlookup : Definition.lookup? context.structs name = some declaration)
    (hlength : items.length = declaration.params.length) :
    context.Admits (.struct name) depth (.list items) ↔
      context.enter (.struct name) depth = .ok () ∧
        ∀ pair ∈ declaration.params.zip items,
          (context.inside Stack.struct).Admits pair.1.type (depth + 1) pair.2 := by
  have hcalls : (openCalls context.structs (.struct name) (.list items) : Int) ≤ context.room ↔
      Stack.own (.struct name) ≤ context.room ∧
        openFields context.structs declaration.params items ≤ context.room.toNat := by
    rw [openCalls_struct hlookup]
    omega
  rw [enter_eq_ok]
  constructor
  · rintro ⟨hheight, hroom⟩
    obtain ⟨hdepth, hitems⟩ := Rlp.height_list_le_iff.1 hheight
    obtain ⟨hroom, hopen⟩ := hcalls.1 hroom
    refine ⟨⟨hroom, hdepth⟩, fun pair hmem => ⟨hitems _ (List.of_mem_zip hmem).2, ?_⟩⟩
    have hitem := openFields_le_iff.1 hopen pair hmem
    rw [Context.structs_inside, Context.room_inside]
    omega
  · rintro ⟨⟨hroom, hdepth⟩, hitems⟩
    refine ⟨Rlp.height_list_le_iff.2 ⟨hdepth, fun item hmem => ?_⟩, ?_⟩
    · -- There are as many fields as items, so that none of the items is left out.
      rw [← List.map_snd_zip (Nat.le_of_eq hlength)] at hmem
      obtain ⟨pair, hpair, rfl⟩ := List.mem_map.1 hmem
      exact (hitems pair hpair).height_le
    · refine hcalls.2 ⟨hroom, openFields_le_iff.2 fun pair hmem => ?_⟩
      have hitem := (hitems pair hmem).calls_le
      rw [Context.structs_inside, Context.room_inside] at hitem
      omega

-- The induction is on the value, for all types and contexts at once: a struct may hold itself, so what gets
-- smaller is the value only, while the depth and the calls that are open grow.
mutual

theorem exists_encode_iff : ∀ (value : Rlp) (context : Context) (type : ArgType) (depth : Int),
    (∃ word, encode context type depth value = .ok word) ↔
      Fits context.structs type value ∧ context.Admits type depth value
  | .bytes data, context, type, depth => by
    rw [admits_bytes_iff, and_comm]
    simp only [encode_bytes_eq_ok, exists_and_left, exists_encodeBytes_iff]
    refine and_congr_right fun _ => ⟨.bytes, fun hfits => ?_⟩
    cases hfits with
    | bytes hdata => exact hdata
  | .list items, context, type, depth => by
    constructor
    · rintro ⟨word, hword⟩
      obtain ⟨element, length, rfl⟩ | ⟨name, rfl⟩ := array_or_struct_of_encode hword
      · obtain ⟨henter, hcount, words, hwords, _⟩ := encode_array_eq_ok.1 hword
        obtain ⟨hitems, hadmits⟩ := (exists_encodeElements_iff items _ element (depth + 1)).1
          ⟨words, hwords⟩
        exact ⟨.array (checkCount_eq_ok.1 hcount) hitems, admits_array_iff.2 ⟨henter, hadmits⟩⟩
      · obtain ⟨henter, declaration, hdeclaration, hlength, words, hwords, _⟩ :=
          encode_struct_eq_ok.1 hword
        obtain ⟨hitems, hadmits⟩ := (exists_encodeFields_iff items _ declaration.params (depth + 1)
          hlength).1 ⟨words, hwords⟩
        have hlookup := declaration_eq_ok.1 hdeclaration
        exact ⟨.struct hlookup hitems, (admits_struct_iff hlookup hlength).2 ⟨henter, hadmits⟩⟩
    · rintro ⟨hfits, hadmits⟩
      cases hfits with
      | @array element length _ hcount hitems =>
        obtain ⟨henter, hadmits⟩ := admits_array_iff.1 hadmits
        obtain ⟨words, hwords⟩ := (exists_encodeElements_iff items (context.inside Stack.array) element
          (depth + 1)).2 ⟨hitems, hadmits⟩
        exact ⟨_, encode_array_eq_ok.2 ⟨henter, checkCount_eq_ok.2 hcount, words, hwords, rfl⟩⟩
      | @struct name declaration _ hlookup hitems =>
        obtain ⟨henter, hadmits⟩ := (admits_struct_iff hlookup hitems.length_eq).1 hadmits
        obtain ⟨words, hwords⟩ := (exists_encodeFields_iff items (context.inside Stack.struct)
          declaration.params (depth + 1) hitems.length_eq).2 ⟨hitems, hadmits⟩
        exact ⟨_, encode_struct_eq_ok.2 ⟨henter, declaration, declaration_eq_ok.2 hlookup,
          hitems.length_eq, words, hwords, rfl⟩⟩

theorem exists_encodeElements_iff : ∀ (items : List Rlp) (context : Context) (type : ArgType)
    (depth : Int), (∃ words, encodeElements context type depth items = .ok words) ↔
      (∀ item ∈ items, Fits context.structs type item) ∧
        ∀ item ∈ items, context.Admits type depth item
  | [], context, type, depth => by
    rw [encodeElements]
    exact iff_of_true ⟨_, rfl⟩ ⟨List.forall_mem_nil _, List.forall_mem_nil _⟩
  | item :: rest, context, type, depth => by
    have hitem := exists_encode_iff item context type depth
    have hrest := exists_encodeElements_iff rest context type depth
    simp only [List.forall_mem_cons]
    constructor
    · rintro ⟨words, hwords⟩
      obtain ⟨word, others, hword, hothers, _⟩ := encodeElements_cons_eq_ok.1 hwords
      obtain ⟨hfits, hadmits⟩ := hitem.1 ⟨word, hword⟩
      obtain ⟨hfitsRest, hadmitsRest⟩ := hrest.1 ⟨others, hothers⟩
      exact ⟨⟨hfits, hfitsRest⟩, hadmits, hadmitsRest⟩
    · rintro ⟨⟨hfits, hfitsRest⟩, hadmits, hadmitsRest⟩
      obtain ⟨word, hword⟩ := hitem.2 ⟨hfits, hadmits⟩
      obtain ⟨others, hothers⟩ := hrest.2 ⟨hfitsRest, hadmitsRest⟩
      exact ⟨_, encodeElements_cons_eq_ok.2 ⟨word, others, hword, hothers, rfl⟩⟩

theorem exists_encodeFields_iff : ∀ (items : List Rlp) (context : Context) (params : List Param)
    (depth : Int), items.length = params.length →
    ((∃ words, encodeFields context params depth items = .ok words) ↔
      FitsFields context.structs params items ∧
        ∀ pair ∈ params.zip items, context.Admits pair.1.type depth pair.2)
  | [], context, [], depth, _ => by
    rw [encodeFields_nil]
    exact iff_of_true ⟨_, rfl⟩ ⟨.nil, List.forall_mem_nil _⟩
  | [], context, param :: params, depth, hlength => absurd hlength (by simp)
  | item :: rest, context, [], depth, hlength => absurd hlength (by simp)
  | item :: rest, context, param :: params, depth, hlength => by
    have hitem := exists_encode_iff item context param.type depth
    have hrest := exists_encodeFields_iff rest context params depth (Nat.succ.inj hlength)
    rw [List.zip_cons_cons, List.forall_mem_cons]
    constructor
    · rintro ⟨words, hwords⟩
      obtain ⟨word, others, hword, hothers, _⟩ := encodeFields_cons_eq_ok.1 hwords
      obtain ⟨hfits, hadmits⟩ := hitem.1 ⟨word, hword⟩
      obtain ⟨hfitsRest, hadmitsRest⟩ := hrest.1 ⟨others, hothers⟩
      exact ⟨.cons hfits hfitsRest, hadmits, hadmitsRest⟩
    · rintro ⟨hfits, hadmits, hadmitsRest⟩
      cases hfits with
      | cons hfits hfitsRest =>
        obtain ⟨word, hword⟩ := hitem.2 ⟨hfits, hadmits⟩
        obtain ⟨others, hothers⟩ := hrest.2 ⟨hfitsRest, hadmitsRest⟩
        exact ⟨_, encodeFields_cons_eq_ok.2 ⟨word, others, hword, hothers, rfl⟩⟩

end

end Acceptance

theorem shapes_encodeBytes (hasher : Hasher) (type : ArgType) (data : Bytes) :
    FailsOnly Error.IsShape (encodeBytes hasher type data) := by
  have shape {α : Type} {cause : ArgumentError} (h : cause.IsShape) :
      FailsOnly Error.IsShape (.error (.argument cause) : Except Error α) :=
    failsOnly_error (Or.inl ⟨cause, h, rfl⟩)
  have number : FailsOnly Error.IsShape (encodeBytes hasher .uint data) := by
    simp only [encodeBytes]
    split
    · exact shape trivial
    · next hshort =>
      rw [Word.ofInt_toNatBE (Nat.not_lt.1 hshort)]
      exact failsOnly_ok _
  cases type with
  | string | bytes => exact failsOnly_ok _
  | uint => exact number
  | int => exact number
  | bool => exact number
  | fixedBytes size =>
    simp only [encodeBytes]
    split
    · exact shape trivial
    · exact failsOnly_ok _
  | address =>
    simp only [encodeBytes]
    split
    · exact shape trivial
    · next hlength =>
      rw [Word.ofAddress_eq_ok.2 ⟨Decidable.not_not.1 hlength, rfl⟩]
      exact failsOnly_ok _
  | array element length => exact shape trivial
  | struct name => exact shape trivial

theorem shapes_checkCount (declared : Option Nat) (given : Nat) :
    FailsOnly Error.IsShape (checkCount declared given) := by
  unfold checkCount
  split
  · exact failsOnly_ok _
  · split
    · exact failsOnly_ok _
    · exact failsOnly_error (Or.inl ⟨.elementCount _ _, trivial, rfl⟩)

section Failures

variable {P : Error → Prop}

/-- Looking up the struct that a type is based on fails only in a given way. -/
def Context.LookupFailsOnly (context : Context) (P : Error → Prop) (type : ArgType) : Prop :=
  ∀ name, type.base = .struct name → FailsOnly P (context.declaration name)

/-- The way to fail takes in every mismatch of shape, and every failed lookup for a field of a declared
struct. -/
structure Context.Covers (context : Context) (P : Error → Prop) : Prop where
  shape : ∀ error, error.IsShape → P error
  fields : ∀ declaration ∈ context.structs, ∀ param ∈ declaration.params,
    context.LookupFailsOnly P param.type

theorem Context.Covers.inside (h : context.Covers P) (calls : Nat) :
    (context.inside calls).Covers P := ⟨h.shape, h.fields⟩

theorem lookupFailsOnly_misfits {exhausts : Prop} (type : ArgType) :
    context.LookupFailsOnly (Error.OrExhausted Error.IsMisfit exhausts) type := by
  intro name _
  unfold Context.declaration
  split
  · exact failsOnly_ok _
  · exact failsOnly_error (Or.inl (Or.inl ⟨_, rfl⟩))

theorem covers_misfits {exhausts : Prop} : context.Covers (Error.OrExhausted Error.IsMisfit exhausts) where
  shape _ h := Or.inl h.isMisfit
  fields _ _ param _ := lookupFailsOnly_misfits param.type

variable [Stack]

/-- If a value goes too deep for the bound, or for the stack, then the failure for that is of a given
way. -/
structure Context.DepthFailsOnly (context : Context) (P : Error → Prop) (type : ArgType) (depth : Int)
    (value : Rlp) : Prop where
  nesting : context.bound < depth + value.height → P (.argument (.valueNesting context.bound))
  stack : context.room < openCalls context.structs type value → P (.fault .stackExhausted)

theorem failsOnly_enter {type : ArgType} {depth : Int} {value : Rlp}
    (h : context.DepthFailsOnly P type depth value) : FailsOnly P (context.enter type depth) := by
  have hown : Stack.own type ≤ openCalls context.structs type value := own_le_openCalls type value
  unfold Context.enter
  split
  · next hroom => exact failsOnly_error (h.stack (by omega))
  · split
    · next hdeep => exact failsOnly_error (h.nesting (by omega))
    · exact failsOnly_ok _

theorem Context.DepthFailsOnly.element {element : ArgType} {length : Option Nat} {depth : Int}
    {items : List Rlp} (h : context.DepthFailsOnly P (.array element length) depth (.list items)) :
    ∀ item ∈ items, (context.inside Stack.array).DepthFailsOnly P element (depth + 1) item := by
  intro item hmem
  refine ⟨fun hdeep => h.nesting ?_, fun hroom => h.stack ?_⟩
  · have hheight := Rlp.height_lt_of_mem hmem
    rw [Context.bound_inside] at hdeep
    omega
  · have hopen : Stack.array + openCalls context.structs element item ≤
        openElements context.structs element items := openElements_le_iff.1 (Nat.le_refl _) item hmem
    rw [Context.room_inside, Context.structs_inside] at hroom
    rw [openCalls_array]
    omega

theorem Context.DepthFailsOnly.field {name : String} {declaration : Declaration} {depth : Int}
    {items : List Rlp} (hlookup : Definition.lookup? context.structs name = some declaration)
    (h : context.DepthFailsOnly P (.struct name) depth (.list items)) :
    ∀ pair ∈ declaration.params.zip items,
      (context.inside Stack.struct).DepthFailsOnly P pair.1.type (depth + 1) pair.2 := by
  intro pair hmem
  refine ⟨fun hdeep => h.nesting ?_, fun hroom => h.stack ?_⟩
  · have hheight := Rlp.height_lt_of_mem (List.of_mem_zip hmem).2
    rw [Context.bound_inside] at hdeep
    omega
  · have hopen : Stack.struct + openCalls context.structs pair.1.type pair.2 ≤
        openFields context.structs declaration.params items :=
      openFields_le_iff.1 (Nat.le_refl _) pair hmem
    rw [Context.room_inside, Context.structs_inside] at hroom
    rw [openCalls_struct hlookup]
    omega

-- The way to fail is a parameter, so that one induction serves all misfits and also those of shape.
mutual

theorem failsOnly_encode : ∀ (value : Rlp) {context : Context} {type : ArgType} {depth : Int},
    context.Covers P → context.LookupFailsOnly P type → context.DepthFailsOnly P type depth value →
      FailsOnly P (encode context type depth value)
  | .bytes data, context, type, depth, hcovers, _, hdepth => by
    unfold encode
    split
    · next error henter => exact failsOnly_error (failsOnly_enter hdepth error henter)
    · exact (shapes_encodeBytes context.hasher type data).mono hcovers.shape
  | .list items, context, type, depth, hcovers, hlookup, hdepth => by
    unfold encode
    split
    · next error henter => exact failsOnly_error (failsOnly_enter hdepth error henter)
    · cases type with
      | array element length =>
        dsimp only
        split
        · next error hcount =>
          exact failsOnly_error (hcovers.shape _ (shapes_checkCount _ _ error hcount))
        · have helement : context.LookupFailsOnly P element := hlookup
          exact (failsOnly_encodeElements items (hcovers.inside Stack.array) helement
            hdepth.element).map _
      | struct name =>
        dsimp only
        split
        · next error hdeclaration => exact failsOnly_error (hlookup name rfl error hdeclaration)
        · next declaration hdeclaration =>
          split
          · exact failsOnly_error (hcovers.shape _ (Or.inr ⟨_, rfl⟩))
          · have hdeclared := declaration_eq_ok.1 hdeclaration
            have hfields := hcovers.fields declaration (Definition.mem_of_lookup? hdeclared)
            exact (failsOnly_encodeFields items (hcovers.inside Stack.struct) hfields
              (hdepth.field hdeclared)).map _
      | _ => exact failsOnly_error (hcovers.shape _ (Or.inl ⟨.bytesExpected, trivial, rfl⟩))

theorem failsOnly_encodeElements : ∀ (items : List Rlp) {context : Context} {type : ArgType}
    {depth : Int}, context.Covers P → context.LookupFailsOnly P type →
      (∀ item ∈ items, context.DepthFailsOnly P type depth item) →
        FailsOnly P (encodeElements context type depth items)
  | [], context, type, depth, _, _, _ => by
    rw [encodeElements]
    exact failsOnly_ok _
  | value :: rest, context, type, depth, hcovers, hlookup, hdepth => by
    obtain ⟨hvalue, hrest⟩ := List.forall_mem_cons.1 hdepth
    rw [encodeElements]
    refine FailsOnly.bind (failsOnly_encode value hcovers hlookup hvalue) fun word _ => ?_
    refine FailsOnly.bind (failsOnly_encodeElements rest hcovers hlookup hrest) fun words _ => ?_
    exact failsOnly_pure _

theorem failsOnly_encodeFields : ∀ (items : List Rlp) {context : Context} {params : List Param}
    {depth : Int}, context.Covers P → (∀ param ∈ params, context.LookupFailsOnly P param.type) →
      (∀ pair ∈ params.zip items, context.DepthFailsOnly P pair.1.type depth pair.2) →
        FailsOnly P (encodeFields context params depth items)
  | [], context, params, depth, _, _, _ => by
    rw [encodeFields_nil]
    exact failsOnly_ok _
  | value :: rest, context, [], depth, _, _, _ => by
    rw [encodeFields_no_params]
    exact failsOnly_ok _
  | value :: rest, context, param :: params, depth, hcovers, hlookup, hdepth => by
    obtain ⟨hparam, hparams⟩ := List.forall_mem_cons.1 hlookup
    rw [List.zip_cons_cons, List.forall_mem_cons] at hdepth
    obtain ⟨hvalue, hrest⟩ := hdepth
    rw [encodeFields]
    refine FailsOnly.bind (failsOnly_encode value hcovers hparam hvalue) fun word _ => ?_
    refine FailsOnly.bind (failsOnly_encodeFields rest hcovers hparams hrest) fun words _ => ?_
    exact failsOnly_pure _

end

theorem failsOnly_encodeArguments (hcovers : context.Covers P) {params : List Param}
    {values : List Rlp} (hlookup : ∀ param ∈ params, context.LookupFailsOnly P param.type)
    (hdepth : ∀ pair ∈ params.zip values, context.DepthFailsOnly P pair.1.type 0 pair.2) :
    FailsOnly P (encodeArguments context params values) := by
  unfold encodeArguments
  split
  · exact failsOnly_error (hcovers.shape _ (Or.inr ⟨_, rfl⟩))
  · exact failsOnly_encodeFields values hcovers hlookup hdepth

/-- The stack has room for the value of each parameter. -/
def Context.HasRoom (context : Context) (params : List Param) (values : List Rlp) : Prop :=
  ∀ pair ∈ params.zip values, openCalls context.structs pair.1.type pair.2 ≤ context.room

theorem hasRoom_of_holds {bound : Int} (hholds : Stack.Holds bound) (hroom : Stack.hashing ≤ context.room)
    {values : List Rlp} (hheight : ∀ value ∈ values, value.height ≤ bound) (params : List Param) :
    context.HasRoom params values := by
  intro pair hmem
  have hcalls : openCalls context.structs pair.1.type pair.2 ≤ Stack.hashing :=
    openCalls_le_of_holds hholds (hheight _ (List.of_mem_zip hmem).2) pair.1.type
  omega

theorem misfits_encodeArguments (params : List Param) (values : List Rlp) :
    FailsOnly (Error.OrExhausted Error.IsMisfit ¬context.HasRoom params values)
      (encodeArguments context params values) := by
  refine failsOnly_encodeArguments covers_misfits (fun param _ => lookupFailsOnly_misfits param.type) ?_
  intro pair hmem
  refine ⟨fun _ => Or.inl (Or.inl ⟨_, rfl⟩), fun hroom => Or.inr ⟨rfl, fun hhas => ?_⟩⟩
  exact absurd (hhas pair hmem) (Int.not_le.2 hroom)

end Failures

/-- A struct that lists others of its kind holds itself two steps further in, and so takes values of
any height: only the bound stops them, and exactly at their height, unless the stack has room for less. -/
example :
    let tree : Declaration :=
      { name := "A"
        params := [{ name := "a", typeText := "A[]", type := .array (.struct "A") none }]
        text := "A(A[] a)" }
    let value := Rlp.list [.list [.list [.list []]]]
    let accepted (bound room : Int) : Bool :=
      (encode { structs := [tree], hasher := .polynomial, bound, room } (.struct "A") 0 value).isOk
    value.height = 3 ∧ openCalls [tree] (.struct "A") value = 12 ∧ accepted 3 12 = true ∧
      accepted 2 12 = false ∧ accepted 3 11 = false := by decide +kernel

end TypedData

end SignedRelay
