import SignedRelay.Outcome
import SignedRelay.TypedData

/-!
# What an encoded value is made of

Success of encoding, taken apart along the value and its type: a byte string, an array of elements,
or a struct of fields, each within the nesting bound and with room on the stack.
-/
namespace SignedRelay.TypedData

variable {context : Context} {type : ArgType} {depth : Int} {word words : Bytes}

theorem declaration_eq_ok {name : String} {declaration : Declaration} :
    context.declaration name = .ok declaration ↔
      Definition.lookup? context.structs name = some declaration := by
  unfold Context.declaration
  cases Definition.lookup? context.structs name with
  | none => simp
  | some found => simp

theorem encodeBytes_uint_eq_ok {hasher : Hasher} {data : Bytes} :
    encodeBytes hasher .uint data = .ok word ↔
      data.length ≤ 32 ∧ Word.ofInt (Bytes.toNatBE data) = .ok word := by
  simp only [encodeBytes]
  split
  · next hlong =>
    constructor
    · intro h
      cases h
    · intro h
      exact absurd h.1 (Nat.not_le.2 hlong)
  · next hshort => rw [Outcome.mapError_eq_ok, and_iff_right (Nat.not_lt.1 hshort)]

theorem encodeBytes_fixedBytes_eq_ok {hasher : Hasher} {size : Nat} {data : Bytes} :
    encodeBytes hasher (.fixedBytes size) data = .ok word ↔
      data.length ≤ size ∧ padRight data = word := by
  simp only [encodeBytes]
  split
  · next hlong =>
    constructor
    · intro h
      cases h
    · intro h
      exact absurd h.1 (Nat.not_le.2 hlong)
  · next hshort => rw [Except.ok.injEq, and_iff_right (Nat.not_lt.1 hshort)]

theorem encodeBytes_address_eq_ok {hasher : Hasher} {data : Bytes} :
    encodeBytes hasher .address data = .ok word ↔ Word.ofAddress data = .ok word := by
  simp only [encodeBytes]
  split
  · next hlength =>
    unfold Word.ofAddress
    rw [if_neg hlength]
    constructor
    · intro h
      cases h
    · intro h
      cases h
  · rw [Outcome.mapError_eq_ok]

section Values

variable [Stack]

theorem enter_eq_ok :
    context.enter type depth = .ok () ↔ Stack.own type ≤ context.room ∧ depth ≤ context.bound := by
  unfold Context.enter
  by_cases hroom : context.room < Stack.own type
  · simp [hroom, Int.not_le.2 hroom]
  · by_cases hdepth : context.bound < depth
    · simp [hroom, hdepth, Int.not_le.2 hdepth]
    · simp [hroom, hdepth, Int.not_lt.1 hroom, Int.not_lt.1 hdepth]

theorem encode_bytes_eq_ok {data : Bytes} : encode context type depth (.bytes data) = .ok word ↔
    context.enter type depth = .ok () ∧ encodeBytes context.hasher type data = .ok word := by
  unfold encode
  cases context.enter type depth with
  | error error => simp
  | ok _ => simp

theorem encode_array_eq_ok {element : ArgType} {length : Option Nat} {items : List Rlp} :
    encode context (.array element length) depth (.list items) = .ok word ↔
      context.enter (.array element length) depth = .ok () ∧
        checkCount length items.length = .ok () ∧
        ∃ words, encodeElements (context.inside Stack.array) element (depth + 1) items = .ok words ∧
          context.hasher.hash words = word := by
  unfold encode
  cases context.enter (.array element length) depth with
  | error error => simp
  | ok _ =>
    cases hcount : checkCount length items.length with
    | error error => simp [hcount]
    | ok _ => simp [hcount, Outcome.map_eq_ok]

theorem encode_struct_eq_ok {name : String} {items : List Rlp} :
    encode context (.struct name) depth (.list items) = .ok word ↔
      context.enter (.struct name) depth = .ok () ∧
        ∃ declaration, context.declaration name = .ok declaration ∧
        items.length = declaration.params.length ∧
        ∃ words, encodeFields (context.inside Stack.struct) declaration.params (depth + 1) items =
            .ok words ∧
          context.hasher.hash (declarationHash context.hasher declaration ++ words) = word := by
  unfold encode
  cases context.enter (.struct name) depth with
  | error error => simp
  | ok _ =>
    cases hdeclaration : context.declaration name with
    | error error => simp [hdeclaration]
    | ok declaration =>
      by_cases hlength : items.length = declaration.params.length
      · simp [hdeclaration, hlength, Outcome.map_eq_ok]
      · simp [hdeclaration, hlength]

/-- Only arrays and structs take lists. -/
theorem array_or_struct_of_encode {items : List Rlp}
    (h : encode context type depth (.list items) = .ok word) :
    (∃ element length, type = .array element length) ∨ ∃ name, type = .struct name := by
  cases type with
  | array element length => exact Or.inl ⟨element, length, rfl⟩
  | struct name => exact Or.inr ⟨name, rfl⟩
  | _ =>
    unfold encode at h
    split at h
    · cases h
    · cases h

theorem encodeElements_cons_eq_ok {value : Rlp} {rest : List Rlp} :
    encodeElements context type depth (value :: rest) = .ok words ↔
      ∃ word others, encode context type depth value = .ok word ∧
        encodeElements context type depth rest = .ok others ∧ word ++ others = words := by
  rw [encodeElements, Outcome.bind_eq_ok]
  simp only [Outcome.bind_eq_ok, Outcome.pure_eq_ok]
  constructor
  · rintro ⟨word, hword, others, hothers, heq⟩
    exact ⟨word, others, hword, hothers, heq⟩
  · rintro ⟨word, others, hword, hothers, heq⟩
    exact ⟨word, hword, others, hothers, heq⟩

theorem encodeFields_nil (params : List Param) : encodeFields context params depth [] = .ok [] := by
  unfold encodeFields
  cases params with
  | nil => rfl
  | cons param params => rfl

theorem encodeFields_no_params (values : List Rlp) :
    encodeFields context [] depth values = .ok [] := by
  unfold encodeFields
  rfl

theorem encodeFields_cons_eq_ok {param : Param} {params : List Param} {value : Rlp}
    {rest : List Rlp} :
    encodeFields context (param :: params) depth (value :: rest) = .ok words ↔
      ∃ word others, encode context param.type depth value = .ok word ∧
        encodeFields context params depth rest = .ok others ∧ word ++ others = words := by
  rw [encodeFields, Outcome.bind_eq_ok]
  simp only [Outcome.bind_eq_ok, Outcome.pure_eq_ok]
  constructor
  · rintro ⟨word, hword, others, hothers, heq⟩
    exact ⟨word, others, hword, hothers, heq⟩
  · rintro ⟨word, others, hword, hothers, heq⟩
    exact ⟨word, hword, others, hothers, heq⟩

theorem encodeArguments_eq_ok {params : List Param} {values : List Rlp} :
    encodeArguments context params values = .ok words ↔
      values.length = params.length ∧ encodeFields context params 0 values = .ok words := by
  unfold encodeArguments
  by_cases h : values.length = params.length
  · simp [h]
  · simp [h]

end Values

end SignedRelay.TypedData
