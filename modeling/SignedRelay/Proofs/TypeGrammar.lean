import SignedRelay.Proofs.DefinitionText
import SignedRelay.Proofs.TypeWords

/-!
# Every type of the grammar is read

A word ends where no letter or digit goes on with it. Behind it, reading wraps the suffixes from left to
right, which is how the grammar builds arrays. Main statement: a text is read as a type exactly if it
writes that type and the type nests within the bound, and the types that can be read at all are exactly
those that are read back from their rendering.
-/
namespace SignedRelay.ArgType

open Definition (takeWhile_append_cons dropWhile_append_cons)
open Text

/-- Array suffixes one behind the other, with the lengths that they write. -/
inductive WritesSuffixes : List Char → List (Option Nat) → Prop
  | nil : WritesSuffixes [] []
  | cons {digits rest : List Char} {length : Option Nat} {lengths : List (Option Nat)} :
    WritesLength digits length → WritesSuffixes rest lengths →
    WritesSuffixes (suffix digits ++ rest) (length :: lengths)

theorem WritesLength.all_digits {digits : List Char} {length : Option Nat}
    (h : WritesLength digits length) : ∀ c ∈ digits, Digit c := by
  cases h with
  | none => exact List.forall_mem_nil _
  | some _ hdigits _ => exact hdigits

theorem suffix?_suffix_append {digits : List Char} (h : ∀ c ∈ digits, Digit c) (rest : List Char) :
    suffix? (suffix digits ++ rest) = some (digits, rest) := by
  have hdigits : ∀ c ∈ digits, c.isDigit = true := fun c hc => isDigit_iff.2 (h c hc)
  have htext : suffix digits ++ rest = '[' :: (digits ++ ']' :: rest) := by
    unfold suffix
    simp
  rw [htext, suffix?, dropWhile_append_cons hdigits rfl, takeWhile_append_cons hdigits rfl]
  rfl

theorem suffixLength_eq_ok_iff {digits : List Char} {length : Option Nat}
    (h : ∀ c ∈ digits, Digit c) :
    suffixLength digits = .ok length ↔ WritesLength digits length := by
  unfold suffixLength
  by_cases hempty : digits = []
  · subst hempty
    constructor
    · intro hlength
      cases hlength
      exact .none
    · intro hlength
      cases hlength with
      | none => rfl
      | some hne _ _ => exact absurd rfl hne
  · rw [if_neg (by simpa using hempty), Outcome.mapError_eq_ok, Outcome.map_eq_ok]
    simp only [numeral_eq_ok]
    constructor
    · rintro ⟨n, ⟨hlimit, rfl⟩, rfl⟩
      exact .some hempty h hlimit
    · intro hlength
      cases hlength with
      | none => exact absurd rfl hempty
      | some _ _ hlimit => exact ⟨_, ⟨hlimit, rfl⟩, rfl⟩

/-- Suffixes are taken off a text one by one, in one way only. -/
theorem writesSuffixes_iff {text digits rest : List Char} {lengths : List (Option Nat)}
    (h : suffix? text = some (digits, rest)) : WritesSuffixes text lengths ↔
      ∃ length others, WritesLength digits length ∧ WritesSuffixes rest others ∧
        length :: others = lengths := by
  have htext : text = suffix digits ++ rest := by
    rw [append_of_suffix? h]
    unfold suffix
    simp
  constructor
  · intro hsuffixes
    cases hsuffixes with
    | nil => cases h
    | cons hlength hothers =>
      rw [suffix?_suffix_append hlength.all_digits] at h
      cases h
      exact ⟨_, _, hlength, hothers, rfl⟩
  · rintro ⟨length, others, hlength, hothers, rfl⟩
    rw [htext]
    exact .cons hlength hothers

theorem WritesSuffixes.exists_suffix? {text : List Char} {lengths : List (Option Nat)}
    (h : WritesSuffixes text lengths) (hne : text ≠ []) :
    ∃ digits rest, suffix? text = some (digits, rest) := by
  cases h with
  | nil => exact absurd rfl hne
  | cons hlength _ => exact ⟨_, _, suffix?_suffix_append hlength.all_digits _⟩

/-- Reading the suffixes behind a type wraps it in their arrays, the first one innermost. -/
theorem wrap_eq_ok_iff {text rest : List Char} {bound : Int} {type found : ArgType} {depth : Nat} :
    wrap text bound type depth rest = .ok found ↔ ∃ lengths, WritesSuffixes rest lengths ∧
      (lengths = [] ∨ depth + lengths.length ≤ bound) ∧ lengths.foldl array type = found := by
  -- The depth counts the suffixes in front of the rest, and the bound is on both together.
  fun_induction wrap text bound type depth rest with
  | case1 type depth rest hempty =>
    rw [List.isEmpty_iff.1 hempty]
    constructor
    · intro h
      cases h
      exact ⟨[], .nil, .inl rfl, rfl⟩
    · rintro ⟨lengths, hsuffixes, _, rfl⟩
      cases hsuffixes
      rfl
  | case2 type depth rest hempty hnone =>
    constructor
    · intro h
      cases h
    · rintro ⟨lengths, hsuffixes, _⟩
      obtain ⟨digits, after, hsome⟩ := hsuffixes.exists_suffix? (by simpa using hempty)
      rw [hnone] at hsome
      cases hsome
  | case3 type depth rest hempty digits after hsuffix hbound =>
    constructor
    · intro h
      cases h
    · rintro ⟨lengths, hsuffixes, hnests, _⟩
      obtain ⟨length, others, _, _, rfl⟩ := (writesSuffixes_iff hsuffix).1 hsuffixes
      rcases hnests with hnil | hle
      · cases hnil
      · rw [List.length_cons] at hle
        omega
  | case4 type depth rest hempty digits after hsuffix hbound error hlength =>
    constructor
    · intro h
      cases h
    · rintro ⟨lengths, hsuffixes, _⟩
      obtain ⟨length, others, hwrites, _, _⟩ := (writesSuffixes_iff hsuffix).1 hsuffixes
      rw [(suffixLength_eq_ok_iff hwrites.all_digits).2 hwrites] at hlength
      cases hlength
  | case5 type depth rest hempty digits after hsuffix hbound length hlength ih =>
    have hdigits : ∀ c ∈ digits, Digit c := fun c hc => isDigit_iff.1 (isDigit_of_suffix? hsuffix c hc)
    have hwrites := (suffixLength_eq_ok_iff hdigits).1 hlength
    rw [ih]
    constructor
    · rintro ⟨others, hothers, hnests, rfl⟩
      refine ⟨length :: others, (writesSuffixes_iff hsuffix).2 ⟨_, _, hwrites, hothers, rfl⟩, .inr ?_,
        rfl⟩
      rw [List.length_cons]
      rcases hnests with rfl | hle
      · rw [List.length_nil]
        omega
      · omega
    · rintro ⟨lengths, hsuffixes, hnests, rfl⟩
      obtain ⟨other, others, hother, hothers, rfl⟩ := (writesSuffixes_iff hsuffix).1 hsuffixes
      rw [(suffixLength_eq_ok_iff hdigits).2 hother] at hlength
      cases hlength
      refine ⟨others, hothers, .inr ?_, rfl⟩
      rcases hnests with hnil | hle
      · cases hnil
      · rw [List.length_cons] at hle
        omega

theorem WritesSuffixes.append {text digits : List Char} {lengths : List (Option Nat)}
    {length : Option Nat} (h : WritesSuffixes text lengths) (hlength : WritesLength digits length) :
    WritesSuffixes (text ++ suffix digits) (lengths ++ [length]) := by
  induction h with
  | nil =>
    have hone := WritesSuffixes.cons hlength .nil
    rwa [List.append_nil] at hone
  | cons hfirst _ ih =>
    rw [List.append_assoc]
    exact .cons hfirst ih

theorem Writes.append {text behind : List Char} {type : ArgType} {lengths : List (Option Nat)}
    (h : Writes text type) (hbehind : WritesSuffixes behind lengths) :
    Writes (text ++ behind) (lengths.foldl ArgType.array type) := by
  induction hbehind generalizing text type with
  | nil =>
    rw [List.append_nil]
    exact h
  | cons hlength _ ih =>
    rw [← List.append_assoc]
    exact ih (h.array hlength)

/-- The arrays of a text, taken from its end, are those of its suffixes, taken from their start. -/
theorem writes_iff {text : List Char} {type : ArgType} : Writes text type ↔
    ∃ word behind base lengths, text = word ++ behind ∧ Identifier word ∧ Denotes word base ∧
      WritesSuffixes behind lengths ∧ lengths.foldl array base = type := by
  constructor
  · intro h
    induction h with
    | @word word type hword hdenotes =>
      exact ⟨word, [], type, [], (List.append_nil word).symm, hword, hdenotes, .nil, rfl⟩
    | @array text digits element length _ hlength ih =>
      obtain ⟨word, behind, base, lengths, rfl, hword, hdenotes, hbehind, rfl⟩ := ih
      -- The outermost suffix is the last one to be taken off.
      refine ⟨word, behind ++ suffix digits, base, lengths ++ [length], List.append_assoc _ _ _, hword,
        hdenotes, hbehind.append hlength, ?_⟩
      rw [List.foldl_append]
      rfl
  · rintro ⟨word, behind, base, lengths, rfl, hword, hdenotes, hbehind, rfl⟩
    exact (Writes.word hword hdenotes).append hbehind

theorem lengths_foldl (type : ArgType) (lengths : List (Option Nat)) :
    (lengths.foldl array type).lengths = type.lengths ++ lengths := by
  induction lengths generalizing type with
  | nil => exact (List.append_nil _).symm
  | cons length others ih =>
    rw [List.foldl_cons, ih, ArgType.lengths, List.append_assoc]
    rfl

theorem Denotes.lengths_eq_nil {word : List Char} {type : ArgType} (h : Denotes word type) :
    type.lengths = [] := by
  cases h with
  | keyword hmem =>
    have hatomic : ∀ entry ∈ keywords, entry.2.lengths = [] := by decide
    exact hatomic _ hmem
  | _ => rfl

/-- A text is read as a type exactly if it writes it and the type nests within the bound. -/
theorem parse_eq_ok_iff {bound : Int} {text : List Char} {type : ArgType} :
    parse bound text = .ok type ↔ Writes text type ∧ type.NestsWithin bound := by
  rw [writes_iff]
  constructor
  · intro h
    unfold parse at h
    split at h
    · cases h
    next word behind hidentifier =>
    obtain ⟨hword, htext, _⟩ := identifier?_eq_some_iff.1 hidentifier
    split at h
    · cases h
    · next base hbase =>
      obtain ⟨lengths, hbehind, hnests, rfl⟩ := wrap_eq_ok_iff.1 h
      have hdenotes := ofWord_eq_ok_iff.1 hbase
      refine ⟨⟨word, behind, base, lengths, htext, hword, hdenotes, hbehind, rfl⟩, ?_⟩
      unfold NestsWithin
      rw [lengths_foldl, hdenotes.lengths_eq_nil, List.nil_append]
      simpa using hnests
  · rintro ⟨⟨word, behind, base, lengths, rfl, hword, hdenotes, hbehind, rfl⟩, hnests⟩
    unfold NestsWithin at hnests
    rw [lengths_foldl, hdenotes.lengths_eq_nil, List.nil_append] at hnests
    have hends : EndsIdentifier behind := by
      cases hbehind with
      | nil => exact endsIdentifier_nil
      | cons _ _ => exact endsIdentifier_cons rfl
    unfold parse
    rw [identifier?_eq_some_iff.2 ⟨hword, rfl, hends⟩]
    dsimp only
    rw [ofWord_eq_ok_iff.2 hdenotes]
    exact wrap_eq_ok_iff.2 ⟨lengths, hbehind, by simpa using hnests, rfl⟩

theorem identifier_of_mem_keywords (entry : String × ArgType) (h : entry ∈ keywords) :
    Identifier entry.1.toList := by
  have hwhole : ∀ entry ∈ keywords, identifier? entry.1.toList = some (entry.1.toList, []) := by
    decide
  exact (identifier?_eq_some_iff.1 (hwhole entry h)).1

theorem writes_of_mem_keywords (entry : String × ArgType) (h : entry ∈ keywords) :
    Writes entry.1.toList entry.2 :=
  .word (identifier_of_mem_keywords entry h) (.keyword h)

theorem all_digits_toDigits (n : Nat) : ∀ c ∈ Nat.toDigits 10 n, Digit c := fun _ hc =>
  isDigit_iff.1 (Nat.isDigit_of_mem_toDigits (by decide) (Nat.le_refl 10) hc)

theorem writesSize_toDigits {size : Nat} (h : IsByteSize size) :
    WritesSize (Nat.toDigits 10 size) size := by
  have hsizes : ∀ size < 33, size ≠ 0 → canonicalSize (Nat.toDigits 10 size) = true := by decide
  have hcanonical := hsizes size (Nat.lt_succ_of_le h.2) (Nat.ne_of_gt h.1)
  exact (writesSize_iff Nat.toDigits_ne_nil (all_digits_toDigits size)).2
    ⟨Nat.ofDigitChars_ten_toDigits, hcanonical⟩

theorem writesLength_renderLength {length : Option Nat}
    (h : (renderLength length).length ≤ numeralLimit) :
    WritesLength (renderLength length) length := by
  cases length with
  | none => exact .none
  | some n =>
    have hwrites := WritesLength.some Nat.toDigits_ne_nil (all_digits_toDigits n) h
    rwa [Nat.ofDigitChars_ten_toDigits] at hwrites

theorem WritesLength.length_renderLength_le {digits : List Char} {length : Option Nat}
    (h : WritesLength digits length) : (renderLength length).length ≤ numeralLimit := by
  cases h with
  | none => exact Nat.zero_le _
  | some hne hdigits hlimit =>
    exact Nat.le_trans (length_toDigits_ofDigitChars_le hne hdigits) hlimit

/-- The rendering of a type that some text writes is such a text. -/
theorem writes_render {type : ArgType} (h : type.Expressible) : Writes type.render type := by
  induction type with
  | address => exact writes_of_mem_keywords ("address", address) (by decide)
  | uint => exact writes_of_mem_keywords ("uint", uint) (by decide)
  | int => exact writes_of_mem_keywords ("int", int) (by decide)
  | bool => exact writes_of_mem_keywords ("bool", bool) (by decide)
  | string => exact writes_of_mem_keywords ("string", string) (by decide)
  | bytes => exact writes_of_mem_keywords ("bytes", bytes) (by decide)
  | fixedBytes size =>
    have hword := identifier_of_mem_keywords ("bytes", bytes) (by decide)
    exact .word (hword.append fun c hc => .inr (all_digits_toDigits size c hc))
      (.fixedBytes (writesSize_toDigits h) h)
  | struct name => exact .word h.1 (.struct h.2)
  | array element length ih => exact (ih h.1).array (writesLength_renderLength h.2)

theorem expressible_of_mem_keywords {entry : String × ArgType} (h : entry ∈ keywords) :
    entry.2.Expressible := by
  have hall : ∀ entry ∈ keywords, entry.2.Expressible := by simp [keywords, Expressible, IsByteSize]
  exact hall entry h

theorem expressible_of_writes {text : List Char} {type : ArgType} (h : Writes text type) :
    type.Expressible := by
  induction h with
  | @word word type hword hdenotes =>
    cases hdenotes with
    | keyword hmem => exact expressible_of_mem_keywords hmem
    | uint _ _ => trivial
    | int _ _ => trivial
    | fixedBytes _ hsize => exact hsize
    | struct hname => exact ⟨hword, hname⟩
  | array _ hlength ih => exact ⟨ih, hlength.length_renderLength_le⟩

/-- What is read is what the grammar writes, within the bound, and the types that can be read at all are
those that are read back from their rendering. -/
theorem parse_eq_ok_iff_writes (bound : Int) :
    (∀ (text : List Char) (type : ArgType),
      parse bound text = .ok type ↔ Writes text type ∧ type.NestsWithin bound) ∧
    (∀ type : ArgType,
      type.Expressible ∧ type.NestsWithin bound ↔ parse bound type.render = .ok type) := by
  refine ⟨fun _ _ => parse_eq_ok_iff, fun type => ?_⟩
  rw [parse_eq_ok_iff]
  constructor
  · rintro ⟨hexpressible, hnests⟩
    exact ⟨writes_render hexpressible, hnests⟩
  · rintro ⟨hwrites, hnests⟩
    exact ⟨expressible_of_writes hwrites, hnests⟩

/-- The suffix of the outermost array stands last. -/
example : (array (array uint (some 3)) none).render = "uint[3][]".toList := by decide

end SignedRelay.ArgType
