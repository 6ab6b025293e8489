import SignedRelay.ArgType.Grammar
import SignedRelay.Outcome

/-!
# What a word stands for

A word is classified as a whole: it is a keyword, or a stem with nothing but digits behind it, or else a
name. Only in front of a size that could be one of a type do digits behind a stem make a type. Main
statement: reading a word gives a type exactly if the word denotes it.
-/
namespace SignedRelay

open Text

theorem Text.decimal_eq (digits : List Char) : decimal digits = Nat.ofDigitChars 10 digits 0 :=
  Nat.ofDigitChars_eq_foldl.symm

theorem Text.Digit.value_lt {c : Char} (h : Digit c) : c.toNat - '0'.toNat < 10 := by
  have hle : c.toNat ≤ '9'.toNat := Char.le_def.1 h.2
  exact Nat.lt_of_le_of_lt (Nat.sub_le_sub_right hle _) (by decide)

/-- A number has no more digits than it was written in. -/
theorem Text.length_toDigits_ofDigitChars_le {digits : List Char} (hne : digits ≠ [])
    (h : ∀ c ∈ digits, Digit c) :
    (Nat.toDigits 10 (Nat.ofDigitChars 10 digits 0)).length ≤ digits.length := by
  rw [Nat.length_toDigits_le_iff (by decide) (List.length_pos_iff.2 hne)]
  clear hne
  induction digits with
  | nil => decide
  | cons first rest ih =>
    rw [List.forall_mem_cons] at h
    rw [Nat.ofDigitChars_cons, Nat.ofDigitChars_eq_ofDigitChars_zero, Nat.mul_zero, Nat.zero_add,
      List.length_cons]
    calc 10 ^ rest.length * (first.toNat - '0'.toNat) + Nat.ofDigitChars 10 rest 0
        < 10 ^ rest.length * (first.toNat - '0'.toNat) + 10 ^ rest.length :=
          Nat.add_lt_add_left (ih h.2) _
      _ = 10 ^ rest.length * (first.toNat - '0'.toNat + 1) := (Nat.mul_succ _ _).symm
      _ ≤ 10 ^ rest.length * 10 := Nat.mul_le_mul_left _ h.1.value_lt

theorem numeral_eq_ok {digits : List Char} {n : Nat} : numeral digits = .ok n ↔
    digits.length ≤ numeralLimit ∧ Nat.ofDigitChars 10 digits 0 = n := by
  unfold numeral
  rw [decimal_eq]
  by_cases h : numeralLimit < digits.length
  · rw [if_pos h]
    constructor
    · intro hok
      cases hok
    · rintro ⟨hle, _⟩
      omega
  · rw [if_neg h, Except.ok.injEq]
    exact ⟨fun hn => ⟨by omega, hn⟩, fun hn => hn.2⟩

namespace ArgType

theorem digitsAfter?_eq_some_iff {stem word digits : List Char} :
    digitsAfter? stem word = some digits ↔
      word = stem ++ digits ∧ digits ≠ [] ∧ ∀ c ∈ digits, Digit c := by
  unfold digitsAfter?
  dsimp only
  simp only [Option.ite_none_right_eq_some, Bool.and_eq_true, Bool.not_eq_true',
    List.isEmpty_eq_false_iff, List.all_eq_true, isDigit_iff, List.isPrefixOf_iff_prefix]
  constructor
  · rintro ⟨⟨⟨⟨rest, rfl⟩, hne⟩, hdigits⟩, hdrop⟩
    rw [Option.some.injEq, List.drop_left] at hdrop
    subst hdrop
    rw [List.drop_left] at hne hdigits
    exact ⟨rfl, hne, hdigits⟩
  · rintro ⟨rfl, hne, hdigits⟩
    rw [List.drop_left]
    exact ⟨⟨⟨List.prefix_append _ _, hne⟩, hdigits⟩, rfl⟩

/-- A size has no more digits than its number, so none is too long to be read. -/
theorem WritesSize.length_le {digits : List Char} {size : Nat} (h : WritesSize digits size) :
    digits.length ≤ size := by
  obtain ⟨first, hhead, hne⟩ := h.nonzero
  obtain ⟨rest, rfl⟩ := List.head?_eq_some_iff.1 hhead
  have hdigit := h.all_digits first List.mem_cons_self
  have hpos : 1 ≤ first.toNat - '0'.toNat := by
    have hle : '0'.toNat ≤ first.toNat := Char.le_def.1 hdigit.1
    have hzero : first.toNat ≠ '0'.toNat := fun heq => hne (Char.toNat_inj.1 heq)
    omega
  have hvalue := h.value
  rw [Nat.ofDigitChars_cons, Nat.mul_zero, Nat.zero_add, Nat.ofDigitChars_eq_ofDigitChars_zero]
    at hvalue
  have hlt := Nat.lt_pow_self (n := rest.length) (show 1 < 10 by decide)
  have hle := Nat.mul_le_mul_left (10 ^ rest.length) hpos
  rw [List.length_cons]
  omega

theorem bitSizeFits_iff {size : Nat} : bitSizeFits size = true ↔ IsBitSize size := by
  unfold bitSizeFits IsBitSize
  simp only [Bool.and_eq_true, beq_iff_eq, decide_eq_true_eq]
  omega

theorem byteSizeFits_iff {size : Nat} : byteSizeFits size = true ↔ IsByteSize size := by
  unfold byteSizeFits IsByteSize
  simp only [Bool.and_eq_true, decide_eq_true_eq]

section Sized

variable {digits : List Char} (hne : digits ≠ []) (hdigits : ∀ c ∈ digits, Digit c)

include hne hdigits

theorem writesSize_iff {size : Nat} : WritesSize digits size ↔
    Nat.ofDigitChars 10 digits 0 = size ∧ canonicalSize digits = true := by
  obtain ⟨first, rest, rfl⟩ := List.exists_cons_of_ne_nil hne
  have hcanonical : canonicalSize (first :: rest) = true ↔ first ≠ '0' := by
    unfold canonicalSize
    rw [List.head?_cons, bne_iff_ne, ne_eq, Option.some.injEq]
  rw [hcanonical]
  constructor
  · intro h
    obtain ⟨found, hfound, hzero⟩ := h.nonzero
    cases hfound
    exact ⟨h.value, hzero⟩
  · rintro ⟨hvalue, hzero⟩
    exact ⟨hdigits, ⟨first, rfl, hzero⟩, hvalue⟩

/-- What numbers and byte strings have in common: a size that fits is read, and decides the type. -/
theorem readSize_eq_ok_iff {fits : Nat → Bool} (hlimit : ∀ size, fits size = true → size ≤ 256)
    {result : Nat → ArgType} {error : Error} {found : ArgType} :
    ((numeral digits).mapError Error.fault >>= fun size =>
      if canonicalSize digits && fits size then pure (result size) else throw error) = .ok found ↔
    ∃ size, result size = found ∧ WritesSize digits size ∧ fits size = true := by
  simp only [Outcome.bind_eq_ok, Outcome.mapError_eq_ok, numeral_eq_ok, writesSize_iff hne hdigits]
  refine exists_congr fun size => ?_
  constructor
  · rintro ⟨⟨_, hvalue⟩, h⟩
    split at h
    · next hboth =>
      obtain ⟨hcanonical, hfits⟩ := Bool.and_eq_true_iff.1 hboth
      exact ⟨Outcome.pure_eq_ok.1 h, ⟨hvalue, hcanonical⟩, hfits⟩
    · exact absurd h Outcome.throw_ne_ok
  · rintro ⟨rfl, hwrites, hfits⟩
    have hlength := ((writesSize_iff hne hdigits).2 hwrites).length_le
    have hreadable : size ≤ numeralLimit := Nat.le_trans (hlimit size hfits) (by decide)
    refine ⟨⟨Nat.le_trans hlength hreadable, hwrites.1⟩, ?_⟩
    rw [if_pos (Bool.and_eq_true_iff.2 ⟨hwrites.2, hfits⟩)]
    rfl

theorem ofSizedInteger_eq_ok_iff {type found : ArgType} {word : List Char} :
    ofSizedInteger type word digits = .ok found ↔
      type = found ∧ ∃ size, WritesSize digits size ∧ IsBitSize size := by
  have hlimit (size : Nat) (hfits : bitSizeFits size = true) : size ≤ 256 :=
    (bitSizeFits_iff.1 hfits).2.2
  rw [← exists_and_left]
  simp only [← bitSizeFits_iff]
  exact readSize_eq_ok_iff hne hdigits hlimit

theorem ofSizedBytes_eq_ok_iff {found : ArgType} {word : List Char} :
    ofSizedBytes word digits = .ok found ↔
      ∃ size, fixedBytes size = found ∧ WritesSize digits size ∧ IsByteSize size := by
  have hlimit (size : Nat) (hfits : byteSizeFits size = true) : size ≤ 256 :=
    Nat.le_trans (byteSizeFits_iff.1 hfits).2 (by decide)
  simp only [← byteSizeFits_iff]
  exact readSize_eq_ok_iff hne hdigits hlimit

end Sized

theorem not_mem_keywords_of_digit {word : List Char} (h : ∃ c ∈ word, Digit c) :
    ∀ entry ∈ keywords, word ≠ entry.1.toList := by
  have hletters : ∀ entry ∈ keywords, entry.1.toList.all (!·.isDigit) = true := by decide
  rintro entry hmem rfl
  obtain ⟨c, hc, hdigit⟩ := h
  have hletter := List.all_eq_true.1 (hletters entry hmem) c hc
  rw [isDigit_iff.2 hdigit] at hletter
  cases hletter

theorem lookup_keywords_eq_none_iff {word : List Char} :
    keywords.lookup (String.ofList word) = none ↔ ∀ entry ∈ keywords, word ≠ entry.1.toList := by
  rw [List.lookup_eq_none_iff]
  simp only [bne_iff_ne, ne_eq, ← String.toList_inj, String.toList_ofList]

theorem lookup_of_mem_keywords :
    ∀ entry ∈ keywords, keywords.lookup entry.1 = some entry.2 := by decide

theorem WritesSize.ne_nil {digits : List Char} {size : Nat} (h : WritesSize digits size) :
    digits ≠ [] := by
  rintro rfl
  obtain ⟨first, hfirst, _⟩ := h.nonzero
  cases hfirst

section Digits

variable {stem digits : List Char} (hne : digits ≠ []) (hdigits : ∀ c ∈ digits, Digit c)

include hne hdigits

/-- No keyword ends in digits. -/
theorem lookup_keywords_append_digits : keywords.lookup (String.ofList (stem ++ digits)) = none := by
  obtain ⟨first, hmem⟩ := List.exists_mem_of_ne_nil digits hne
  exact lookup_keywords_eq_none_iff.2 (not_mem_keywords_of_digit
    ⟨first, List.mem_append_right stem hmem, hdigits first hmem⟩)

theorem digitsAfter?_append_digits : digitsAfter? stem (stem ++ digits) = some digits :=
  digitsAfter?_eq_some_iff.2 ⟨rfl, hne, hdigits⟩

end Digits

/-- A word that starts otherwise than a stem has no digits behind it. -/
theorem digitsAfter?_of_head_ne {a b : Char} {stem word : List Char} (h : a ≠ b) :
    digitsAfter? (a :: stem) (b :: word) = none := by
  rw [Option.eq_none_iff_forall_ne_some]
  intro digits hdigits
  obtain ⟨heq, _⟩ := digitsAfter?_eq_some_iff.1 hdigits
  exact h (List.cons.inj heq).1.symm

theorem not_looksAtomic_iff {word : List Char} : ¬LooksAtomic word ↔
    keywords.lookup (String.ofList word) = none ∧
      ∀ stem ∈ stems, digitsAfter? stem.toList word = none := by
  unfold LooksAtomic
  rw [not_or, lookup_keywords_eq_none_iff]
  constructor
  · rintro ⟨hkeyword, hsized⟩
    refine ⟨fun entry hmem heq => hkeyword ⟨entry, hmem, heq⟩, fun stem hstem => ?_⟩
    rw [Option.eq_none_iff_forall_ne_some]
    intro digits hdigits
    obtain ⟨hword, hne, hall⟩ := digitsAfter?_eq_some_iff.1 hdigits
    exact hsized ⟨stem, hstem, digits, hne, hall, hword⟩
  · rintro ⟨hkeyword, hnone⟩
    refine ⟨fun ⟨entry, hmem, heq⟩ => hkeyword entry hmem heq, ?_⟩
    rintro ⟨stem, hstem, digits, hne, hall, hword⟩
    have hdigits := digitsAfter?_eq_some_iff.2 ⟨hword, hne, hall⟩
    rw [hnone stem hstem] at hdigits
    cases hdigits

/-- A keyword stands for its type, a stem with digits for a type of the size that they write, if it is
one, and any other word for a struct. -/
theorem ofWord_eq_ok_iff {word : List Char} {type : ArgType} :
    ofWord word = .ok type ↔ Denotes word type := by
  constructor
  · intro h
    unfold ofWord at h
    split at h
    · next found hkeyword =>
      cases h
      obtain ⟨before, after, hsplit, _⟩ := List.lookup_eq_some_iff.1 hkeyword
      have hmem : (String.ofList word, type) ∈ keywords := by
        rw [hsplit]
        exact List.mem_append_right _ List.mem_cons_self
      have hdenotes := Denotes.keyword hmem
      rwa [String.toList_ofList] at hdenotes
    next hkeyword =>
    split at h
    · next digits huint =>
      obtain ⟨rfl, hne, hall⟩ := digitsAfter?_eq_some_iff.1 huint
      obtain ⟨rfl, size, hwrites, hsize⟩ := (ofSizedInteger_eq_ok_iff hne hall).1 h
      exact .uint hwrites hsize
    next huint =>
    split at h
    · next digits hint =>
      obtain ⟨rfl, hne, hall⟩ := digitsAfter?_eq_some_iff.1 hint
      obtain ⟨rfl, size, hwrites, hsize⟩ := (ofSizedInteger_eq_ok_iff hne hall).1 h
      exact .int hwrites hsize
    next hint =>
    split at h
    · next digits hbytes =>
      obtain ⟨rfl, hne, hall⟩ := digitsAfter?_eq_some_iff.1 hbytes
      obtain ⟨size, rfl, hwrites, hsize⟩ := (ofSizedBytes_eq_ok_iff hne hall).1 h
      exact .fixedBytes hwrites hsize
    · next hbytes =>
      cases h
      have hname : ¬LooksAtomic word := not_looksAtomic_iff.2 ⟨hkeyword,
        List.forall_mem_cons.2 ⟨huint, List.forall_mem_cons.2 ⟨hint,
          List.forall_mem_cons.2 ⟨hbytes, List.forall_mem_nil _⟩⟩⟩⟩
      have hdenotes : Denotes (String.ofList word).toList (struct (String.ofList word)) :=
        .struct (by rwa [String.toList_ofList])
      rwa [String.toList_ofList] at hdenotes
  · intro h
    unfold ofWord
    cases h with
    | @keyword entry hmem => rw [String.ofList_toList, lookup_of_mem_keywords entry hmem]
    | uint hwrites hsize =>
      rw [lookup_keywords_append_digits hwrites.ne_nil hwrites.all_digits]
      dsimp only
      rw [digitsAfter?_append_digits hwrites.ne_nil hwrites.all_digits]
      exact (ofSizedInteger_eq_ok_iff hwrites.ne_nil hwrites.all_digits).2 ⟨rfl, _, hwrites, hsize⟩
    | @int digits _ hwrites hsize =>
      have huint : digitsAfter? "uint".toList ("int".toList ++ digits) = none :=
        digitsAfter?_of_head_ne (by decide : 'u' ≠ 'i')
      rw [lookup_keywords_append_digits hwrites.ne_nil hwrites.all_digits]
      dsimp only
      rw [huint]
      dsimp only
      rw [digitsAfter?_append_digits hwrites.ne_nil hwrites.all_digits]
      exact (ofSizedInteger_eq_ok_iff hwrites.ne_nil hwrites.all_digits).2 ⟨rfl, _, hwrites, hsize⟩
    | @fixedBytes digits _ hwrites hsize =>
      have huint : digitsAfter? "uint".toList ("bytes".toList ++ digits) = none :=
        digitsAfter?_of_head_ne (by decide : 'u' ≠ 'b')
      have hint : digitsAfter? "int".toList ("bytes".toList ++ digits) = none :=
        digitsAfter?_of_head_ne (by decide : 'i' ≠ 'b')
      rw [lookup_keywords_append_digits hwrites.ne_nil hwrites.all_digits]
      dsimp only
      rw [huint]
      dsimp only
      rw [hint]
      dsimp only
      rw [digitsAfter?_append_digits hwrites.ne_nil hwrites.all_digits]
      exact (ofSizedBytes_eq_ok_iff hwrites.ne_nil hwrites.all_digits).2 ⟨_, rfl, hwrites, hsize⟩
    | @struct name hname =>
      obtain ⟨hkeyword, hnone⟩ := not_looksAtomic_iff.1 hname
      rw [hkeyword]
      dsimp only
      rw [hnone "uint" (by decide), hnone "int" (by decide), hnone "bytes" (by decide)]
      dsimp only
      rw [String.ofList_toList]

end ArgType

end SignedRelay
