/-!
# Identifiers and numerals

An identifier starts with an ASCII letter or an underscore and goes on with letters, digits and
underscores. A numeral is a run of ASCII digits. Main statement: what is cut off the head of a text is an
identifier that no further character continues.
-/
namespace SignedRelay.Text

def isIdentStart (c : Char) : Bool := c.isAlpha || c == '_'

def isIdentRest (c : Char) : Bool := c.isAlphanum || c == '_'

/-- The longest identifier at the head of a text, and what follows it. -/
def identifier? : List Char → Option (List Char × List Char)
  | [] => none
  | c :: rest =>
    if isIdentStart c then some (c :: rest.takeWhile isIdentRest, rest.dropWhile isIdentRest)
    else none

theorem append_of_identifier? {text name rest : List Char}
    (h : identifier? text = some (name, rest)) : name ++ rest = text := by
  unfold identifier? at h
  split at h
  · simp at h
  · split at h
    · cases h; simp [List.takeWhile_append_dropWhile]
    · simp at h

theorem length_lt_of_identifier? {text name rest : List Char}
    (h : identifier? text = some (name, rest)) : rest.length < text.length := by
  unfold identifier? at h
  split at h
  · simp at h
  · next c tail =>
    split at h
    · cases h
      have hle := (List.dropWhile_suffix (l := tail) isIdentRest).length_le
      simp only [List.length_cons]
      omega
    · simp at h

/-- A character that fails a test is none of those that pass it. -/
theorem bne_of_forall {p : Char → Bool} {text : List Char} {stop : Char}
    (h : ∀ c ∈ text, p c = true) (hstop : p stop = false) : ∀ c ∈ text, (c != stop) = true := by
  intro c hc
  rw [bne_iff_ne]
  intro heq
  rw [← heq, h c hc] at hstop
  cases hstop

/-- A letter of the ASCII alphabet, or an underscore. -/
def Letter (c : Char) : Prop := ('a' ≤ c ∧ c ≤ 'z') ∨ ('A' ≤ c ∧ c ≤ 'Z') ∨ c = '_'

/-- An ASCII digit. -/
def Digit (c : Char) : Prop := '0' ≤ c ∧ c ≤ '9'

/-- A letter with letters and digits behind it. -/
inductive Identifier : List Char → Prop
  | intro {first : Char} {others : List Char} : Letter first →
    (∀ c ∈ others, Letter c ∨ Digit c) → Identifier (first :: others)

/-- No character at the head of a text goes on with an identifier in front of it. -/
def EndsIdentifier (rest : List Char) : Prop :=
  ∀ c, rest.head? = some c → isIdentRest c = false

theorem endsIdentifier_nil : EndsIdentifier [] := by
  intro c hc
  cases hc

theorem endsIdentifier_cons {c : Char} {rest : List Char} (h : isIdentRest c = false) :
    EndsIdentifier (c :: rest) := by
  intro head hhead
  cases hhead
  exact h

theorem isIdentStart_iff {c : Char} : isIdentStart c = true ↔ Letter c := by
  unfold isIdentStart Letter Char.isAlpha Char.isUpper Char.isLower
  simp only [Bool.or_eq_true, Bool.and_eq_true, decide_eq_true_eq, beq_iff_eq, Char.le_def, ge_iff_le]
  grind

theorem isDigit_iff {c : Char} : c.isDigit = true ↔ Digit c := by
  unfold Char.isDigit Digit
  simp only [Bool.and_eq_true, decide_eq_true_eq, Char.le_def, ge_iff_le]

theorem isIdentRest_iff {c : Char} : isIdentRest c = true ↔ Letter c ∨ Digit c := by
  rw [← isIdentStart_iff, ← isDigit_iff]
  unfold isIdentRest isIdentStart Char.isAlphanum
  simp only [Bool.or_eq_true]
  grind

theorem Identifier.isIdentRest {name : List Char} (h : Identifier name) :
    ∀ c ∈ name, isIdentRest c = true := by
  cases h with
  | intro hfirst hothers =>
    rw [List.forall_mem_cons]
    exact ⟨isIdentRest_iff.2 (.inl hfirst), fun c hc => isIdentRest_iff.2 (hothers c hc)⟩

theorem Identifier.append {word more : List Char} (h : Identifier word)
    (hmore : ∀ c ∈ more, Letter c ∨ Digit c) : Identifier (word ++ more) := by
  cases h with
  | intro hfirst hothers => exact .intro hfirst (List.forall_mem_append.2 ⟨hothers, hmore⟩)

/-- What is cut off is an identifier, and the text behind it does not go on with one. -/
theorem identifier?_eq_some_iff {text name rest : List Char} :
    identifier? text = some (name, rest) ↔
      Identifier name ∧ text = name ++ rest ∧ EndsIdentifier rest := by
  constructor
  · intro h
    have htext := (append_of_identifier? h).symm
    unfold identifier? at h
    split at h
    · cases h
    · next first tail =>
      split at h
      · next hstart =>
        cases h
        refine ⟨.intro (isIdentStart_iff.1 hstart) ?_, htext, ?_⟩
        · intro c hc
          exact isIdentRest_iff.1 (List.all_eq_true.1 List.all_takeWhile c hc)
        · intro c hc
          have hhead := List.head?_dropWhile_not isIdentRest tail
          rw [hc] at hhead
          exact hhead
      · cases h
  · rintro ⟨hname, rfl, hrest⟩
    cases hname with
    | @intro first others hstart hothers =>
      have hword : ∀ c ∈ others, isIdentRest c = true := fun c hc =>
        isIdentRest_iff.2 (hothers c hc)
      have hstop : rest.takeWhile isIdentRest = [] ∧ rest.dropWhile isIdentRest = rest := by
        cases rest with
        | nil => exact ⟨rfl, rfl⟩
        | cons c tail =>
          have hc : ¬ isIdentRest c = true := by
            rw [hrest c rfl]
            exact Bool.false_ne_true
          exact ⟨List.takeWhile_cons_of_neg hc, List.dropWhile_cons_of_neg hc⟩
      rw [List.cons_append, identifier?, if_pos (isIdentStart_iff.2 hstart),
        List.takeWhile_append_of_pos hword, List.dropWhile_append_of_pos hword, hstop.1, hstop.2,
        List.append_nil]

/-- The number that a run of decimal digits writes. -/
def decimal (digits : List Char) : Nat :=
  digits.foldl (fun n c => 10 * n + (c.toNat - 48)) 0

end SignedRelay.Text
