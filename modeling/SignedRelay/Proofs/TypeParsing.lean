import SignedRelay.Proofs.TypeGrammar

/-!
# Types that a text can mean

What the grammar says about a text that means a type. Main statements: a fixed byte string that a text
means fits a word, and a text that means a type starts with a letter and holds no space.
-/
namespace SignedRelay.ArgType

open Text

/-- A fixed byte string at the base of the type is no longer than a word. -/
def Sized (type : ArgType) : Prop := ∀ size, type.base = .fixedBytes size → size ≤ 32

theorem Expressible.sized {type : ArgType} (h : type.Expressible) : type.Sized := by
  induction type with
  | fixedBytes size =>
    intro found hbase
    cases hbase
    exact h.2
  | array element length ih => exact ih h.1
  | _ =>
    intro size hbase
    cases hbase

theorem sized_of_parse {bound : Int} {text : List Char} {type : ArgType}
    (h : parse bound text = .ok type) : type.Sized :=
  (expressible_of_writes (parse_eq_ok_iff.1 h).1).sized

theorem Writes.head {text : List Char} {type : ArgType} (h : Writes text type) :
    ∃ first rest, text = first :: rest ∧ isIdentStart first = true := by
  induction h with
  | word hword _ =>
    cases hword with
    | intro hfirst _ => exact ⟨_, _, rfl, isIdentStart_iff.2 hfirst⟩
  | array _ _ ih =>
    obtain ⟨first, rest, rfl, hfirst⟩ := ih
    exact ⟨first, _, rfl, hfirst⟩

theorem Writes.ne_space {text : List Char} {type : ArgType} (h : Writes text type) :
    ∀ c ∈ text, (c != ' ') = true := by
  induction h with
  | word hword _ => exact bne_of_forall hword.isIdentRest rfl
  | @array text digits _ _ _ hlength ih =>
    have hdigits : ∀ c ∈ digits, (c != ' ') = true :=
      bne_of_forall (fun c hc => isDigit_iff.2 (hlength.all_digits c hc)) rfl
    unfold suffix
    rw [List.forall_mem_append, List.forall_mem_append, List.forall_mem_cons]
    exact ⟨ih, ⟨rfl, hdigits⟩, List.forall_mem_singleton.2 rfl⟩

/-- A text that means a type starts with an identifier and holds no space. -/
theorem head_of_parse {bound : Int} {text : List Char} {type : ArgType}
    (h : parse bound text = .ok type) :
    (∃ first rest, text = first :: rest ∧ Text.isIdentStart first = true) ∧
      ∀ c ∈ text, (c != ' ') = true :=
  have hwrites := (parse_eq_ok_iff.1 h).1
  ⟨hwrites.head, hwrites.ne_space⟩

end SignedRelay.ArgType
