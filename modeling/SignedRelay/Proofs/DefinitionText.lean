import SignedRelay.Definition.Parser

/-!
# What a definition's text says

A definition starts with the name of its method and an opening parenthesis. The name, the text of the
arguments and the signature can each be cut out at the first parenthesis. Main statement: a text is
known from its arguments text and from its method's signature.
-/
namespace SignedRelay.Definition

open Text

/-- The characters in front of the first opening parenthesis. -/
def bareName (text : List Char) : List Char := text.takeWhile (· != '(')

theorem takeWhile_append_cons {α : Type} {p : α → Bool} {name rest : List α} {stop : α}
    (hname : ∀ a ∈ name, p a = true) (hstop : p stop = false) :
    (name ++ stop :: rest).takeWhile p = name := by
  rw [List.takeWhile_append_of_pos hname, List.takeWhile_cons_of_neg (by simp [hstop]),
    List.append_nil]

theorem dropWhile_append_cons {α : Type} {p : α → Bool} {name rest : List α} {stop : α}
    (hname : ∀ a ∈ name, p a = true) (hstop : p stop = false) :
    (name ++ stop :: rest).dropWhile p = stop :: rest := by
  rw [List.dropWhile_append_of_pos hname, List.dropWhile_cons_of_neg (by simp [hstop])]

namespace Parser

/-- A name is an identifier that the rest of the text does not continue. -/
theorem name_eq_ok {text rest : List Char} {found : String} : name text = .ok (found, rest) ↔
    Identifier found.toList ∧ text = found.toList ++ rest ∧ EndsIdentifier rest := by
  rw [← identifier?_eq_some_iff]
  unfold name
  cases identifier? text with
  | none => simp
  | some cut =>
    obtain ⟨word, after⟩ := cut
    simp only [Except.ok.injEq, Prod.mk.injEq, Option.some.injEq]
    refine and_congr_left fun _ => ?_
    rw [← String.toList_inj, String.toList_ofList]

theorem append_of_name {text rest : List Char} {found : String} (h : name text = .ok (found, rest)) :
    found.toList ++ rest = text := (name_eq_ok.1 h).2.1.symm

theorem consume_eq_ok {c : Char} {text rest : List Char} :
    consume c text = .ok rest ↔ text = c :: rest := by
  unfold consume
  cases text with
  | nil => simp
  | cons head tail =>
    by_cases h : head = c
    · simp [h]
    · simp [h]

theorem paren_of_params {bound : Int} {text rest : List Char} {found : List Param}
    (h : params bound text = .ok (found, rest)) : ∃ inside, text = '(' :: inside := by
  unfold params at h
  obtain ⟨inside, hopen, _⟩ := Outcome.bind_eq_ok.1 h
  exact ⟨inside, consume_eq_ok.1 hopen⟩

/-- A declaration starts with its name and a parenthesis. -/
theorem head_of_declaration {bound : Int} {text rest : List Char} {found : Declaration}
    (h : declaration bound text = .ok (found, rest)) :
    (∀ c ∈ found.name.toList, isIdentRest c = true) ∧
      ∃ inside, text = found.name.toList ++ '(' :: inside := by
  unfold declaration at h
  obtain ⟨⟨name, afterName⟩, hname, h⟩ := Outcome.bind_eq_ok.1 h
  obtain ⟨⟨listed, last⟩, hparams, h⟩ := Outcome.bind_eq_ok.1 h
  obtain ⟨inside, hinside⟩ := paren_of_params hparams
  cases Outcome.pure_eq_ok.1 h
  refine ⟨(name_eq_ok.1 hname).1.isIdentRest, inside, ?_⟩
  rw [← hinside]
  exact (append_of_name hname).symm

end Parser

theorem declaration_of_parse {bound : Int} {text : List Char} {definition : Definition}
    (h : parse bound text = .ok definition) :
    ∃ rest, Parser.declaration bound text = .ok (definition.method, rest) ∧
      Parser.structs bound [] rest = .ok definition.structs := by
  unfold parse at h
  obtain ⟨⟨method, rest⟩, hmethod, h⟩ := Outcome.bind_eq_ok.1 h
  obtain ⟨structs, hstructs, h⟩ := Outcome.bind_eq_ok.1 h
  dsimp only at h
  split at h
  · exact absurd h Outcome.throw_ne_ok
  · cases Outcome.pure_eq_ok.1 h
    exact ⟨rest, hmethod, hstructs⟩

section Reading

variable {bound : Int} {text rest : List Char} {method : Declaration} {structs : List Declaration}

theorem parse_of_declaration_error {error : Error}
    (h : Parser.declaration bound text = .error error) : parse bound text = .error error := by
  unfold parse
  rw [h]
  rfl

variable (hmethod : Parser.declaration bound text = .ok (method, rest))

include hmethod

theorem parse_of_structs_error {error : Error} (h : Parser.structs bound [] rest = .error error) :
    parse bound text = .error error := by
  unfold parse
  rw [Outcome.bind_of_eq_ok hmethod]
  dsimp only
  rw [h]
  rfl

variable (hstructs : Parser.structs bound [] rest = .ok structs)

include hstructs

theorem parse_of_undeclared {name : String}
    (h : ({ method, structs } : Definition).undeclared? = some name) :
    parse bound text = .error (.argument (.structUnknown name)) := by
  unfold parse
  rw [Outcome.bind_of_eq_ok hmethod]
  dsimp only
  rw [Outcome.bind_of_eq_ok hstructs, h]
  rfl

theorem parse_of_declared (h : ({ method, structs } : Definition).undeclared? = none) :
    parse bound text = .ok { method, structs } := by
  unfold parse
  rw [Outcome.bind_of_eq_ok hmethod]
  dsimp only
  rw [Outcome.bind_of_eq_ok hstructs, h]
  rfl

end Reading

/-- The bare name of a definition's text is the name of its method. -/
theorem bareName_of_parse {bound : Int} {text : List Char} {definition : Definition}
    (h : parse bound text = .ok definition) : bareName text = definition.method.name.toList := by
  obtain ⟨rest, hmethod, _⟩ := declaration_of_parse h
  obtain ⟨hident, inside, rfl⟩ := Parser.head_of_declaration hmethod
  exact takeWhile_append_cons (bne_of_forall hident rfl) rfl

/-- So is the bare name of its method's signature. -/
theorem bareName_signature_of_parse {bound : Int} {text : List Char} {definition : Definition}
    (h : parse bound text = .ok definition) :
    bareName definition.method.signature.toList = bareName text := by
  rw [bareName_of_parse h]
  obtain ⟨rest, hmethod, _⟩ := declaration_of_parse h
  obtain ⟨hident, _⟩ := Parser.head_of_declaration hmethod
  unfold Declaration.signature
  rw [String.toList_ofList]
  exact takeWhile_append_cons (bne_of_forall hident rfl) rfl

/-- A definition's text is its bare name with the text of its arguments behind it. -/
theorem argumentsText_eq_ok_of_parse {bound : Int} {text argumentsText : List Char}
    {definition : Definition} (h : parse bound text = .ok definition)
    (hargs : Definition.argumentsText text = .ok argumentsText) :
    ∃ list, argumentsText = "Arguments".toList ++ list ∧ text = bareName text ++ list := by
  obtain ⟨rest, hmethod, _⟩ := declaration_of_parse h
  obtain ⟨hident, inside, htext⟩ := Parser.head_of_declaration hmethod
  have hdrop : text.dropWhile (· != '(') = '(' :: inside := by
    rw [htext]
    exact dropWhile_append_cons (bne_of_forall hident rfl) rfl
  have hnonempty : text.isEmpty = false := by
    rw [htext, List.isEmpty_eq_false_iff]
    simp
  unfold Definition.argumentsText at hargs
  rw [hnonempty, hdrop] at hargs
  cases hargs
  refine ⟨'(' :: inside, rfl, ?_⟩
  rw [bareName_of_parse h]
  exact htext

/-- Texts that share their arguments text and their method's signature are the same. -/
theorem text_unique {bound bound' : Int} {text text' argumentsText : List Char}
    {definition definition' : Definition} (h : parse bound text = .ok definition)
    (h' : parse bound' text' = .ok definition')
    (hargs : Definition.argumentsText text = .ok argumentsText)
    (hargs' : Definition.argumentsText text' = .ok argumentsText)
    (hsignature : definition.method.signature = definition'.method.signature) : text = text' := by
  obtain ⟨list, hlist, htext⟩ := argumentsText_eq_ok_of_parse h hargs
  obtain ⟨list', hlist', htext'⟩ := argumentsText_eq_ok_of_parse h' hargs'
  have hname : bareName text = bareName text' := by
    rw [← bareName_signature_of_parse h, ← bareName_signature_of_parse h', hsignature]
  have heq : list = list' := List.append_cancel_left (hlist.symm.trans hlist')
  rw [htext, htext', hname, heq]

end SignedRelay.Definition
