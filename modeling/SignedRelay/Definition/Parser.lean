import SignedRelay.ArgType
import SignedRelay.Definition
import SignedRelay.Outcome

/-!
# Reading a method definition

A declaration is a name and a parenthesized list of parameters, each a type and a name with one
space between them and no space behind a comma. A type runs up to the next space, wherever that is.
A definition is one declaration or more, with struct names that differ, and with every struct that a
parameter refers to among them.
-/
namespace SignedRelay.Definition

open Text

namespace Parser

/-- The name at the head of a text, and what follows it. -/
def name (text : List Char) : Except Error (String × List Char) :=
  match identifier? text with
  | some (name, rest) => .ok (String.ofList name, rest)
  | none => .error (.grammar (.identifierExpected text))

/-- What follows a given character at the head of a text. -/
def consume (c : Char) : List Char → Except Error (List Char)
  | head :: rest =>
    if head = c then .ok rest else .error (.grammar (.characterExpected c (head :: rest)))
  | [] => .error (.grammar (.characterExpected c []))

/-- One parameter at the head of a text, and what follows it. -/
def param (bound : Int) (text : List Char) : Except Error (Param × List Char) :=
  match text.dropWhile (· != ' ') with
  | [] => .error (.grammar (.nameMissing text))
  | _ :: afterSpace => do
    let typeChars := text.takeWhile (· != ' ')
    let type ← ArgType.parse bound typeChars
    let (name, rest) ← name afterSpace
    return ({ name, typeText := String.ofList typeChars, type }, rest)

theorem length_lt_of_name {text rest : List Char} {found : String}
    (h : name text = .ok (found, rest)) : rest.length < text.length := by
  unfold name at h
  split at h
  · next hident => cases h; exact length_lt_of_identifier? hident
  · simp at h

theorem length_lt_of_consume {c : Char} {text rest : List Char} (h : consume c text = .ok rest) :
    rest.length < text.length := by
  unfold consume at h
  split at h
  · split at h
    · cases h; simp
    · simp at h
  · simp at h

theorem length_lt_of_param {bound : Int} {text rest : List Char} {found : Param}
    (h : param bound text = .ok (found, rest)) : rest.length < text.length := by
  unfold param at h
  split at h
  · simp at h
  · next head afterSpace hdrop =>
    have hle := (List.dropWhile_suffix (l := text) (· != ' ')).length_le
    rw [hdrop, List.length_cons] at hle
    obtain ⟨type, _, h⟩ := Outcome.bind_eq_ok.1 h
    obtain ⟨⟨name, tail⟩, hname, h⟩ := Outcome.bind_eq_ok.1 h
    cases Outcome.pure_eq_ok.1 h
    have hlt := length_lt_of_name hname
    omega

/-- The parameters that follow an earlier one, each behind a comma. -/
def moreParams (bound : Int) (text : List Char) : Except Error (List Param × List Char) :=
  match text with
  | ',' :: afterComma =>
    match _h : param bound afterComma with
    | .error error => .error error
    | .ok (first, rest) => do
      let (others, rest) ← moreParams bound rest
      return (first :: others, rest)
  | _ => .ok ([], text)
termination_by text.length
decreasing_by
  have hlt := length_lt_of_param _h
  simp only [List.length_cons]
  omega

/-- A parenthesized list of parameters at the head of a text, and what follows it. -/
def params (bound : Int) (text : List Char) : Except Error (List Param × List Char) := do
  let inside ← consume '(' text
  match inside with
  | [] => throw (.grammar .argumentsUnterminated)
  | c :: _ =>
    if isIdentStart c then
      let (first, rest) ← param bound inside
      let (others, rest) ← moreParams bound rest
      return (first :: others, ← consume ')' rest)
    else
      return ([], ← consume ')' inside)

/-- The part of a text that a step has read, given what it leaves. -/
def consumed (text rest : List Char) : List Char := text.take (text.length - rest.length)

/-- One declaration at the head of a text, and what follows it. Its text is whatever reading it has
consumed. -/
def declaration (bound : Int) (text : List Char) : Except Error (Declaration × List Char) := do
  let (name, rest) ← name text
  let (params, rest) ← params bound rest
  return ({ name, params, text := String.ofList (consumed text rest) }, rest)

theorem length_le_of_moreParams {bound : Int} {text rest : List Char} {found : List Param}
    (h : moreParams bound text = .ok (found, rest)) : rest.length ≤ text.length := by
  fun_induction moreParams bound text generalizing found rest with
  | case1 afterComma error hparam => simp at h
  | case2 afterComma first tail hparam ih =>
    obtain ⟨⟨others, last⟩, hmore, h⟩ := Outcome.bind_eq_ok.1 h
    cases Outcome.pure_eq_ok.1 h
    have hle := ih hmore
    have hlt := length_lt_of_param hparam
    rw [List.length_cons]
    omega
  | case3 text hcomma =>
    cases h
    exact Nat.le_refl _

theorem length_le_of_params {bound : Int} {text rest : List Char} {found : List Param}
    (h : params bound text = .ok (found, rest)) : rest.length ≤ text.length := by
  unfold params at h
  obtain ⟨inside, hopen, h⟩ := Outcome.bind_eq_ok.1 h
  have hinside := length_lt_of_consume hopen
  split at h
  · exact absurd h Outcome.throw_ne_ok
  · split at h
    · obtain ⟨⟨first, afterFirst⟩, hfirst, h⟩ := Outcome.bind_eq_ok.1 h
      obtain ⟨⟨others, afterOthers⟩, hothers, h⟩ := Outcome.bind_eq_ok.1 h
      obtain ⟨last, hclose, h⟩ := Outcome.bind_eq_ok.1 h
      cases Outcome.pure_eq_ok.1 h
      have h1 := length_lt_of_param hfirst
      have h2 := length_le_of_moreParams hothers
      have h3 := length_lt_of_consume hclose
      omega
    · obtain ⟨last, hclose, h⟩ := Outcome.bind_eq_ok.1 h
      cases Outcome.pure_eq_ok.1 h
      have h3 := length_lt_of_consume hclose
      omega

theorem length_lt_of_declaration {bound : Int} {text rest : List Char} {found : Declaration}
    (h : declaration bound text = .ok (found, rest)) : rest.length < text.length := by
  unfold declaration at h
  obtain ⟨⟨name, afterName⟩, hname, h⟩ := Outcome.bind_eq_ok.1 h
  obtain ⟨⟨listed, last⟩, hparams, h⟩ := Outcome.bind_eq_ok.1 h
  cases Outcome.pure_eq_ok.1 h
  have h1 := length_lt_of_name hname
  have h2 := length_le_of_params hparams
  omega

/-- The structs declared in a text, behind those in `earlier`, whose names they must not repeat. -/
def structs (bound : Int) (earlier : List Declaration) (text : List Char) :
    Except Error (List Declaration) :=
  if text.isEmpty then .ok earlier
  else
    match _h : declaration bound text with
    | .error error => .error error
    | .ok (found, rest) =>
      if (lookup? earlier found.name).isSome then .error (.grammar (.structRepeated found.name))
      else structs bound (earlier ++ [found]) rest
termination_by text.length
decreasing_by exact length_lt_of_declaration _h

end Parser

/-- The definition that a text writes, with at most `bound` array suffixes a type. -/
def parse (bound : Int) (text : List Char) : Except Error Definition := do
  let (method, rest) ← Parser.declaration bound text
  let definition : Definition := { method, structs := ← Parser.structs bound [] rest }
  match definition.undeclared? with
  | some name => throw (.argument (.structUnknown name))
  | none => return definition

/-- The text of the struct of all arguments: that of the definition with `Arguments` for the name of
the method. -/
def argumentsText (text : List Char) : Except Error (List Char) :=
  if text.isEmpty then .ok "Arguments()".toList
  else
    match text.dropWhile (· != '(') with
    | [] => .error (.grammar (.argumentsMissing text))
    | list => .ok ("Arguments".toList ++ list)

end SignedRelay.Definition
