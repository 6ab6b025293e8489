import SignedRelay.Proofs.DefinitionGrammar

/-!
# Parameters without a name

A type is cut off at the next space, wherever in the text that stands, and only then read. So it is not
where a name is missing that decides how this is reported, but whether a space follows anywhere. Main
statement: behind a text that follows the grammar, a type without a name is reported as such if no space
follows, and else as a type that does not end where it should.
-/
namespace SignedRelay

open Text

namespace ArgType

/-- Behind the suffixes that a text writes, reading goes on with the rest. -/
theorem wrap_append {text suffixes : List Char} {lengths : List (Option Nat)} {bound : Int}
    (h : WritesSuffixes suffixes lengths) (type : ArgType) (depth : Nat) (rest : List Char)
    (hbound : lengths = [] ∨ depth + lengths.length ≤ bound) :
    wrap text bound type depth (suffixes ++ rest) =
      wrap text bound (lengths.foldl array type) (depth + lengths.length) rest := by
  induction h generalizing type depth with
  | nil => rfl
  | @cons digits others length lengths hlength _ ih =>
    have hsuffix := suffix?_suffix_append hlength.all_digits (others ++ rest)
    have hread := (suffixLength_eq_ok_iff hlength.all_digits).2 hlength
    have hdepth : depth + (lengths.length + 1) ≤ bound := by simpa using hbound
    rw [List.append_assoc, wrap, if_neg (by simp [suffix])]
    split
    · next hnone =>
      rw [hsuffix] at hnone
      cases hnone
    · next hsome =>
      rw [hsuffix] at hsome
      cases hsome
      rw [if_neg (by omega), hread]
      dsimp only
      rw [ih _ _ (.inr (by omega)), List.foldl_cons, List.length_cons, Nat.add_assoc,
        Nat.add_comm 1]

/-- Only a bracket goes on with the suffixes of a type. -/
theorem wrap_of_stop {text rest : List Char} {stop : Char} {bound : Int} (type : ArgType) (depth : Nat)
    (h : stop ≠ '[') : wrap text bound type depth (stop :: rest) =
      .error (.encoding (.typeTrailing (stop :: rest) text)) := by
  have hnone : suffix? (stop :: rest) = none := by
    unfold suffix?
    split
    · next hhead => exact absurd (List.cons.inj hhead).1 h
    · rfl
  rw [wrap, if_neg (by simp)]
  split
  · rfl
  · next hsome =>
    rw [hnone] at hsome
    cases hsome

/-- A type that is read alone is not read with something behind it that goes on with neither its word
nor its suffixes. What is behind it is reported. -/
theorem parse_append_of_stop {bound : Int} {text rest : List Char} {type : ArgType} {stop : Char}
    (h : parse bound text = .ok type) (hword : isIdentRest stop = false) (hsuffix : stop ≠ '[') :
    parse bound (text ++ stop :: rest) =
      .error (.encoding (.typeTrailing (stop :: rest) (text ++ stop :: rest))) := by
  obtain ⟨hwrites, hnests⟩ := parse_eq_ok_iff.1 h
  obtain ⟨word, suffixes, base, lengths, rfl, hidentifier, hdenotes, hsuffixes, rfl⟩ :=
    writes_iff.1 hwrites
  have hends : EndsIdentifier (suffixes ++ stop :: rest) := by
    cases hsuffixes with
    | nil => exact endsIdentifier_cons hword
    | cons _ _ => exact endsIdentifier_cons rfl
  unfold NestsWithin at hnests
  rw [lengths_foldl, hdenotes.lengths_eq_nil, List.nil_append] at hnests
  rw [List.append_assoc]
  unfold parse
  rw [identifier?_eq_some_iff.2 ⟨hidentifier, rfl, hends⟩]
  dsimp only
  rw [ofWord_eq_ok_iff.2 hdenotes]
  dsimp only
  rw [wrap_append hsuffixes base 0 _ (by simpa using hnests), wrap_of_stop _ _ hsuffix]

end ArgType

namespace Definition

/-- A text that follows the grammar up to where a parameter is to stand: whole declarations, the first
one that of the method, and of one more its name and the parameters in front. -/
structure Opening where
  whole : List Declaration
  name : String
  params : List Param

/-- Each parameter in front has a comma behind it. -/
def Opening.render (opening : Opening) : List Char :=
  opening.whole.flatMap Declaration.render ++
    (opening.name.toList ++ '(' :: opening.params.flatMap (·.render ++ [',']))

structure Opening.WellFormed (bound : Int) (opening : Opening) : Prop where
  whole : ∀ declaration ∈ opening.whole, declaration.WellFormed bound
  names_nodup : (opening.whole.tail.map (·.name)).Nodup
  name : Identifier opening.name.toList
  params : ∀ param ∈ opening.params, param.WellFormed bound

namespace Parser

variable {bound : Int} {text : List Char} {error : Error}

theorem flatMap_render_comma (first : Param) (others : List Param) (rest : List Char) :
    (first :: others).flatMap (·.render ++ [',']) ++ rest =
      first.render ++ ((others.map Param.render).flatMap (',' :: ·) ++ ',' :: rest) := by
  induction others generalizing first with
  | nil => simp
  | cons second others ih =>
    rw [List.flatMap_cons, List.append_assoc, ih second]
    simp

theorem moreParams_of_param_error (h : param bound text = .error error) :
    moreParams bound (',' :: text) = .error error := by
  rw [moreParams]
  split
  · next herror =>
    rw [h] at herror
    cases herror
    rfl
  · next hok =>
    rw [h] at hok
    cases hok

/-- A parameter that cannot be read is reported, whatever parameters are in front of it. -/
theorem params_of_param_error {found : List Param} (hfound : ∀ param ∈ found, param.WellFormed bound)
    (hstart : ∃ c rest, text = c :: rest ∧ isIdentStart c = true)
    (h : param bound text = .error error) :
    params bound ('(' :: (found.flatMap (·.render ++ [',']) ++ text)) = .error error := by
  unfold params
  rw [Outcome.bind_of_eq_ok (consume_cons _ _)]
  cases found with
  | nil =>
    obtain ⟨c, rest, rfl, hc⟩ := hstart
    show (if isIdentStart c then _ else _) = _
    rw [if_pos hc, List.flatMap_nil, List.nil_append, h]
    rfl
  | cons first others =>
    obtain ⟨hfirst, hothers⟩ := List.forall_mem_cons.1 hfound
    obtain ⟨c, tail, hhead, hc⟩ := hfirst.head_render
    have hcomma : EndsIdentifier (',' :: text) := endsIdentifier_cons rfl
    have hparam := param_render hfirst (endsIdentifier_moreParams others hcomma)
    have hmore := moreParams_append hothers hcomma
    rw [moreParams_of_param_error h] at hmore
    rw [flatMap_render_comma]
    rw [hhead, List.cons_append] at hparam ⊢
    show (if isIdentStart c then _ else _) = _
    rw [if_pos hc, Outcome.bind_of_eq_ok hparam]
    dsimp only
    rw [hmore]
    rfl

end Parser

section Opened

variable {bound : Int} {opening : Opening} {text : List Char} {error : Error}

/-- The first parameter that cannot be read is what is reported, as long as it starts like one. -/
theorem parse_of_param_error (h : opening.WellFormed bound)
    (hstart : ∃ c rest, text = c :: rest ∧ isIdentStart c = true)
    (herror : Parser.param bound text = .error error) :
    parse bound (opening.render ++ text) = .error error := by
  obtain ⟨whole, name, params⟩ := opening
  have hlast : Parser.declaration bound
      (name.toList ++ '(' :: (params.flatMap (·.render ++ [',']) ++ text)) = .error error :=
    Parser.declaration_of_params_error h.name
      (Parser.params_of_param_error h.params hstart herror)
  have htext : Opening.render ⟨whole, name, params⟩ ++ text = whole.flatMap Declaration.render ++
      (name.toList ++ '(' :: (params.flatMap (·.render ++ [',']) ++ text)) := by
    unfold Opening.render
    rw [List.append_assoc, List.append_assoc, List.cons_append]
  rw [htext]
  cases whole with
  | nil => exact parse_of_declaration_error hlast
  | cons method structs =>
    obtain ⟨hmethod, hstructs⟩ := List.forall_mem_cons.1 h.whole
    rw [List.flatMap_cons, List.append_assoc]
    refine parse_of_structs_error (Parser.declaration_render _ hmethod) ?_
    rw [Parser.structs_append [] _ hstructs h.names_nodup]
    exact Parser.structs_of_declaration_error _ (by simp) hlast

theorem bne_space_of_not_mem (h : ' ' ∉ text) : ∀ c ∈ text, (c != ' ') = true := by
  intro c hc
  rw [bne_iff_ne]
  rintro rfl
  exact h hc

theorem param_of_no_space (h : ' ' ∉ text) :
    Parser.param bound text = .error (.grammar (.nameMissing text)) := by
  have hdrop : text.dropWhile (· != ' ') = [] := by
    have happend : (text ++ []).dropWhile (· != ' ') = [] :=
      List.dropWhile_append_of_pos (bne_space_of_not_mem h)
    rwa [List.append_nil] at happend
  unfold Parser.param
  rw [hdrop]

/-- A text in front of a space that is no type is reported as such. -/
theorem param_of_type_error {front rest : List Char} (hfront : ∀ c ∈ front, (c != ' ') = true)
    (h : ArgType.parse bound front = .error error) :
    Parser.param bound (front ++ ' ' :: rest) = .error error := by
  unfold Parser.param
  rw [dropWhile_append_cons hfront rfl]
  dsimp only
  rw [takeWhile_append_cons hfront rfl, h]
  rfl

end Opened

/-- Where a text follows the grammar up to a type that is read, and a comma or a parenthesis stands behind
that type, no definition is read. Without a space behind it, the name is reported missing. Otherwise all
up to the first space is taken for the type, and what is behind the type in it is reported. -/
theorem parse_of_name_missing {bound : Int} {opening : Opening} (h : opening.WellFormed bound)
    {typeText : List Char} {type : ArgType} (htype : ArgType.parse bound typeText = .ok type)
    {stop : Char} (hstop : stop = ',' ∨ stop = ')') (rest : List Char) :
    (' ' ∉ rest → parse bound (opening.render ++ (typeText ++ stop :: rest)) =
      .error (.grammar (.nameMissing (typeText ++ stop :: rest)))) ∧
    (' ' ∈ rest → parse bound (opening.render ++ (typeText ++ stop :: rest)) =
      .error (.encoding (.typeTrailing (stop :: rest.takeWhile (· != ' '))
        (typeText ++ stop :: rest.takeWhile (· != ' '))))) := by
  obtain ⟨⟨c, tail, hhead, hc⟩, hspace⟩ := ArgType.head_of_parse htype
  have hstart : ∃ first others, typeText ++ stop :: rest = first :: others ∧
      isIdentStart first = true := ⟨c, tail ++ stop :: rest, by rw [hhead, List.cons_append], hc⟩
  obtain ⟨hword, hbracket, hblank⟩ :
      isIdentRest stop = false ∧ stop ≠ '[' ∧ (stop != ' ') = true := by
    rcases hstop with rfl | rfl
    · decide
    · decide
  have hfront (more : List Char) (hmore : ' ' ∉ more) :
      ∀ c ∈ typeText ++ stop :: more, (c != ' ') = true :=
    List.forall_mem_append.2 ⟨hspace, List.forall_mem_cons.2 ⟨hblank, bne_space_of_not_mem hmore⟩⟩
  constructor
  · intro hnone
    refine parse_of_param_error h hstart (param_of_no_space fun hmem => ?_)
    have hne := hfront rest hnone ' ' hmem
    cases hne
  · intro hsome
    obtain ⟨more, after, rfl, hmore⟩ := List.eq_append_cons_of_mem hsome
    have htext : typeText ++ stop :: (more ++ ' ' :: after) =
        (typeText ++ stop :: more) ++ ' ' :: after := by
      rw [List.append_assoc, List.cons_append]
    rw [takeWhile_append_cons (bne_space_of_not_mem hmore) rfl]
    refine parse_of_param_error h hstart ?_
    rw [htext]
    exact param_of_type_error (hfront more hmore) (ArgType.parse_append_of_stop htype hword hbracket)

/-- A method and a struct, and of another struct the name and one field. -/
def shop : Opening where
  whole :=
    [{ name := "f"
       params := [{ name := "a", typeText := "uint256", type := .uint }]
       text := "f(uint256 a)" },
     { name := "Pet"
       params := [{ name := "s", typeText := "string", type := .string }]
       text := "Pet(string s)" }]
  name := "Shop"
  params := [{ name := "first", typeText := "Pet", type := .struct "Pet" }]

theorem wellFormed_shop : shop.WellFormed 32 := by
  have hparse : parse 32 "f(uint256 a)Pet(string s)Shop(Pet first)".toList = .ok
      ⟨shop.whole.head (by decide), shop.whole.tail ++ [{
        name := "Shop", params := shop.params, text := "Shop(Pet first)" }]⟩ :=
    Outcome.eq_ok_of_toOption (by decide +kernel)
  have hread := readFrom_of_parse hparse
  have hlast := hread.wellFormed _ (List.mem_cons_of_mem _ (List.mem_append_right _ List.mem_cons_self))
  exact ⟨fun declaration hmem => hread.wellFormed declaration (List.mem_append_left _ hmem),
    by decide, hlast.name, hlast.params⟩

/-- A space in the struct behind it makes the same type run on into that struct. -/
theorem parse_of_name_missing_shop :
    parse 32 "f(uint256 a)Pet(string s)Shop(Pet first,uint256[2])Owner()".toList =
      .error (.grammar (.nameMissing "uint256[2])Owner()".toList)) ∧
    parse 32 "f(uint256 a)Pet(string s)Shop(Pet first,uint256[2])Owner(address o)".toList =
      .error (.encoding (.typeTrailing ")Owner(address".toList "uint256[2])Owner(address".toList)) := by
  have htype : ArgType.parse 32 "uint256[2]".toList = .ok (.array .uint (some 2)) :=
    Outcome.eq_ok_of_toOption (by decide +kernel)
  have hshort := parse_of_name_missing wellFormed_shop htype (.inr rfl) "Owner()".toList
  have hlong := parse_of_name_missing wellFormed_shop htype (.inr rfl) "Owner(address o)".toList
  exact ⟨hshort.1 (by decide), hlong.2 (by decide)⟩

/-- A parameter of a method without a name, reported as a type and not as breaking the grammar. -/
theorem name_missing_not_reported :
    Opening.WellFormed 32 ⟨[], "f", []⟩ ∧ ArgType.parse 32 "uint256".toList = .ok .uint ∧
      Opening.render ⟨[], "f", []⟩ ++ "uint256,uint256 b)".toList = "f(uint256,uint256 b)".toList ∧
      parse 32 "f(uint256,uint256 b)".toList =
        .error (.encoding (.typeTrailing ",uint256".toList "uint256,uint256".toList)) := by
  have hname : Identifier "f".toList := .intro (isIdentStart_iff.1 rfl) (List.forall_mem_nil _)
  refine ⟨⟨List.forall_mem_nil _, List.nodup_nil, hname, List.forall_mem_nil _⟩, ?_, rfl, ?_⟩
  · decide +kernel
  · decide +kernel

end Definition

end SignedRelay
