import SignedRelay.Proofs.DefinitionParsing
import SignedRelay.Proofs.TypeParsing

/-!
# Every definition of the grammar is read

The other direction of what a definition is read from: each step of reading gives back what a text is
written from, whatever follows it, as long as what follows does not go on with the last name. Main
statement: a text is read as a definition exactly if the grammar reads it so, the declarations of the
definition hold the text piece by piece, and no text is read in two ways.
-/
namespace SignedRelay

open Text

/-- A parameter starts like an identifier. -/
theorem Param.WellFormed.head_render {bound : Int} {param : Param} (h : param.WellFormed bound) :
    ∃ first rest, param.render = first :: rest ∧ isIdentStart first = true := by
  obtain ⟨first, rest, htype, hfirst⟩ := (ArgType.head_of_parse h.type_eq).1
  refine ⟨first, rest ++ ' ' :: param.name.toList, ?_, hfirst⟩
  rw [Param.render, htype, List.cons_append]

namespace Definition

namespace Parser

theorem name_append {found : String} {rest : List Char} (h : Identifier found.toList)
    (hrest : EndsIdentifier rest) : name (found.toList ++ rest) = .ok (found, rest) :=
  name_eq_ok.2 ⟨h, rfl, hrest⟩

theorem consume_cons (c : Char) (rest : List Char) : consume c (c :: rest) = .ok rest :=
  consume_eq_ok.2 rfl

/-- The space behind a type is the first one in the text, since no type holds any. -/
theorem param_render {bound : Int} {found : Param} {rest : List Char} (h : found.WellFormed bound)
    (hrest : EndsIdentifier rest) : param bound (found.render ++ rest) = .ok (found, rest) := by
  have hspace := (ArgType.head_of_parse h.type_eq).2
  have htext : found.render ++ rest = found.typeText.toList ++ ' ' :: (found.name.toList ++ rest) := by
    unfold Param.render
    rw [List.append_assoc, List.cons_append]
  have htake : (found.render ++ rest).takeWhile (· != ' ') = found.typeText.toList := by
    rw [htext]
    exact takeWhile_append_cons hspace rfl
  have hdrop : (found.render ++ rest).dropWhile (· != ' ') = ' ' :: (found.name.toList ++ rest) := by
    rw [htext]
    exact dropWhile_append_cons hspace rfl
  rw [param, hdrop]
  dsimp only
  rw [htake, String.ofList_toList]
  refine Outcome.bind_eq_ok.2 ⟨_, h.type_eq, Outcome.bind_eq_ok.2 ⟨_, name_append h.name hrest, ?_⟩⟩
  rfl

/-- A further parameter starts with a comma, which ends the name in front of it. -/
theorem endsIdentifier_moreParams (found : List Param) {rest : List Char} (h : EndsIdentifier rest) :
    EndsIdentifier ((found.map Param.render).flatMap (',' :: ·) ++ rest) := by
  cases found with
  | nil => exact h
  | cons first others => exact endsIdentifier_cons rfl

/-- Behind the parameters that a text writes, reading goes on with the rest. -/
theorem moreParams_append {bound : Int} {found : List Param} {rest : List Char}
    (h : ∀ param ∈ found, param.WellFormed bound) (hrest : EndsIdentifier rest) :
    moreParams bound ((found.map Param.render).flatMap (',' :: ·) ++ rest) =
      (moreParams bound rest).map fun read => (found ++ read.1, read.2) := by
  induction found with
  | nil =>
    show moreParams bound rest = _
    cases moreParams bound rest with
    | error error => rfl
    | ok read => rfl
  | cons first others ih =>
    obtain ⟨hfirst, hothers⟩ := List.forall_mem_cons.1 h
    have hparam := param_render hfirst (endsIdentifier_moreParams others hrest)
    rw [List.map_cons, List.flatMap_cons, List.cons_append, List.cons_append, List.append_assoc,
      moreParams]
    split
    · next herror =>
      rw [hparam] at herror
      cases herror
    · next hok =>
      rw [hparam] at hok
      cases hok
      rw [ih hothers]
      cases moreParams bound rest with
      | error error => rfl
      | ok read => rfl

theorem moreParams_render {bound : Int} {found : List Param} (rest : List Char)
    (h : ∀ param ∈ found, param.WellFormed bound) :
    moreParams bound ((found.map Param.render).flatMap (',' :: ·) ++ ')' :: rest) =
      .ok (found, ')' :: rest) := by
  have hclosed : moreParams bound (')' :: rest) = .ok ([], ')' :: rest) := by
    rw [moreParams]
    exact fun afterComma hcomma => by cases hcomma
  rw [moreParams_append h (endsIdentifier_cons rfl), hclosed]
  show Except.ok (found ++ [], ')' :: rest) = _
  rw [List.append_nil]

theorem params_render {bound : Int} {found : List Param} (rest : List Char)
    (h : ∀ param ∈ found, param.WellFormed bound) :
    params bound (parenthesized (found.map Param.render) ++ rest) = .ok (found, rest) := by
  cases found with
  | nil =>
    exact Outcome.bind_eq_ok.2 ⟨_, consume_cons _ _, Outcome.bind_eq_ok.2 ⟨_, consume_cons _ _, rfl⟩⟩
  | cons first others =>
    obtain ⟨hfirst, hothers⟩ := List.forall_mem_cons.1 h
    obtain ⟨c, tail, hhead, hstart⟩ := hfirst.head_render
    have hparam := param_render hfirst
      (endsIdentifier_moreParams others (endsIdentifier_cons rfl : EndsIdentifier (')' :: rest)))
    rw [hhead, List.cons_append] at hparam
    rw [parenthesized_render_append, hhead, List.cons_append]
    refine Outcome.bind_eq_ok.2 ⟨_, consume_cons _ _, ?_⟩
    dsimp only
    rw [if_pos hstart]
    exact Outcome.bind_eq_ok.2 ⟨_, hparam, Outcome.bind_eq_ok.2 ⟨_, moreParams_render rest hothers,
      Outcome.bind_eq_ok.2 ⟨_, consume_cons _ _, rfl⟩⟩⟩

theorem declaration_render {bound : Int} {found : Declaration} (rest : List Char)
    (h : found.WellFormed bound) :
    declaration bound (found.render ++ rest) = .ok (found, rest) := by
  have htext : found.render ++ rest =
      found.name.toList ++ (parenthesized (found.params.map Param.render) ++ rest) :=
    List.append_assoc _ _ _
  have hname : name (found.render ++ rest) =
      .ok (found.name, parenthesized (found.params.map Param.render) ++ rest) := by
    rw [htext]
    exact name_append h.name (endsIdentifier_cons rfl)
  unfold declaration
  refine Outcome.bind_eq_ok.2 ⟨_, hname, Outcome.bind_eq_ok.2 ⟨_, params_render rest h.params, ?_⟩⟩
  dsimp only
  rw [consumed_append, ← h.text_eq]
  rfl

theorem declaration_of_params_error {bound : Int} {name : String} {inside : List Char} {error : Error}
    (hname : Identifier name.toList) (h : params bound ('(' :: inside) = .error error) :
    declaration bound (name.toList ++ '(' :: inside) = .error error := by
  unfold declaration
  rw [Outcome.bind_of_eq_ok (name_append hname (endsIdentifier_cons rfl))]
  dsimp only
  rw [h]
  rfl

/-- Behind the structs that a text writes, reading goes on with the rest, as long as no name comes
twice. -/
theorem structs_append {bound : Int} {found : List Declaration} (earlier : List Declaration)
    (rest : List Char) (h : ∀ declaration ∈ found, declaration.WellFormed bound)
    (hnames : ((earlier ++ found).map (·.name)).Nodup) :
    structs bound earlier (found.flatMap Declaration.render ++ rest) =
      structs bound (earlier ++ found) rest := by
  induction found generalizing earlier with
  | nil =>
    rw [List.append_nil, List.flatMap_nil, List.nil_append]
  | cons first others ih =>
    obtain ⟨hfirst, hothers⟩ := List.forall_mem_cons.1 h
    have hdeclaration := declaration_render (others.flatMap Declaration.render ++ rest) hfirst
    have hnonempty :
        ¬ (first.render ++ (others.flatMap Declaration.render ++ rest)).isEmpty = true := by
      intro hempty
      rw [List.isEmpty_iff.1 hempty] at hdeclaration
      exact absurd (length_lt_of_declaration hdeclaration) (Nat.not_lt_zero _)
    have hfresh : ¬ (lookup? earlier first.name).isSome = true := by
      intro hsome
      obtain ⟨declared, hmem, hname⟩ := isSome_lookup?_iff.1 hsome
      rw [List.map_append, List.nodup_append] at hnames
      exact hnames.2.2 _ (List.mem_map_of_mem hmem) _ List.mem_cons_self hname
    rw [List.flatMap_cons, List.append_assoc, structs, if_neg hnonempty]
    split
    · next herror =>
      rw [hdeclaration] at herror
      cases herror
    · next hok =>
      rw [hdeclaration] at hok
      cases hok
      rw [if_neg hfresh, List.append_cons earlier first others]
      rw [List.append_cons] at hnames
      exact ih _ hothers hnames

theorem structs_nil (bound : Int) (earlier : List Declaration) :
    structs bound earlier [] = .ok earlier := by
  rw [structs]
  rfl

theorem structs_of_declaration_error {bound : Int} {text : List Char} {error : Error}
    (earlier : List Declaration) (hne : text ≠ []) (h : declaration bound text = .error error) :
    structs bound earlier text = .error error := by
  rw [structs, if_neg (by simpa using hne)]
  split
  · next herror =>
    rw [h] at herror
    cases herror
    rfl
  · next hok =>
    rw [h] at hok
    cases hok

theorem structs_render {bound : Int} {found : List Declaration}
    (h : ∀ declaration ∈ found, declaration.WellFormed bound)
    (hnames : (found.map (·.name)).Nodup) :
    structs bound [] (found.flatMap Declaration.render) = .ok found := by
  have happend := structs_append [] [] h hnames
  rwa [List.append_nil, structs_nil] at happend

end Parser

namespace ReadFrom

variable {bound : Int} {text : List Char} {definition : Definition}

theorem parse_eq_ok (h : ReadFrom bound text definition) : parse bound text = .ok definition := by
  obtain ⟨hmethod, hstructs⟩ := List.forall_mem_cons.1 h.wellFormed
  have htext : text = definition.method.render ++ definition.structs.flatMap Declaration.render :=
    h.render_eq.symm
  rw [htext]
  exact parse_of_declared (Parser.declaration_render _ hmethod)
    (Parser.structs_render hstructs h.names_nodup) (undeclared?_eq_none_iff.2 h.declared)

/-- The texts of the declarations one behind the other are the whole text. -/
theorem flatMap_text (h : ReadFrom bound text definition) :
    definition.declarations.flatMap (·.text.toList) = text := by
  rw [← h.render_eq]
  unfold render
  rw [List.flatMap_def, List.flatMap_def]
  congr 1
  apply List.map_congr_left
  intro declaration hmem
  rw [(h.wellFormed declaration hmem).text_eq, String.toList_ofList]

/-- The declared structs are known by their names. -/
theorem lookup?_eq_some_iff (h : ReadFrom bound text definition) {name : String}
    {declaration : Declaration} : lookup? definition.structs name = some declaration ↔
      declaration ∈ definition.structs ∧ declaration.name = name := by
  constructor
  · intro hlookup
    exact ⟨mem_of_lookup? hlookup, name_of_lookup? hlookup⟩
  · rintro ⟨hmem, rfl⟩
    exact h.lookup?_of_mem hmem

end ReadFrom

/-- Reading gives a definition exactly if the grammar reads the text so. The texts of its declarations
then make up the whole text, each struct is known by its name, and nothing else can be read. -/
theorem parse_eq_ok_iff_readFrom (bound : Int) (text : List Char) :
    (∀ definition, parse bound text = .ok definition ↔ ReadFrom bound text definition) ∧
      (∀ definition, ReadFrom bound text definition →
        definition.declarations.flatMap (·.text.toList) = text ∧
          ∀ name declaration, lookup? definition.structs name = some declaration ↔
            declaration ∈ definition.structs ∧ declaration.name = name) ∧
      ∀ first second, ReadFrom bound text first → ReadFrom bound text second → first = second := by
  refine ⟨fun definition => ⟨readFrom_of_parse, ReadFrom.parse_eq_ok⟩, ?_, ?_⟩
  · intro definition h
    exact ⟨h.flatMap_text, fun name declaration => h.lookup?_eq_some_iff⟩
  · intro first second hfirst hsecond
    have heq := hfirst.parse_eq_ok.symm.trans hsecond.parse_eq_ok
    rwa [Except.ok.injEq] at heq

/-- The adoption of a pet, with the struct that describes it. -/
def adoption : Definition where
  method :=
    { name := "adopt"
      params := [{ name := "petId", typeText := "uint256", type := .uint },
        { name := "petObj", typeText := "PetObj", type := .struct "PetObj" }]
      text := "adopt(uint256 petId,PetObj petObj)" }
  structs :=
    [{ name := "PetObj"
       params := [{ name := "name", typeText := "string", type := .string },
         { name := "owner", typeText := "address", type := .address }]
       text := "PetObj(string name,address owner)" }]

/-- It is read from its own text, which is that of the method with that of the struct behind it. -/
theorem parse_eq_ok_iff_readFrom_adoption :
    let text := "adopt(uint256 petId,PetObj petObj)PetObj(string name,address owner)".toList
    ReadFrom 32 text adoption ∧ adoption.declarations.flatMap (·.text.toList) = text ∧
      ∀ other, ReadFrom 32 text other → other = adoption := by
  intro text
  have hparse : parse 32 text = .ok adoption := Outcome.eq_ok_of_toOption (by decide +kernel)
  obtain ⟨hiff, htexts, hunique⟩ := parse_eq_ok_iff_readFrom 32 text
  have hread := (hiff adoption).1 hparse
  exact ⟨hread, (htexts adoption hread).1, fun other hother => hunique other adoption hother hread⟩

end Definition

end SignedRelay
