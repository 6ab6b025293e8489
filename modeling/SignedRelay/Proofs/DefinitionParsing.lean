import SignedRelay.Proofs.DefinitionText

/-!
# What a definition is read from

Each step of reading consumes the text of what it returns, names are identifiers, and each parameter has
the type that its text means. Main statement: a definition is read from its own text, with struct names
that differ and with every struct that a parameter refers to among the declared ones.
-/
namespace SignedRelay

open Text (Identifier)

/-- The name of a parameter is an identifier, and its type is the one that its text means. -/
structure Param.WellFormed (bound : Int) (param : Param) : Prop where
  name : Identifier param.name.toList
  type_eq : ArgType.parse bound param.typeText.toList = .ok param.type

/-- A declaration's names and types are well formed, and its text is what they are written as. -/
structure Declaration.WellFormed (bound : Int) (declaration : Declaration) : Prop where
  name : Identifier declaration.name.toList
  params : ∀ param ∈ declaration.params, param.WellFormed bound
  text_eq : declaration.text = String.ofList declaration.render

theorem ArgType.structName?_eq_some_iff {type : ArgType} {name : String} :
    type.structName? = some name ↔ type.base = .struct name := by
  unfold structName?
  cases type.base with
  | struct found => simp
  | _ => simp

namespace Definition

theorem intercalate_comma_cons (first : List Char) (others : List (List Char)) :
    List.intercalate [','] (first :: others) = first ++ others.flatMap (',' :: ·) := by
  induction others generalizing first with
  | nil => simp [List.intercalate]
  | cons second rest ih =>
    have hstep : List.intercalate [','] (first :: second :: rest) =
        first ++ ',' :: List.intercalate [','] (second :: rest) := by simp [List.intercalate]
    rw [hstep, ih, List.flatMap_cons, List.cons_append]

/-- Each parameter behind the first one has a comma in front of it. -/
theorem parenthesized_render_append (first : Param) (others : List Param) (rest : List Char) :
    parenthesized ((first :: others).map Param.render) ++ rest =
      '(' :: (first.render ++ ((others.map Param.render).flatMap (',' :: ·) ++ ')' :: rest)) := by
  unfold parenthesized
  rw [List.map_cons, intercalate_comma_cons]
  simp

namespace Parser

theorem param_sound {bound : Int} {text rest : List Char} {found : Param}
    (h : param bound text = .ok (found, rest)) :
    text = found.render ++ rest ∧ found.WellFormed bound := by
  unfold param at h
  split at h
  · cases h
  · next space afterSpace hdrop =>
    obtain ⟨type, htype, h⟩ := Outcome.bind_eq_ok.1 h
    obtain ⟨⟨found, tail⟩, hname, h⟩ := Outcome.bind_eq_ok.1 h
    cases Outcome.pure_eq_ok.1 h
    have hspace : space = ' ' := by
      have hhead := List.head?_dropWhile_not (· != ' ') text
      rw [hdrop] at hhead
      simpa using hhead
    subst hspace
    have hsplit : text.takeWhile (· != ' ') ++ ' ' :: afterSpace = text := by
      rw [← hdrop]
      exact List.takeWhile_append_dropWhile
    constructor
    · unfold Param.render
      rw [String.toList_ofList, List.append_assoc, List.cons_append, append_of_name hname]
      exact hsplit.symm
    · refine ⟨(name_eq_ok.1 hname).1, ?_⟩
      show ArgType.parse bound (String.ofList _).toList = _
      rw [String.toList_ofList]
      exact htype

theorem moreParams_sound {bound : Int} {text rest : List Char} {found : List Param}
    (h : moreParams bound text = .ok (found, rest)) :
    text = (found.map Param.render).flatMap (',' :: ·) ++ rest ∧
      ∀ param ∈ found, param.WellFormed bound := by
  fun_induction moreParams bound text generalizing found rest with
  | case1 afterComma error hparam => cases h
  | case2 afterComma first tail hparam ih =>
    obtain ⟨⟨others, last⟩, hmore, h⟩ := Outcome.bind_eq_ok.1 h
    cases Outcome.pure_eq_ok.1 h
    obtain ⟨htext, htyped⟩ := param_sound hparam
    obtain ⟨htail, hothers⟩ := ih hmore
    constructor
    · rw [htext, htail, List.map_cons, List.flatMap_cons, List.cons_append, List.cons_append,
        List.append_assoc]
    · exact List.forall_mem_cons.2 ⟨htyped, hothers⟩
  | case3 text hcomma =>
    cases h
    exact ⟨rfl, List.forall_mem_nil _⟩

theorem params_sound {bound : Int} {text rest : List Char} {found : List Param}
    (h : params bound text = .ok (found, rest)) :
    text = parenthesized (found.map Param.render) ++ rest ∧
      ∀ param ∈ found, param.WellFormed bound := by
  unfold params at h
  obtain ⟨inside, hopen, h⟩ := Outcome.bind_eq_ok.1 h
  have htext := consume_eq_ok.1 hopen
  split at h
  · exact absurd h Outcome.throw_ne_ok
  · split at h
    · obtain ⟨⟨first, afterFirst⟩, hfirst, h⟩ := Outcome.bind_eq_ok.1 h
      obtain ⟨⟨others, afterOthers⟩, hothers, h⟩ := Outcome.bind_eq_ok.1 h
      obtain ⟨last, hclose, h⟩ := Outcome.bind_eq_ok.1 h
      cases Outcome.pure_eq_ok.1 h
      obtain ⟨hinside, htyped⟩ := param_sound hfirst
      obtain ⟨hmore, hall⟩ := moreParams_sound hothers
      have hlast := consume_eq_ok.1 hclose
      refine ⟨?_, List.forall_mem_cons.2 ⟨htyped, hall⟩⟩
      rw [parenthesized_render_append, htext, hinside, hmore, hlast]
    · obtain ⟨last, hclose, h⟩ := Outcome.bind_eq_ok.1 h
      cases Outcome.pure_eq_ok.1 h
      have hlast := consume_eq_ok.1 hclose
      refine ⟨?_, List.forall_mem_nil _⟩
      rw [htext, hlast]
      rfl

theorem consumed_append (front rest : List Char) : consumed (front ++ rest) rest = front := by
  unfold consumed
  rw [List.length_append, Nat.add_sub_cancel, List.take_left]

theorem declaration_sound {bound : Int} {text rest : List Char} {found : Declaration}
    (h : declaration bound text = .ok (found, rest)) :
    text = found.render ++ rest ∧ found.WellFormed bound := by
  unfold declaration at h
  obtain ⟨⟨name, afterName⟩, hname, h⟩ := Outcome.bind_eq_ok.1 h
  obtain ⟨⟨listed, last⟩, hparams, h⟩ := Outcome.bind_eq_ok.1 h
  cases Outcome.pure_eq_ok.1 h
  obtain ⟨hafter, hlisted⟩ := params_sound hparams
  have htext : text = (name.toList ++ parenthesized (listed.map Param.render)) ++ rest := by
    rw [List.append_assoc, ← hafter]
    exact (append_of_name hname).symm
  refine ⟨htext, (name_eq_ok.1 hname).1, hlisted, ?_⟩
  show String.ofList (consumed text rest) = _
  rw [htext, consumed_append]
  rfl

/-- Reading structs adds to the earlier ones those whose texts follow, and keeps names apart. -/
theorem structs_sound {bound : Int} {earlier all : List Declaration} {text : List Char}
    (h : structs bound earlier text = .ok all) :
    ∃ found, all = earlier ++ found ∧ text = found.flatMap Declaration.render ∧
      (∀ declaration ∈ found, declaration.WellFormed bound) ∧
      ((earlier.map (·.name)).Nodup → (all.map (·.name)).Nodup) := by
  fun_induction structs bound earlier text with
  | case1 earlier text hempty =>
    cases h
    exact ⟨[], (List.append_nil _).symm, List.isEmpty_iff.1 hempty, List.forall_mem_nil _, id⟩
  | case2 earlier text hempty error hdeclaration => cases h
  | case3 earlier text hempty first rest hdeclaration hrepeated => cases h
  | case4 earlier text hempty first rest hdeclaration hrepeated ih =>
    obtain ⟨found, hall, hrest, htyped, hnodup⟩ := ih h
    obtain ⟨htext, hfirst⟩ := declaration_sound hdeclaration
    refine ⟨first :: found, ?_, ?_, List.forall_mem_cons.2 ⟨hfirst, htyped⟩, ?_⟩
    · rw [hall, List.append_assoc, List.singleton_append]
    · rw [htext, hrest, List.flatMap_cons]
    · intro hearlier
      apply hnodup
      have hfresh : first.name ∉ earlier.map (·.name) := by
        intro hmem
        obtain ⟨declaration, hin, hname⟩ := List.mem_map.1 hmem
        exact hrepeated (isSome_lookup?_iff.2 ⟨declaration, hin, hname⟩)
      rw [List.map_append, List.nodup_append]
      refine ⟨hearlier, List.pairwise_singleton _ _, ?_⟩
      intro a ha b hb hab
      rw [List.map_singleton, List.mem_singleton] at hb
      exact hfresh (hb ▸ hab ▸ ha)

end Parser

theorem mem_references {declarations : List Declaration} {name : String} :
    name ∈ references declarations ↔
      ∃ declaration ∈ declarations, ∃ param ∈ declaration.params,
        param.type.structName? = some name := by
  unfold references
  simp only [List.mem_filterMap, List.mem_flatMap]
  constructor
  · rintro ⟨param, ⟨declaration, hmem, hparam⟩, hname⟩
    exact ⟨declaration, hmem, param, hparam, hname⟩
  · rintro ⟨declaration, hmem, param, hparam, hname⟩
    exact ⟨param, ⟨declaration, hmem, hparam⟩, hname⟩

theorem mem_references_singleton {declaration : Declaration} {name : String} :
    name ∈ references [declaration] ↔
      ∃ param ∈ declaration.params, param.type.structName? = some name := by
  rw [mem_references]
  constructor
  · rintro ⟨found, hmem, hparam⟩
    rwa [← List.mem_singleton.1 hmem]
  · intro hparam
    exact ⟨declaration, List.mem_cons_self, hparam⟩

theorem mem_references_iff {declarations : List Declaration} {name : String} :
    name ∈ references declarations ↔
      ∃ declaration ∈ declarations, name ∈ references [declaration] := by
  rw [mem_references]
  simp only [mem_references_singleton]

/-- No reference is undeclared exactly if every struct at the base of a parameter's type is declared. -/
theorem undeclared?_eq_none_iff {definition : Definition} : definition.undeclared? = none ↔
    ∀ declaration ∈ definition.declarations, ∀ param ∈ declaration.params, ∀ name,
      param.type.base = .struct name → ∃ found ∈ definition.structs, found.name = name := by
  have hlookup (name : String) : ¬ (lookup? definition.structs name).isNone = true ↔
      ∃ found ∈ definition.structs, found.name = name := by
    rw [Bool.not_eq_true, Option.isNone_eq_false_iff, isSome_lookup?_iff]
  unfold undeclared?
  rw [List.find?_eq_none]
  simp only [mem_references, ArgType.structName?_eq_some_iff, hlookup]
  constructor
  · intro h declaration hmem param hparam name hbase
    exact h name ⟨declaration, hmem, param, hparam, hbase⟩
  · rintro h name ⟨declaration, hmem, param, hparam, hbase⟩
    exact h declaration hmem param hparam name hbase

/-- The grammar of definitions: the declarations one behind the other make up the text, each of them is
well formed, no two structs have one name, and every struct at the base of a parameter's type is
declared. -/
structure ReadFrom (bound : Int) (text : List Char) (definition : Definition) : Prop where
  render_eq : definition.render = text
  wellFormed : ∀ declaration ∈ definition.declarations, declaration.WellFormed bound
  names_nodup : (definition.structs.map (·.name)).Nodup
  declared : ∀ declaration ∈ definition.declarations, ∀ param ∈ declaration.params, ∀ name,
    param.type.base = .struct name → ∃ found ∈ definition.structs, found.name = name

theorem readFrom_of_parse {bound : Int} {text : List Char} {definition : Definition}
    (h : parse bound text = .ok definition) : ReadFrom bound text definition := by
  obtain ⟨rest, hmethod, hstructs⟩ := declaration_of_parse h
  obtain ⟨htext, hfirst⟩ := Parser.declaration_sound hmethod
  obtain ⟨found, hall, hrest, htyped, hnodup⟩ := Parser.structs_sound hstructs
  rw [List.nil_append] at hall
  subst hall
  refine ⟨?_, List.forall_mem_cons.2 ⟨hfirst, htyped⟩, hnodup List.nodup_nil, ?_⟩
  · rw [htext, hrest]
    rfl
  · unfold parse at h
    obtain ⟨⟨method, after⟩, hmethod', h⟩ := Outcome.bind_eq_ok.1 h
    obtain ⟨structs, hstructs', h⟩ := Outcome.bind_eq_ok.1 h
    dsimp only at h
    split at h
    · exact absurd h Outcome.throw_ne_ok
    · next hnone =>
      cases Outcome.pure_eq_ok.1 h
      exact undeclared?_eq_none_iff.1 hnone

namespace ReadFrom

variable {bound : Int} {text : List Char} {definition : Definition}

/-- A declared struct is found under its name. -/
theorem lookup?_of_mem (h : ReadFrom bound text definition) {declaration : Declaration}
    (hmem : declaration ∈ definition.structs) :
    lookup? definition.structs declaration.name = some declaration := by
  have hnodup := h.names_nodup
  revert hmem hnodup
  unfold lookup?
  generalize definition.structs = structs
  intro hmem hnodup
  induction structs with
  | nil => cases hmem
  | cons first rest ih =>
    rw [List.map_cons, List.nodup_cons] at hnodup
    rcases List.mem_cons.1 hmem with rfl | hrest
    · exact List.find?_cons_of_pos (beq_self_eq_true _)
    · have hne : first.name ≠ declaration.name := by
        intro heq
        exact hnodup.1 (heq ▸ List.mem_map_of_mem hrest)
      rw [List.find?_cons_of_neg (by simpa using hne)]
      exact ih hrest hnodup.2

theorem eq_of_name_eq (h : ReadFrom bound text definition) {first second : Declaration}
    (hfirst : first ∈ definition.structs) (hsecond : second ∈ definition.structs)
    (hname : first.name = second.name) : first = second := by
  have hlookup := h.lookup?_of_mem hfirst
  rw [hname, h.lookup?_of_mem hsecond] at hlookup
  exact (Option.some.inj hlookup).symm

/-- Every struct that a parameter refers to is declared. -/
theorem exists_of_mem_references (h : ReadFrom bound text definition) {declaration : Declaration}
    (hmem : declaration ∈ definition.declarations) {name : String}
    (hname : name ∈ references [declaration]) :
    ∃ found ∈ definition.structs, found.name = name := by
  obtain ⟨param, hparam, hstruct⟩ := mem_references_singleton.1 hname
  exact h.declared declaration hmem param hparam name (ArgType.structName?_eq_some_iff.1 hstruct)

end ReadFrom

end Definition

end SignedRelay
