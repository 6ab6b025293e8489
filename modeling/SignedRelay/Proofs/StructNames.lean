import SignedRelay.Proofs.DefinitionGrammar

/-!
# What the names of structs mean as types

A declaration may take any identifier for its name, and a word in a type is classified without regard to
the declarations. So a struct that is named like a keyword, or like a sized type, is shadowed. Main
statement: as a type, the name of a declared struct means that struct exactly if it could not be taken
for another type, and no parameter refers to a struct of which this is not so.
-/
namespace SignedRelay

open Text

namespace ArgType

theorem parse_of_writes {text : List Char} {type : ArgType} (h : Writes text type) {bound : Int}
    (hbound : type.lengths.length ≤ bound) : parse bound text = .ok type :=
  parse_eq_ok_iff.2 ⟨h, .inr hbound⟩

/-- No text writes two types. -/
theorem Writes.unique {text : List Char} {type other : ArgType} (h : Writes text type)
    (hother : Writes text other) : type = other := by
  have hparse : parse (type.lengths.length + other.lengths.length) text = .ok type :=
    parse_of_writes h (by omega)
  rw [parse_of_writes hother (by omega)] at hparse
  exact (Except.ok.inj hparse).symm

/-- The struct at the base of a type that some text writes has a name that means it. -/
theorem Expressible.of_structName? {type : ArgType} {name : String} (h : type.Expressible)
    (hname : type.structName? = some name) : (struct name).Expressible := by
  have hbase := structName?_eq_some_iff.1 hname
  clear hname
  induction type with
  | struct found =>
    cases hbase
    exact h
  | array element length ih => exact ih h.1 hbase
  | _ => cases hbase

theorem Denotes.structName?_of_looksAtomic {word : List Char} {type : ArgType} (h : Denotes word type)
    (hword : LooksAtomic word) : type.structName? = none := by
  cases h with
  | keyword hmem =>
    have hkeywords : ∀ entry ∈ keywords, entry.2.structName? = none := by decide
    exact hkeywords _ hmem
  | uint _ _ => rfl
  | int _ _ => rfl
  | fixedBytes _ _ => rfl
  | struct hname => exact absurd hword hname

/-- An identifier has no array suffix, so all that it writes as a type is what it denotes. -/
theorem Writes.denotes {word : List Char} {type : ArgType} (h : Writes word type)
    (hword : Identifier word) : Denotes word type := by
  cases h with
  | word _ hdenotes => exact hdenotes
  | @array text digits _ _ _ _ =>
    have hmem : '[' ∈ text ++ suffix digits := List.mem_append_right _ List.mem_cons_self
    have hrest := hword.isIdentRest '[' hmem
    cases hrest

end ArgType

open ArgType (LooksAtomic WritesSuffixes)

namespace Definition

/-- The name of a struct means that struct: alone as a type, and with array suffixes in a parameter. -/
structure Meant (definition : Definition) (declaration : Declaration) : Prop where
  type_eq : ∀ bound, ArgType.parse bound declaration.name.toList = .ok (.struct declaration.name)
  lookup : lookup? definition.structs declaration.name = some declaration
  params : ∀ user ∈ definition.declarations, ∀ param ∈ user.params, ∀ suffixes lengths,
    param.typeText.toList = declaration.name.toList ++ suffixes → WritesSuffixes suffixes lengths →
      param.type = lengths.foldl .array (.struct declaration.name)

/-- The name of a struct means something else as a type, or nothing, and no parameter refers to it. -/
structure Shadowed (definition : Definition) (declaration : Declaration) : Prop where
  type_ne : ∀ bound type, ArgType.parse bound declaration.name.toList = .ok type →
    type.structName? = none
  unreferenced : declaration.name ∉ references definition.declarations

namespace ReadFrom

variable {bound : Int} {text : List Char} {definition : Definition} {declaration : Declaration}

theorem writes_param (h : ReadFrom bound text definition) {user : Declaration}
    (huser : user ∈ definition.declarations) {param : Param} (hparam : param ∈ user.params) :
    ArgType.Writes param.typeText.toList param.type :=
  (ArgType.parse_eq_ok_iff.1 ((h.wellFormed user huser).params param hparam).type_eq).1

theorem identifier_name (h : ReadFrom bound text definition) (hmem : declaration ∈ definition.structs) :
    Identifier declaration.name.toList := (h.wellFormed declaration (List.mem_cons_of_mem _ hmem)).name

theorem meant (h : ReadFrom bound text definition) (hmem : declaration ∈ definition.structs)
    (hname : ¬LooksAtomic declaration.name.toList) : definition.Meant declaration := by
  have hwrites : ArgType.Writes declaration.name.toList (.struct declaration.name) :=
    .word (h.identifier_name hmem) (.struct hname)
  refine ⟨fun limit => ArgType.parse_eq_ok_iff.2 ⟨hwrites, .inl rfl⟩, h.lookup?_of_mem hmem, ?_⟩
  intro user huser param hparam suffixes lengths htext hsuffixes
  have hparamType := h.writes_param huser hparam
  rw [htext] at hparamType
  exact hparamType.unique (hwrites.append hsuffixes)

theorem shadowed (h : ReadFrom bound text definition) (hmem : declaration ∈ definition.structs)
    (hname : LooksAtomic declaration.name.toList) : definition.Shadowed declaration := by
  constructor
  · intro limit type htype
    have hwrites := (ArgType.parse_eq_ok_iff.1 htype).1
    exact (hwrites.denotes (h.identifier_name hmem)).structName?_of_looksAtomic hname
  · intro hreferred
    obtain ⟨user, huser, param, hparam, hstruct⟩ := mem_references.1 hreferred
    have hexpressible := ArgType.expressible_of_writes (h.writes_param huser hparam)
    exact (hexpressible.of_structName? hstruct).2 hname

end ReadFrom

theorem Meant.not_looksAtomic {definition : Definition} {declaration : Declaration}
    (h : definition.Meant declaration) : ¬LooksAtomic declaration.name.toList :=
  (ArgType.expressible_of_writes (ArgType.parse_eq_ok_iff.1 (h.type_eq 0)).1).2

theorem Shadowed.not_meant {definition : Definition} {declaration : Declaration}
    (h : definition.Shadowed declaration) : ¬definition.Meant declaration := by
  intro hmeant
  have hnone := h.type_ne 0 _ (hmeant.type_eq 0)
  cases hnone

/-- A declaration without parameters. -/
def bare (name : String) : Declaration where
  name
  params := []
  text := String.ofList (name.toList ++ "()".toList)

theorem wellFormed_bare (bound : Int) {name : String} (h : Identifier name.toList) :
    (bare name).WellFormed bound := ⟨h, List.forall_mem_nil _, rfl⟩

/-- Any identifier can be declared, whatever it means as a type. -/
theorem readFrom_bare (bound : Int) {name : String} (h : Identifier name.toList) :
    ReadFrom bound ("f()".toList ++ (name.toList ++ "()".toList)) ⟨bare "f", [bare name]⟩ := by
  have hmethod : Identifier "f".toList := .intro (isIdentStart_iff.1 rfl) (List.forall_mem_nil _)
  refine ⟨?_, ?_, List.pairwise_singleton _ _, ?_⟩
  · simp [render, declarations, bare, Declaration.render, parenthesized]
  · exact List.forall_mem_cons.2
      ⟨wellFormed_bare bound hmethod, List.forall_mem_singleton.2 (wellFormed_bare bound h)⟩
  · exact List.forall_mem_cons.2
      ⟨List.forall_mem_nil _, List.forall_mem_singleton.2 (List.forall_mem_nil _)⟩

/-- A declared struct is meant by its name exactly if the name could not be taken for another type, and
shadowed exactly if it could. No name is kept from being declared for that. -/
theorem struct_meant_iff (bound : Int) :
    (∀ text definition, parse bound text = .ok definition → ∀ declaration ∈ definition.structs,
      (definition.Meant declaration ↔ ¬LooksAtomic declaration.name.toList) ∧
        (definition.Shadowed declaration ↔ LooksAtomic declaration.name.toList)) ∧
    ∀ name : String, Identifier name.toList →
      parse bound ("f()".toList ++ (name.toList ++ "()".toList)) = .ok ⟨bare "f", [bare name]⟩ := by
  constructor
  · intro text definition h declaration hmem
    have hread := readFrom_of_parse h
    constructor
    · exact ⟨Meant.not_looksAtomic, hread.meant hmem⟩
    · refine ⟨fun hshadowed => ?_, hread.shadowed hmem⟩
      by_cases hname : LooksAtomic declaration.name.toList
      · exact hname
      · exact absurd (hread.meant hmem hname) hshadowed.not_meant
  · intro name hname
    exact (readFrom_bare bound hname).parse_eq_ok

/-- One struct is named like a number, the other like nothing else. -/
def numbered : Definition where
  method :=
    { name := "f"
      params := [{ name := "x", typeText := "uint", type := .uint },
        { name := "p", typeText := "Pet[2]", type := .array (.struct "Pet") (some 2) }]
      text := "f(uint x,Pet[2] p)" }
  structs :=
    [{ name := "uint"
       params := [{ name := "s", typeText := "string", type := .string }]
       text := "uint(string s)" },
     { name := "Pet"
       params := [{ name := "x", typeText := "uint", type := .uint }]
       text := "Pet(uint x)" }]

/-- Of the two structs only the second one is meant by its name, and that of the first could also be
declared if it had no valid size. -/
theorem struct_meant_iff_numbered :
    parse 32 "f(uint x,Pet[2] p)uint(string s)Pet(uint x)".toList = .ok numbered ∧
      (∃ declaration ∈ numbered.structs, declaration.name = "uint" ∧ numbered.Shadowed declaration) ∧
      (∃ declaration ∈ numbered.structs, declaration.name = "Pet" ∧ numbered.Meant declaration) ∧
      parse 32 "f()uint7()".toList = .ok ⟨bare "f", [bare "uint7"]⟩ := by
  have hparse : parse 32 "f(uint x,Pet[2] p)uint(string s)Pet(uint x)".toList = .ok numbered :=
    Outcome.eq_ok_of_toOption (by decide +kernel)
  have hnumber : LooksAtomic "uint".toList := .inl ⟨("uint", .uint), by decide, rfl⟩
  have hplain : ¬LooksAtomic "Pet".toList := ArgType.not_looksAtomic_iff.2 (by decide)
  have hsized : Identifier "uint7".toList :=
    (identifier?_eq_some_iff.1 (by decide : identifier? "uint7".toList = some ("uint7".toList, []))).1
  obtain ⟨hstructs, hany⟩ := struct_meant_iff 32
  have hfirst := hstructs _ numbered hparse _ List.mem_cons_self
  have hsecond := hstructs _ numbered hparse _ (List.mem_cons_of_mem _ List.mem_cons_self)
  exact ⟨hparse, ⟨_, List.mem_cons_self, rfl, hfirst.2.2 hnumber⟩,
    ⟨_, List.mem_cons_of_mem _ List.mem_cons_self, rfl, hsecond.1.2 hplain⟩, hany "uint7" hsized⟩

/-- A struct is declared whose name means a number as a type, and another one whose name means none. -/
theorem struct_shadowed_numbered :
    (parse 32 "f(uint x,Pet[2] p)uint(string s)Pet(uint x)".toList = .ok numbered ∧
      ∃ declaration ∈ numbered.structs, ArgType.parse 32 declaration.name.toList = .ok .uint ∧
        ArgType.parse 32 declaration.name.toList ≠ .ok (.struct declaration.name)) ∧
    parse 32 "f()uint7()".toList = .ok ⟨bare "f", [bare "uint7"]⟩ ∧
      ArgType.parse 32 "uint7".toList = .error (.encoding (.integerSize "uint7".toList)) := by
  refine ⟨⟨Outcome.eq_ok_of_toOption (by decide +kernel), _, List.mem_cons_self, ?_, ?_⟩, ?_, ?_⟩
  · decide +kernel
  · decide +kernel
  · exact Outcome.eq_ok_of_toOption (by decide +kernel)
  · decide +kernel

end Definition

end SignedRelay
