import SignedRelay.Proofs.DefinitionGrammar

/-!
# What is signed for the arguments

The text that is signed for the arguments of a method is its definition with `Arguments` for the name of
the method, cut off at the first parenthesis and never read. Nothing behind a name is read differently
for the name, and names are compared among structs only. Main statement: both texts are read alike, to
the same parameters and the same structs, whatever these are named.
-/
namespace SignedRelay

open Text

/-- The declaration under another name. What stands behind the name in its text stays. -/
def Declaration.renamed (declaration : Declaration) (name : String) : Declaration where
  name
  params := declaration.params
  text := String.ofList (name.toList ++ declaration.text.toList.drop declaration.name.toList.length)

namespace Definition

/-- The definition with its method under another name. -/
def renamed (definition : Definition) (name : String) : Definition :=
  { definition with method := definition.method.renamed name }

/-- Two definitions that differ in nothing but the name of the method, and in its place in the text. -/
structure SameButName (first second : Definition) : Prop where
  params : first.method.params = second.method.params
  structs : first.structs = second.structs
  text : ∃ behind, first.method.text.toList = first.method.name.toList ++ behind ∧
    second.method.text.toList = second.method.name.toList ++ behind

theorem SameButName.symm {first second : Definition} (h : SameButName first second) :
    SameButName second first := by
  obtain ⟨behind, hfirst, hsecond⟩ := h.text
  exact ⟨h.params.symm, h.structs.symm, behind, hsecond, hfirst⟩

namespace Parser

theorem consumed_append_left (front : List Char) {text rest : List Char}
    (h : rest.length ≤ text.length) : consumed (front ++ text) rest = front ++ consumed text rest := by
  unfold consumed
  rw [List.length_append, Nat.add_sub_assoc h, List.take_length_add_append]

variable {bound : Int} {name other : String} {inside : List Char}

/-- Behind its name, a declaration is read as a list of parameters. -/
theorem declaration_of_params {found : List Param} {rest : List Char} (hname : Identifier name.toList)
    (h : params bound ('(' :: inside) = .ok (found, rest)) :
    declaration bound (name.toList ++ '(' :: inside) = .ok ({
      name
      params := found
      text := String.ofList (name.toList ++ consumed ('(' :: inside) rest) }, rest) := by
  unfold declaration
  refine Outcome.bind_eq_ok.2 ⟨_, name_append hname (endsIdentifier_cons rfl),
    Outcome.bind_eq_ok.2 ⟨_, h, ?_⟩⟩
  dsimp only
  rw [consumed_append_left _ (length_le_of_params h)]
  rfl

theorem declaration_rename (bound : Int) (inside : List Char) (hname : Identifier name.toList)
    (hother : Identifier other.toList) :
    declaration bound (other.toList ++ '(' :: inside) =
      (declaration bound (name.toList ++ '(' :: inside)).map
        fun found => (found.1.renamed other, found.2) := by
  cases hparams : params bound ('(' :: inside) with
  | error error =>
    rw [declaration_of_params_error hname hparams, declaration_of_params_error hother hparams]
    rfl
  | ok read =>
    obtain ⟨found, rest⟩ := read
    rw [declaration_of_params hname hparams, declaration_of_params hother hparams]
    show _ = Except.ok (Declaration.renamed _ other, rest)
    unfold Declaration.renamed
    dsimp only
    rw [String.toList_ofList, List.drop_left]

end Parser

/-- The name of the method decides nothing: under another name, the same is read, or the same error
found. -/
theorem parse_rename (bound : Int) (inside : List Char) {name other : String}
    (hname : Identifier name.toList) (hother : Identifier other.toList) :
    parse bound (other.toList ++ '(' :: inside) =
      (parse bound (name.toList ++ '(' :: inside)).map (·.renamed other) := by
  have hrename := Parser.declaration_rename bound inside hname hother
  cases hmethod : Parser.declaration bound (name.toList ++ '(' :: inside) with
  | error error =>
    rw [hmethod] at hrename
    rw [parse_of_declaration_error hmethod, parse_of_declaration_error hrename]
    rfl
  | ok read =>
    obtain ⟨method, rest⟩ := read
    rw [hmethod] at hrename
    cases hstructs : Parser.structs bound [] rest with
    | error error =>
      rw [parse_of_structs_error hmethod hstructs, parse_of_structs_error hrename hstructs]
      rfl
    | ok structs =>
      -- The structs that the parameters refer to are looked for among the structs alone.
      have hundeclared : (renamed { method, structs } other).undeclared? =
          ({ method, structs } : Definition).undeclared? := rfl
      cases hfound : ({ method, structs } : Definition).undeclared? with
      | some unknown =>
        rw [parse_of_undeclared hmethod hstructs hfound,
          parse_of_undeclared hrename hstructs (hundeclared.trans hfound)]
        rfl
      | none =>
        rw [parse_of_declared hmethod hstructs hfound,
          parse_of_declared hrename hstructs (hundeclared.trans hfound)]
        rfl

section Named

variable {bound : Int} {text list inside : List Char} {definition : Definition}

theorem identifier_arguments : Identifier "Arguments".toList := by
  have hwhole : identifier? "Arguments".toList = some ("Arguments".toList, []) := by decide
  exact (identifier?_eq_some_iff.1 hwhole).1

theorem argumentsText_named {name : List Char} (hname : Identifier name) :
    argumentsText (name ++ '(' :: inside) = .ok ("Arguments".toList ++ '(' :: inside) := by
  have hdrop : (name ++ '(' :: inside).dropWhile (· != '(') = '(' :: inside :=
    dropWhile_append_cons (bne_of_forall hname.isIdentRest rfl) rfl
  have hnonempty : (name ++ '(' :: inside).isEmpty = false := by
    cases hname
    rfl
  unfold argumentsText
  rw [hnonempty, hdrop]
  rfl

theorem exists_named_of_parse (h : parse bound text = .ok definition) :
    Identifier definition.method.name.toList ∧
      ∃ inside, text = definition.method.name.toList ++ '(' :: inside := by
  have hread := readFrom_of_parse h
  have hmethod := hread.wellFormed definition.method List.mem_cons_self
  obtain ⟨rest, hdeclaration, _⟩ := declaration_of_parse h
  exact ⟨hmethod.name, (Parser.head_of_declaration hdeclaration).2⟩

/-- An arguments text that was cut off behind a name has what stands behind that name. -/
theorem exists_named_of_argumentsText (h : argumentsText text = .ok list)
    (hname : Identifier (bareName text)) : ∃ inside,
      text = bareName text ++ '(' :: inside ∧ list = "Arguments".toList ++ '(' :: inside := by
  have hsplit : bareName text ++ text.dropWhile (· != '(') = text := List.takeWhile_append_dropWhile
  have hnonempty : text.isEmpty = false := by
    rw [Bool.eq_false_iff]
    intro hempty
    rw [List.isEmpty_iff.1 hempty] at hname
    cases hname
  unfold argumentsText at h
  rw [hnonempty] at h
  cases hdrop : text.dropWhile (· != '(') with
  | nil =>
    rw [hdrop] at h
    cases h
  | cons stop inside =>
    rw [hdrop] at h hsplit
    cases h
    have hstop := List.head?_dropWhile_not (· != '(') text
    rw [hdrop] at hstop
    have heq : stop = '(' := by simpa using hstop
    subst heq
    exact ⟨inside, hsplit.symm, rfl⟩

theorem ReadFrom.sameButName_renamed (h : ReadFrom bound text definition) (name : String) :
    SameButName (definition.renamed name) definition := by
  have hmethod := h.wellFormed definition.method List.mem_cons_self
  have htext : definition.method.text.toList =
      definition.method.name.toList ++ parenthesized (definition.method.params.map Param.render) := by
    rw [hmethod.text_eq, String.toList_ofList]
    rfl
  refine ⟨rfl, rfl, _, ?_, htext⟩
  show (String.ofList _).toList = _
  rw [String.toList_ofList, htext, List.drop_left]
  rfl

end Named

/-- The arguments text of a definition that is read is read as well, to the same parameters and structs,
and the signature lists the types of those parameters behind the bare name. If it is read and stands
behind an identifier, so is the definition. -/
theorem parse_argumentsText (bound : Int) (text : List Char) :
    (∀ definition, parse bound text = .ok definition →
      ∃ list described, argumentsText text = .ok list ∧ parse bound list = .ok described ∧
        described.method.name = "Arguments" ∧ SameButName described definition ∧
        definition.method.signature.toList =
          bareName text ++ parenthesized (described.method.params.map (·.typeText.toList))) ∧
    ∀ list described, argumentsText text = .ok list → parse bound list = .ok described →
      Identifier (bareName text) →
        ∃ definition, parse bound text = .ok definition ∧ SameButName described definition := by
  constructor
  · intro definition h
    obtain ⟨hname, inside, htext⟩ := exists_named_of_parse h
    have hrename := parse_rename bound inside hname identifier_arguments
    rw [← htext, h] at hrename
    refine ⟨_, definition.renamed "Arguments", ?_, hrename, rfl,
      (readFrom_of_parse h).sameButName_renamed "Arguments", ?_⟩
    · rw [htext]
      exact argumentsText_named hname
    · rw [bareName_of_parse h, Declaration.signature, String.toList_ofList]
      rfl
  · intro list described hlist h hname
    obtain ⟨inside, htext, rfl⟩ := exists_named_of_argumentsText hlist hname
    have hother : Identifier (String.ofList (bareName text)).toList := by
      rwa [String.toList_ofList]
    have hrename := parse_rename bound inside identifier_arguments hother
    rw [h, String.toList_ofList, ← htext] at hrename
    exact ⟨_, hrename, ((readFrom_of_parse h).sameButName_renamed _).symm⟩

/-- A method that shares its name with one of its structs, and has another struct named like the struct of
all arguments. -/
def namesakes : Definition where
  method :=
    { name := "adopt"
      params := [{ name := "a", typeText := "Arguments", type := .struct "Arguments" }]
      text := "adopt(Arguments a)" }
  structs :=
    [{ name := "Arguments"
       params := [{ name := "x", typeText := "adopt[]", type := .array (.struct "adopt") none }]
       text := "Arguments(adopt[] x)" },
     { name := "adopt"
       params := [{ name := "y", typeText := "uint256", type := .uint }]
       text := "adopt(uint256 y)" }]

/-- Only the first of the four names changes, and it can be changed back. -/
theorem parse_argumentsText_namesakes :
    let text := "adopt(Arguments a)Arguments(adopt[] x)adopt(uint256 y)".toList
    let list := "Arguments(Arguments a)Arguments(adopt[] x)adopt(uint256 y)".toList
    ∃ described, parse 32 list = .ok described ∧ described.method.name = "Arguments" ∧
      SameButName described namesakes ∧ namesakes.method.signature = "adopt(Arguments)" ∧
      ∃ definition, parse 32 text = .ok definition ∧ SameButName described definition := by
  intro text list
  have hparse : parse 32 text = .ok namesakes := Outcome.eq_ok_of_toOption (by decide +kernel)
  have hlist : argumentsText text = .ok list := by decide +kernel
  have hname : Identifier (bareName text) := by
    rw [bareName_of_parse hparse]
    exact (exists_named_of_parse hparse).1
  obtain ⟨hforth, hback⟩ := parse_argumentsText 32 text
  obtain ⟨found, described, hfound, hdescribed, hrenamed, hsame, _⟩ := hforth namesakes hparse
  rw [hlist] at hfound
  cases hfound
  exact ⟨described, hdescribed, hrenamed, hsame, by decide +kernel,
    hback list described hlist hdescribed hname⟩

end Definition

end SignedRelay
