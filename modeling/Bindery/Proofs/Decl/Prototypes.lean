import Bindery.Emit.Header
import Bindery.Proofs.Decl.Layouts

/-!
Prototypes of methods. The header declares a method by the text that a policy can add a method with
(`Method.methodLines_eq`, `Method.innerMethod_eq`). This text is spelled as the layout of the method
(`Method.spells_prototypeText`), so what is read from it is the method again
(`Method.parse_prototypeText`).
-/

set_option autoImplicit false
set_option relaxedAutoImplicit false

namespace Bindery

theorem not_mem_intercalate {c : Char} {separator : List Char} (hseparator : c ∉ separator)
    {pieces : List (List Char)} (hpieces : ∀ piece ∈ pieces, c ∉ piece) :
    c ∉ separator.intercalate pieces := by
  induction pieces with
  | nil => exact List.not_mem_nil
  | cons piece pieces ih =>
    obtain ⟨hpiece, hpieces⟩ := List.forall_mem_cons.1 hpieces
    cases pieces with
    | nil => rwa [List.intercalate_singleton]
    | cons next pieces =>
      rw [List.intercalate_cons_cons]
      simp only [List.mem_append, not_or]
      exact ⟨⟨hpiece, hseparator⟩, ih hpieces⟩

/-! ### Declarations of parameters -/

namespace Param

open Prototype

variable {p : Param} {params : List Param} {c : Char}

/-- What the declaration of a parameter is written with. -/
def layout (p : Param) : ParamLayout :=
  .plain p.declaredTokens p.array (p.default.map String.toList)

theorem fits_layout (h : p.IsReadable) : p.layout.Fits := by
  refine ParamLayout.fits_plain (isGrouped_declaredTokens h) (declaredTokens_ne_nil h) ?_
  intro value hvalue
  obtain ⟨text, htext, rfl⟩ := Option.map_eq_some_iff.1 hvalue
  have hdefault := h.default text htext
  refine ⟨?_, hdefault.closed⟩
  rw [hdefault.trimmed]
  simpa using hdefault.ne_empty

theorem toParam_layout (h : p.IsReadable) : p.layout.toParam = p := by
  have hdefault : (p.default.map String.toList).map
      (fun value ↦ String.ofList (Text.trimChars value)) = p.default := by
    cases hp : p.default with
    | none => rfl
    | some text => simp [(h.default text hp).trimmed]
  have hdraft : p.layout.draft false =
      { tokens := p.declaredTokens, array := p.array, default := p.default, last := false } := by
    rw [ParamLayout.draft, layout, ParamLayout.tokens_plain, ParamLayout.isArray_plain]
    exact congrArg (Draft.mk p.declaredTokens p.array · false) hdefault
  rw [ParamLayout.toParam, hdraft, toParam_draft h]

theorem isLoneVoid_layout (h : p.IsReadable) (hvoid : p.name = "" → p.type ≠ "void") :
    p.layout.isLoneVoid = false := by
  rw [ParamLayout.isLoneVoid, layout, ParamLayout.tokens_plain, beq_eq_false_iff_ne]
  exact not_isLoneVoid h hvoid

/-- Only a first parameter that is a lone `void` would be left out. -/
theorem declared_layouts (h : ∀ p ∈ params, p.IsReadable)
    (hvoid : ∀ p ∈ params.head?, p.name = "" → p.type ≠ "void") :
    ParamLayout.declared false (params.map layout) = params := by
  have hkept : (params.map layout).dropWhile ParamLayout.isLoneVoid = params.map layout := by
    cases params with
    | nil => rfl
    | cons p params =>
      have hp := isLoneVoid_layout (h p List.mem_cons_self) (hvoid p rfl)
      exact List.dropWhile_cons_of_neg (by simp [hp])
  rw [ParamLayout.declared, if_neg Bool.false_ne_true, hkept, List.map_map]
  exact (List.map_congr_left fun p hp ↦ toParam_layout (h p hp)).trans (List.map_id _)

/-- A declaration is spelled as its layout, whatever separator follows it. -/
theorem spells_declaration (h : p.IsReadable) (hc : IsSeparator c) (rest : List Char) :
    Spells (p.declaration.toList ++ c :: rest) p.layout.lexemes (c :: rest) := by
  rw [layout, ParamLayout.lexemes_plain, List.append_assoc]
  refine spells_append_iff.2 ⟨_, spells_of_reads (reads_declaration h hc rest), ?_⟩
  rw [closing, List.append_assoc]
  cases hp : p.default with
  | none =>
    cases p.array with
    | false => exact .done
    | true => exact .token (Token.next_symbol rfl _) (.token (Token.next_symbol rfl _) .done)
  | some text =>
    have hraw := (fits_layout h).default text.toList (by simp [layout, ParamLayout.plain, hp])
    have hdefault : Spells ('=' :: text.toList ++ c :: rest) [.default text.toList] (c :: rest) :=
      .default (Token.next_symbol rfl _) hraw hc .done
    cases p.array with
    | false => exact hdefault
    | true => exact .token (Token.next_symbol rfl _) (.token (Token.next_symbol rfl _) hdefault)

/-- A list of declarations is spelled as the list of their layouts. -/
theorem spells_declarations (h : ∀ p ∈ params, p.IsReadable) (rest : List Char) :
    Spells ((", ".intercalate (params.map declaration)).toList ++ ')' :: rest)
      (ParamLayout.listLexemes (params.map layout) ++ [.token (.symbol ')')]) rest := by
  induction params with
  | nil => exact .token (Token.next_symbol rfl _) .done
  | cons p params ih =>
    obtain ⟨hp, h⟩ := List.forall_mem_cons.1 h
    cases params with
    | nil =>
      have htext : (", ".intercalate ([p].map declaration)).toList = p.declaration.toList := by simp
      rw [htext, List.map_singleton, ParamLayout.listLexemes_singleton]
      exact spells_append_iff.2 ⟨_, spells_declaration hp (.inr rfl) rest,
        .token (Token.next_symbol rfl _) .done⟩
    | cons q params =>
      have htext : (", ".intercalate ((p :: q :: params).map declaration)).toList ++ ')' :: rest =
          p.declaration.toList ++ ',' :: ' ' ::
            ((", ".intercalate ((q :: params).map declaration)).toList ++ ')' :: rest) := by
        simp [String.toList_intercalate]
      have hne : (q :: params).map layout ≠ [] := by simp
      rw [htext, List.map_cons (a := p), ParamLayout.listLexemes_cons hne, List.append_assoc,
        List.append_assoc]
      exact spells_append_iff.2 ⟨_, spells_declaration hp (.inl rfl) _,
        .token (Token.next_symbol rfl _) ((ih h).blank (by simp))⟩

end Param

namespace Prototype

/-! ### Heads, specifiers and marks -/

theorem isHead_of_isGrouped {depth : Nat} {ts : List Token}
    (h : ParamText.isGrouped depth ts = true) : isHead depth ts = true := by
  induction ts generalizing depth with
  | nil => exact h
  | cons t ts ih =>
    obtain ⟨hpart, h⟩ := Bool.and_eq_true_iff.1 h
    rw [isHead, ih h, Bool.and_true, Bool.or_eq_true, bne_iff_ne, bne_iff_ne]
    refine or_iff_not_imp_left.2 fun hdepth ↦ ?_
    rintro rfl
    obtain rfl : depth = 0 := not_ne_iff.1 hdepth
    exact absurd hpart (by decide)

/-- The words that do not begin the type of a prototype. -/
def leadingWords : List Token := ["public", "protected", "virtual", "static"].map Token.ofName

/-- The specifiers of a method are spelled in front of anything. -/
theorem spells_emit_specifiers {m : Method} {cs rest : List Char} {ls : List Lexeme}
    (hspecifiers : ¬(m.isStatic = true ∧ m.isVirtual = true)) (hne : ls ≠ [])
    (h : Spells cs ls rest) : Spells ((Emit.specifiers m).toList ++ cs)
      (specifiers none false m.isVirtual m.isStatic ++ ls) rest := by
  rw [Emit.specifiers]
  cases hstatic : m.isStatic with
  | false =>
    cases hvirtual : m.isVirtual with
    | false => exact h
    | true => exact .token rfl (h.blank hne)
  | true =>
    obtain hvirtual : m.isVirtual = false := by simpa [hstatic] using hspecifiers
    rw [hvirtual]
    exact .token rfl (h.blank hne)

/-- What stands behind the parameter list. -/
def tail (isConst isPure : Bool) : List Char :=
  (if isConst then " const".toList else []) ++ (if isPure then " =0".toList else [])

theorem spells_tail (isConst isPure : Bool) :
    Spells (tail isConst isPure) (marks isConst false isPure false) [] := by
  cases isConst with
  | false =>
    cases isPure with
    | false => exact .done
    | true => exact .token rfl (.token rfl .done)
  | true =>
    cases isPure with
    | false => exact .token rfl .done
    | true => exact .token rfl (.token rfl (.token rfl .done))

end Prototype

namespace Method

/-- The text that declares a method in a class, without the semicolon. -/
def prototypeText (m : Method) (isPure : Bool) : String :=
  Emit.specifiers m ++ m.typeText ++ " " ++ m.name ++ m.argsString ++ (if isPure then " =0" else "")

theorem innerMethod_eq {m : Method} (hctor : m.isCtor = false) (hdtor : m.isDtor = false)
    (indent className : String) :
    Emit.innerMethod indent className m = indent ++ m.prototypeText false ++ ";" := by
  simp [Emit.innerMethod, prototypeText, hctor, hdtor, String.append_assoc]

/-- The header declares a method by its prototype, when neither a rule for its return type nor a
mapping of its parameters changes it. -/
theorem methodLines_eq {scope : Emit.ClassScope} {m : Method}
    (hreturn : scope.rules.declaredReturnType m = m.typeText)
    (hparams : scope.source.paramMappings = []) : scope.methodLines m =
      ["  // from " ++ m.definition, "  " ++ m.prototypeText (scope.isPure m) ++ ";"] := by
  have hmap : scope.source.mapParams m = m.argsString := by
    rw [Class.mapParams, hparams]
    rfl
  simp [Emit.ClassScope.methodLines, prototypeText, hreturn, hmap, String.append_assoc]

/-- A method whose prototype is read as the same method. -/
structure IsReadable (m : Method) : Prop where
  name_ne_empty : m.name ≠ ""
  name : ∀ c ∈ m.name.toList, Token.isNameChar c = true
  type : ParamText.IsCanonical m.typeText
  operator : .ofName "operator" ∉ Token.readAll m.typeText.toList
  leading : ∀ t ∈ (Token.readAll m.typeText.toList).head?, t ∉ Prototype.leadingWords
  params : ∀ p ∈ m.params, p.IsReadable
  void : ∀ p ∈ m.params.head?, p.name = "" → p.type ≠ "void"
  specifiers : ¬(m.isStatic = true ∧ m.isVirtual = true)

variable {m : Method}

theorem toList_prototypeText (m : Method) (isPure : Bool) : (m.prototypeText isPure).toList =
    (Emit.specifiers m).toList ++ (m.typeText.toList ++ ' ' :: (m.name.toList ++ '(' ::
      ((", ".intercalate (m.params.map Param.declaration)).toList ++
        ')' :: Prototype.tail m.isConst isPure))) := by
  rw [prototypeText, argsString, constSuffix, Prototype.tail]
  split_ifs <;> simp

theorem reads_head (h : m.IsReadable) (rest : List Char) :
    Token.Reads (m.typeText.toList ++ ' ' :: (m.name.toList ++ '(' :: rest))
      (Token.readAll m.typeText.toList ++ [.word m.name.toList]) ('(' :: rest) := by
  have hne : m.name.toList ≠ [] := by simpa using h.name_ne_empty
  have hname := Token.reads_name hne h.name
    (Token.stops_cons (c := '(') (by decide) (by decide) rest)
  exact (h.type.reads (Token.stops_cons (by decide) (by decide) _)).append
    (hname.blank (List.cons_ne_nil _ _))

/-- What the prototype of a method is written with. -/
def layout (m : Method) (isPure : Bool) : Prototype.Layout where
  type := Token.readAll m.typeText.toList
  name := [.word m.name.toList]
  isVirtual := m.isVirtual
  isStatic := m.isStatic
  params := m.params.map Param.layout
  isConst := m.isConst
  isPure := isPure

theorem fits_layout (h : m.IsReadable) (className : String) (isPure : Bool) :
    (m.layout isPure).Fits className where
  type := h.operator
  name := by
    by_cases hname : .word m.name.toList = Token.ofName "operator"
    · exact .inl ⟨rfl, congrArg some hname⟩
    · exact .inr ⟨_, rfl, hname, fun _ ↦ ParamText.getLast?_ne_of_isGrouped h.type.grouped⟩
  head := by
    rw [Prototype.HeadLayout.tokens, layout]
    simp only [Bool.false_eq_true, if_false, List.append_nil]
    exact Prototype.isHead_of_isGrouped (ParamText.isGrouped_append_word h.type.grouped)
  specifiers := by
    obtain ⟨t, ts, htype⟩ := List.exists_cons_of_ne_nil h.type.readAll_ne_nil
    rw [Prototype.HeadLayout.tokens, layout, htype]
    rintro u hu
    cases hu
    exact ⟨fun _ ↦ rfl, fun hboth ↦ h.specifiers hboth.symm,
      fun _ _ ↦ h.leading t (by rw [htype]; rfl)⟩
  typed hnil := (h.type.readAll_ne_nil hnil).elim
  dtor hdtor := (Bool.false_ne_true hdtor).elim
  params := List.forall_mem_map.2 fun p hp ↦ Param.fits_layout (h.params p hp)

theorem spells_prototypeText (h : m.IsReadable) (isPure : Bool) :
    Prototype.Spells (m.prototypeText isPure).toList (m.layout isPure).lexemes [] := by
  rw [toList_prototypeText, Prototype.Layout.lexemes]
  refine Prototype.spells_emit_specifiers h.specifiers (by simp) ?_
  have hhead := Prototype.spells_of_reads (reads_head h
    ((", ".intercalate (m.params.map Param.declaration)).toList ++
      ')' :: Prototype.tail m.isConst isPure))
  have htokens : (m.layout isPure).tokens =
      Token.readAll m.typeText.toList ++ [.word m.name.toList] := by
    simp [Prototype.HeadLayout.tokens, layout]
  have hlist := Param.spells_declarations h.params (Prototype.tail m.isConst isPure)
  rw [htokens, List.append_assoc, List.singleton_append]
  exact Prototype.spells_append_iff.2 ⟨_, hhead, .token (Token.next_symbol rfl _)
    (Prototype.spells_append_iff.2 ⟨_, hlist, Prototype.spells_tail m.isConst isPure⟩)⟩

/-- The prototype of a method is read as the method. -/
theorem parseChars_prototypeText (h : m.IsReadable) (className : String) (isPure : Bool) :
    Prototype.parseChars className (m.prototypeText isPure).toList =
      .ok {
        protection := none
        isVirtual := m.isVirtual
        isStatic := m.isStatic
        returnType := some m.typeText
        name := m.name
        isDtor := false
        params := m.params
        isConst := m.isConst
        isOverride := false
        isPureVirtual := isPure } := by
  refine Prototype.parseChars_eq_ok_iff.2 ⟨m.layout isPure, fits_layout h className isPure,
    ⟨[], spells_prototypeText h isPure, rfl⟩, ?_⟩
  simp [Prototype.Layout.toPrototype, layout, Param.declared_layouts h.params h.void,
    h.type.readAll_ne_nil, h.type.typeOf_eq, Token.text]

/-- The prototype of a readable method is one line. -/
theorem breaksToSpaces_prototypeText (h : m.IsReadable) (isPure : Bool) :
    Prototype.breaksToSpaces (m.prototypeText isPure).toList = (m.prototypeText isPure).toList := by
  have hname : '\n' ∉ m.name.toList := fun hc ↦ absurd (h.name _ hc) (by decide)
  have hparams : '\n' ∉ (", ".intercalate (m.params.map Param.declaration)).toList := by
    rw [String.toList_intercalate]
    refine not_mem_intercalate (by decide) (List.forall_mem_map.2 (List.forall_mem_map.2 ?_))
    exact fun p hp ↦ (h.params p hp).unbroken
  have hspecifiers : '\n' ∉ (Emit.specifiers m).toList := by
    rw [Emit.specifiers]
    split_ifs <;> decide
  have htail : '\n' ∉ Prototype.tail m.isConst isPure := by
    rw [Prototype.tail]
    split_ifs <;> decide
  have hall : '\n' ∉ (m.prototypeText isPure).toList := by
    rw [toList_prototypeText]
    simp only [List.mem_append, List.mem_cons, not_or]
    exact ⟨hspecifiers, h.type.unbroken, by decide, hname, by decide, hparams, by decide, htail⟩
  exact Prototype.breaksToSpaces_eq_self_iff.2 hall

/-- What is read from the text that declares a method is the method again: its name, its types, its
parameters with their names and default values, and its specifiers. -/
theorem parse_prototypeText (h : m.IsReadable) (className : String) {isPure : Bool}
    (hpure : isPure = true → m.isVirtual = true) :
    (Prototype.parse className (m.prototypeText isPure)).map (·.toMethod className) =
      .ok { (named m.name).inClass className with
        returnType := some m.typeText
        params := m.params
        isVirtual := m.isVirtual
        isPureVirtual := isPure
        isStatic := m.isStatic
        isConst := m.isConst } := by
  have hvirtual : (m.isVirtual || isPure) = m.isVirtual := by
    cases isPure with
    | false => exact Bool.or_false _
    | true => rw [hpure rfl, Bool.or_true]
  rw [Prototype.parse, breaksToSpaces_prototypeText h, parseChars_prototypeText h]
  simp only [Except.map, Prototype.toMethod, hvirtual]
  rfl

end Method

/-- A method with commas and brackets inside types and default values, and without a name for one of
its parameters. -/
def Charts.plot : Method :=
  { (Method.named "plot").inClass "Chart" with
    returnType := some "const std::map<int, Axis *> &"
    params := [
      { name := "label", type := "const char *", default := some "\"a, (b\"" },
      { type := "unsigned int", array := true },
      { name := "done", type := "std::function<void( int, bool)>",
        default := some "pick<int>(1, 2)" }]
    isVirtual := true
    isPureVirtual := true
    isConst := true }

open Charts in
theorem plot_read_back : plot.IsReadable ∧ plot.isVirtual = true ∧
    (Prototype.parse "Chart" ("virtual const std::map<int, Axis *> & plot(" ++
      "const char * label=\"a, (b\", unsigned int[], " ++
      "std::function<void( int, bool)> done=pick<int>(1, 2)) const =0")).map
        (·.toMethod "Chart") = .ok plot := by
  have hreturn : Token.readAll "const std::map<int, Axis *> &".toList =
      [.ofName "const", .ofName "std::map", .symbol '<', .ofName "int", .symbol ',', .ofName "Axis",
        .symbol '*', .symbol '>', .symbol '&'] :=
    Token.readAll_of_reads (.token rfl (.token rfl (.token rfl (.token rfl (.token rfl (.token rfl
      (.token rfl (.token rfl (.token rfl .done)))))))))
  have hlabel : Token.readAll "const char *".toList =
      [.ofName "const", .ofName "char", .symbol '*'] :=
    Token.readAll_of_reads (.token rfl (.token rfl (.token rfl .done)))
  have hcounts : Token.readAll "unsigned int".toList = [.ofName "unsigned", .ofName "int"] :=
    Token.readAll_of_reads (.token rfl (.token rfl .done))
  have hdone : Token.readAll "std::function<void( int, bool)>".toList =
      [.ofName "std::function", .symbol '<', .ofName "void", .symbol '(', .ofName "int",
        .symbol ',', .ofName "bool", .symbol ')', .symbol '>'] :=
    Token.readAll_of_reads (.token rfl (.token rfl (.token rfl (.token rfl (.token rfl (.token rfl
      (.token rfl (.token rfl (.token rfl .done)))))))))
  have hparams : ∀ p ∈ plot.params, p.IsReadable := by
    refine List.forall_mem_cons.2 ⟨?_, List.forall_mem_cons.2 ⟨?_, List.forall_mem_singleton.2 ?_⟩⟩
    · constructor
      · constructor <;> simp only [hlabel] <;> decide
      · exact List.all_eq_true.1 (by decide)
      · simp only [hlabel]
        decide
      · decide
      · decide
    · constructor
      · constructor <;> simp only [hcounts] <;> decide
      · exact List.all_eq_true.1 (by decide)
      · decide
      · simp only [hcounts]
        decide
      · decide
    · constructor
      · constructor <;> simp only [hdone] <;> decide
      · exact List.all_eq_true.1 (by decide)
      · simp only [hdone]
        decide
      · decide
      · decide
  have hplot : plot.IsReadable := by
    have htype : plot.typeText = "const std::map<int, Axis *> &" := rfl
    constructor
    · decide
    · exact List.all_eq_true.1 (by decide)
    · rw [htype]
      constructor <;> simp only [hreturn] <;> decide
    · rw [htype, hreturn]
      decide
    · rw [htype, hreturn]
      decide
    · exact hparams
    · decide
    · decide
  have htext : plot.prototypeText true = "virtual const std::map<int, Axis *> & plot(" ++
      "const char * label=\"a, (b\", unsigned int[], " ++
      "std::function<void( int, bool)> done=pick<int>(1, 2)) const =0" := by decide +kernel
  have hread : (Prototype.parse "Chart" (plot.prototypeText true)).map (·.toMethod "Chart") =
      .ok plot := Method.parse_prototypeText hplot "Chart" fun _ ↦ rfl
  rw [htext] at hread
  exact ⟨hplot, rfl, hread⟩

end Bindery
