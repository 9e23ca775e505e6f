import Bindery.Proofs.Decl.Endings
import Bindery.Proofs.Decl.Grammar
import Bindery.Proofs.Decl.Signatures

/-!
Names of parameters in prototypes. Writing another name for a parameter gives a text that is read in
the same way but for the tokens of this parameter. So the signature stays the same when the name is
told from the type, and that is when the type holds anything but qualifiers
(`Prototype.signature_rename`). The words `unsigned` and `signed` count as qualifiers though each of
them is a type, so the name behind one of them is a part of the type and of the signature
(`valve_unsigned_level`).
-/

set_option autoImplicit false
set_option relaxedAutoImplicit false

namespace Bindery

namespace Prototype

open Token

/-! ### Another name in a layout -/

namespace Grammar

theorem ne_nil_of_isTypeText {ts : List Token} (h : isTypeText ts = true) : ts ≠ [] := by
  rintro rfl
  cases h

end Grammar

namespace ParamLayout

variable {type : List Token} {name : List Char} {array : Bool} {default : Option (List Char)}
  {before after : List ParamLayout}

/-- A type with a name behind it. -/
def named (type : List Token) (name : List Char) (array : Bool) (default : Option (List Char)) :
    ParamLayout := plain (type ++ [.word name]) array default

theorem fits_named (htype : Grammar.isTypeText type = true)
    (hdefault : ∀ value ∈ default, IsRawDefault value) : (named type name array default).Fits :=
  fits_plain (ParamText.isGrouped_append_word (Grammar.isGrouped_of_isTypeText htype))
    (List.append_ne_nil_of_right_ne_nil _ (List.cons_ne_nil _ _)) hdefault

theorem isLoneVoid_named (htype : type ≠ []) :
    (named type name array default).isLoneVoid = false := by
  obtain ⟨t, ts, rfl⟩ := List.exists_cons_of_ne_nil htype
  rw [isLoneVoid, named, tokens_plain, beq_eq_false_iff_ne, List.cons_append]
  exact fun heq ↦ List.append_ne_nil_of_right_ne_nil ts (List.cons_ne_nil _ _) (List.cons.inj heq).2

/-- The name of a parameter stands in front of a delimiter. -/
theorem exists_listLexemes_named (type : List Token) (array : Bool) (default : Option (List Char))
    (before after : List ParamLayout) :
    ∃ ls l more, l.first ∈ delimiters ∧ ∀ name,
      listLexemes (before ++ named type name array default :: after) ++ [.token (.symbol ')')] =
        ls ++ .token (.word name) :: l :: more := by
  obtain ⟨separator, rest, hseparator, hlist⟩ := exists_listLexemes_append_cons before after
  obtain ⟨l, more, hl, hclosing⟩ : ∃ (l : Lexeme) (more : List Lexeme), l.first ∈ delimiters ∧
      (if array then [.token (.symbol '['), .token (.symbol ']')] else []) ++
        ((default.map Lexeme.default).toList ++ .token (.symbol separator) :: rest) =
          l :: more := by
    cases array with
    | true => exact ⟨_, _, by decide, rfl⟩
    | false =>
      cases default with
      | some value => exact ⟨_, _, mem_delimiters_iff.2 (.inr (.inr (.inl rfl))), rfl⟩
      | none => exact ⟨_, _, by rcases hseparator with rfl | rfl <;> decide, rfl⟩
  refine ⟨leadingLexemes before ++ type.map .token, l, more, hl, fun name ↦ ?_⟩
  rw [hlist, named, lexemes_plain, List.append_assoc, List.append_assoc, hclosing, List.map_append,
    List.append_assoc, List.append_assoc]
  rfl

/-- A parameter with a name is kept in its place. -/
theorem declared_named (htype : type ≠ []) (before after : List ParamLayout) :
    declared false (before ++ named type name array default :: after) =
      (before.dropWhile isLoneVoid).map toParam ++ (named type name array default).toParam ::
        after.map toParam := by
  have hdrop : (before ++ named type name array default :: after).dropWhile isLoneVoid =
      before.dropWhile isLoneVoid ++ named type name array default :: after := by
    rw [List.dropWhile_append, List.dropWhile_cons_of_neg (by simp [isLoneVoid_named htype])]
    split
    · rename_i hempty
      rw [List.isEmpty_iff.1 hempty]
      rfl
    · rfl
  rw [declared, if_neg Bool.false_ne_true, hdrop, List.map_append, List.map_cons]

end ParamLayout

end Prototype

/-! ### Another name in a signature -/

namespace ParamText

variable {ts : List Token} {depth : Nat}

/-- In a type, every symbol says that it is one: a bracket that is opened is closed again. -/
theorem saysType_of_isGrouped (h : isGrouped depth ts = true)
    (hsymbol : depth ≠ 0 ∨ ∃ c, .symbol c ∈ ts) : saysType ts = true := by
  induction ts generalizing depth with
  | nil =>
    rcases hsymbol with hdepth | ⟨c, hmem⟩
    · exact (hdepth (beq_iff_eq.1 h)).elim
    · cases hmem
  | cons t ts ih =>
    obtain ⟨hpart, h⟩ := Bool.and_eq_true_iff.1 h
    rw [saysType, List.any_cons, Bool.or_eq_true]
    cases t with
    | word chars =>
      refine .inr (ih h (hsymbol.imp_right ?_))
      rintro ⟨c, hmem⟩
      exact ⟨c, (List.mem_cons.1 hmem).resolve_left nofun⟩
    | symbol c =>
      by_cases hc : (isPointerMark c || c == '>') = true
      · exact .inl hc
      · refine .inr (ih h (.inl ?_))
        rw [Bool.not_eq_true, Bool.or_eq_false_iff, beq_eq_false_iff_ne] at hc
        by_cases hopens : c = '<'
        · subst hopens
          exact Nat.succ_ne_zero depth
        · have hnesting : Prototype.nesting depth (.symbol c) = depth := by
            simp [Prototype.nesting, hopens, hc.2]
          rw [hnesting]
          simpa [isTypePart, hc.1, hopens] using hpart

/-- A type is told from a name behind it unless all of it is qualifiers. -/
theorem saysType_iff (h : isGrouped 0 ts = true) :
    saysType ts = true ↔ ∃ t ∈ ts, t ∉ qualifiers.map Token.ofName := by
  constructor
  · intro htold
    obtain ⟨t, ht, htold⟩ := List.any_eq_true.1 htold
    refine ⟨t, ht, fun hmem ↦ ?_⟩
    obtain ⟨word, hword, rfl⟩ := List.mem_map.1 hmem
    simp [Token.ofName, hword] at htold
  · rintro ⟨t, ht, hnot⟩
    cases t with
    | word chars =>
      refine List.any_eq_true.2 ⟨_, ht, ?_⟩
      have hword : String.ofList chars ∉ qualifiers := fun hmem ↦
        hnot (List.mem_map.2 ⟨_, hmem, by rw [Token.ofName, String.toList_ofList]⟩)
      simpa using hword
    | symbol c => exact saysType_of_isGrouped h (.inr ⟨c, ht⟩)

/-- Behind qualifiers a name is joined like a word of the type. -/
theorem joinTokens_append_name (hne : ts ≠ []) (hts : ∀ t ∈ ts, t ∈ qualifiers.map Token.ofName)
    (name : List Char) : joinTokens (ts ++ [.word name]) = joinTokens ts ++ ([' '] ++ name) := by
  obtain ⟨front, t, rfl⟩ : ∃ front t, ts = front ++ [t] :=
    ⟨_, _, (List.dropLast_concat_getLast hne).symm⟩
  have hqualifiers : ∀ u ∈ qualifiers.map Token.ofName, u.text ≠ [] ∧
      u.text.getLast?.any (fun c ↦ c == '<' || c == ':') = false := by decide
  obtain ⟨htext, hlast⟩ := hqualifiers t (hts t (by simp))
  have hsuffix : t.text <:+ joinTokens (front ++ [t]) := by
    rw [joinTokens_append]
    exact text_suffix_appendToken _ _
  have hempty : (joinTokens (front ++ [t])).isEmpty = false := by
    obtain ⟨out, hout⟩ := hsuffix
    simp [← hout, htext]
  rw [joinTokens_append (front ++ [t]), appendToken, hempty,
    Token.getLast?_of_suffix htext hsuffix, hlast]
  rfl

end ParamText

/-- Behind the same text, two names are appended in the same way. -/
theorem appendWord_name_injective {out name other : List Char}
    (hname : ∀ c ∈ name.head?, joinsLeft c = false)
    (hother : ∀ c ∈ other.head?, joinsLeft c = false)
    (h : appendWord out name = appendWord out other) : name = other := by
  have hany {cs : List Char} (hcs : ∀ c ∈ cs.head?, joinsLeft c = false) :
      cs.head?.any joinsLeft = false := by
    cases cs with
    | nil => rfl
    | cons c cs => exact hcs c rfl
  have hglued : isGlued out name = isGlued out other := by
    rw [isGlued, isGlued, hany hname, hany hother]
  rw [appendWord, appendWord, hglued] at h
  split at h
  · exact List.append_cancel_left h
  · exact (List.cons.inj (List.append_cancel_left h)).2

namespace Prototype

open Token

variable {type : List Token} {name other : List Char} {array : Bool}
  {default : Option (List Char)}

theorem IsIdentifier.head?_not_joinsLeft (h : IsIdentifier name) :
    ∀ c ∈ name.head?, joinsLeft c = false := by
  intro c hc
  have hname := h.chars c (List.mem_of_head? hc)
  by_contra hjoins
  rw [Bool.not_eq_false] at hjoins
  simp only [joinsLeft, Bool.or_eq_true, beq_iff_eq] at hjoins
  rcases hjoins with ((((rfl | rfl) | rfl) | rfl) | rfl) | rfl <;> exact absurd hname (by decide)

theorem IsIdentifier.isWord (h : IsIdentifier name) : Text.IsWord name :=
  ⟨h.ne_nil, fun c hc ↦ isBlank_eq_false_of_isNameChar (h.chars c hc)⟩

theorem type_toParam_named (hname : IsIdentifier name) :
    (ParamLayout.named type name array default).toParam.type =
      ParamText.typeOf (if ParamText.saysType type then type else type ++ [.word name]) := by
  have hsplit : ParamText.splitTokens (type ++ [.word name]) =
      if ParamText.saysType type then (type, some name) else (type ++ [.word name], none) := by
    rw [ParamText.splitTokens]
    simp [hname.untyped]
  rw [ParamLayout.toParam, Draft.toParam, ParamLayout.tokens_draft, ParamLayout.named,
    ParamLayout.tokens_plain, hsplit]
  cases ParamText.saysType type <;> rfl

theorem array_toParam_named :
    (ParamLayout.named type name array default).toParam.array = array :=
  ParamLayout.isArray_plain _ _ _

/-- The name of a parameter takes part in the signature when its type is made of qualifiers. -/
theorem signatureType_named_eq_iff (htype : Grammar.isTypeText type = true)
    (hname : IsIdentifier name) (hother : IsIdentifier other) :
    (ParamLayout.named type name array default).toParam.signatureType =
        (ParamLayout.named type other array default).toParam.signatureType ↔
      name = other ∨ ∃ t ∈ type, t ∉ ParamText.qualifiers.map Token.ofName := by
  rw [← ParamText.saysType_iff (Grammar.isGrouped_of_isTypeText htype), Param.signatureType,
    Param.signatureType, type_toParam_named hname, type_toParam_named hother, array_toParam_named,
    array_toParam_named]
  by_cases htold : ParamText.saysType type = true
  · simp [htold]
  · have hqualifiers : ∀ t ∈ type, t ∈ ParamText.qualifiers.map Token.ofName := by
      rw [ParamText.saysType_iff (Grammar.isGrouped_of_isTypeText htype)] at htold
      simpa using htold
    have hspace : ∀ c ∈ [' '], Text.isBlank c = true := List.forall_mem_singleton.2 rfl
    have hnormal {name : List Char} (hname : IsIdentifier name) :
        normalizeType (ParamText.typeOf (type ++ [.word name])) =
          String.ofList (appendWord (normalizeTypeChars (ParamText.joinTokens type)) name) := by
      rw [normalizeType, ParamText.typeOf, String.toList_ofList,
        ParamText.joinTokens_append_name (Grammar.ne_nil_of_isTypeText htype) hqualifiers,
        normalizeTypeChars_append_word (List.cons_ne_nil _ _) hspace hname.isWord]
    rw [if_neg htold, if_neg htold, hnormal hname, hnormal hother, or_iff_left htold]
    constructor
    · intro heq
      exact appendWord_name_injective hname.head?_not_joinsLeft hother.head?_not_joinsLeft
        (String.ofList_injective ((String.append_left_inj _).1 heq))
    · rintro rfl
      rfl

/-! ### Another name in a prototype -/

variable {className text : String} {before after : List ParamLayout}

namespace Layout

/-- The name of a parameter stands in front of a delimiter. -/
theorem exists_lexemes_named (l : Layout) (type : List Token) (array : Bool)
    (default : Option (List Char)) (before after : List ParamLayout) :
    ∃ ls u more, u.first ∈ delimiters ∧ ∀ name,
      { l with params := before ++ .named type name array default :: after : Layout }.lexemes =
        ls ++ .token (.word name) :: u :: more := by
  obtain ⟨ls, u, more, hu, hlist⟩ :=
    ParamLayout.exists_listLexemes_named type array default before after
  refine ⟨Prototype.specifiers l.protection l.colon l.isVirtual l.isStatic ++
    ((l.tokens.map .token ++ [.token (.symbol '(')]) ++ ls), u,
    more ++ marks l.isConst l.isOverride l.isPure l.isEnded, hu, fun name ↦ ?_⟩
  rw [lexemes, hlist name]
  simp only [List.append_assoc, List.cons_append]

/-- A layout can still be read with another name for a parameter. -/
theorem Fits.rename {l : Layout} (hl : l.Fits className) (htype : Grammar.isTypeText type = true)
    (hparams : l.params = before ++ .named type name array default :: after)
    (other : List Char) :
    { l with params := before ++ .named type other array default :: after : Layout }.Fits
      className := by
  have hp := hl.params (.named type name array default) (by simp [hparams])
  exact hl.replace hparams (ParamLayout.fits_named htype hp.default)

end Layout

/-- Two lists that differ in one element are joined to different texts. -/
theorem intercalate_append_cons_inj {α : Type} (separator : List α) (before after : List (List α))
    (a b : List α) : separator.intercalate (before ++ a :: after) =
      separator.intercalate (before ++ b :: after) ↔ a = b := by
  induction before with
  | nil =>
    by_cases hafter : after = []
    · simp [hafter]
    · rw [List.nil_append, List.nil_append, List.intercalate_cons_of_ne_nil hafter,
        List.intercalate_cons_of_ne_nil hafter, List.append_left_inj, List.append_left_inj]
  | cons first before ih =>
    have hne (c : List α) : before ++ c :: after ≠ [] := by simp
    rw [List.cons_append, List.cons_append, List.intercalate_cons_of_ne_nil (hne a),
      List.intercalate_cons_of_ne_nil (hne b), List.append_right_inj, ih]

/-- The signature of a method with a given name for one parameter. Only the type that is read for
this parameter depends on the name. -/
theorem toList_signature_named (l : Layout) (htype : type ≠ []) (before after : List ParamLayout)
    (name : List Char) :
    ({ l with params := before ++ .named type name array default :: after
        : Layout }.toPrototype.toMethod className).signature.toList =
      (l.toPrototype.toMethod className).name.toList ++ '(' :: ([','].intercalate
        (((before.dropWhile ParamLayout.isLoneVoid).map
            fun p ↦ p.toParam.signatureType.toList) ++
          (ParamLayout.named type name array default).toParam.signatureType.toList ::
            after.map fun p ↦ p.toParam.signatureType.toList) ++
        ')' :: (l.toPrototype.toMethod className).constSuffix.toList) := by
  have hparams : ({ l with params := before ++ .named type name array default :: after
      : Layout }.toPrototype.toMethod className).params =
      (before.dropWhile ParamLayout.isLoneVoid).map ParamLayout.toParam ++
        (ParamLayout.named type name array default).toParam :: after.map ParamLayout.toParam :=
    ParamLayout.declared_named htype before after
  rw [Method.toList_signature, hparams]
  simp only [List.map_append, List.map_cons, List.map_map]
  rfl

/-- Methods that differ in the name of one parameter have the same signature when the types that are
read for it are the same. -/
theorem signature_toMethod_eq_iff (l : Layout) (htype : Grammar.isTypeText type = true)
    (hname : IsIdentifier name) (hother : IsIdentifier other)
    (before after : List ParamLayout) :
    ({ l with params := before ++ .named type other array default :: after
        : Layout }.toPrototype.toMethod className).signature =
      ({ l with params := before ++ .named type name array default :: after
        : Layout }.toPrototype.toMethod className).signature ↔
      other = name ∨ ∃ t ∈ type, t ∉ ParamText.qualifiers.map Token.ofName := by
  have hne := Grammar.ne_nil_of_isTypeText htype
  rw [← String.toList_inj, toList_signature_named l hne, toList_signature_named l hne,
    List.append_right_inj, List.cons_inj_right, List.append_left_inj, intercalate_append_cons_inj,
    String.toList_inj]
  exact signatureType_named_eq_iff htype hother hname

/-- An identifier is written with its own characters, whatever stands for line breaks. -/
theorem exists_append_of_breaksToSpaces {cs front back : List Char} (hname : IsIdentifier name)
    (h : breaksToSpaces cs = front ++ (name ++ back)) :
    ∃ front' back', cs = front' ++ (name ++ back') ∧ ∀ other, IsIdentifier other →
      breaksToSpaces (front' ++ (other ++ back')) = front ++ (other ++ back) := by
  have hfixed {cs : List Char} (hcs : ∀ c ∈ breaksToSpaces cs, isNameChar c = true) :
      breaksToSpaces cs = cs := by
    refine breaksToSpaces_eq_self_iff.2 fun hc ↦ ?_
    exact absurd (hcs ' ' (List.mem_map_of_mem hc)) (by decide)
  obtain ⟨front', mid, rfl, rfl, hmid⟩ := List.map_eq_append_iff.1 h
  obtain ⟨name', back', rfl, rfl, rfl⟩ := List.map_eq_append_iff.1 hmid
  have hname' : breaksToSpaces name' = name' := hfixed hname.chars
  refine ⟨front', back', by rw [← breaksToSpaces, hname'], fun other hother ↦ ?_⟩
  have hunbroken : breaksToSpaces other = other :=
    breaksToSpaces_eq_self_iff.2 fun hc ↦ absurd (hother.chars _ hc) (by decide)
  rw [breaksToSpaces, List.map_append, List.map_append, ← breaksToSpaces, ← breaksToSpaces,
    hunbroken]

/-- Writing another identifier for the name of a parameter leaves the signature as it is when the
type in front of the name holds anything but qualifiers, and only then. -/
theorem signature_rename {l : Layout} (hl : l.Fits className) (hspelled : IsSpelled text l.lexemes)
    (hparams : l.params = before ++ .named type name array default :: after)
    (htype : Grammar.isTypeText type = true) (hname : IsIdentifier name) :
    ∃ front back p, text.toList = front ++ (name ++ back) ∧ parse className text = .ok p ∧
      ∀ other, IsIdentifier other →
        IsSpelled (String.ofList (front ++ (other ++ back)))
          { l with params := before ++ .named type other array default :: after : Layout }.lexemes ∧
        ∃ p', parse className (String.ofList (front ++ (other ++ back))) = .ok p' ∧
          ((p'.toMethod className).signature = (p.toMethod className).signature ↔
            other = name ∨ ∃ t ∈ type, t ∉ ParamText.qualifiers.map Token.ofName) := by
  have hself : { l with params := before ++ .named type name array default :: after : Layout } =
      l := by rw [← hparams]
  have hparse := parse_eq_ok_iff_layout.2 ⟨l, hl, hspelled, rfl⟩
  obtain ⟨ls, u, more, hu, hlexemes⟩ := l.exists_lexemes_named type array default before after
  obtain ⟨rest, hspells, hrest⟩ := hspelled
  rw [← hself, hlexemes name] at hspells
  obtain ⟨front, back, hchars, hrename⟩ := exists_rename_of_spells hname hu hspells
  obtain ⟨front', back', htext, hbreaks⟩ := exists_append_of_breaksToSpaces hname hchars
  refine ⟨front', back', l.toPrototype, htext, hparse, fun other hother ↦ ?_⟩
  have hspelled' : IsSpelled (String.ofList (front' ++ (other ++ back')))
      { l with params := before ++ .named type other array default :: after : Layout }.lexemes := by
    refine ⟨rest, ?_, hrest⟩
    rw [String.toList_ofList, hbreaks other hother, hlexemes other]
    exact hrename other hother
  have hfits := hl.rename htype hparams other
  refine ⟨hspelled', _, parse_eq_ok_iff_layout.2 ⟨_, hfits, hspelled', rfl⟩, ?_⟩
  have hprototype : l.toPrototype =
      { l with params := before ++ .named type name array default :: after : Layout }.toPrototype :=
    congrArg _ hself.symm
  rw [hprototype]
  exact signature_toMethod_eq_iff l htype hname hother before after

end Prototype

open Prototype

/-- A method that takes a reference, and an array with a default value. -/
def Valves.set : Layout where
  type := [.ofName "void"]
  name := [.ofName "Set"]
  isVirtual := true
  params := [
    .named [.ofName "const", .ofName "Unit", .symbol '&'] "unit".toList false none,
    .named [.ofName "unsigned"] "levels".toList true (some " pick(1, 2)".toList)]

/-- A method that takes a number without a sign. -/
def Valves.turn : Layout where
  type := [.ofName "void"]
  name := [.ofName "Turn"]
  params := [.named [.ofName "unsigned"] "level".toList false none]

open Valves in
theorem valve_rename_unit : set.Fits "Valve" ∧
    IsSpelled "virtual void Set(const Unit &unit, unsigned levels[] = pick(1, 2))" set.lexemes ∧
    Grammar.isTypeText [.ofName "const", .ofName "Unit", .symbol '&'] = true ∧
    IsIdentifier "unit".toList ∧
    ∃ front back p,
      "virtual void Set(const Unit &unit, unsigned levels[] = pick(1, 2))".toList =
        front ++ ("unit".toList ++ back) ∧
      parse "Valve" "virtual void Set(const Unit &unit, unsigned levels[] = pick(1, 2))" = .ok p ∧
      ∀ other, IsIdentifier other →
        ∃ p', parse "Valve" (String.ofList (front ++ (other ++ back))) = .ok p' ∧
          (p'.toMethod "Valve").signature = (p.toMethod "Valve").signature := by
  have htype : Grammar.isTypeText [.ofName "const", .ofName "Unit", .symbol '&'] = true := by decide
  have hname : IsIdentifier "unit".toList := ⟨by decide, List.all_eq_true.1 (by decide), by decide⟩
  have hdefault : IsRawDefault " pick(1, 2)".toList := ⟨by decide, by decide⟩
  have hset : set.Fits "Valve" := by
    refine ⟨⟨by decide, .inr ⟨_, rfl, by decide, by decide⟩⟩, by decide, ?_, by decide, by decide,
      ?_⟩
    · rintro t ht
      cases ht
      exact ⟨by decide, by decide, by decide⟩
    · refine List.forall_mem_cons.2 ⟨ParamLayout.fits_named htype nofun,
        List.forall_mem_singleton.2 (ParamLayout.fits_named (by decide) ?_)⟩
      rintro value hvalue
      cases hvalue
      exact hdefault
  have hspelled : IsSpelled
      "virtual void Set(const Unit &unit, unsigned levels[] = pick(1, 2))" set.lexemes := by
    refine ⟨[], ?_, rfl⟩
    exact .token rfl (.token rfl (.token rfl (.token rfl (.token rfl (.token rfl (.token rfl
      (.token rfl (.token rfl (.token rfl (.token rfl (.token rfl (.token rfl
        (.default rfl hdefault (.inr rfl) (.token rfl .done))))))))))))))
  have hparams : set.params =
      [] ++ .named [.ofName "const", .ofName "Unit", .symbol '&'] "unit".toList false none ::
        [.named [.ofName "unsigned"] "levels".toList true (some " pick(1, 2)".toList)] := rfl
  refine ⟨hset, hspelled, htype, hname, ?_⟩
  obtain ⟨front, back, p, htext, hparse, hrename⟩ :=
    signature_rename hset hspelled hparams htype hname
  refine ⟨front, back, p, htext, hparse, fun other hother ↦ ?_⟩
  obtain ⟨-, p', hparse', hsignature⟩ := hrename other hother
  exact ⟨p', hparse', hsignature.2 (.inr ⟨.ofName "Unit", by decide, by decide⟩)⟩

open Valves in
/-- A name behind `unsigned` is a part of the type and of the signature. -/
theorem valve_unsigned_level : Grammar.isTypeText [.ofName "unsigned"] = true ∧
    IsIdentifier "level".toList ∧ IsIdentifier "value".toList ∧
    ∃ p p', parse "Valve" "void Turn(unsigned level)" = .ok p ∧
      parse "Valve" "void Turn(unsigned value)" = .ok p' ∧
      (p.toMethod "Valve").signature = "Turn(unsigned level)" ∧
      (p'.toMethod "Valve").signature = "Turn(unsigned value)" := by
  have htype : Grammar.isTypeText [.ofName "unsigned"] = true := by decide
  have hturn : turn.Fits "Valve" := by
    refine ⟨⟨by decide, .inr ⟨_, rfl, by decide, by decide⟩⟩, by decide, ?_, by decide, by decide,
      List.forall_mem_singleton.2 (ParamLayout.fits_named htype nofun)⟩
    rintro t ht
    cases ht
    exact ⟨by decide, by decide, by decide⟩
  have hparams : turn.params = [] ++ .named [.ofName "unsigned"] "level".toList false none :: [] :=
    rfl
  have hvalue := hturn.rename htype hparams "value".toList
  have hspelled : IsSpelled "void Turn(unsigned level)" turn.lexemes :=
    ⟨[], .token rfl (.token rfl (.token rfl (.token rfl (.token rfl (.token rfl .done))))), rfl⟩
  refine ⟨htype, ⟨by decide, List.all_eq_true.1 (by decide), by decide⟩,
    ⟨by decide, List.all_eq_true.1 (by decide), by decide⟩, _, _,
    parse_eq_ok_iff_layout.2 ⟨_, hturn, hspelled, rfl⟩,
    parse_eq_ok_iff_layout.2 ⟨_, hvalue, ⟨[], ?_, rfl⟩, rfl⟩,
    by decide +kernel, by decide +kernel⟩
  exact .token rfl (.token rfl (.token rfl (.token rfl (.token rfl (.token rfl .done)))))

end Bindery
