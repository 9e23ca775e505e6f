import Bindery.Proofs.Decl.Tokens

/-!
Declarations of parameters. A parameter is declared by the tokens of its type and its name
(`Param.reads_declaration`), by array brackets and by a default value, and these tokens are split
into the type and the name again (`Param.toParam_draft`). A default value is passed over as raw text
up to a separator (`Prototype.scanDefault_append`, `Prototype.isClosed_of_scanDefault`), so the
brackets and quotes in it have to be closed (`Prototype.IsDefault`).
-/

set_option autoImplicit false
set_option relaxedAutoImplicit false

namespace Bindery

namespace Prototype

open Token

/-! ### Default values -/

/-- Whether brackets and quotes that a default value opens are closed in it, so that it does not end
before its end, with `quote` and `depth` open in front of it. -/
def isClosed (quote : Option Char) (depth : Nat) : List Char → Bool
  | [] => quote.isNone && depth == 0
  | c :: cs =>
    match quote with
    | some q => isClosed (if c == q then none else some q) depth cs
    | none =>
      if c == '"' || c == singleQuote then isClosed (some c) depth cs
      else if c == '(' || c == '<' then isClosed none (depth + 1) cs
      else if (c == ')' || c == '>') && depth != 0 then isClosed none (depth - 1) cs
      else !((c == ',' || c == ')') && depth == 0) && isClosed none depth cs

/-- A default value as it is read: in one line, without white space around it. -/
structure IsDefault (value : String) : Prop where
  ne_empty : value ≠ ""
  trimmed : Text.trimChars value.toList = value.toList
  unbroken : '\n' ∉ value.toList
  closed : isClosed none 0 value.toList = true

instance (value : String) : Decidable (IsDefault value) :=
  decidable_of_iff (value ≠ "" ∧ Text.trimChars value.toList = value.toList ∧
    '\n' ∉ value.toList ∧ isClosed none 0 value.toList = true)
    ⟨fun ⟨hne, htrimmed, hunbroken, hclosed⟩ ↦ ⟨hne, htrimmed, hunbroken, hclosed⟩,
      fun h ↦ ⟨h.ne_empty, h.trimmed, h.unbroken, h.closed⟩⟩

/-- What can stand behind a parameter. -/
def IsSeparator (c : Char) : Prop := c = ',' ∨ c = ')'

section Params

variable {cs start rest : List Char} {t : Token} {ts : List Token} {depth : Nat} {c : Char}

/-- What is open behind a character of a default value, with `quote` and `depth` open in front of
it. A separator outside of quotes and brackets ends the value. -/
def scanStep (quote : Option Char) (depth : Nat) (c : Char) : Option (Option Char × Nat) :=
  match quote with
  | some q => some (if c == q then none else some q, depth)
  | none =>
    if c == '"' || c == singleQuote then some (some c, depth)
    else if c == '(' || c == '<' then some (none, depth + 1)
    else if (c == ')' || c == '>') && depth != 0 then some (none, depth - 1)
    else if (c == ',' || c == ')') && depth == 0 then none
    else some (none, depth)

theorem scanDefault_cons (quote : Option Char) (depth : Nat) (c : Char) (cs : List Char) :
    scanDefault quote depth (c :: cs) =
      match scanStep quote depth c with
      | some (quote, depth) =>
        (scanDefault quote depth cs).map fun read ↦ (c :: read.1, read.2)
      | none => some ([], c == ')', cs) := by
  cases quote with
  | some q => rfl
  | none =>
    simp only [scanDefault, scanStep]
    split_ifs <;> rfl

theorem isClosed_cons (quote : Option Char) (depth : Nat) (c : Char) (cs : List Char) :
    isClosed quote depth (c :: cs) =
      match scanStep quote depth c with
      | some (quote, depth) => isClosed quote depth cs
      | none => false := by
  cases quote with
  | some q => rfl
  | none =>
    simp only [isClosed, scanStep]
    split_ifs <;> simp [*]

theorem scanStep_eq_none_iff {quote : Option Char} :
    scanStep quote depth c = none ↔ quote = none ∧ depth = 0 ∧ IsSeparator c := by
  cases quote with
  | some q => simp [scanStep]
  | none =>
    constructor
    · intro h
      simp only [scanStep] at h
      split_ifs at h with _ _ _ hends
      obtain ⟨hc, hdepth⟩ := Bool.and_eq_true_iff.1 hends
      exact ⟨rfl, beq_iff_eq.1 hdepth, (Bool.or_eq_true_iff.1 hc).imp beq_iff_eq.1 beq_iff_eq.1⟩
    · rintro ⟨-, rfl, rfl | rfl⟩ <;> rfl

theorem isBlank_of_isSeparator (hc : IsSeparator c) : Text.isBlank c = false := by
  rcases hc with rfl | rfl <;> decide

theorem scanDefault_append {quote : Option Char} {value : List Char}
    (h : isClosed quote depth value = true) (hc : IsSeparator c) (rest : List Char) :
    scanDefault quote depth (value ++ c :: rest) = some (value, c == ')', rest) := by
  induction value generalizing quote depth with
  | nil =>
    obtain ⟨hquote, hdepth⟩ := Bool.and_eq_true_iff.1 h
    have hends := scanStep_eq_none_iff.2
      ⟨Option.isNone_iff_eq_none.1 hquote, beq_iff_eq.1 hdepth, hc⟩
    rw [List.nil_append, scanDefault_cons, hends]
  | cons d value ih =>
    rw [isClosed_cons] at h
    rw [List.cons_append, scanDefault_cons]
    split at h
    · rw [ih h]
      rfl
    · cases h

/-- A default value ends at a separator, and what it opens is closed in it. -/
theorem isClosed_of_scanDefault {quote : Option Char} {value : List Char} {last : Bool}
    (h : scanDefault quote depth cs = some (value, last, rest)) :
    isClosed quote depth value = true ∧
      ∃ c, IsSeparator c ∧ last = (c == ')') ∧ cs = value ++ c :: rest := by
  induction cs generalizing quote depth value with
  | nil => cases h
  | cons d cs ih =>
    rw [scanDefault_cons] at h
    split at h
    · rename_i hstep
      obtain ⟨⟨more, last', rest'⟩, hread, heq⟩ := Option.map_eq_some_iff.1 h
      cases heq
      obtain ⟨hclosed, c, hc, hlast, rfl⟩ := ih hread
      refine ⟨?_, c, hc, hlast, rfl⟩
      rw [isClosed_cons, hstep]
      exact hclosed
    · rename_i hstep
      obtain ⟨rfl, rfl, hd⟩ := scanStep_eq_none_iff.1 hstep
      cases h
      exact ⟨rfl, d, hd, rfl, rfl⟩

/-! ### Readers -/

theorem readParam_eq (depth : Nat) (cs : List Char) : readParam depth cs =
    match next cs with
    | .finished =>
      .error ⟨if depth = 0 then .unterminatedParameters else .unterminatedTemplate, []⟩
    | .unexpected c start => .error ⟨.unexpectedCharacter c, start⟩
    | .found t _ rest =>
      if depth = 0 ∧ t = .symbol ',' then .ok ({ last := false }, rest)
      else if depth = 0 ∧ t = .symbol ')' then .ok ({ last := true }, rest)
      else if depth = 0 ∧ t = .symbol '=' then readDefault rest
      else if depth = 0 ∧ t = .symbol '[' then
        match closeBracket rest with
        | .error e => .error e
        | .ok (_, rest') =>
          (readParam depth rest').map fun read ↦ ({ read.1 with array := true }, read.2)
      else (readParam (nesting depth t) rest).map fun read ↦ (read.1.cons t, read.2) := by
  rw [readParam.eq_def]
  split <;> rename_i hnext <;> simp only [hnext]
  split_ifs <;> try rfl
  split <;> rename_i hclose <;> simp only [hclose]

theorem readParam_of_next (h : next cs = .found t start rest) : readParam depth cs =
    if depth = 0 ∧ t = .symbol ',' then .ok ({ last := false }, rest)
    else if depth = 0 ∧ t = .symbol ')' then .ok ({ last := true }, rest)
    else if depth = 0 ∧ t = .symbol '=' then readDefault rest
    else if depth = 0 ∧ t = .symbol '[' then
      match closeBracket rest with
      | .error e => .error e
      | .ok (_, rest') =>
        (readParam depth rest').map fun read ↦ ({ read.1 with array := true }, read.2)
    else (readParam (nesting depth t) rest).map fun read ↦ (read.1.cons t, read.2) := by
  rw [readParam_eq, h]

theorem readParamList_eq (kept : Bool) (cs : List Char) : readParamList kept cs =
    match readParam 0 cs with
    | .error e => .error e
    | .ok (draft, rest) =>
      if draft.tokens.isEmpty then
        .error ⟨.emptyParameter, (if draft.last then ')' else ',') :: rest⟩
      else
        let here := if draft.isLoneVoid && !kept then [] else [draft.toParam]
        if draft.last then .ok (here, rest)
        else
          (readParamList (kept || !here.isEmpty) rest).map fun read ↦ (here ++ read.1, read.2) := by
  rw [readParamList.eq_def]
  split <;> rename_i hread <;> simp only [hread]

theorem readParamList_of_read {kept : Bool} {draft : Draft}
    (h : readParam 0 cs = .ok (draft, rest)) : readParamList kept cs =
      if draft.tokens.isEmpty then
        .error ⟨.emptyParameter, (if draft.last then ')' else ',') :: rest⟩
      else
        let here := if draft.isLoneVoid && !kept then [] else [draft.toParam]
        if draft.last then .ok (here, rest)
        else
          (readParamList (kept || !here.isEmpty) rest).map fun read ↦
            (here ++ read.1, read.2) := by
  rw [readParamList_eq, h]

end Params

end Prototype

/-! ### Declarations of parameters -/

namespace Param

/-- What stands in a declaration behind the type and the name. -/
def closing (p : Param) : List Char :=
  (if p.array then ['[', ']'] else []) ++ (match p.default with
    | some value => '=' :: value.toList
    | none => [])

/-- The tokens of the type and the name. -/
def declaredTokens (p : Param) : List Token :=
  Token.readAll p.type.toList ++ (if p.name.isEmpty then [] else [.ofName p.name])

/-- A parameter whose declaration is read as the same parameter. -/
structure IsReadable (p : Param) : Prop where
  type : ParamText.IsCanonical p.type
  name : ∀ c ∈ p.name.toList, Token.isNameChar c = true
  named : p.name ≠ "" → ParamText.saysType (Token.readAll p.type.toList) = true ∧
    ParamText.isTypeWord p.name.toList = false
  unnamed : p.name = "" → (ParamText.splitTokens (Token.readAll p.type.toList)).2 = none
  default : ∀ value ∈ p.default, Prototype.IsDefault value

section

variable {p : Param} {c : Char}

theorem toList_declaration (p : Param) : p.declaration.toList =
    p.type.toList ++ ((if p.name.isEmpty then [] else ' ' :: p.name.toList) ++ p.closing) := by
  rw [declaration, declarator, closing]
  cases p.default <;> split_ifs <;> simp

theorem stops_closing (hc : Prototype.IsSeparator c) (rest : List Char) :
    Token.Stops (p.closing ++ c :: rest) := by
  have hseparator : Token.isNameChar c = false ∧ c ≠ ':' := by
    rcases hc with rfl | rfl <;> decide
  rw [closing]
  cases p.array with
  | true => exact Token.stops_cons (by decide) (by decide) _
  | false =>
    cases p.default with
    | some value => exact Token.stops_cons (by decide) (by decide) _
    | none => exact Token.stops_cons hseparator.1 hseparator.2 _

/-- The tokens of a declaration are those of the type and the name. -/
theorem reads_declaration (h : p.IsReadable) (hc : Prototype.IsSeparator c) (rest : List Char) :
    Token.Reads (p.declaration.toList ++ c :: rest) p.declaredTokens (p.closing ++ c :: rest) := by
  rw [toList_declaration, declaredTokens, List.append_assoc, List.append_assoc]
  by_cases hname : p.name.isEmpty
  · rw [if_pos hname, if_pos hname, List.append_nil]
    exact h.type.reads (stops_closing hc rest)
  · rw [if_neg hname, if_neg hname]
    have hne : p.name.toList ≠ [] := by simpa using hname
    have hread := Token.reads_name hne h.name (stops_closing (p := p) hc rest)
    exact (h.type.reads (Token.stops_cons (by decide) (by decide) _)).append
      (hread.blank (List.cons_ne_nil _ _))

theorem isGrouped_declaredTokens (h : p.IsReadable) :
    ParamText.isGrouped 0 p.declaredTokens = true := by
  rw [declaredTokens]
  split
  · rw [List.append_nil]
    exact h.type.grouped
  · exact ParamText.isGrouped_append_word h.type.grouped

theorem splitTokens_declaredTokens (h : p.IsReadable) :
    ParamText.splitTokens p.declaredTokens =
      (Token.readAll p.type.toList, if p.name.isEmpty then none else some p.name.toList) := by
  rw [declaredTokens]
  by_cases hname : p.name.isEmpty
  · rw [if_pos hname, if_pos hname, List.append_nil]
    exact ParamText.splitTokens_of_none (h.unnamed (String.isEmpty_iff.1 hname))
  · obtain ⟨htype, hword⟩ := h.named (mt String.isEmpty_iff.2 hname)
    rw [if_neg hname, if_neg hname, ParamText.splitTokens]
    simp [Token.ofName, htype, hword]

theorem IsReadable.unbroken (h : p.IsReadable) : '\n' ∉ p.declaration.toList := by
  have hname : '\n' ∉ p.name.toList := fun hc ↦ absurd (h.name _ hc) (by decide)
  rw [toList_declaration, closing]
  simp only [List.mem_append, not_or]
  refine ⟨h.type.unbroken, ?_, by split <;> decide, ?_⟩
  · split
    · exact List.not_mem_nil
    · exact List.not_mem_cons_of_ne_of_not_mem (by decide) hname
  · cases hp : p.default with
    | none => exact List.not_mem_nil
    | some value =>
      exact List.not_mem_cons_of_ne_of_not_mem (by decide) (h.default value hp).unbroken

/-- What is read from a declaration is the parameter. -/
theorem toParam_draft (h : p.IsReadable) (last : Bool) :
    ({ tokens := p.declaredTokens, array := p.array, default := p.default,
       last } : Prototype.Draft).toParam = p := by
  rw [Prototype.Draft.toParam]
  simp only [splitTokens_declaredTokens h, h.type.typeOf_eq]
  cases p with
  | mk name type default array =>
    simp only
    split
    · rename_i hname
      rw [String.isEmpty_iff.1 hname]
      rfl
    · rw [Option.getD_some, String.ofList_toList]

theorem declaredTokens_ne_nil (h : p.IsReadable) : p.declaredTokens ≠ [] := by
  simp [declaredTokens, h.type.readAll_ne_nil]

/-- Only an unnamed parameter of the type `void` is a lone `void`. -/
theorem not_isLoneVoid (h : p.IsReadable) (hvoid : p.name = "" → p.type ≠ "void") :
    p.declaredTokens ≠ [.ofName "void"] := by
  rw [declaredTokens]
  split
  · rename_i hname
    rw [List.append_nil]
    intro hlone
    have htype := h.type.typeOf_eq
    rw [hlone] at htype
    exact hvoid (String.isEmpty_iff.1 hname) htype.symm
  · intro hlone
    have hlength := congrArg List.length hlone
    have hpos := List.length_pos_iff.2 h.type.readAll_ne_nil
    simp only [List.length_append, List.length_singleton] at hlength
    omega

end

end Param

end Bindery
