import Bindery.Proofs.Decl.JoinedTypes
import Bindery.Proofs.Decl.Parameters
import Bindery.Proofs.Decl.Signatures
import Bindery.Proofs.Files.Parents
import Bindery.Proofs.Typemap.DroppedReturns
import Bindery.Proofs.Typemap.Writing
import Mathlib.Data.List.DropRight

/-!
Patterns that are declarations. A parameter can be declared in a pattern by the very text that it is
declared by in a method. The pattern is split at commas, and its type is written anew from its
tokens, while the type of the parameter is taken as it stands. So the pattern matches the parameter
just when the type has no comma, not even between template arguments, and is spaced as its tokens
are joined (`Param.IsOwnPattern`); and the declarations of consecutive parameters match every method
that has these in a row just when each of them matches its own (`Typemap.own_pattern_matches_iff`).
-/

set_option autoImplicit false
set_option relaxedAutoImplicit false

namespace Bindery

/-! ### Types without a leading `const` -/

/-- Texts of the same characters but for blanks stay apart without a known start, since a text with
the start has more of them. -/
theorem Text.getD_afterStart?_eq_iff {start cs ds : List Char} {c : Char} (hstart : c ∈ start)
    (hc : isBlank c = false) (h : cs.filter (!isBlank ·) = ds.filter (!isBlank ·)) :
    (afterStart? start cs).getD cs = (afterStart? start ds).getD ds ↔ cs = ds := by
  have hlonger (rest : List Char) :
      (start ++ rest).filter (!isBlank ·) ≠ rest.filter (!isBlank ·) := by
    rw [List.filter_append]
    intro heq
    have hempty := List.filter_eq_nil_iff.1 (List.append_left_eq_self.1 heq) c hstart
    simp [hc] at hempty
  cases hcs : afterStart? start cs with
  | none =>
    cases hds : afterStart? start ds with
    | none => exact Iff.rfl
    | some rest =>
      refine iff_of_false (fun heq ↦ ?_) fun heq ↦ ?_
      · rw [eq_append_of_afterStart? hds, show cs = rest from heq] at h
        exact hlonger rest h.symm
      · rw [heq, hds] at hcs
        cases hcs
  | some rest =>
    cases hds : afterStart? start ds with
    | none =>
      refine iff_of_false (fun heq ↦ ?_) fun heq ↦ ?_
      · rw [eq_append_of_afterStart? hcs, show rest = ds from heq] at h
        exact hlonger ds h
      · rw [← heq, hcs] at hds
        cases hds
    | some other =>
      rw [eq_append_of_afterStart? hcs, eq_append_of_afterStart? hds,
        List.append_cancel_left_eq]
      rfl

/-- A leading `const` tells two types apart that are of the same characters. -/
theorem comparableType_eq_iff {type other : String}
    (h : (normalizeTypeChars type.toList).filter (!Text.isBlank ·) =
      (normalizeTypeChars other.toList).filter (!Text.isBlank ·)) :
    comparableType type = comparableType other ↔
      normalizeTypeChars type.toList = normalizeTypeChars other.toList := by
  have htext (type : String) : comparableType type =
      String.ofList ((Text.afterStart? "const ".toList (normalizeTypeChars type.toList)).getD
        (normalizeTypeChars type.toList)) := by
    have hnormal : (normalizeType type).toList = normalizeTypeChars type.toList :=
      String.toList_ofList
    rw [comparableType, hnormal]
    cases Text.afterStart? "const ".toList (normalizeTypeChars type.toList) <;> rfl
  have hconst : 'c' ∈ "const ".toList := by decide
  rw [htext, htext, String.ofList_inj, Text.getD_afterStart?_eq_iff hconst (by decide) h]

/-! ### Declarations that are read as patterns -/

/-- A parameter that is declared by a type that is read as tokens, an identifier and perhaps array
brackets. The tokens say a type by themselves. -/
structure Param.IsNamed (p : Param) (spaced : List (Bool × Token)) : Prop where
  type : Token.Spaced p.type.toList spaced
  typed : ParamText.saysType (spaced.map Prod.snd) = true
  name : Prototype.IsIdentifier p.name.toList
  default : p.default = none

/-- A type that is written as a pattern writes it: without a comma, and spaced as its tokens are
joined. -/
def Param.IsOwnPattern (p : Param) : Prop :=
  ',' ∉ p.type.toList ∧ ∃ spaced, Token.Spaced p.type.toList spaced ∧ Token.IsJoined spaced

/-- The brackets of an array. -/
def arrayBrackets (array : Bool) : List Char := if array then ['[', ']'] else []

namespace ParamPattern

section Brackets

variable {cs : List Char} {c : Char}

theorem getLast?_trimStartChars (hlast : cs.getLast? = some c) (hblank : Text.isBlank c = false) :
    (Text.trimStartChars cs).getLast? = some c := by
  have hne : Text.trimStartChars cs ≠ [] := by
    intro hnil
    rw [List.dropWhile_eq_nil_iff.1 hnil c (List.mem_of_getLast? hlast)] at hblank
    cases hblank
  rw [← hlast, Token.getLast?_of_suffix hne (List.dropWhile_suffix _)]

theorem trimChars_append_brackets (hlast : cs.getLast? = some c) (hblank : Text.isBlank c = false)
    (array : Bool) : Text.trimChars (cs ++ arrayBrackets array) =
      Text.trimStartChars cs ++ arrayBrackets array := by
  obtain ⟨front, hfront⟩ := List.getLast?_eq_some_iff.1 (getLast?_trimStartChars hlast hblank)
  have hstart : Text.trimStartChars (cs ++ arrayBrackets array) =
      Text.trimStartChars cs ++ arrayBrackets array := by
    rw [Text.trimStartChars, List.dropWhile_append, ← Text.trimStartChars, if_neg]
    simp [hfront]
  rw [Text.trimChars, hstart, Text.trimEndChars_eq_self_iff, hfront]
  cases array <;> simp [arrayBrackets, hblank]
  decide

theorem beforeBrackets?_append_brackets (hlast : cs.getLast? = some c) (hbracket : c ≠ ']')
    (array : Bool) :
    beforeBrackets? (cs ++ arrayBrackets array) = if array then some cs else none := by
  obtain ⟨front, rfl⟩ := List.getLast?_eq_some_iff.1 hlast
  have hopening : Text.isBlank '[' = false := rfl
  cases array with
  | true =>
    simp [beforeBrackets?, Text.beforeEnd?, Text.afterStart?, Text.trimEndChars, arrayBrackets,
      hopening]
  | false =>
    simp [beforeBrackets?, Text.beforeEnd?, Text.afterStart?, arrayBrackets, hbracket.symm]

/-- A pattern is read without the blanks around it and without its array brackets. -/
theorem parse_append_brackets (hlast : cs.getLast? = some c) (hblank : Text.isBlank c = false)
    (hbracket : c ≠ ']') (array : Bool) :
    parse (cs ++ arrayBrackets array) =
      ⟨comparableType ((ParamText.split (String.ofList (Text.trimStartChars cs))).1 ++
          String.ofList (arrayBrackets array)),
        (ParamText.split (String.ofList (Text.trimStartChars cs))).2⟩ := by
  rw [parse, trimChars_append_brackets hlast hblank,
    beforeBrackets?_append_brackets (getLast?_trimStartChars hlast hblank) hbracket]
  cases array with
  | true => rfl
  | false => simp [arrayBrackets]

end Brackets

section Named

variable {p : Param} {spaced : List (Bool × Token)}

theorem splitTokens_concat {ts : List Token} {name : List Char}
    (hts : ParamText.saysType ts = true) (hname : ParamText.isTypeWord name = false) :
    ParamText.splitTokens (ts ++ [.word name]) = (ts, some name) := by
  rw [ParamText.splitTokens, List.getLast?_concat]
  simp [hts, hname]

theorem toList_declaration_of_named (h : p.IsNamed spaced) : p.declaration.toList =
    p.type.toList ++ ' ' :: p.name.toList ++ arrayBrackets p.array := by
  have hname : ¬p.name.isEmpty = true := by simpa using h.name.ne_nil
  rw [Param.toList_declaration, Param.closing, h.default, if_neg hname, arrayBrackets,
    List.append_nil]
  simp

/-- A type and a name are read as such, behind blanks or none. -/
theorem split_named (h : p.IsNamed spaced) {blanks : List Char}
    (hblanks : ∀ c ∈ blanks, Text.isBlank c = true) :
    ParamText.split (String.ofList (Text.trimStartChars
        (blanks ++ (p.type.toList ++ ' ' :: p.name.toList)))) =
      (ParamText.typeOf (spaced.map Prod.snd), some p.name) := by
  have hskip (cs : List Char) : Token.next (Text.trimStartChars cs) = Token.next cs := by
    simp only [Token.next, Text.trimStartChars, List.dropWhile_idempotent]
  have hname : Token.readAll (' ' :: p.name.toList) = [.word p.name.toList] := by
    have hspace : ∀ c ∈ [' '], Text.isBlank c = true := List.forall_mem_singleton.2 rfl
    have hstops : Token.Stops [] := by decide
    have hnext := Token.next_name hspace h.name.ne_nil h.name.chars hstops
    rw [List.append_nil] at hnext
    exact Token.readAll_of_reads (.token hnext .done)
  have hread : Token.readAll (Text.trimStartChars
      (blanks ++ (p.type.toList ++ ' ' :: p.name.toList))) =
        spaced.map Prod.snd ++ [.word p.name.toList] := by
    rw [Token.readAll_eq_of_next ((hskip _).trans (Token.next_blanks hblanks _)),
      h.type.readAll_append (Token.stops_cons (by decide) (by decide) _), hname]
  rw [ParamText.split, String.toList_ofList, hread, splitTokens_concat h.typed h.name.untyped]
  simp

/-- The declaration of a parameter is read as a pattern of its joined type and its name. -/
theorem parse_declaration (h : p.IsNamed spaced) {blanks : List Char}
    (hblanks : ∀ c ∈ blanks, Text.isBlank c = true) :
    parse (blanks ++ p.declaration.toList) =
      ⟨comparableType (ParamText.typeOf (spaced.map Prod.snd) ++
        String.ofList (arrayBrackets p.array)), some p.name⟩ := by
  obtain ⟨c, hc⟩ := Option.ne_none_iff_exists'.1 (mt List.getLast?_eq_none_iff.1 h.name.ne_nil)
  have hchar := h.name.chars c (List.mem_of_getLast? hc)
  have hbracket : c ≠ ']' := by
    rintro rfl
    exact absurd hchar (by decide)
  have hlast : (blanks ++ (p.type.toList ++ ' ' :: p.name.toList)).getLast? = some c := by
    rw [List.getLast?_append, List.getLast?_append, List.getLast?_cons, hc]
    rfl
  rw [toList_declaration_of_named h, ← List.append_assoc,
    parse_append_brackets hlast (Token.isBlank_eq_false_of_isNameChar hchar) hbracket,
    split_named h hblanks]

theorem forall_isWord_text (h : p.IsNamed spaced) :
    ∀ t ∈ spaced.map Prod.snd, Text.IsWord t.text :=
  List.forall_mem_map.2 h.type.isWord_text

theorem normalizeTypeChars_signatureType (h : p.IsNamed spaced) :
    normalizeTypeChars p.signatureType.toList =
      Token.normalText spaced ++ arrayBrackets p.array := by
  rw [(Param.isNormal_signatureType p).normalizeTypeChars_eq, Param.toList_signatureType,
    h.type.normalizeTypeChars_eq, arrayBrackets]

theorem normalizeTypeChars_joined (h : p.IsNamed spaced) :
    normalizeTypeChars (ParamText.typeOf (spaced.map Prod.snd) ++
        String.ofList (arrayBrackets p.array)).toList =
      Token.normalText (Token.joined (spaced.map Prod.snd)) ++ arrayBrackets p.array := by
  have hne : spaced.map Prod.snd ≠ [] := by
    intro hnil
    have htyped := h.typed
    rw [hnil] at htyped
    cases htyped
  have hbrackets : ∀ c ∈ arrayBrackets p.array, Text.isBlank c = false := by
    cases p.array with
    | true => exact List.forall_mem_cons.2 ⟨rfl, List.forall_mem_singleton.2 rfl⟩
    | false => exact List.forall_mem_nil _
  obtain ⟨hjoined, hlast⟩ := Token.isBlank_getLast?_joinTokens hne (forall_isWord_text h)
  rw [ParamText.typeOf, String.toList_append, String.toList_ofList, String.toList_ofList,
    normalizeTypeChars_append hjoined hlast hbrackets,
    Token.normalizeTypeChars_joinTokens (forall_isWord_text h)]

/-- So the declaration of a parameter matches the parameter when its type is spaced as its tokens
are joined. -/
theorem fits_parse_declaration_iff (h : p.IsNamed spaced) {blanks : List Char}
    (hblanks : ∀ c ∈ blanks, Text.isBlank c = true) :
    (parse (blanks ++ p.declaration.toList)).Fits p ↔ Token.IsJoined spaced := by
  have hwords := h.type.isWord_text
  have hfits (type : String) : (ParamPattern.mk type (some p.name)).Fits p ↔
      type = comparableType p.signatureType := and_iff_left (by simp)
  rw [parse_declaration h hblanks, hfits, comparableType_eq_iff, normalizeTypeChars_joined h,
    normalizeTypeChars_signatureType h, List.append_cancel_right_eq,
    Token.normalText_joined_iff hwords]
  rw [normalizeTypeChars_joined h, normalizeTypeChars_signatureType h, List.filter_append,
    List.filter_append, Token.filter_normalText_joined hwords]

theorem isOwnPattern_iff (h : p.IsNamed spaced) :
    p.IsOwnPattern ↔ ',' ∉ p.type.toList ∧ Token.IsJoined spaced := by
  refine and_congr_right fun _ ↦ ⟨?_, fun hjoined ↦ ⟨spaced, h.type, hjoined⟩⟩
  rintro ⟨others, hothers, hjoined⟩
  rwa [h.type.unique hothers]

/-- A declaration has commas in its type alone. -/
theorem comma_mem_declaration_iff (h : p.IsNamed spaced) :
    ',' ∈ p.declaration.toList ↔ ',' ∈ p.type.toList := by
  have hname : ',' ∉ p.name.toList := fun hc ↦ absurd (h.name.chars ',' hc) (by decide)
  have hbrackets : ',' ∉ arrayBrackets p.array := by cases p.array <;> decide
  rw [toList_declaration_of_named h]
  simp [hname, hbrackets]

end Named

end ParamPattern

/-! ### Patterns that are split at commas -/

section Pieces

variable {a : Char} {cs : List Char} {texts : List (List Char)}

theorem intercalate_cons_eq_flatMap (separator text : List Char) (texts : List (List Char)) :
    separator.intercalate (text :: texts) = text ++ texts.flatMap (separator ++ ·) := by
  induction texts generalizing text with
  | nil => simp
  | cons next texts ih =>
    rw [List.intercalate_cons_cons, ih, List.flatMap_cons, List.append_assoc, List.append_assoc]

theorem splitOn_intercalate_flatMap (h : texts ≠ []) :
    ([a].intercalate texts).splitOn a = texts.flatMap (·.splitOn a) := by
  induction texts with
  | nil => exact (h rfl).elim
  | cons text texts ih =>
    cases texts with
    | nil => rw [List.intercalate_singleton, List.flatMap_singleton]
    | cons next texts =>
      rw [List.intercalate_cons_cons, List.append_assoc, List.singleton_append,
        List.splitOn_append_cons_self, ih (List.cons_ne_nil _ _)]
      rfl

theorem length_splitOn_eq_one_iff : (cs.splitOn a).length = 1 ↔ a ∉ cs := by
  constructor
  · intro h
    obtain ⟨piece, hpiece⟩ := List.length_eq_one_iff.1 h
    have hjoined : [a].intercalate (cs.splitOn a) = cs := List.intercalate_splitOn a
    rw [hpiece, List.intercalate_singleton] at hjoined
    rw [← hjoined]
    exact Path.not_mem_of_mem_splitOn (hpiece ▸ List.mem_singleton_self piece)
  · intro h
    rw [List.splitOn_eq_singleton h]
    rfl

/-- Where no more pieces come out than texts go in, each text is one piece. -/
theorem not_mem_of_length_splitOn (h : (texts.flatMap (·.splitOn a)).length ≤ texts.length) :
    ∀ text ∈ texts, a ∉ text := by
  have hsome (text : List Char) : 1 ≤ (text.splitOn a).length :=
    List.length_pos_iff.2 (List.splitOn_ne_nil a text)
  have hmore (texts : List (List Char)) :
      texts.length ≤ (texts.flatMap (·.splitOn a)).length := by
    induction texts with
    | nil => exact Nat.le_refl _
    | cons text texts ih =>
      have := hsome text
      rw [List.flatMap_cons, List.length_append, List.length_cons]
      omega
  induction texts with
  | nil => exact List.forall_mem_nil _
  | cons text texts ih =>
    have hfirst := hsome text
    have hrest := hmore texts
    rw [List.flatMap_cons, List.length_append, List.length_cons] at h
    exact List.forall_mem_cons.2 ⟨length_splitOn_eq_one_iff.1 (by omega), ih (by omega)⟩

theorem flatMap_splitOn_of_not_mem (h : ∀ text ∈ texts, a ∉ text) :
    texts.flatMap (·.splitOn a) = texts := by
  induction texts with
  | nil => rfl
  | cons text texts ih =>
    obtain ⟨hfirst, hrest⟩ := List.forall_mem_cons.1 h
    rw [List.flatMap_cons, List.splitOn_eq_singleton hfirst, ih hrest, List.singleton_append]

end Pieces

namespace Typemap

/-- A rule with one pattern in place of its own. -/
def withPattern (map : Typemap) (pattern : String) : Typemap := { map with patterns := [pattern] }

/-- The declarations of some parameters, one behind the other. -/
def declarations (run : List Param) : String := ", ".intercalate (run.map Param.declaration)

/-- What stands between the commas of declarations one behind the other. -/
def pieces : List Param → List (List Char)
  | [] => []
  | p :: params => p.declaration.toList :: params.map fun q ↦ [' '] ++ q.declaration.toList

theorem toList_declarations (run : List Param) :
    (declarations run).toList = [','].intercalate (pieces run) := by
  cases run with
  | nil => rfl
  | cons p run =>
    rw [declarations, String.toList_intercalate, pieces, List.map_cons, List.map_cons,
      intercalate_cons_eq_flatMap, intercalate_cons_eq_flatMap, List.map_map, List.flatMap_map,
      List.flatMap_map]
    rfl

theorem parsePattern_declarations {run : List Param} (hrun : run ≠ []) :
    parsePattern (declarations run) =
      ((pieces run).flatMap (·.splitOn ',')).map ParamPattern.parse := by
  have hpieces : pieces run ≠ [] := by
    obtain ⟨p, run, rfl⟩ := List.exists_cons_of_ne_nil hrun
    exact List.cons_ne_nil _ _
  rw [parsePattern, toList_declarations, splitOn_intercalate_flatMap hpieces]

section Matching

variable {map : Typemap} {pattern : String} {p : Param} {m : Method} {run : List Param}
  {spaced : List (Bool × Token)}

theorem matchesParam_withPattern : (map.withPattern pattern).matchesParam p = true ↔
    ∃ part, parsePattern pattern = [part] ∧ part.Fits p := by
  have hparsed : (map.withPattern pattern).parsedPatterns = [parsePattern pattern] := rfl
  rw [matchesParam, hparsed, List.any_cons, List.any_nil, Bool.or_false]
  split
  · rename_i part hpart
    rw [ParamPattern.isMatch_iff]
    exact ⟨fun hfits ↦ ⟨part, hpart, hfits⟩, fun ⟨other, hother, hfits⟩ ↦ by
      cases hpart.symm.trans hother
      exact hfits⟩
  · rename_i hmany
    exact iff_of_false Bool.false_ne_true fun ⟨part, hpart, _⟩ ↦ hmany part hpart

theorem matchesMethod_withPattern : (map.withPattern pattern).matchesMethod m = true ↔
    FitsRun (parsePattern pattern) m.params := by
  rw [matchesMethod_iff, Matches, withPattern]
  simp

theorem fits_own_iff (h : p.IsNamed spaced) (hcomma : ',' ∉ p.type.toList) {blanks : List Char}
    (hblanks : ∀ c ∈ blanks, Text.isBlank c = true) :
    (ParamPattern.parse (blanks ++ p.declaration.toList)).Fits p ↔ p.IsOwnPattern := by
  rw [ParamPattern.fits_parse_declaration_iff h hblanks, ParamPattern.isOwnPattern_iff h,
    and_iff_right hcomma]

/-- The declaration of a parameter alone matches the parameter when this is its own pattern. -/
theorem matchesParam_own_iff (h : p.IsNamed spaced) :
    (map.withPattern p.declaration).matchesParam p = true ↔ p.IsOwnPattern := by
  rw [matchesParam_withPattern]
  by_cases hcomma : ',' ∈ p.type.toList
  -- With a comma the pattern has two parts at least, and matches no single parameter.
  · refine iff_of_false ?_ fun hown ↦ hown.1 hcomma
    rintro ⟨part, hpart, -⟩
    have hlength := congrArg List.length hpart
    rw [parsePattern, List.length_map, List.length_singleton, length_splitOn_eq_one_iff,
      ParamPattern.comma_mem_declaration_iff h] at hlength
    exact hlength hcomma
  · have hpattern : parsePattern p.declaration = [ParamPattern.parse p.declaration.toList] := by
      rw [parsePattern, List.splitOn_eq_singleton
        (mt (ParamPattern.comma_mem_declaration_iff h).1 hcomma)]
      rfl
    rw [hpattern, ← fits_own_iff h hcomma (List.forall_mem_nil _), List.nil_append]
    simp

theorem length_pieces (run : List Param) : (pieces run).length = run.length := by
  cases run <;> simp [pieces]

theorem forall_mem_pieces (h : ∀ p ∈ run, ∃ spaced, p.IsNamed spaced) :
    (∀ text ∈ pieces run, ',' ∉ text) ↔ ∀ p ∈ run, ',' ∉ p.type.toList := by
  have hdeclaration : ∀ p ∈ run, ',' ∈ p.declaration.toList ↔ ',' ∈ p.type.toList := fun p hp ↦
    let ⟨_, hnamed⟩ := h p hp
    ParamPattern.comma_mem_declaration_iff hnamed
  cases run with
  | nil => exact iff_of_true (List.forall_mem_nil _) (List.forall_mem_nil _)
  | cons p run =>
    obtain ⟨hp, hrun⟩ := List.forall_mem_cons.1 hdeclaration
    rw [pieces, List.forall_mem_cons, List.forall_mem_cons, hp, List.forall_mem_map]
    refine and_congr_right fun _ ↦ forall₂_congr fun q hq ↦ ?_
    rw [← hrun q hq]
    simp

/-- Pieces without commas are the patterns of a run just when each of its parameters matches its
own. -/
theorem fits_pieces_iff (h : ∀ p ∈ run, ∃ spaced, p.IsNamed spaced)
    (hcommas : ∀ p ∈ run, ',' ∉ p.type.toList) :
    List.Forall₂ ParamPattern.Fits ((pieces run).map ParamPattern.parse) run ↔
      ∀ p ∈ run, p.IsOwnPattern := by
  have hfits {blanks : List Char} (hblanks : ∀ c ∈ blanks, Text.isBlank c = true) : ∀ p ∈ run,
      (ParamPattern.parse (blanks ++ p.declaration.toList)).Fits p ↔ p.IsOwnPattern := fun p hp ↦
    let ⟨_, hnamed⟩ := h p hp
    fits_own_iff hnamed (hcommas p hp) hblanks
  have hspace : ∀ c ∈ [' '], Text.isBlank c = true := List.forall_mem_singleton.2 rfl
  cases run with
  | nil => exact iff_of_true .nil (List.forall_mem_nil _)
  | cons p run =>
    rw [pieces, List.map_cons, List.forall₂_cons, List.forall_mem_cons, List.map_map,
      List.forall₂_map_left_iff, List.forall₂_same]
    have hfirst := hfits (List.forall_mem_nil _) p List.mem_cons_self
    have hrest := fun q hq ↦ hfits hspace q (List.mem_cons_of_mem _ hq)
    rw [List.nil_append] at hfirst
    simp only [Function.comp_apply]
    exact and_congr hfirst (forall₂_congr hrest)

theorem length_le_of_fitsRun {parts : List ParamPattern} (h : FitsRun parts run) :
    parts.length ≤ run.length := by
  obtain ⟨before, part, after, rfl, hfits⟩ := h
  rw [hfits.length_eq, List.length_append, List.length_append]
  omega

/-- Patterns that are no fewer than the parameters fit all of them. -/
theorem forall₂_of_fitsRun {parts : List ParamPattern} (h : FitsRun parts run)
    (hlength : run.length ≤ parts.length) : List.Forall₂ ParamPattern.Fits parts run := by
  obtain ⟨before, part, after, rfl, hfits⟩ := h
  rw [hfits.length_eq, List.length_append, List.length_append] at hlength
  have hbefore : before = [] := List.eq_nil_of_length_eq_zero (by omega)
  have hafter : after = [] := List.eq_nil_of_length_eq_zero (by omega)
  rwa [hbefore, hafter, List.nil_append, List.append_nil]

/-- A pattern has a part for each parameter that it declares, and more if there are commas. -/
theorem matchesMethod_declarations_iff (h : ∀ p ∈ run, ∃ spaced, p.IsNamed spaced) :
    (∀ m : Method, run <:+: m.params →
        (map.withPattern (declarations run)).matchesMethod m = true) ↔
      run ≠ [] ∧ ∀ p ∈ run, p.IsOwnPattern := by
  constructor
  · intro hall
    -- A method without other parameters has no room for more parts.
    have hself : FitsRun (parsePattern (declarations run)) run :=
      matchesMethod_withPattern.1
        (hall { Method.named "" with params := run } (List.infix_refl run))
    have hle := length_le_of_fitsRun hself
    have hne : run ≠ [] := by
      rintro rfl
      rw [parsePattern, List.length_map] at hle
      exact List.splitOn_ne_nil _ _ (List.eq_nil_of_length_eq_zero (Nat.le_zero.1 hle))
    rw [parsePattern_declarations hne] at hself hle
    rw [List.length_map, ← length_pieces run] at hle
    have hpieces := not_mem_of_length_splitOn hle
    rw [flatMap_splitOn_of_not_mem hpieces] at hself
    have hfits := forall₂_of_fitsRun hself (by rw [List.length_map, length_pieces])
    exact ⟨hne, (fits_pieces_iff h ((forall_mem_pieces h).1 hpieces)).1 hfits⟩
  · rintro ⟨hne, hown⟩ m ⟨before, after, hparams⟩
    have hcommas : ∀ p ∈ run, ',' ∉ p.type.toList := fun p hp ↦ (hown p hp).1
    rw [matchesMethod_withPattern, parsePattern_declarations hne,
      flatMap_splitOn_of_not_mem ((forall_mem_pieces h).2 hcommas)]
    exact ⟨before, run, after, hparams.symm, (fits_pieces_iff h hcommas).2 hown⟩

/-- For parameters that are declared by types that are read as tokens and by identifiers. The
declaration of a parameter, as the only pattern of a rule, matches the parameter just when its type
has no comma and is spaced as its tokens are joined. Their declarations one behind the other, as the
only pattern, match every method that has the parameters in a row just when there are some and this
holds of each of them. -/
theorem own_pattern_matches_iff (h : ∀ p ∈ run, ∃ spaced, p.IsNamed spaced) (map : Typemap) :
    (∀ p ∈ run, (map.withPattern p.declaration).matchesParam p = true ↔ p.IsOwnPattern) ∧
      ((∀ m : Method, run <:+: m.params →
          (map.withPattern (declarations run)).matchesMethod m = true) ↔
        run ≠ [] ∧ ∀ p ∈ run, p.IsOwnPattern) := by
  refine ⟨fun p hp ↦ ?_, matchesMethod_declarations_iff h⟩
  obtain ⟨_, hnamed⟩ := h p hp
  exact matchesParam_own_iff hnamed

end Matching

end Typemap

namespace Choices

def count : Param := { name := "n", type := "int" }

def choices : Param := { name := "choices", type := "const wxString", array := true }

/-- Names by numbers. Their type has a comma between its arguments. -/
def names : Param := { name := "names", type := "std::map<int, wxString>" }

/-- A window that is spaced otherwise than its tokens are joined. -/
def parent : Param := { name := "parent", type := "wxWindow *const" }

theorem count_isNamed : count.IsNamed [(false, .ofName "int")] :=
  ⟨.token rfl (.done rfl), by decide, ⟨by decide, List.all_eq_true.1 rfl, by decide⟩, rfl⟩

theorem choices_isNamed :
    choices.IsNamed [(false, .ofName "const"), (true, .ofName "wxString")] :=
  ⟨.token rfl (.token rfl (.done rfl)), by decide,
    ⟨by decide, List.all_eq_true.1 rfl, by decide⟩, rfl⟩

theorem forall_isNamed : ∀ p ∈ [count, choices], ∃ spaced, p.IsNamed spaced :=
  List.forall_mem_cons.2 ⟨⟨_, count_isNamed⟩, List.forall_mem_singleton.2 ⟨_, choices_isNamed⟩⟩

theorem count_isOwnPattern : count.IsOwnPattern :=
  ⟨by decide, _, count_isNamed.type, .singleton _⟩

theorem choices_isOwnPattern : choices.IsOwnPattern :=
  ⟨by decide, _, choices_isNamed.type, .cons_cons (fun _ ↦ rfl) (.singleton _)⟩

end Choices

open Choices in
/-- A number of choices and the choices are matched by their own declarations, each alone and both
in a row. -/
theorem choices_own_patterns : (∀ p ∈ [count, choices], ∃ spaced, p.IsNamed spaced) ∧
    (({} : Typemap).withPattern "int n").matchesParam count = true ∧
    (({} : Typemap).withPattern "const wxString choices[]").matchesParam choices = true ∧
    ∀ m : Method, [count, choices] <:+: m.params →
      (({} : Typemap).withPattern "int n, const wxString choices[]").matchesMethod m = true := by
  obtain ⟨hparams, hmethods⟩ := Typemap.own_pattern_matches_iff forall_isNamed {}
  have hown : ∀ p ∈ [count, choices], p.IsOwnPattern :=
    List.forall_mem_cons.2 ⟨count_isOwnPattern, List.forall_mem_singleton.2 choices_isOwnPattern⟩
  have hcount : count.declaration = "int n" := by decide +kernel
  have hchoices : choices.declaration = "const wxString choices[]" := by decide +kernel
  have hrun : Typemap.declarations [count, choices] = "int n, const wxString choices[]" := by
    decide +kernel
  rw [← hcount, ← hchoices, ← hrun]
  exact ⟨forall_isNamed, (hparams count (by simp)).2 count_isOwnPattern,
    (hparams choices (by simp)).2 choices_isOwnPattern,
    hmethods.2 ⟨List.cons_ne_nil _ _, hown⟩⟩

open Choices in
/-- A map with a comma between its arguments is not matched by its own declaration, and neither is a
window whose type is spaced otherwise than its tokens are joined. -/
theorem names_unmatched :
    names.IsNamed [(false, .ofName "std::map"), (false, .symbol '<'), (false, .ofName "int"),
      (false, .symbol ','), (true, .ofName "wxString"), (false, .symbol '>')] ∧
    (({} : Typemap).withPattern names.declaration).matchesParam names = false ∧
    (({} : Typemap).withPattern names.declaration).matchesMethod
      { Method.named "Set" with params := [names] } = false ∧
    parent.IsNamed [(false, .ofName "wxWindow"), (true, .symbol '*'), (false, .ofName "const")] ∧
    (({} : Typemap).withPattern parent.declaration).matchesParam parent = false := by
  refine ⟨⟨?_, by decide, ⟨by decide, List.all_eq_true.1 rfl, by decide⟩, rfl⟩, by decide +kernel,
    by decide +kernel, ⟨?_, by decide, ⟨by decide, List.all_eq_true.1 rfl, by decide⟩, rfl⟩,
    by decide +kernel⟩
  · exact .token rfl (.token rfl (.token rfl (.token rfl (.token rfl (.token rfl (.done rfl))))))
  · exact .token rfl (.token rfl (.token rfl (.done rfl)))

end Bindery
