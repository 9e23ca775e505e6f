import Bindery.Proofs.Decl.Parameters
import Bindery.Proofs.Except

/-!
What parameter lists are written with. A text is spelled as lexemes, which are tokens and default
values (`Prototype.Spells`), and what is written for a parameter is a layout: some pieces, and a
default value behind them. A parameter is read from a text exactly when the text is spelled as a
layout with a separator behind it (`Prototype.readParam_eq_ok_iff`), and a list of parameters
exactly when it is spelled as layouts with commas between them (`Prototype.readParams_eq_ok_iff`).
Between the pieces nothing is asked for: outside of template brackets they may be any tokens but
the delimiters, and brackets of an array may stand anywhere among them.
-/

set_option autoImplicit false
set_option relaxedAutoImplicit false

namespace Bindery

namespace Prototype

open Token

/-! ### Lexemes -/

/-- A default value as it stands: not blank, and with nothing left open in it. -/
structure IsRawDefault (value : List Char) : Prop where
  trimmed_ne_nil : Text.trimChars value ≠ []
  closed : isClosed none 0 value = true

/-- What prototypes are written with: tokens, and default values with the `=` in front of them. -/
inductive Lexeme
  | token (t : Token)
  | default (value : List Char)
  deriving Repr, DecidableEq

/-- Reading lexemes one after another from a text leaves `rest`. A default value is the raw text
up to a separator. -/
inductive Spells : List Char → List Lexeme → List Char → Prop
  | done {rest : List Char} : Spells rest [] rest
  | token {cs start mid rest : List Char} {t : Token} {ls : List Lexeme}
    (h : next cs = .found t start mid) (hmid : Spells mid ls rest) :
    Spells cs (.token t :: ls) rest
  | default {cs start mid rest value : List Char} {c : Char} {ls : List Lexeme}
    (h : next cs = .found (.symbol '=') start (value ++ c :: mid)) (hvalue : IsRawDefault value)
    (hc : IsSeparator c) (hmid : Spells (c :: mid) ls rest) :
    Spells cs (.default value :: ls) rest

section Spells

variable {cs rest : List Char} {t : Token} {value : List Char} {ls more : List Lexeme}

theorem spells_nil_iff : Spells cs [] rest ↔ rest = cs := by
  constructor
  · rintro ⟨⟩
    rfl
  · rintro rfl
    exact .done

theorem spells_token_iff : Spells cs (.token t :: ls) rest ↔
    ∃ start mid, next cs = .found t start mid ∧ Spells mid ls rest := by
  constructor
  · intro h
    cases h with
    | token h hmid => exact ⟨_, _, h, hmid⟩
  · rintro ⟨start, mid, h, hmid⟩
    exact .token h hmid

theorem spells_default_iff : Spells cs (.default value :: ls) rest ↔
    ∃ start c mid, next cs = .found (.symbol '=') start (value ++ c :: mid) ∧ IsRawDefault value ∧
      IsSeparator c ∧ Spells (c :: mid) ls rest := by
  constructor
  · intro h
    cases h with
    | default h hvalue hc hmid => exact ⟨_, _, _, h, hvalue, hc, hmid⟩
  · rintro ⟨start, c, mid, h, hvalue, hc, hmid⟩
    exact .default h hvalue hc hmid

theorem spells_append_iff : Spells cs (ls ++ more) rest ↔
    ∃ mid, Spells cs ls mid ∧ Spells mid more rest := by
  constructor
  · intro h
    induction ls generalizing cs with
    | nil => exact ⟨cs, .done, h⟩
    | cons l ls ih =>
      cases h with
      | token h hmid =>
        obtain ⟨mid, hls, hmore⟩ := ih hmid
        exact ⟨mid, .token h hls, hmore⟩
      | default h hvalue hc hmid =>
        obtain ⟨mid, hls, hmore⟩ := ih hmid
        exact ⟨mid, .default h hvalue hc hls, hmore⟩
  · rintro ⟨mid, hls, hmore⟩
    induction hls with
    | done => exact hmore
    | token h _ ih => exact .token h (ih hmore)
    | default h hvalue hc _ ih => exact .default h hvalue hc (ih hmore)

theorem spells_of_reads {ts : List Token} (h : Reads cs ts rest) :
    Spells cs (ts.map .token) rest := by
  induction h with
  | done => exact .done
  | token h _ ih => exact .token h ih

theorem Spells.blank (hne : ls ≠ []) (h : Spells cs ls rest) : Spells (' ' :: cs) ls rest := by
  cases h with
  | done => exact (hne rfl).elim
  | token h hmid => exact .token h hmid
  | default h hvalue hc hmid => exact .default h hvalue hc hmid

theorem next_separator {c : Char} (hc : IsSeparator c) (cs : List Char) :
    next (c :: cs) = .found (.symbol c) (c :: cs) cs := by
  rcases hc with rfl | rfl <;> exact next_symbol rfl _

/-- The token that a lexeme begins with. -/
def Lexeme.first : Lexeme → Token
  | .token t => t
  | .default _ => .symbol '='

/-- Whether a text ends or goes on with another token than `t`. -/
def Lacks (t : Token) (cs : List Char) : Prop :=
  next cs = .finished ∨ ∃ u start rest, next cs = .found u start rest ∧ u ≠ t

theorem next_of_spells {l : Lexeme} (h : Spells cs (l :: ls) rest) :
    ∃ start mid, next cs = .found l.first start mid := by
  cases h with
  | token h _ => exact ⟨_, _, h⟩
  | default h _ _ _ => exact ⟨_, _, h⟩

theorem lacks_iff_of_next {u : Token} {start : List Char} (h : next cs = .found u start rest) :
    Lacks t cs ↔ u ≠ t := by
  simp [Lacks, h]

/-- A token that may be missing. -/
def optional (t : Token) (taken : Bool) : List Lexeme := if taken then [.token t] else []

theorem accept_eq_true_iff : accept t cs = .ok (true, rest) ↔
    ∃ start, next cs = .found t start rest := by
  rw [accept]
  cases next cs with
  | finished => simp
  | unexpected c start => simp
  | found u start mid => by_cases hu : u = t <;> simp [hu]

theorem accept_eq_false_iff : accept t cs = .ok (false, rest) ↔ rest = cs ∧ Lacks t cs := by
  rw [accept, Lacks]
  cases next cs with
  | finished => simp [eq_comm]
  | unexpected c start => simp
  | found u start mid =>
    by_cases hu : u = t
    · simp [hu]
    · simp only [if_neg hu, Except.ok.injEq, Prod.mk.injEq, true_and, reduceCtorEq, false_or]
      exact ⟨fun h ↦ ⟨h.symm, u, start, mid, rfl, hu⟩, fun h ↦ h.1.symm⟩

/-- A token is taken when it is the next one, and passed over when it is not. -/
theorem accept_eq_ok_iff {taken : Bool} : accept t cs = .ok (taken, rest) ↔
    Spells cs (optional t taken) rest ∧ (taken = false → Lacks t rest) := by
  cases taken with
  | true =>
    rw [accept_eq_true_iff, optional, if_pos rfl, spells_token_iff]
    simp [spells_nil_iff]
  | false =>
    rw [accept_eq_false_iff, optional, if_neg Bool.false_ne_true, spells_nil_iff]
    refine and_congr_right fun hrest ↦ ?_
    rw [hrest]
    exact ⟨fun h _ ↦ h, fun h ↦ h rfl⟩

end Spells

/-! ### Parameters -/

/-- A piece of what is written for a parameter in front of its default value. -/
inductive Piece
  | token (t : Token)
  /-- The brackets of an array. -/
  | brackets
  deriving Repr, DecidableEq

namespace Piece

def lexemes : Piece → List Lexeme
  | .token t => [.token t]
  | .brackets => [.token (.symbol '['), .token (.symbol ']')]

def token? : Piece → Option Token
  | .token t => some t
  | .brackets => none

def isBrackets : Piece → Bool
  | .token _ => false
  | .brackets => true

end Piece

/-- The tokens that end the type and the name of a parameter. -/
def delimiters : List Token := [.symbol ',', .symbol ')', .symbol '=', .symbol '[']

/-- Whether pieces can stand in front of a default value or a separator, with `depth` template
brackets open in front of them: all that these open is closed, and a delimiter stands only between
them. -/
def isBody (depth : Nat) : List Piece → Bool
  | [] => depth == 0
  | .brackets :: pieces => depth == 0 && isBody 0 pieces
  | .token t :: pieces =>
    (depth != 0 || !delimiters.contains t) && isBody (nesting depth t) pieces

/-- What is written for a parameter. -/
structure ParamLayout where
  pieces : List Piece
  /-- The default value, with the white space around it. -/
  default : Option (List Char) := none
  deriving Repr, DecidableEq

namespace ParamLayout

/-- The tokens of the type and the name. -/
def tokens (p : ParamLayout) : List Token := p.pieces.filterMap Piece.token?

def isArray (p : ParamLayout) : Bool := p.pieces.any Piece.isBrackets

def lexemes (p : ParamLayout) : List Lexeme :=
  p.pieces.flatMap Piece.lexemes ++ (p.default.map Lexeme.default).toList

/-- The parameter as it is read, with whether it is the last one. -/
def draft (p : ParamLayout) (last : Bool) : Draft where
  tokens := p.tokens
  array := p.isArray
  default := p.default.map fun value ↦ String.ofList (Text.trimChars value)
  last := last

@[simp]
theorem tokens_draft (p : ParamLayout) (last : Bool) : (p.draft last).tokens = p.tokens := rfl

def toParam (p : ParamLayout) : Param := (p.draft false).toParam

/-- A lone `void` declares no parameter. -/
def isLoneVoid (p : ParamLayout) : Bool := p.tokens == [.ofName "void"]

/-- A layout with a piece in front. -/
def cons (piece : Piece) (p : ParamLayout) : ParamLayout := { p with pieces := piece :: p.pieces }

/-- The brackets of an array, if there are any, stand behind all tokens. -/
def plain (ts : List Token) (array : Bool) (default : Option (List Char)) : ParamLayout where
  pieces := ts.map .token ++ if array then [.brackets] else []
  default := default

theorem tokens_plain (ts : List Token) (array : Bool) (default : Option (List Char)) :
    (plain ts array default).tokens = ts := by
  have htokens : (ts.map Piece.token).filterMap Piece.token? = ts := by
    rw [List.filterMap_map]
    exact List.filterMap_some
  cases array <;> simp [tokens, plain, htokens, Piece.token?]

theorem isArray_plain (ts : List Token) (array : Bool) (default : Option (List Char)) :
    (plain ts array default).isArray = array := by
  cases array <;> simp [isArray, plain, Piece.isBrackets]

theorem lexemes_plain (ts : List Token) (array : Bool) (default : Option (List Char)) :
    (plain ts array default).lexemes = ts.map .token ++
      (if array then [.token (.symbol '['), .token (.symbol ']')] else []) ++
      (default.map Lexeme.default).toList := by
  have hlexemes : (ts.map Piece.token).flatMap Piece.lexemes = ts.map .token := by
    rw [List.flatMap_map]
    exact List.map_eq_flatMap.symm
  cases array <;> simp [lexemes, plain, hlexemes, Piece.lexemes]

/-- Whether a layout can be read, with `depth` template brackets open in front of it. -/
structure FitsAt (depth : Nat) (p : ParamLayout) : Prop where
  body : isBody depth p.pieces = true
  default : ∀ value ∈ p.default, IsRawDefault value

end ParamLayout

section Param

variable {cs start mid rest : List Char} {t : Token} {d : Draft} {depth : Nat}

theorem readDefault_eq_ok_iff : readDefault cs = .ok (d, rest) ↔
    ∃ value c, IsRawDefault value ∧ IsSeparator c ∧ cs = value ++ c :: rest ∧
      d = { default := some (String.ofList (Text.trimChars value)), last := c == ')' } := by
  rw [readDefault]
  constructor
  · intro h
    split at h
    · cases h
    · rename_i value last rest' hscan
      simp only at h
      split at h
      · cases h
      · rename_i hempty
        cases h
        obtain ⟨hclosed, c, hc, rfl, rfl⟩ := isClosed_of_scanDefault hscan
        exact ⟨value, c, ⟨by simpa using hempty, hclosed⟩, hc, rfl, rfl⟩
  · rintro ⟨value, c, hvalue, hc, rfl, rfl⟩
    have hempty : ¬(Text.trimChars value).isEmpty = true := by
      simpa using hvalue.trimmed_ne_nil
    rw [scanDefault_append hvalue.closed hc]
    simp only [if_neg hempty]

theorem closeBracket_eq_ok_iff : closeBracket cs = .ok ((), rest) ↔
    ∃ start, next cs = .found (.symbol ']') start rest := by
  rw [closeBracket]
  cases next cs with
  | finished => simp
  | unexpected c start => simp
  | found t start rest' =>
    by_cases ht : t = .symbol ']' <;> simp [ht]

/-- What a token is for the parameter that it begins. -/
theorem mem_delimiters_iff : t ∈ delimiters ↔
    t = .symbol ',' ∨ t = .symbol ')' ∨ t = .symbol '=' ∨ t = .symbol '[' := by
  simp [delimiters]

namespace ParamLayout

variable {p : ParamLayout}

theorem lexemes_cons (piece : Piece) (p : ParamLayout) :
    (p.cons piece).lexemes = piece.lexemes ++ p.lexemes := by
  simp [lexemes, cons]

theorem FitsAt.cons_token (h : p.FitsAt (nesting depth t))
    (ht : depth = 0 → t ∉ delimiters) : (p.cons (.token t)).FitsAt depth := by
  refine ⟨?_, h.default⟩
  rw [cons, isBody, h.body, Bool.and_true, Bool.or_eq_true, bne_iff_ne, Bool.not_eq_true']
  by_cases hdepth : depth = 0
  · exact .inr (by simpa using ht hdepth)
  · exact .inl hdepth

theorem FitsAt.cons_brackets (h : p.FitsAt 0) : (p.cons .brackets).FitsAt 0 :=
  ⟨h.body, h.default⟩

end ParamLayout

/-- Grouped tokens can stand in front of the brackets of an array or the end of a parameter. -/
theorem isBody_of_isGrouped {depth : Nat} {ts : List Token} {pieces : List Piece}
    (h : ParamText.isGrouped depth ts = true) (hpieces : isBody 0 pieces = true) :
    isBody depth (ts.map .token ++ pieces) = true := by
  induction ts generalizing depth with
  | nil =>
    obtain rfl : depth = 0 := beq_iff_eq.1 h
    exact hpieces
  | cons t ts ih =>
    obtain ⟨hpart, h⟩ := Bool.and_eq_true_iff.1 h
    rw [List.map_cons, List.cons_append, isBody, ih h, Bool.and_true, Bool.or_eq_true]
    refine (Bool.or_eq_true_iff.1 hpart).imp_right fun hpart ↦ ?_
    have hdelimiters : delimiters.all (!ParamText.isTypePart ·) = true := by decide
    by_contra hmem
    have ht : t ∈ delimiters := by simpa using hmem
    simpa [hpart] using List.all_eq_true.1 hdelimiters t ht

/-- A parameter that is read is spelled as a layout with a separator behind it. -/
theorem exists_layout_of_readParam (h : readParam depth cs = .ok (d, rest)) :
    ∃ (p : ParamLayout) (c : Char), p.FitsAt depth ∧ IsSeparator c ∧
      Spells cs (p.lexemes ++ [.token (.symbol c)]) rest ∧ d = p.draft (c == ')') := by
  fun_induction readParam depth cs generalizing d rest with
  | case1 => cases h
  | case2 => cases h
  | case3 depth cs t start tail hnext _ hcomma =>
    obtain ⟨rfl, rfl⟩ := hcomma
    cases h
    exact ⟨⟨[], none⟩, ',', ⟨rfl, by simp⟩, .inl rfl, .token hnext .done, rfl⟩
  | case4 depth cs t start tail hnext _ _ hparen =>
    obtain ⟨rfl, rfl⟩ := hparen
    cases h
    exact ⟨⟨[], none⟩, ')', ⟨rfl, by simp⟩, .inr rfl, .token hnext .done, rfl⟩
  | case5 depth cs t start tail hnext _ _ _ hdefault =>
    obtain ⟨rfl, rfl⟩ := hdefault
    obtain ⟨value, c, hvalue, hc, rfl, rfl⟩ := readDefault_eq_ok_iff.1 h
    exact ⟨⟨[], some value⟩, c, ⟨rfl, by simpa using hvalue⟩, hc,
      .default hnext hvalue hc (.token (next_separator hc _) .done), rfl⟩
  | case6 => cases h
  | case7 depth cs t start tail hnext _ _ _ _ hopens u tail' hclose _ ih =>
    obtain ⟨rfl, rfl⟩ := hopens
    obtain ⟨⟨d', rest'⟩, hread, heq⟩ := exists_of_map_eq_ok h
    cases heq
    obtain ⟨p, c, hp, hc, hspells, rfl⟩ := ih hread
    obtain ⟨_, hclosing⟩ := closeBracket_eq_ok_iff.1 hclose
    refine ⟨p.cons .brackets, c, hp.cons_brackets, hc, ?_, rfl⟩
    rw [ParamLayout.lexemes_cons]
    exact .token hnext (.token hclosing hspells)
  | case8 depth cs t start tail hnext _ hcomma hparen hdefault hopens ih =>
    obtain ⟨⟨d', rest'⟩, hread, heq⟩ := exists_of_map_eq_ok h
    cases heq
    obtain ⟨p, c, hp, hc, hspells, rfl⟩ := ih hread
    have ht : depth = 0 → t ∉ delimiters := by
      rw [mem_delimiters_iff]
      rintro hdepth (ht | ht | ht | ht)
      · exact hcomma ⟨hdepth, ht⟩
      · exact hparen ⟨hdepth, ht⟩
      · exact hdefault ⟨hdepth, ht⟩
      · exact hopens ⟨hdepth, ht⟩
    refine ⟨p.cons (.token t), c, hp.cons_token ht, hc, ?_, rfl⟩
    rw [ParamLayout.lexemes_cons]
    exact .token hnext hspells

/-- What is read behind pieces, with what they say in front of it. -/
def Draft.behind (pieces : List Piece) (d : Draft) : Draft :=
  { d with
    tokens := pieces.filterMap Piece.token? ++ d.tokens
    array := pieces.any Piece.isBrackets || d.array }

/-- Pieces are read one after another, and then what stands behind them. -/
theorem readParam_of_spells_pieces {pieces : List Piece} (hbody : isBody depth pieces = true)
    (h : Spells cs (pieces.flatMap Piece.lexemes) mid) :
    readParam depth cs = (readParam 0 mid).map (Prod.map (.behind pieces) id) := by
  induction pieces generalizing depth cs with
  | nil =>
    obtain rfl : depth = 0 := beq_iff_eq.1 hbody
    obtain rfl := spells_nil_iff.1 h
    cases readParam 0 mid <;> rfl
  | cons piece pieces ih =>
    rw [List.flatMap_cons] at h
    cases piece with
    | brackets =>
      obtain ⟨hdepth, hbody⟩ := Bool.and_eq_true_iff.1 hbody
      obtain rfl : depth = 0 := beq_iff_eq.1 hdepth
      obtain ⟨_, _, hopening, h⟩ := spells_token_iff.1 h
      obtain ⟨_, _, hclosing, h⟩ := spells_token_iff.1 h
      rw [readParam_of_next hopening, if_neg (by decide), if_neg (by decide), if_neg (by decide),
        if_pos ⟨rfl, rfl⟩, closeBracket_eq_ok_iff.2 ⟨_, hclosing⟩]
      simp only [ih hbody h]
      cases readParam 0 mid <;> rfl
    | token t =>
      obtain ⟨hplain, hbody⟩ := Bool.and_eq_true_iff.1 hbody
      obtain ⟨_, _, hnext, h⟩ := spells_token_iff.1 h
      have hother : ∀ u ∈ delimiters, ¬(depth = 0 ∧ t = u) := by
        rintro u hu ⟨rfl, rfl⟩
        simp [hu] at hplain
      rw [readParam_of_next hnext, if_neg (hother _ (by decide)), if_neg (hother _ (by decide)),
        if_neg (hother _ (by decide)), if_neg (hother _ (by decide)), ih hbody h]
      cases readParam 0 mid <;> rfl

/-- A layout with a separator behind it is read as its parameter. -/
theorem readParam_of_spells {p : ParamLayout} {c : Char} (hp : p.FitsAt depth)
    (hc : IsSeparator c) (h : Spells cs (p.lexemes ++ [.token (.symbol c)]) rest) :
    readParam depth cs = .ok (p.draft (c == ')'), rest) := by
  obtain ⟨pieces, default⟩ := p
  rw [ParamLayout.lexemes, List.append_assoc] at h
  obtain ⟨mid, hpieces, h⟩ := spells_append_iff.1 h
  have hend {last : Bool} {default : Option String}
      (hread : readParam 0 mid = .ok ({ default, last }, rest)) :
      readParam depth cs =
        .ok (⟨pieces.filterMap Piece.token?, pieces.any Piece.isBrackets, default, last⟩,
          rest) := by
    rw [readParam_of_spells_pieces hp.body hpieces, hread]
    simp [Except.map, Draft.behind]
  cases default with
  | none =>
    obtain ⟨start, after, hnext, h⟩ := spells_token_iff.1 h
    obtain rfl := spells_nil_iff.1 h
    refine hend ((readParam_of_next hnext).trans ?_)
    rcases hc with rfl | rfl <;> rfl
  | some value =>
    obtain ⟨start, c', after, hnext, hvalue, hc', h⟩ := spells_default_iff.1 h
    obtain ⟨_, _, hnext', h⟩ := spells_token_iff.1 h
    rw [next_separator hc'] at hnext'
    cases hnext'
    obtain rfl := spells_nil_iff.1 h
    refine hend ?_
    rw [readParam_of_next hnext, if_neg (by decide), if_neg (by decide), if_pos ⟨rfl, rfl⟩]
    exact readDefault_eq_ok_iff.2 ⟨value, c, hvalue, hc, rfl, rfl⟩

theorem readParam_eq_ok_iff : readParam depth cs = .ok (d, rest) ↔
    ∃ (p : ParamLayout) (c : Char), p.FitsAt depth ∧ IsSeparator c ∧
      Spells cs (p.lexemes ++ [.token (.symbol c)]) rest ∧ d = p.draft (c == ')') := by
  constructor
  · exact exists_layout_of_readParam
  · rintro ⟨p, c, hp, hc, h, rfl⟩
    exact readParam_of_spells hp hc h

end Param

/-! ### Parameter lists -/

namespace ParamLayout

/-- Whether a layout can be read as a parameter. -/
structure Fits (p : ParamLayout) : Prop extends p.FitsAt 0 where
  tokens_ne_nil : p.tokens ≠ []

theorem fits_plain {ts : List Token} {array : Bool} {default : Option (List Char)}
    (hgrouped : ParamText.isGrouped 0 ts = true) (hne : ts ≠ [])
    (hdefault : ∀ value ∈ default, IsRawDefault value) : (plain ts array default).Fits := by
  refine ⟨⟨isBody_of_isGrouped hgrouped ?_, hdefault⟩, by rwa [tokens_plain]⟩
  cases array <;> rfl

/-- What is written for a list of parameters. -/
def listLexemes (ps : List ParamLayout) : List Lexeme :=
  [Lexeme.token (.symbol ',')].intercalate (ps.map lexemes)

/-- The parameters of a list that stands behind others, of which some were kept. Each lone `void` in
front of all other parameters is left out. -/
def declared (kept : Bool) (ps : List ParamLayout) : List Param :=
  (if kept then ps else ps.dropWhile isLoneVoid).map toParam

theorem listLexemes_singleton (p : ParamLayout) : listLexemes [p] = p.lexemes :=
  List.intercalate_singleton

theorem listLexemes_cons {ps : List ParamLayout} (hne : ps ≠ []) (p : ParamLayout) :
    listLexemes (p :: ps) = p.lexemes ++ [.token (.symbol ',')] ++ listLexemes ps := by
  rw [listLexemes, List.map_cons, List.intercalate_cons_of_ne_nil (by simpa using hne)]
  rfl

theorem exists_listLexemes_cons (p : ParamLayout) (ps : List ParamLayout) :
    ∃ ls, listLexemes (p :: ps) = p.lexemes ++ ls := by
  by_cases hps : ps = []
  · exact ⟨[], by rw [hps, listLexemes_singleton, List.append_nil]⟩
  · exact ⟨_, by rw [listLexemes_cons hps, List.append_assoc]⟩

/-- What is written for a list of parameters in front of another one. -/
def leadingLexemes (ps : List ParamLayout) : List Lexeme :=
  ps.flatMap fun p ↦ p.lexemes ++ [.token (.symbol ',')]

/-- A parameter of a list stands between the ones before it and a separator. -/
theorem exists_listLexemes_append_cons (before after : List ParamLayout) :
    ∃ c rest, IsSeparator c ∧ ∀ p,
      listLexemes (before ++ p :: after) ++ [.token (.symbol ')')] =
        leadingLexemes before ++ (p.lexemes ++ .token (.symbol c) :: rest) := by
  induction before with
  | nil =>
    cases after with
    | nil => exact ⟨')', [], .inr rfl, fun p ↦ congrArg (· ++ _) (listLexemes_singleton p)⟩
    | cons q after =>
      refine ⟨',', listLexemes (q :: after) ++ [.token (.symbol ')')], .inl rfl, fun p ↦ ?_⟩
      rw [List.nil_append, listLexemes_cons (List.cons_ne_nil q after), List.append_assoc,
        List.append_assoc]
      rfl
  | cons q before ih =>
    obtain ⟨c, rest, hc, hlist⟩ := ih
    refine ⟨c, rest, hc, fun p ↦ ?_⟩
    have hne : before ++ p :: after ≠ [] := by simp
    rw [List.cons_append, listLexemes_cons hne, List.append_assoc, hlist, ← List.append_assoc]
    rfl

theorem declared_nil (kept : Bool) : declared kept [] = [] := by
  cases kept <;> rfl

theorem declared_cons (kept : Bool) (p : ParamLayout) (ps : List ParamLayout) :
    declared kept (p :: ps) = (if p.isLoneVoid && !kept then [] else [p.toParam]) ++
      declared (kept || !(if p.isLoneVoid && !kept then [] else [p.toParam]).isEmpty) ps := by
  cases kept with
  | true => simp [declared]
  | false => cases hp : p.isLoneVoid <;> simp [declared, hp]

end ParamLayout

section Params

variable {cs rest : List Char} {kept : Bool} {params : List Param}

theorem exists_layouts_of_readParamList (h : readParamList kept cs = .ok (params, rest)) :
    ∃ ps : List ParamLayout, ps ≠ [] ∧ (∀ p ∈ ps, p.Fits) ∧
      Spells cs (ParamLayout.listLexemes ps ++ [.token (.symbol ')')]) rest ∧
      params = ParamLayout.declared kept ps := by
  fun_induction readParamList kept cs generalizing params rest with
  | case1 => cases h
  | case2 => cases h
  | case3 kept cs draft rest' hread _ hempty =>
    rename_i here hlast
    obtain ⟨p, c, hp, -, hspells, rfl⟩ := readParam_eq_ok_iff.1 hread
    obtain rfl : c = ')' := beq_iff_eq.1 hlast
    obtain ⟨rfl, rfl⟩ := Prod.mk.inj (Except.ok.inj h)
    have hfits : p.Fits := ⟨hp, by simpa using hempty⟩
    refine ⟨[p], List.cons_ne_nil _ _, List.forall_mem_singleton.2 hfits, ?_, ?_⟩
    · rwa [ParamLayout.listLexemes_singleton]
    · rw [ParamLayout.declared_cons, ParamLayout.declared_nil, List.append_nil]
      rfl
  | case4 kept cs draft rest' hread _ hempty =>
    rename_i here hlast ih
    obtain ⟨p, c, hp, hc, hspells, rfl⟩ := readParam_eq_ok_iff.1 hread
    obtain rfl : c = ',' := hc.resolve_right fun heq ↦ hlast (beq_iff_eq.2 heq)
    obtain ⟨⟨more, rest''⟩, hmore, heq⟩ := exists_of_map_eq_ok h
    cases heq
    obtain ⟨ps, hne, hps, hspellsMore, rfl⟩ := ih hmore
    have hfits : p.Fits := ⟨hp, by simpa using hempty⟩
    refine ⟨p :: ps, List.cons_ne_nil _ _, List.forall_mem_cons.2 ⟨hfits, hps⟩, ?_, ?_⟩
    · rw [ParamLayout.listLexemes_cons hne, List.append_assoc]
      exact spells_append_iff.2 ⟨rest', hspells, hspellsMore⟩
    · rw [ParamLayout.declared_cons]
      rfl

theorem readParamList_of_spells {ps : List ParamLayout} (hne : ps ≠ []) (hps : ∀ p ∈ ps, p.Fits)
    (h : Spells cs (ParamLayout.listLexemes ps ++ [.token (.symbol ')')]) rest) :
    readParamList kept cs = .ok (ParamLayout.declared kept ps, rest) := by
  induction ps generalizing kept cs with
  | nil => exact (hne rfl).elim
  | cons p ps ih =>
    obtain ⟨hp, hps⟩ := List.forall_mem_cons.1 hps
    have hnonempty (last : Bool) : ¬(p.draft last).tokens.isEmpty = true := by
      simpa using hp.tokens_ne_nil
    cases ps with
    | nil =>
      rw [ParamLayout.listLexemes_singleton] at h
      have hread := readParam_of_spells hp.toFitsAt (.inr rfl) h
      rw [readParamList_of_read hread, if_neg (hnonempty _), ParamLayout.declared_cons,
        ParamLayout.declared_nil, List.append_nil]
      rfl
    | cons q ps =>
      rw [ParamLayout.listLexemes_cons (List.cons_ne_nil q ps), List.append_assoc] at h
      obtain ⟨mid, hspells, hmore⟩ := spells_append_iff.1 h
      have hread := readParam_of_spells hp.toFitsAt (.inl rfl) hspells
      rw [readParamList_of_read hread, if_neg (hnonempty _), ParamLayout.declared_cons]
      simp only [ih (List.cons_ne_nil _ _) hps hmore]
      rfl

/-- A parameter begins with a token that does not end the list. -/
theorem ParamLayout.Fits.exists_lexemes {p : ParamLayout} (hp : p.Fits) :
    ∃ t ls, p.lexemes = .token t :: ls ∧ t ≠ .symbol ')' := by
  obtain ⟨pieces, default⟩ := p
  cases pieces with
  | nil => exact (hp.tokens_ne_nil rfl).elim
  | cons piece pieces =>
    cases piece with
    | brackets => exact ⟨_, _, rfl, by decide⟩
    | token t =>
      refine ⟨t, _, rfl, ?_⟩
      rintro rfl
      exact absurd (Bool.and_eq_true_iff.1 hp.body).1 (by decide)

/-- A parameter list is read exactly when it is spelled as layouts with commas between them. -/
theorem readParams_eq_ok_iff : readParams cs = .ok (params, rest) ↔
    ∃ ps : List ParamLayout, (∀ p ∈ ps, p.Fits) ∧
      Spells cs (ParamLayout.listLexemes ps ++ [.token (.symbol ')')]) rest ∧
      params = ParamLayout.declared false ps := by
  constructor
  · intro h
    rw [readParams] at h
    obtain ⟨⟨closed, mid⟩, haccept, h⟩ := bind_eq_ok.1 h
    cases closed with
    | true =>
      cases h
      exact ⟨[], List.forall_mem_nil _, (accept_eq_ok_iff.1 haccept).1, rfl⟩
    | false =>
      obtain ⟨ps, -, hps, hspells, rfl⟩ := exists_layouts_of_readParamList h
      exact ⟨ps, hps, hspells, rfl⟩
  · rintro ⟨ps, hps, h, rfl⟩
    rw [readParams]
    cases ps with
    | nil =>
      have haccept : accept (.symbol ')') cs = .ok (true, rest) :=
        accept_eq_ok_iff.2 ⟨h, by simp⟩
      rw [haccept]
      rfl
    | cons p ps =>
      obtain ⟨t, ls, hp, ht⟩ := (hps p List.mem_cons_self).exists_lexemes
      have hlacks : Lacks (.symbol ')') cs := by
        obtain ⟨more, hlist⟩ := ParamLayout.exists_listLexemes_cons p ps
        rw [hlist, hp] at h
        obtain ⟨_, _, hnext⟩ := next_of_spells h
        exact (lacks_iff_of_next hnext).2 ht
      rw [accept_eq_false_iff.2 ⟨rfl, hlacks⟩]
      exact readParamList_of_spells (List.cons_ne_nil _ _) hps h

end Params

end Prototype

end Bindery
