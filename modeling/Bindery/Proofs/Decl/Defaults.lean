import Bindery.Proofs.Decl.Endings
import Bindery.Proofs.Decl.LineBreaks

/-!
Default values of parameters in prototypes. Writing another value for a default gives a text that is
read in the same way up to this value. There the reader takes all up to a separator that no bracket
and no quote encloses, where an angle bracket counts like a parenthesis and a backslash is a
character like any other. So an expression is taken over as it is written, in one line and with all
that follows it, when it is closed in this sense (`Prototype.isClosed`), and only then
(`Prototype.parse_default_iff`). An expression with a comparison in it or with an escaped quote need
not be closed (`gate_open_comparison`).
-/

set_option autoImplicit false
set_option relaxedAutoImplicit false

namespace Bindery

/-! ### Characters that are no blanks -/

namespace Text

/-- The number of characters that are no blanks. -/
def solidCount (cs : List Char) : Nat := cs.countP (!isBlank ·)

section

variable {c d : Char} {as bs cs ds : List Char}

theorem solidCount_append (as bs : List Char) :
    solidCount (as ++ bs) = solidCount as + solidCount bs := List.countP_append

theorem solidCount_cons (hc : isBlank c = false) (cs : List Char) :
    solidCount (c :: cs) = solidCount cs + 1 := List.countP_cons_of_pos (by simp [hc])

theorem solidCount_trimStartChars (cs : List Char) :
    solidCount (trimStartChars cs) = solidCount cs := by
  have hblanks : solidCount (cs.takeWhile isBlank) = 0 :=
    List.countP_eq_zero.2 fun c hc ↦ by simp [List.mem_takeWhile_imp hc]
  have hsplit : cs.takeWhile isBlank ++ trimStartChars cs = cs := List.takeWhile_append_dropWhile
  rw [← congrArg solidCount hsplit, solidCount_append, hblanks, Nat.zero_add]

theorem solidCount_trimChars (cs : List Char) : solidCount (trimChars cs) = solidCount cs := by
  have hend (cs : List Char) : solidCount (trimEndChars cs) = solidCount cs := by
    rw [trimEndChars, solidCount, List.countP_reverse, ← solidCount, ← trimStartChars,
      solidCount_trimStartChars, solidCount, List.countP_reverse, ← solidCount]
  rw [trimChars, hend, solidCount_trimStartChars]

theorem solidCount_breaksToSpaces (cs : List Char) :
    solidCount (Prototype.breaksToSpaces cs) = solidCount cs := by
  rw [solidCount, Prototype.breaksToSpaces, List.countP_map]
  refine List.countP_congr fun c _ ↦ ?_
  rw [Function.comp_apply, Prototype.isBlank_breakToSpace]

/-- What stands in front of a character that is no blank is told by the number of these. -/
theorem eq_of_solidCount_eq (h : as ++ c :: cs = bs ++ d :: ds) (hc : isBlank c = false)
    (hd : isBlank d = false) (hcount : solidCount as = solidCount bs) : as = bs := by
  rcases List.append_eq_append_iff.1 h with ⟨more, rfl, hmore⟩ | ⟨more, rfl, hmore⟩ <;>
    cases more with
  | nil => rw [List.append_nil]
  | cons e more =>
    obtain ⟨rfl, -⟩ := List.cons.inj hmore
    rw [solidCount_append, solidCount_cons ‹_›] at hcount
    omega

end

end Text

namespace Prototype

open Token

/-! ### What can be written for a default value -/

/-- What a place of an expression is in: no literal, a literal, or a literal behind a backslash. -/
inductive Region
  | code
  | literal (quote : Char)
  | escaped (quote : Char)
  deriving Repr, DecidableEq

/-- Whether what is left of an expression closes its literals and parentheses, with `depth`
parentheses open in front of it, and has no comma outside of them. -/
def isExpression : Region → Nat → List Char → Bool
  | .code, depth, [] => depth == 0
  | _, _, [] => false
  | .code, depth, c :: cs =>
    if c == '"' || c == singleQuote then isExpression (.literal c) depth cs
    else if c == '(' then isExpression .code (depth + 1) cs
    else if c == ')' then depth != 0 && isExpression .code (depth - 1) cs
    else (c != ',' || depth != 0) && isExpression .code depth cs
  | .literal quote, depth, c :: cs =>
    if c == '\\' then isExpression (.escaped quote) depth cs
    else if c == quote then isExpression .code depth cs
    else isExpression (.literal quote) depth cs
  | .escaped quote, depth, _ :: cs => isExpression (.literal quote) depth cs

def Region.quote? : Region → Option Char
  | .code => none
  | .literal quote => some quote
  | .escaped quote => some quote

/-- What is read for a default value in front of a separator. -/
def Draft.ofDefault (v : List Char) (c : Char) : Draft :=
  { default := some (String.ofList (Text.trimChars v)), last := c == ')' }

section Values

variable {c : Char} {v rest back : List Char} {d : Draft}

/-- An expression is closed when nothing in it is read in another way: no backslash, and no angle
bracket. -/
theorem isClosed_of_isExpression {region : Region} {depth : Nat}
    (hplain : ∀ c ∈ v, c ≠ '\\' ∧ c ≠ '<' ∧ c ≠ '>') (hregion : ∀ quote, region ≠ .escaped quote)
    (h : isExpression region depth v = true) : isClosed region.quote? depth v = true := by
  induction v generalizing region depth with
  | nil =>
    cases region with
    | code => simpa [isClosed, isExpression, Region.quote?] using h
    | literal quote => cases h
    | escaped quote => cases h
  | cons c v ih =>
    -- Without a backslash no place is escaped, and the regions are the quotes of the scanner.
    obtain ⟨⟨hbackslash, hopens, hcloses⟩, hmore⟩ := List.forall_mem_cons.1 hplain
    rw [isClosed_cons]
    cases region with
    | code =>
      rw [isExpression] at h
      split_ifs at h with hquote hopens' hcloses'
      · have hstep : scanStep none depth c = some (some c, depth) := if_pos hquote
        rw [Region.quote?, hstep]
        exact @ih (.literal c) _ hmore (by simp) h
      · obtain rfl : c = '(' := beq_iff_eq.1 hopens'
        exact @ih .code _ hmore (by simp) h
      · obtain rfl : c = ')' := beq_iff_eq.1 hcloses'
        obtain ⟨hdepth, h⟩ := Bool.and_eq_true_iff.1 h
        have hstep : scanStep none depth ')' = some (none, depth - 1) := by
          rw [scanStep, if_neg hquote, if_neg (by decide), if_pos (by simpa using hdepth)]
        rw [Region.quote?, hstep]
        exact @ih .code _ hmore (by simp) h
      · obtain ⟨hcomma, h⟩ := Bool.and_eq_true_iff.1 h
        have hstep : scanStep none depth c = some (none, depth) := by
          rw [Bool.or_eq_true, bne_iff_ne, bne_iff_ne] at hcomma
          rw [beq_iff_eq] at hopens' hcloses'
          simpa [scanStep, hquote, hopens, hcloses, hopens', hcloses'] using
            fun hc ↦ hcomma.resolve_left (not_not.2 hc)
        rw [Region.quote?, hstep]
        exact @ih .code _ hmore (by simp) h
    | literal quote =>
      rw [isExpression, if_neg (by simpa using hbackslash)] at h
      rw [Region.quote?, scanStep]
      split_ifs at h with hquote
      · rw [if_pos hquote]
        exact @ih .code _ hmore (by simp) h
      · rw [if_neg hquote]
        exact @ih (.literal quote) _ hmore (by simp) h
    | escaped quote => exact (hregion quote rfl).elim

/-- Line breaks in a default value leave it closed when spaces stand for them. -/
theorem isClosed_breaksToSpaces {quote : Option Char}
    (hquote : ∀ q ∈ quote, Text.isBlank q = false) (depth : Nat) (v : List Char) :
    isClosed quote depth (breaksToSpaces v) = isClosed quote depth v := by
  induction v generalizing quote depth with
  | nil => rfl
  | cons c v ih =>
    rw [breaksToSpaces, List.map_cons, ← breaksToSpaces, isClosed_cons, isClosed_cons]
    by_cases hc : c = '\n'
    · subst hc
      have hspace := scanStep_of_isBlank hquote depth (c := ' ') (by decide)
      have hbreak := scanStep_of_isBlank hquote depth (c := '\n') (by decide)
      simp only [beq_self_eq_true, if_true, hspace, hbreak, ih hquote]
    · rw [if_neg (by simpa using hc)]
      split
      · rename_i hstep
        exact ih (scanStep_quote hquote hstep) _
      · rfl

theorem trimChars_breaksToSpaces (cs : List Char) :
    Text.trimChars (breaksToSpaces cs) = breaksToSpaces (Text.trimChars cs) := by
  rw [← Text.withBreaks_space, ← Text.withBreaks_space,
    Text.trimChars_withBreaks (List.forall_mem_singleton.2 (by decide))]

/-- A default value is read up to the separator behind it when it is closed, and only then. -/
theorem readDefault_append_iff (hv : Text.trimChars v ≠ []) (hc : IsSeparator c) :
    readDefault (v ++ c :: rest) = .ok (.ofDefault v c, rest) ↔ isClosed none 0 v = true := by
  rw [readDefault_eq_ok_iff]
  constructor
  · rintro ⟨value, d, hvalue, -, heq, -⟩
    obtain ⟨rfl, -⟩ := List.append_inj' heq rfl
    exact hvalue.closed
  · intro h
    exact ⟨v, c, ⟨hv, h⟩, hc, rfl, rfl⟩

/-- What is read in front of some separator is the value in front of the first one only when it has
as many characters. -/
theorem isClosed_of_readDefault {value : List Char} (hc : IsSeparator c)
    (h : readDefault (v ++ c :: rest) = .ok (d, back))
    (hdefault : d.default = some (String.ofList value))
    (hcount : Text.solidCount value = Text.solidCount v) :
    isClosed none 0 v = true ∧ Text.trimChars v = value := by
  obtain ⟨read, e, hread, he, heq, rfl⟩ := readDefault_eq_ok_iff.1 h
  obtain rfl : Text.trimChars read = value :=
    String.ofList_injective (Option.some.inj hdefault)
  rw [Text.solidCount_trimChars] at hcount
  obtain rfl : v = read := Text.eq_of_solidCount_eq heq (isBlank_of_isSeparator hc)
    (isBlank_of_isSeparator he) hcount.symm
  exact ⟨hread.closed, rfl⟩

end Values

/-! ### Reading up to a default value -/

theorem getElem?_append_add {α : Type} (as bs : List α) (n : Nat) :
    (as ++ bs)[as.length + n]? = bs[n]? := by
  rw [List.getElem?_append_right (Nat.le_add_right _ _), Nat.add_sub_cancel_left]

section Readers

variable {cs mid start rest back : List Char} {depth : Nat} {pieces : List Piece}
  {before after : List ParamLayout} {p : ParamLayout} {params : List Param} {kept : Bool}

/-- A parameter with a default value is what is read for this value, with the type and the name in
front of it. -/
theorem readParam_of_spells_default (hbody : isBody depth pieces = true)
    (h : Spells cs (pieces.flatMap Piece.lexemes) mid)
    (hnext : next mid = .found (.symbol '=') start rest) :
    readParam depth cs = (readDefault rest).map (Prod.map (.behind pieces) id) := by
  rw [readParam_of_spells_pieces hbody h, readParam_of_next hnext, if_neg (by decide),
    if_neg (by decide), if_pos ⟨rfl, rfl⟩]

/-- A first parameter that is no lone `void` is kept. -/
theorem exists_cons_of_readParamList {draft : Draft} (hread : readParam 0 cs = .ok (draft, rest))
    (hvoid : draft.isLoneVoid = false) (h : readParamList kept cs = .ok (params, back)) :
    ∃ more, params = draft.toParam :: more := by
  rw [readParamList_of_read hread] at h
  simp only [hvoid, Bool.false_and, Bool.false_eq_true, if_false] at h
  split at h
  · cases h
  · split at h
    · cases h
      exact ⟨[], rfl⟩
    · obtain ⟨read, -, heq⟩ := exists_of_map_eq_ok h
      cases heq
      exact ⟨read.1, rfl⟩

/-- The default value of a parameter that is kept is the one that is read behind its `=`. -/
theorem exists_readDefault_of_readParamList (hbefore : ∀ q ∈ before, q.Fits)
    (hbody : isBody 0 p.pieces = true) (hvoid : p.isLoneVoid = false)
    (hspells : Spells cs (ParamLayout.leadingLexemes before ++ p.pieces.flatMap Piece.lexemes) mid)
    (hnext : next mid = .found (.symbol '=') start rest)
    (h : readParamList kept cs = .ok (params, back)) :
    ∃ d back', readDefault rest = .ok (d, back') ∧
      (params[(ParamLayout.declared kept before).length]?).bind Param.default = d.default := by
  induction before generalizing kept cs params with
  | nil =>
    have hread := readParam_of_spells_default hbody hspells hnext
    cases hdefault : readDefault rest with
    | error e =>
      rw [hdefault] at hread
      rw [readParamList_eq, hread] at h
      cases h
    | ok read =>
      obtain ⟨d, back'⟩ := read
      rw [hdefault] at hread
      have htokens : d.tokens = [] := by
        obtain ⟨_, _, -, -, -, rfl⟩ := readDefault_eq_ok_iff.1 hdefault
        rfl
      have hvoid : (d.behind p.pieces).isLoneVoid = false := by
        rw [Draft.isLoneVoid, Draft.behind, htokens, List.append_nil]
        exact hvoid
      obtain ⟨more, rfl⟩ := exists_cons_of_readParamList hread hvoid h
      exact ⟨d, back', rfl, by rw [ParamLayout.declared_nil]; rfl⟩
  | cons q before ih =>
    obtain ⟨hq, hbefore⟩ := List.forall_mem_cons.1 hbefore
    rw [ParamLayout.leadingLexemes, List.flatMap_cons, List.append_assoc] at hspells
    obtain ⟨after, hqspells, hspells⟩ := spells_append_iff.1 hspells
    have hread := readParam_of_spells hq.toFitsAt (.inl rfl) hqspells
    have hempty : ¬(q.draft (',' == ')')).tokens.isEmpty = true := by simpa using hq.tokens_ne_nil
    rw [readParamList_of_read hread, if_neg hempty] at h
    obtain ⟨⟨more, rest'⟩, hmore, heq⟩ := exists_of_map_eq_ok h
    cases heq
    obtain ⟨d, back', hdefault, hparam⟩ := ih hbefore hspells hmore
    refine ⟨d, back', hdefault, ?_⟩
    rw [ParamLayout.declared_cons, List.length_append]
    exact (congrArg (Option.bind · Param.default) (getElem?_append_add _ more _)).trans hparam

/-- What is spelled in front of a default value does not end the list of parameters. -/
theorem exists_readDefault_of_readParams (hbefore : ∀ q ∈ before, q.Fits) (hp : p.Fits)
    (hvoid : p.isLoneVoid = false)
    (hspells : Spells cs (ParamLayout.leadingLexemes before ++ p.pieces.flatMap Piece.lexemes) mid)
    (hnext : next mid = .found (.symbol '=') start rest)
    (h : readParams cs = .ok (params, back)) :
    ∃ d back', readDefault rest = .ok (d, back') ∧
      (params[(ParamLayout.declared false before).length]?).bind Param.default = d.default := by
  obtain ⟨t, ls, hfirst, ht⟩ : ∃ t ls, ParamLayout.leadingLexemes before ++
      p.pieces.flatMap Piece.lexemes = .token t :: ls ∧ t ≠ .symbol ')' := by
    cases before with
    | nil =>
      have hbare : ({ p with default := none } : ParamLayout).Fits :=
        ⟨⟨hp.body, nofun⟩, hp.tokens_ne_nil⟩
      obtain ⟨t, ls, hlexemes, ht⟩ := hbare.exists_lexemes
      exact ⟨t, ls, (List.append_nil _).symm.trans hlexemes, ht⟩
    | cons q before =>
      obtain ⟨t, ls, hlexemes, ht⟩ := (hbefore q List.mem_cons_self).exists_lexemes
      rw [ParamLayout.leadingLexemes, List.flatMap_cons, hlexemes]
      exact ⟨t, _, rfl, ht⟩
  rw [readParams] at h
  obtain ⟨⟨closed, mid'⟩, haccept, h⟩ := bind_eq_ok.1 h
  cases closed with
  | true =>
    obtain ⟨_, hclosing⟩ := accept_eq_true_iff.1 haccept
    rw [hfirst] at hspells
    obtain ⟨_, _, hfound⟩ := next_of_spells hspells
    rw [hfound] at hclosing
    cases hclosing
    exact (ht rfl).elim
  | false => exact exists_readDefault_of_readParamList hbefore hp.body hvoid hspells hnext h

/-- The parameters of a prototype are what is read behind its head. -/
theorem exists_readParams_of_parseChars {className : String} {l : Layout} {q : Prototype}
    (hl : l.Fits className)
    (hspells : Spells cs (specifiers l.protection l.colon l.isVirtual l.isStatic ++
      (l.tokens.map .token ++ [.token (.symbol '(')])) rest)
    (h : parseChars className cs = .ok q) : ∃ back, readParams rest = .ok (q.params, back) := by
  obtain ⟨afterStatic, hspecifiers, hhead⟩ := spells_append_iff.1 hspells
  obtain ⟨t, ts, htokens⟩ := List.exists_cons_of_ne_nil hl.tokens_ne_nil
  obtain ⟨_, _, hnext⟩ := next_of_spells (htokens ▸ hhead)
  obtain ⟨_, _, hprotection, hvirtual, hstatic⟩ :=
    read_specifiers_of_spells (hl.specifiers t (by rw [htokens]; rfl)) hspecifiers hnext
  obtain ⟨placed, hplaced, -⟩ := readHead_of_spells hl.head hhead
  obtain ⟨_, hprotection', h⟩ := bind_eq_ok.1 h
  obtain rfl := Except.ok.inj (hprotection.symm.trans hprotection')
  obtain ⟨_, hvirtual', h⟩ := bind_eq_ok.1 h
  obtain rfl := Except.ok.inj (hvirtual.symm.trans hvirtual')
  obtain ⟨_, hstatic', h⟩ := ite_bind_eq_ok.1 h
  obtain rfl := Except.ok.inj (hstatic.symm.trans hstatic')
  obtain ⟨_, hplaced', h⟩ := bind_eq_ok.1 h
  obtain rfl := Except.ok.inj (hplaced.symm.trans hplaced')
  obtain ⟨head, -, h⟩ := bind_eq_ok.1 h
  obtain ⟨⟨params, back⟩, hparams, h⟩ := bind_eq_ok.1 h
  obtain ⟨_, -, h⟩ := bind_eq_ok.1 h
  obtain ⟨_, -, h⟩ := bind_eq_ok.1 h
  obtain ⟨_, -, h⟩ := bind_eq_ok.1 h
  obtain ⟨_, -, h⟩ := bind_eq_ok.1 h
  obtain ⟨_, -, h⟩ := bind_eq_ok.1 h
  cases h
  exact ⟨back, hparams⟩

end Readers

/-! ### Another default value -/

section Another

variable {className text : String} {cs rest value v : List Char} {c : Char} {ls more : List Lexeme}
  {before after : List ParamLayout} {p : ParamLayout} {l : Layout}

/-- What is spelled up to the `=` of a default value is spelled in front of any text. -/
theorem exists_front_of_spells
    (h : Spells cs (ls ++ .default value :: .token (.symbol c) :: more) rest) :
    ∃ front back, cs = front ++ (value ++ c :: back) ∧ Spells back more rest ∧
      ∀ other, ∃ mid start, Spells (front ++ other) ls mid ∧
        next mid = .found (.symbol '=') start other := by
  obtain ⟨mid, hls, hmid⟩ := spells_append_iff.1 h
  obtain ⟨start, d, back, hnext, hvalue, hd, hback⟩ := spells_default_iff.1 hmid
  obtain ⟨_, _, hseparator, hmore⟩ := spells_token_iff.1 hback
  rw [next_separator hd] at hseparator
  cases hseparator
  obtain ⟨front, rfl⟩ := suffix_of_spells hls
  obtain ⟨blanks, hblanks, rfl, -⟩ := exists_blanks_of_next hnext
  refine ⟨front ++ (blanks ++ ['=']), back, by simp [Token.text], hmore, fun other ↦ ?_⟩
  refine ⟨blanks ++ '=' :: other, '=' :: other, ?_, ?_⟩
  · have hassoc : front ++ (blanks ++ ['=']) ++ other = front ++ (blanks ++ '=' :: other) := by simp
    rw [hassoc]
    exact spells_of_alike_blanks ⟨rfl, by decide, by decide⟩ (by rintro (h | h) <;> cases h)
      hblanks other hls
  · rw [next_blanks hblanks, next_symbol rfl]

/-- A text in which line breaks count as spaces is split where the counted text is. -/
theorem exists_append_cons_of_breaksToSpaces {front back : List Char} (hc : IsSeparator c)
    (h : breaksToSpaces cs = front ++ (value ++ c :: back)) :
    ∃ front' value' back', cs = front' ++ (value' ++ c :: back') ∧
      breaksToSpaces front' = front ∧ breaksToSpaces value' = value ∧
      breaksToSpaces back' = back := by
  obtain ⟨front', mid, rfl, hfront, hmid⟩ := List.map_eq_append_iff.1 h
  obtain ⟨value', mid, rfl, hvalue, hmid⟩ := List.map_eq_append_iff.1 hmid
  obtain ⟨d, back', rfl, hd, hback⟩ := List.map_eq_cons_iff.1 hmid
  obtain rfl : d = c := by
    split at hd
    · subst hd
      rcases hc with hc | hc <;> cases hc
    · exact hd
  exact ⟨front', value', back', rfl, hfront, hvalue, hback⟩

/-- A parameter that is no lone `void` is declared behind those before it. -/
theorem ParamLayout.getElem?_declared (hvoid : p.isLoneVoid = false) (kept : Bool)
    (before after : List ParamLayout) :
    (declared kept (before ++ p :: after))[(declared kept before).length]? = some p.toParam := by
  induction before generalizing kept with
  | nil =>
    rw [List.nil_append, declared_cons, hvoid, declared_nil]
    rfl
  | cons q before ih =>
    rw [List.cons_append, declared_cons, declared_cons, List.length_append, getElem?_append_add]
    exact ih _

namespace Layout

/-- What is written up to the default value of a parameter. -/
def lexemesBeforeDefault (l : Layout) (before : List ParamLayout) (p : ParamLayout) : List Lexeme :=
  specifiers l.protection l.colon l.isVirtual l.isStatic ++
    (l.tokens.map .token ++ [.token (.symbol '(')]) ++
      (ParamLayout.leadingLexemes before ++ p.pieces.flatMap Piece.lexemes)

/-- A layout with another default value for a parameter. -/
def withDefault (l : Layout) (before : List ParamLayout) (p : ParamLayout)
    (after : List ParamLayout) (value : List Char) : Layout :=
  { l with params := before ++ { p with default := some value } :: after }

/-- The default value of a parameter stands in front of a separator. -/
theorem exists_lexemes_withDefault (l : Layout) (before : List ParamLayout) (p : ParamLayout)
    (after : List ParamLayout) : ∃ c more, IsSeparator c ∧ ∀ value,
      (l.withDefault before p after value).lexemes =
        l.lexemesBeforeDefault before p ++ .default value :: .token (.symbol c) :: more := by
  obtain ⟨c, rest, hc, hlist⟩ := ParamLayout.exists_listLexemes_append_cons before after
  refine ⟨c, rest ++ marks l.isConst l.isOverride l.isPure l.isEnded, hc, fun value ↦ ?_⟩
  rw [lexemes, lexemesBeforeDefault, withDefault, hlist, ParamLayout.lexemes]
  simp

theorem Fits.withDefault (hl : l.Fits className) (hparams : l.params = before ++ p :: after)
    (hvalue : IsRawDefault value) : (l.withDefault before p after value).Fits className := by
  have hp := hl.params p (by simp [hparams])
  refine hl.replace hparams ⟨⟨hp.body, ?_⟩, hp.tokens_ne_nil⟩
  rintro _ ⟨⟩
  exact hvalue

end Layout

/-- Another value can be written for the default value of a parameter. It is read as it is written,
without the white space around it, when it is in one line and closed, and only then. A closed value
changes nothing else in what is read, and the reader goes on behind the separator that follows it;
and an expression is closed when it has no backslash and no angle bracket. -/
theorem parse_default_iff (hl : l.Fits className) (hspelled : IsSpelled text l.lexemes)
    (hparams : l.params = before ++ p :: after) (hvoid : p.isLoneVoid = false)
    (hdefault : p.default = some value) :
    ∃ front written c back, text.toList = front ++ (written ++ c :: back) ∧
      breaksToSpaces written = value ∧ IsSeparator c ∧
      ∀ v, Text.trimChars v ≠ [] →
        ((∃ q, parse className (String.ofList (front ++ (v ++ c :: back))) = .ok q ∧
            (q.params[(ParamLayout.declared false before).length]?).bind Param.default =
              some (String.ofList (Text.trimChars v))) ↔
          isClosed none 0 v = true ∧ '\n' ∉ Text.trimChars v) ∧
        (isClosed none 0 v = true →
          parse className (String.ofList (front ++ (v ++ c :: back))) =
            .ok (l.withDefault before p after (breaksToSpaces v)).toPrototype) ∧
        (readDefault (breaksToSpaces (v ++ c :: back)) =
            .ok (.ofDefault (breaksToSpaces v) c, breaksToSpaces back) ↔
          isClosed none 0 v = true) ∧
        (isExpression .code 0 v = true → (∀ d ∈ v, d ≠ '\\' ∧ d ≠ '<' ∧ d ≠ '>') →
          isClosed none 0 v = true) := by
  have hbefore : ∀ q ∈ before, q.Fits := fun q hq ↦ hl.params q (by simp [hparams, hq])
  have hp : p.Fits := hl.params p (by simp [hparams])
  obtain ⟨c, more, hc, hlexemes⟩ := l.exists_lexemes_withDefault before p after
  have hself : l.withDefault before p after value = l := by
    rw [Layout.withDefault, ← hdefault, ← hparams]
  obtain ⟨rest, hspells, hrest⟩ := hspelled
  rw [← hself, hlexemes] at hspells
  obtain ⟨front, back, hchars, hback, hfront⟩ := exists_front_of_spells hspells
  obtain ⟨front', written, back', htext, rfl, hwritten, rfl⟩ :=
    exists_append_cons_of_breaksToSpaces hc hchars
  refine ⟨front', written, c, back', htext, hwritten, hc, fun v hv ↦ ?_⟩
  have hseparator : (if c == '\n' then ' ' else c) = c := if_neg (by
    rcases hc with rfl | rfl <;> decide)
  have hbehind : breaksToSpaces (v ++ c :: back') =
      breaksToSpaces v ++ c :: breaksToSpaces back' := by
    rw [breaksToSpaces, List.map_append, List.map_cons, hseparator]
    rfl
  have htext' : breaksToSpaces (String.ofList (front' ++ (v ++ c :: back'))).toList =
      breaksToSpaces front' ++ (breaksToSpaces v ++ c :: breaksToSpaces back') := by
    rw [String.toList_ofList, breaksToSpaces, List.map_append, ← breaksToSpaces, ← breaksToSpaces,
      hbehind]
  have hv' : Text.trimChars (breaksToSpaces v) ≠ [] := by
    rw [trimChars_breaksToSpaces]
    exact mt List.map_eq_nil_iff.1 hv
  have hclosed : isClosed none 0 (breaksToSpaces v) = isClosed none 0 v :=
    isClosed_breaksToSpaces (by simp) 0 v
  have hparse : isClosed none 0 v = true →
      parse className (String.ofList (front' ++ (v ++ c :: back'))) =
        .ok (l.withDefault before p after (breaksToSpaces v)).toPrototype := by
    intro hv
    have hvalue : IsRawDefault (breaksToSpaces v) := ⟨hv', hclosed.trans hv⟩
    have hspelled : IsSpelled (String.ofList (front' ++ (v ++ c :: back')))
        (l.withDefault before p after (breaksToSpaces v)).lexemes := by
      obtain ⟨mid, start, hmid, hnext⟩ := hfront (breaksToSpaces v ++ c :: breaksToSpaces back')
      refine ⟨rest, ?_, hrest⟩
      rw [htext', hlexemes]
      exact spells_append_iff.2
        ⟨mid, hmid, .default hnext hvalue hc (.token (next_separator hc _) hback)⟩
    exact parse_eq_ok_iff_layout.2 ⟨_, hl.withDefault hparams hvalue, hspelled, rfl⟩
  refine ⟨⟨?_, ?_⟩, hparse, ?_, fun hv hplain ↦
    @isClosed_of_isExpression v .code 0 hplain (by simp) hv⟩
  · rintro ⟨q, hq, hparam⟩
    obtain ⟨l', hl', hspelled', rfl⟩ := parse_eq_ok_iff_layout.1 hq
    have hq : parseChars className _ = .ok l'.toPrototype :=
      parseChars_eq_ok_iff.2 ⟨l', hl', hspelled', rfl⟩
    obtain ⟨mid, start, hmid, hnext⟩ := hfront (breaksToSpaces v ++ c :: breaksToSpaces back')
    obtain ⟨afterHead, hhead, hmid⟩ := spells_append_iff.1 hmid
    rw [htext'] at hq
    obtain ⟨_, hread⟩ := exists_readParams_of_parseChars hl hhead hq
    obtain ⟨d, _, hread, hd⟩ :=
      exists_readDefault_of_readParams hbefore hp hvoid hmid hnext hread
    -- The value that is read ends at some separator, and `v` has as many characters that are no
    -- blanks, so it ends at the separator behind `v`.
    have hcount : Text.solidCount (Text.trimChars v) = Text.solidCount (breaksToSpaces v) := by
      rw [Text.solidCount_trimChars, Text.solidCount_breaksToSpaces]
    obtain ⟨hv, htrim⟩ := isClosed_of_readDefault hc hread (hd.symm.trans hparam) hcount
    rw [trimChars_breaksToSpaces] at htrim
    exact ⟨hclosed.symm.trans hv, breaksToSpaces_eq_self_iff.1 htrim⟩
  · rintro ⟨hv, hunbroken⟩
    have htrim : Text.trimChars (breaksToSpaces v) = Text.trimChars v := by
      rw [trimChars_breaksToSpaces, breaksToSpaces_eq_self_iff.2 hunbroken]
    refine ⟨_, hparse hv, ?_⟩
    have hparam := ParamLayout.getElem?_declared
      (p := { p with default := some (breaksToSpaces v) }) hvoid false before after
    rw [← htrim]
    exact congrArg (Option.bind · Param.default) hparam
  · rw [hbehind, readDefault_append_iff hv' hc, hclosed]

end Another

end Prototype

open Prototype

/-- A method that takes a flag with a default value, and a number. -/
def Gates.opening : Layout where
  type := [.ofName "void"]
  name := [.ofName "Open"]
  params := [
    .plain [.ofName "bool", .ofName "wide"] false (some " 0".toList),
    .plain [.ofName "int", .ofName "steps"] false none]

open Gates in
/-- Two expressions in place of a default value, of which only the first one is closed. -/
theorem gate_open_defaults : opening.Fits "Gate" ∧
    IsSpelled "void Open(bool wide = 0, int steps)" opening.lexemes ∧
    isExpression .code 0 " pick(lo, hi)".toList = true ∧
    isExpression .code 0 " \"a\\\"b\"".toList = true ∧
    ∃ front written c back,
      "void Open(bool wide = 0, int steps)".toList = front ++ (written ++ c :: back) ∧
      breaksToSpaces written = " 0".toList ∧ IsSeparator c ∧
      (∃ q, parse "Gate" (String.ofList (front ++ (" pick(lo, hi)".toList ++ c :: back))) = .ok q ∧
        (q.params[0]?).bind Param.default = some "pick(lo, hi)") ∧
      ¬∃ q, parse "Gate" (String.ofList (front ++ (" \"a\\\"b\"".toList ++ c :: back))) = .ok q ∧
        (q.params[0]?).bind Param.default = some "\"a\\\"b\"" := by
  have hopening : opening.Fits "Gate" := by
    refine ⟨⟨by decide, .inr ⟨_, rfl, by decide, by decide⟩⟩, by decide, ?_, by decide, by decide,
      ?_⟩
    · rintro t ht
      cases ht
      exact ⟨by decide, by decide, by decide⟩
    · refine List.forall_mem_cons.2 ⟨ParamLayout.fits_plain (by decide) (by decide) ?_,
        List.forall_mem_singleton.2 (ParamLayout.fits_plain (by decide) (by decide) nofun)⟩
      rintro value ⟨⟩
      exact ⟨by decide, by decide⟩
  have hspelled : IsSpelled "void Open(bool wide = 0, int steps)" opening.lexemes := by
    refine ⟨[], ?_, rfl⟩
    exact .token rfl (.token rfl (.token rfl (.token rfl (.token rfl (.default rfl
      ⟨by decide, by decide⟩ (.inl rfl) (.token rfl (.token rfl (.token rfl
        (.token rfl .done)))))))))
  have hparams : opening.params = [] ++
      .plain [.ofName "bool", .ofName "wide"] false (some " 0".toList) ::
        [.plain [.ofName "int", .ofName "steps"] false none] := rfl
  obtain ⟨front, written, c, back, htext, hwritten, hc, hdefault⟩ :=
    parse_default_iff hopening hspelled hparams (by decide) rfl
  refine ⟨hopening, hspelled, by decide, by decide, front, written, c, back, htext, hwritten, hc,
    ?_, ?_⟩
  · exact (hdefault " pick(lo, hi)".toList (by decide)).1.2 ⟨by decide, by decide⟩
  · exact fun haccepted ↦ absurd
      ((hdefault " \"a\\\"b\"".toList (by decide)).1.1 haccepted).1 (by decide)

/-- A comparison is taken for an opening bracket, so that the default value does not end. -/
theorem gate_open_comparison : isExpression .code 0 " lo < hi".toList = true ∧
    (∃ q, parse "Gate" "void Open(bool wide = 0)" = .ok q ∧
      (q.params[0]?).bind Param.default = some "0") ∧
    parse "Gate" "void Open(bool wide = lo < hi)" =
      .error (.prototype "Gate" "void Open(bool wide = lo < hi)" .unterminatedDefault 30) := by
  have hparsed : (parse "Gate" "void Open(bool wide = 0)").toOption.map
      (fun q ↦ (q.params[0]?).bind Param.default) = some (some "0") := by decide +kernel
  obtain ⟨q, hq, hdefault⟩ := Option.map_eq_some_iff.1 hparsed
  exact ⟨by decide, ⟨q, eq_ok_of_toOption hq, hdefault⟩, by decide +kernel⟩

end Bindery
