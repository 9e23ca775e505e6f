import Bindery.Proofs.Decl.Layouts
import Mathlib.Computability.Language

/-!
The grammar of prototypes, as a language of lexemes (`Prototype.Grammar.decl`). The reader collects
the tokens of a head and of each parameter up to a delimiter, so what it accepts is a sentence of
the grammar when these tokens say a type and a name (`Prototype.Layout.lexemes_mem_decl`). Every
text is either read as its layout says, or rejected with the class and the text
(`Prototype.parse_layout_or_fault`). Nothing asks for a type where the tokens of one are collected:
a semicolon in front of a method is taken for a part of its return type
(`crate_stray_semicolon`).
-/

set_option autoImplicit false
set_option relaxedAutoImplicit false

namespace Bindery

namespace Prototype

namespace Grammar

open scoped Computability

/-! ### The language -/

def token (t : Token) : Language Lexeme := {[.token t]}

def word (name : String) : Language Lexeme := token (.ofName name)

def symbol (c : Char) : Language Lexeme := token (.symbol c)

def maybe (L : Language Lexeme) : Language Lexeme := 1 + L

/-- Token sequences with a property. -/
def such (p : List Token → Bool) : Language Lexeme := {ls | ∃ ts, p ts = true ∧ ls = ts.map .token}

/-- Words with pointer marks and balanced template brackets behind them. -/
def isTypeText : List Token → Bool
  | .word chars :: ts => ParamText.isGrouped 0 (.word chars :: ts)
  | _ => false

def isOperatorMark : Token → Bool
  | .word _ => false
  | .symbol c => "*&()<>,[]=~".toList.contains c

/-- One word, or the name of an operator: the word `operator` with marks or with a type behind
it. -/
def isName : List Token → Bool
  | [.word _] => true
  | .word chars :: ts =>
    chars == "operator".toList && (ts.all isOperatorMark || isTypeText ts)
  | _ => false

def type : Language Lexeme := such isTypeText

def name : Language Lexeme := such isName

/-- A default value with its `=`. -/
def default : Language Lexeme := {ls | ∃ value, IsRawDefault value ∧ ls = [.default value]}

def param : Language Lexeme :=
  type * maybe name * maybe (symbol '[' * symbol ']') * maybe default

def params : Language Lexeme := word "void" + param * (symbol ',' * param)∗

/-- What stands in front of the parameters. -/
def head : Language Lexeme :=
  maybe (word "public" + word "protected") * maybe (symbol ':') *
    maybe (word "virtual" + word "static") * maybe type * maybe (symbol '~') * name

/-- What stands behind the parameters, without the semicolon. -/
def tail : Language Lexeme :=
  maybe (word "const") * maybe (word "override") * maybe (symbol '=' * word "0")

def decl : Language Lexeme :=
  head * symbol '(' * maybe params * symbol ')' * tail * maybe (symbol ';')

end Grammar

/-- Whether a text is a sentence of the grammar. -/
def IsSentence (text : String) : Prop := ∃ ls ∈ Grammar.decl, IsSpelled text ls

namespace Grammar

open scoped Computability

/-! ### Sentences -/

theorem isGrouped_of_isTypeText {ts : List Token} (h : isTypeText ts = true) :
    ParamText.isGrouped 0 ts = true := by
  cases ts with
  | nil => cases h
  | cons t ts =>
    cases t with
    | word chars => exact h
    | symbol c => cases h

theorem mem_token (t : Token) : [.token t] ∈ token t := Set.mem_singleton _

theorem nil_mem_maybe (L : Language Lexeme) : [] ∈ maybe L := .inl Language.nil_mem_one

theorem mem_maybe {L : Language Lexeme} {ls : List Lexeme} (h : ls ∈ L) : ls ∈ maybe L := .inr h

theorem optional_mem_maybe (t : Token) (taken : Bool) : optional t taken ∈ maybe (token t) := by
  cases taken with
  | false => exact nil_mem_maybe _
  | true => exact mem_maybe (mem_token t)

theorem visibility_mem {protection : Option Protection} {colon : Bool}
    (h : protection = none → colon = false) : visibility protection colon ∈
      maybe (word "public" + word "protected") * maybe (symbol ':') := by
  cases protection with
  | none =>
    rw [visibility]
    exact Language.append_mem_mul (nil_mem_maybe _) (nil_mem_maybe _)
  | some protection =>
    refine Language.append_mem_mul (a := [.token (.ofName protection.keyword)])
      (mem_maybe ?_) (optional_mem_maybe _ colon)
    cases protection with
    | publicAccess => exact .inl (mem_token _)
    | protectedAccess => exact .inr (mem_token _)

theorem binding_mem {isVirtual isStatic : Bool} (h : ¬(isVirtual = true ∧ isStatic = true)) :
    optional (.ofName "virtual") isVirtual ++ optional (.ofName "static") isStatic ∈
      maybe (word "virtual" + word "static") := by
  cases isVirtual with
  | false =>
    cases isStatic with
    | false => exact nil_mem_maybe _
    | true => exact mem_maybe (.inr (mem_token _))
  | true =>
    obtain rfl : isStatic = false := by simpa using h
    exact mem_maybe (.inl (mem_token _))

theorem pureMark_mem (isPure : Bool) :
    pureMark isPure ∈ maybe (symbol '=' * word "0") := by
  cases isPure with
  | false => exact nil_mem_maybe _
  | true => exact mem_maybe (Language.append_mem_mul (mem_token _) (mem_token _))

end Grammar

namespace ParamLayout

/-- Whether a parameter is written as a type, with a name or without one, and with array brackets
and a default value only behind these. -/
def IsTyped (p : ParamLayout) : Prop :=
  ∃ ts array default, Grammar.isTypeText ts = true ∧ p = plain ts array default

variable {p : ParamLayout} {ps : List ParamLayout}

theorem lexemes_mem_param (hp : p.Fits) (htyped : p.IsTyped) : p.lexemes ∈ Grammar.param := by
  obtain ⟨ts, array, default, hts, rfl⟩ := htyped
  have hdefault : ∀ value ∈ default, IsRawDefault value := hp.default
  rw [lexemes_plain]
  refine Language.append_mem_mul (Language.append_mem_mul ?_ ?_) ?_
  · rw [← List.append_nil (ts.map Lexeme.token)]
    exact Language.append_mem_mul ⟨ts, hts, rfl⟩ (Grammar.nil_mem_maybe _)
  · cases array with
    | false => exact Grammar.nil_mem_maybe _
    | true =>
      exact Grammar.mem_maybe
        (Language.append_mem_mul (Grammar.mem_token _) (Grammar.mem_token _))
  · cases default with
    | none => exact Grammar.nil_mem_maybe _
    | some value => exact Grammar.mem_maybe ⟨value, hdefault value rfl, rfl⟩

theorem listLexemes_mem_params (hps : ∀ p ∈ ps, p.Fits) (htyped : ∀ p ∈ ps, p.IsTyped) :
    listLexemes ps ∈ Grammar.maybe Grammar.params := by
  cases ps with
  | nil => exact Grammar.nil_mem_maybe _
  | cons p ps =>
    refine Grammar.mem_maybe (.inr ?_)
    induction ps generalizing p with
    | nil =>
      obtain ⟨hp, -⟩ := List.forall_mem_cons.1 hps
      obtain ⟨htyped, -⟩ := List.forall_mem_cons.1 htyped
      rw [listLexemes_singleton, ← List.append_nil p.lexemes]
      exact Language.append_mem_mul (lexemes_mem_param hp htyped) (Language.nil_mem_kstar _)
    | cons q ps ih =>
      obtain ⟨hp, hps⟩ := List.forall_mem_cons.1 hps
      obtain ⟨htyped, htypedMore⟩ := List.forall_mem_cons.1 htyped
      obtain ⟨first, hfirst, more, hmore, hlist⟩ := Language.mem_mul.1 (ih q hps htypedMore)
      rw [listLexemes_cons (List.cons_ne_nil q ps), ← hlist, List.append_assoc,
        ← List.append_assoc [_] first]
      refine Language.append_mem_mul (lexemes_mem_param hp htyped) ?_
      rw [← Language.one_add_self_mul_kstar_eq_kstar]
      exact .inr (Language.append_mem_mul
        (Language.append_mem_mul (Grammar.mem_token _) hfirst) hmore)

end ParamLayout

namespace Layout

/-- Whether the tokens of a layout say what the grammar has in their places. -/
structure IsTyped (l : Layout) : Prop where
  type : l.type = [] ∨ Grammar.isTypeText l.type = true
  name : Grammar.isName l.name = true
  params : ∀ p ∈ l.params, p.IsTyped

variable {className : String} {l : Layout}

theorem specifiers_append_tokens_mem_head (hl : l.Fits className) (htyped : l.IsTyped) :
    Prototype.specifiers l.protection l.colon l.isVirtual l.isStatic ++ l.tokens.map .token ∈
      Grammar.head := by
  obtain ⟨t, ts, htokens⟩ := List.exists_cons_of_ne_nil hl.tokens_ne_nil
  have hspecifiers := hl.specifiers t (by rw [htokens]; rfl)
  have hmark : (if l.isDtor then [Token.symbol '~'] else []).map Lexeme.token ∈
      Grammar.maybe (Grammar.symbol '~') := by
    cases l.isDtor with
    | false => exact Grammar.nil_mem_maybe _
    | true => exact Grammar.mem_maybe (Grammar.mem_token _)
  have htype : l.type.map Lexeme.token ∈ Grammar.maybe Grammar.type := by
    rcases htyped.type with htype | htype
    · rw [htype]
      exact Grammar.nil_mem_maybe _
    · exact Grammar.mem_maybe ⟨l.type, htype, rfl⟩
  rw [Prototype.specifiers, HeadLayout.tokens, List.map_append, List.map_append,
    ← List.append_assoc, ← List.append_assoc]
  exact Language.append_mem_mul (Language.append_mem_mul (Language.append_mem_mul
    (Language.append_mem_mul (Grammar.visibility_mem hspecifiers.attached)
      (Grammar.binding_mem hspecifiers.exclusive)) htype) hmark) ⟨l.name, htyped.name, rfl⟩

/-- What is accepted is a sentence of the grammar when its tokens say types and a name. -/
theorem lexemes_mem_decl (hl : l.Fits className) (htyped : l.IsTyped) :
    l.lexemes ∈ Grammar.decl := by
  have hlexemes : l.lexemes =
      Prototype.specifiers l.protection l.colon l.isVirtual l.isStatic ++ l.tokens.map .token ++
        [.token (.symbol '(')] ++ ParamLayout.listLexemes l.params ++ [.token (.symbol ')')] ++
        (optional (.ofName "const") l.isConst ++ optional (.ofName "override") l.isOverride ++
          pureMark l.isPure) ++ optional (.symbol ';') l.isEnded := by
    simp only [lexemes, marks, List.append_assoc]
  rw [hlexemes]
  exact Language.append_mem_mul (Language.append_mem_mul (Language.append_mem_mul
    (Language.append_mem_mul (Language.append_mem_mul
      (specifiers_append_tokens_mem_head hl htyped) (Grammar.mem_token _))
      (ParamLayout.listLexemes_mem_params hl.params htyped.params)) (Grammar.mem_token _))
    (Language.append_mem_mul (Language.append_mem_mul (Grammar.optional_mem_maybe _ _)
      (Grammar.optional_mem_maybe _ _)) (Grammar.pureMark_mem _)))
    (Grammar.optional_mem_maybe _ _)

end Layout

/-- Every text is read as a layout that it is spelled as, which is a sentence of the grammar when
its tokens say types and a name, or else is rejected with the class and the text. -/
theorem parse_layout_or_fault (className text : String) :
    match parse className text with
    | .ok p => ∃ l : Layout, l.Fits className ∧ IsSpelled text l.lexemes ∧ p = l.toPrototype ∧
        (l.IsTyped → IsSentence text)
    | .error e => (∀ l : Layout, l.Fits className → ¬IsSpelled text l.lexemes) ∧
        ∃ fault offset, e = .prototype className (Text.trim text) fault offset := by
  split
  · rename_i hparse
    obtain ⟨l, hl, hspelled, hp⟩ := parse_eq_ok_iff_layout.1 hparse
    exact ⟨l, hl, hspelled, hp, fun htyped ↦ ⟨_, l.lexemes_mem_decl hl htyped, hspelled⟩⟩
  · rename_i hparse
    refine ⟨fun l hl hspelled ↦ ?_, exists_fault_of_parse hparse⟩
    rw [parse_eq_ok_iff_layout.2 ⟨l, hl, hspelled, rfl⟩] at hparse
    cases hparse

/-! ### Semicolons in sentences -/

namespace Grammar

open scoped Computability

/-- Whether a semicolon stands in the lexemes of a language only together with template brackets. -/
def Encloses (L : Language Lexeme) : Prop :=
  ∀ ls ∈ L, .token (.symbol ';') ∈ ls → .token (.symbol '<') ∈ ls

variable {L M : Language Lexeme}

theorem encloses_token {t : Token} (ht : t ≠ .symbol ';') : Encloses (token t) := by
  rintro ls rfl hmem
  cases List.mem_singleton.1 hmem
  exact (ht rfl).elim

theorem Encloses.add (hL : Encloses L) (hM : Encloses M) : Encloses (L + M) := by
  rintro ls (h | h)
  · exact hL ls h
  · exact hM ls h

theorem Encloses.maybe (hL : Encloses L) : Encloses (maybe L) := by
  refine Encloses.add ?_ hL
  rintro ls rfl hmem
  exact (List.not_mem_nil hmem).elim

theorem Encloses.mul (hL : Encloses L) (hM : Encloses M) : Encloses (L * M) := by
  rintro _ ⟨as, has, bs, hbs, rfl⟩ hmem
  rcases List.mem_append.1 hmem with hmem | hmem
  · exact List.mem_append_left _ (hL as has hmem)
  · exact List.mem_append_right _ (hM bs hbs hmem)

theorem Encloses.kstar (hL : Encloses L) : Encloses L∗ := by
  rintro _ ⟨parts, rfl, hparts⟩ hmem
  obtain ⟨ls, hls, hmem⟩ := List.mem_flatten.1 hmem
  exact List.mem_flatten_of_mem hls (hL ls (hparts ls hls) hmem)

/-- Outside of template brackets a type has no semicolon. -/
theorem mem_of_isGrouped {depth : Nat} {ts : List Token}
    (h : ParamText.isGrouped depth ts = true) (hmem : .symbol ';' ∈ ts) :
    depth ≠ 0 ∨ .symbol '<' ∈ ts := by
  induction ts generalizing depth with
  | nil => cases hmem
  | cons t ts ih =>
    obtain ⟨ht, h⟩ := Bool.and_eq_true_iff.1 h
    by_cases hdepth : depth = 0
    · subst hdepth
      refine .inr ?_
      by_cases hopens : t = .symbol '<'
      · exact List.mem_cons.2 (.inl hopens.symm)
      · have hnext : nesting 0 t = 0 := by
          rw [nesting, if_neg hopens]
          split <;> rfl
        rcases List.mem_cons.1 hmem with rfl | hmem
        · exact absurd ht (by decide)
        · rw [hnext] at h
          exact List.mem_cons_of_mem _ ((ih h hmem).resolve_left fun hne ↦ hne rfl)
    · exact .inl hdepth

theorem mem_of_isTypeText {ts : List Token} (h : isTypeText ts = true)
    (hmem : .symbol ';' ∈ ts) : .symbol '<' ∈ ts :=
  (mem_of_isGrouped (isGrouped_of_isTypeText h) hmem).resolve_left fun hne ↦ hne rfl

theorem encloses_such {p : List Token → Bool}
    (h : ∀ ts, p ts = true → .symbol ';' ∈ ts → .symbol '<' ∈ ts) : Encloses (such p) := by
  rintro _ ⟨ts, hts, rfl⟩ hmem
  obtain ⟨t, ht, heq⟩ := List.mem_map.1 hmem
  cases heq
  exact List.mem_map_of_mem (h ts hts ht)

theorem encloses_type : Encloses type := encloses_such fun _ ↦ mem_of_isTypeText

theorem encloses_name : Encloses name := by
  refine encloses_such fun ts hts hmem ↦ ?_
  match ts, hts with
  | [.word chars], _ => cases List.mem_singleton.1 hmem
  | .word chars :: u :: ts, hts =>
    obtain ⟨-, hoperator⟩ := Bool.and_eq_true_iff.1 hts
    obtain hmem := (List.mem_cons.1 hmem).resolve_left nofun
    rcases Bool.or_eq_true_iff.1 hoperator with hmarks | htype
    · exact absurd (List.all_eq_true.1 hmarks _ hmem) (by decide)
    · exact List.mem_cons_of_mem _ (mem_of_isTypeText htype hmem)

theorem encloses_param : Encloses param := by
  have hdefault : Encloses default := by
    rintro _ ⟨value, -, rfl⟩ hmem
    cases List.mem_singleton.1 hmem
  exact ((encloses_type.mul encloses_name.maybe).mul
    ((encloses_token (by decide)).mul (encloses_token (by decide))).maybe).mul hdefault.maybe

theorem encloses_params : Encloses params :=
  (encloses_token (by decide)).add
    (encloses_param.mul ((encloses_token (by decide)).mul encloses_param).kstar)

theorem encloses_head : Encloses head := by
  have hword (name : String) : Encloses (word name) := encloses_token nofun
  exact (((((hword _).add (hword _)).maybe.mul (encloses_token (by decide)).maybe).mul
    ((hword _).add (hword _)).maybe).mul encloses_type.maybe).mul
      (encloses_token (by decide)).maybe |>.mul encloses_name

theorem encloses_tail : Encloses tail := by
  have hword (name : String) : Encloses (word name) := encloses_token nofun
  exact ((hword _).maybe.mul (hword _).maybe).mul ((encloses_token (by decide)).mul (hword _)).maybe

/-- In a sentence without template brackets a semicolon stands only at the end. -/
theorem getLast?_of_mem_decl {ls : List Lexeme} (h : ls ∈ decl)
    (hmem : .token (.symbol ';') ∈ ls) (hangle : .token (.symbol '<') ∉ ls) :
    ls.getLast? = some (.token (.symbol ';')) := by
  obtain ⟨body, hbody, ending, hending, rfl⟩ := Language.mem_mul.1 h
  have hencloses : Encloses (head * symbol '(' * Grammar.maybe params * symbol ')' * tail) :=
    (((encloses_head.mul (encloses_token (by decide))).mul encloses_params.maybe).mul
      (encloses_token (by decide))).mul encloses_tail
  rcases hending with rfl | rfl
  · rw [List.append_nil] at hmem hangle
    exact (hangle (hencloses body hbody hmem)).elim
  · exact List.getLast?_concat

end Grammar

/-- A text without an equals sign is spelled in one way. -/
theorem eq_of_spells_of_reads {cs mid rest : List Char} {ts : List Token} {ls : List Lexeme}
    (hreads : Token.Reads cs ts mid) (hmid : Token.next mid = .finished)
    (hequals : .symbol '=' ∉ ts) (h : Spells cs ls rest) (hrest : Token.next rest = .finished) :
    ls = ts.map .token := by
  induction hreads generalizing ls with
  | done =>
    cases ls with
    | nil => rfl
    | cons l ls =>
      obtain ⟨_, _, hnext⟩ := next_of_spells h
      rw [hmid] at hnext
      cases hnext
  | token hnext _ ih =>
    obtain ⟨hne, hequals⟩ := not_or.1 (mt List.mem_cons.2 hequals)
    cases h with
    | done =>
      rw [hrest] at hnext
      cases hnext
    | token hfound h =>
      rw [hnext] at hfound
      cases hfound
      rw [ih hmid hequals h]
      rfl
    | default hfound =>
      rw [hnext] at hfound
      cases hfound
      exact (hne rfl).elim

end Prototype

/-- A method with a variable in front of it, as one head. -/
def Crates.draw : Prototype.Layout where
  type := [.ofName "int", .ofName "count", .symbol ';', .ofName "void"]
  name := [.ofName "Draw"]

open Prototype Crates in
/-- A variable in front of a method is taken for a part of its return type. -/
theorem crate_stray_semicolon :
    (∃ p, parse "Crate" "int count; void Draw()" = .ok p ∧
      p.returnType = some "int count; void") ∧ ¬IsSentence "int count; void Draw()" := by
  constructor
  · have hspelled : IsSpelled "int count; void Draw()" draw.lexemes :=
      ⟨[], .token rfl (.token rfl (.token rfl (.token rfl (.token rfl (.token rfl
        (.token rfl .done)))))), rfl⟩
    have hdraw : draw.Fits "Crate" := by
      refine ⟨⟨by decide, .inr ⟨_, rfl, by decide, by decide⟩⟩, by decide, ?_, by decide, by decide,
        List.forall_mem_nil _⟩
      rintro t ht
      cases ht
      exact ⟨by decide, by decide, by decide⟩
    exact ⟨_, parse_eq_ok_iff_layout.2 ⟨draw, hdraw, hspelled, rfl⟩, by decide⟩
  · have hreads : Token.Reads "int count; void Draw()".toList
        [.ofName "int", .ofName "count", .symbol ';', .ofName "void", .ofName "Draw", .symbol '(',
          .symbol ')'] [] :=
      .token rfl (.token rfl (.token rfl (.token rfl (.token rfl (.token rfl
        (.token rfl .done))))))
    rintro ⟨ls, hls, rest, hspells, hrest⟩
    obtain rfl := eq_of_spells_of_reads hreads rfl (by decide) hspells hrest
    exact absurd (Grammar.getLast?_of_mem_decl hls (by decide) (by decide)) (by decide)

end Bindery
