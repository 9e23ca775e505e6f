import Bindery.Error
import Bindery.Proofs.Decl.Lexemes

/-!
What whole prototypes are written with. A prototype is read from a text exactly when the text is
spelled as a layout, and it is what the layout says (`Prototype.parse_eq_ok_iff_layout`). In front
of the parameter list a layout may hold any tokens: the last word is the name, or all from the word
`operator` on, and what is left in front of it is the type. So little is asked of these tokens that
the conditions of a layout (`Prototype.Layout.Fits`) are mostly about the words that are taken for
specifiers when they come first.
-/

set_option autoImplicit false
set_option relaxedAutoImplicit false

namespace Bindery

namespace Prototype

open Token

/-! ### Tokens that may be missing -/

section Optional

variable {cs rest : List Char} {t u : Token} {taken : Bool} {l : Lexeme} {ls : List Lexeme}

/-- At the end of a text only the lexemes that are left can stand. -/
theorem lacks_of_spells_end (h : Spells cs ls rest) (hend : next rest = .finished)
    (hls : ∀ l ∈ ls.head?, l.first ≠ t) : Lacks t cs := by
  cases ls with
  | nil =>
    obtain rfl := spells_nil_iff.1 h
    exact .inl hend
  | cons l ls =>
    obtain ⟨_, _, hnext⟩ := next_of_spells h
    exact (lacks_iff_of_next hnext).2 (hls l rfl)

/-- A token that is spelled is taken, and one that is not is passed over. -/
theorem exists_accept_of_spells (h : Spells cs (optional t taken ++ ls) rest)
    (hlacks : taken = false → Lacks t cs) :
    ∃ mid, accept t cs = .ok (taken, mid) ∧ Spells mid ls rest := by
  obtain ⟨mid, htaken, hls⟩ := spells_append_iff.1 h
  refine ⟨mid, accept_eq_ok_iff.2 ⟨htaken, ?_⟩, hls⟩
  rintro rfl
  rw [spells_nil_iff.1 htaken]
  exact hlacks rfl

end Optional

/-! ### Heads -/

/-- Whether tokens can stand in front of the parenthesis that opens the parameter list, with `depth`
template brackets open in front of them. -/
def isHead (depth : Nat) : List Token → Bool
  | [] => depth == 0
  | t :: ts => (depth != 0 || t != .symbol '(') && isHead (nesting depth t) ts

/-- What is written in front of a parameter list. -/
structure HeadLayout where
  type : List Token
  isDtor : Bool := false
  name : List Token
  deriving Repr, DecidableEq

namespace HeadLayout

def tokens (l : HeadLayout) : List Token :=
  l.type ++ (if l.isDtor then [.symbol '~'] else []) ++ l.name

/-- The head as it is read. -/
def toHead (l : HeadLayout) : Head := ⟨l.type, l.name.flatMap Token.text, l.isDtor⟩

/-- Whether the type ends where the name of an operator begins, or else in front of the last word
and the mark of a destructor. -/
structure IsSplit (l : HeadLayout) : Prop where
  type : .ofName "operator" ∉ l.type
  name : l.isDtor = false ∧ l.name.head? = some (.ofName "operator") ∨
    ∃ word, l.name = [.word word] ∧ .word word ≠ Token.ofName "operator" ∧
      (l.isDtor = false → l.type.getLast? ≠ some (.symbol '~'))

theorem IsSplit.tokens_ne_nil {l : HeadLayout} (h : l.IsSplit) : l.tokens ≠ [] := by
  intro htokens
  have hname : l.name = [] := (List.append_eq_nil_iff.1 htokens).2
  rcases h.name with ⟨-, hhead⟩ | ⟨word, hword, -⟩
  · rw [hname] at hhead
    cases hhead
  · rw [hname] at hword
    cases hword

end HeadLayout

section Head

variable {cs rest text : List Char} {placed : List Placed} {depth : Nat} {ts : List Token}
  {head : Head}

theorem readHead_eq (depth : Nat) (cs : List Char) : readHead depth cs =
    match Token.next cs with
    | .finished =>
      .error ⟨if depth = 0 then .missingParameterList else .unterminatedTemplate, []⟩
    | .unexpected c start => .error ⟨.unexpectedCharacter c, start⟩
    | .found t start rest =>
      if depth = 0 ∧ t = .symbol '(' then .ok ([], rest)
      else (readHead (nesting depth t) rest).map fun read ↦ ((t, start) :: read.1, read.2) := by
  rw [readHead.eq_def]
  split <;> rename_i hnext <;> simp only [hnext]

theorem readHead_of_next {start : List Char} {t : Token} (h : next cs = .found t start rest) :
    readHead depth cs = if depth = 0 ∧ t = .symbol '(' then .ok ([], rest)
    else (readHead (nesting depth t) rest).map fun read ↦ ((t, start) :: read.1, read.2) := by
  rw [readHead_eq, h]

/-- The tokens up to the parenthesis are spelled, and the parenthesis behind them. -/
theorem spells_of_readHead (h : readHead depth cs = .ok (placed, rest)) :
    isHead depth (placed.map Prod.fst) = true ∧
      Spells cs ((placed.map Prod.fst).map .token ++ [.token (.symbol '(')]) rest := by
  fun_induction readHead depth cs generalizing placed rest with
  | case1 => cases h
  | case2 => cases h
  | case3 depth cs t start mid hnext _ hopens =>
    obtain ⟨rfl, rfl⟩ := hopens
    cases h
    exact ⟨rfl, .token hnext .done⟩
  | case4 depth cs t start mid hnext _ hother ih =>
    obtain ⟨⟨placed', rest'⟩, hread, heq⟩ := exists_of_map_eq_ok h
    cases heq
    obtain ⟨hhead, hspells⟩ := ih hread
    refine ⟨?_, .token hnext hspells⟩
    rw [List.map_cons, isHead, hhead, Bool.and_true, Bool.or_eq_true, bne_iff_ne, bne_iff_ne]
    exact not_and_or.1 hother

/-- What is spelled as a head is read up to the parenthesis. -/
theorem readHead_of_spells (hhead : isHead depth ts = true)
    (h : Spells cs (ts.map .token ++ [.token (.symbol '(')]) rest) :
    ∃ placed, readHead depth cs = .ok (placed, rest) ∧ placed.map Prod.fst = ts := by
  induction ts generalizing cs depth with
  | nil =>
    obtain rfl : depth = 0 := beq_iff_eq.1 hhead
    obtain ⟨start, mid, hnext, hmid⟩ := spells_token_iff.1 h
    obtain rfl := spells_nil_iff.1 hmid
    exact ⟨[], (readHead_of_next hnext).trans (if_pos ⟨rfl, rfl⟩), rfl⟩
  | cons t ts ih =>
    obtain ⟨start, mid, hnext, hmid⟩ := spells_token_iff.1 h
    obtain ⟨ht, hhead⟩ := Bool.and_eq_true_iff.1 hhead
    obtain ⟨placed, hread, rfl⟩ := ih hhead hmid
    have hother : ¬(depth = 0 ∧ t = .symbol '(') := by
      rintro ⟨rfl, rfl⟩
      exact absurd ht (by decide)
    exact ⟨(t, start) :: placed,
      by rw [readHead_of_next hnext, if_neg hother, hread]; rfl, rfl⟩

/-- A head that is split is the head of a layout. -/
theorem exists_layout_of_splitHead (h : splitHead text placed = .ok head) :
    ∃ l : HeadLayout, l.IsSplit ∧ placed.map Prod.fst = l.tokens ∧ head = l.toHead := by
  rw [splitHead] at h
  split at h
  · rename_i hoperator
    cases h
    have hhead := List.head?_dropWhile_not (· != Token.ofName "operator") (placed.map Prod.fst)
    have hne : (placed.map Prod.fst).dropWhile (· != Token.ofName "operator") ≠ [] := by
      simpa using hoperator
    obtain ⟨t, ts, hdrop⟩ := List.exists_cons_of_ne_nil hne
    refine ⟨⟨_, false, _⟩, ⟨?_, .inl ⟨rfl, ?_⟩⟩, ?_, rfl⟩
    · exact fun hmem ↦ absurd (List.mem_takeWhile_imp hmem) (by simp)
    · rw [hdrop] at hhead ⊢
      simpa using hhead
    · rw [HeadLayout.tokens]
      simp
  · rename_i hoperator
    have hnone : ∀ t ∈ placed.map Prod.fst, t ≠ .ofName "operator" := by
      rw [Bool.not_eq_true', Bool.not_eq_false, List.isEmpty_iff, List.dropWhile_eq_nil_iff]
        at hoperator
      exact fun t ht ↦ bne_iff_ne.1 (hoperator t ht)
    split at h
    · cases h
    · cases h
    · rename_i name place hlast
      obtain ⟨before, rfl⟩ := List.getLast?_eq_some_iff.1 hlast
      have htokens : (before ++ [(Token.word name, place)]).map Prod.fst =
          before.map Prod.fst ++ [.word name] := List.map_append
      rw [htokens] at h hnone ⊢
      obtain ⟨hbefore, hname⟩ := List.forall_mem_append.1 hnone
      rw [List.dropLast_concat] at h
      split at h
      · rename_i hmark
        cases h
        obtain ⟨type, htype⟩ := List.getLast?_eq_some_iff.1 (beq_iff_eq.1 hmark)
        rw [htype] at hbefore ⊢
        refine ⟨⟨type, true, [.word name]⟩, ⟨?_, .inr ⟨name, rfl, ?_, nofun⟩⟩, rfl, ?_⟩
        · exact fun hmem ↦ hbefore _ (List.mem_append_left _ hmem) rfl
        · exact hname _ (List.mem_singleton_self _)
        · simp [HeadLayout.toHead, Token.text]
      · rename_i hmark
        cases h
        refine ⟨⟨before.map Prod.fst, false, [.word name]⟩,
          ⟨fun hmem ↦ hbefore _ hmem rfl, .inr ⟨name, rfl, ?_, ?_⟩⟩, ?_, ?_⟩
        · exact hname _ (List.mem_singleton_self _)
        · exact fun _ ↦ by simpa using hmark
        · simp [HeadLayout.tokens]
        · simp [HeadLayout.toHead, Token.text]

/-- The tokens of a layout are split where its name begins. -/
theorem splitHead_of_layout {l : HeadLayout} (hl : l.IsSplit)
    (hplaced : placed.map Prod.fst = l.tokens) : splitHead text placed = .ok l.toHead := by
  obtain ⟨type, isDtor, name⟩ := l
  have htype : ∀ t ∈ type, (t != .ofName "operator") = true := fun t ht ↦
    bne_iff_ne.2 fun heq ↦ hl.type (heq ▸ ht)
  rcases hl.name with ⟨rfl, hname⟩ | ⟨word, rfl, hword, hmark⟩
  · obtain ⟨more, rfl⟩ := List.head?_eq_some_iff.1 hname
    have htokens : HeadLayout.tokens ⟨type, false, .ofName "operator" :: more⟩ =
        type ++ .ofName "operator" :: more := by simp [HeadLayout.tokens]
    rw [splitHead, hplaced, htokens]
    simp only [List.takeWhile_append_of_pos htype, List.dropWhile_append_of_pos htype,
      List.takeWhile_cons, List.dropWhile_cons, bne_self_eq_false, Bool.false_eq_true, if_false,
      List.append_nil, List.isEmpty_cons, Bool.not_false, if_true]
    rfl
  · -- No token is the word `operator`, so the last word is the name.
    have hnone : ∀ t ∈ placed.map Prod.fst, (t != .ofName "operator") = true := by
      rw [hplaced, HeadLayout.tokens]
      refine List.forall_mem_append.2 ⟨List.forall_mem_append.2 ⟨htype, ?_⟩, ?_⟩
      · cases isDtor with
        | false => exact List.forall_mem_nil _
        | true => exact List.forall_mem_singleton.2 (by decide)
      · exact List.forall_mem_singleton.2 (bne_iff_ne.2 hword)
    have hdrop : (placed.map Prod.fst).dropWhile (· != Token.ofName "operator") = [] :=
      List.dropWhile_eq_nil_iff.2 hnone
    obtain ⟨before, last, rfl, hbefore, hlast⟩ := List.map_eq_append_iff.1 hplaced
    obtain ⟨⟨t, place⟩, rfl, rfl⟩ := List.map_eq_singleton_iff.1 hlast
    rw [splitHead, hdrop, hplaced]
    simp only [HeadLayout.tokens, List.isEmpty_nil, Bool.not_true, Bool.false_eq_true, if_false,
      List.getLast?_append, List.getLast?_singleton, Option.some_or, List.dropLast_concat]
    cases isDtor with
    | true => simp [HeadLayout.toHead, Token.text]
    | false =>
      have hmark : type.getLast? ≠ some (.symbol '~') := hmark rfl
      simp [HeadLayout.toHead, Token.text, hmark]

end Head

/-- What a head returns is its type. Only a constructor and a destructor go without one, and a
destructor has none. -/
theorem returnTypeOf_eq_ok_iff {className : String} {text : List Char} {head : Head}
    {returnType : Option String} : returnTypeOf className text head = .ok returnType ↔
      (head.type = [] → head.isDtor = true ∨ head.name = className.toList) ∧
      (head.isDtor = true → head.type = []) ∧
      returnType = if head.type = [] then none else some (ParamText.typeOf head.type) := by
  obtain ⟨type, name, isDtor⟩ := head
  rw [returnTypeOf]
  cases type with
  | nil =>
    cases isDtor with
    | true => simpa using eq_comm
    | false =>
      by_cases hname : name = className.toList
      · simpa [hname] using eq_comm
      · simp [hname]
  | cons t ts =>
    cases isDtor with
    | true => simp
    | false => simpa using eq_comm

/-! ### Specifiers -/

section Specifiers

variable {cs rest start mid : List Char} {protection : Option Protection} {t : Token}
  {colon isVirtual isStatic : Bool}

/-- A visibility as it is written. -/
def visibility (protection : Option Protection) (colon : Bool) : List Lexeme :=
  match protection with
  | none => []
  | some protection => .token (.ofName protection.keyword) :: optional (.symbol ':') colon

/-- The tokens that would be read as a part of the visibility behind what is written of it. -/
def visibilityTokens (protection : Option Protection) (colon : Bool) : List Token :=
  match protection with
  | none => [.ofName "public", .ofName "protected"]
  | some _ => if colon then [] else [.symbol ':']

theorem readProtection_eq_ok_iff : readProtection cs = .ok (protection, rest) ↔
    ∃ colon, (protection = none → colon = false) ∧ Spells cs (visibility protection colon) rest ∧
      ∀ t ∈ visibilityTokens protection colon, Lacks t rest := by
  have hcolon {mid : List Char} {colon : Bool} :
      accept (.symbol ':') mid = .ok (colon, rest) ↔
        Spells mid (optional (.symbol ':') colon) rest ∧
          ∀ t ∈ visibilityTokens (some .publicAccess) colon, Lacks t rest := by
    rw [accept_eq_ok_iff]
    cases colon <;> simp [visibilityTokens]
  rw [readProtection]
  constructor
  · intro h
    obtain ⟨⟨isPublic, mid⟩, hpublic, h⟩ := bind_eq_ok.1 h
    cases isPublic with
    | true =>
      obtain ⟨⟨colon, after⟩, haccept, h⟩ := bind_eq_ok.1 h
      cases h
      obtain ⟨start, hnext⟩ := accept_eq_true_iff.1 hpublic
      obtain ⟨hspells, hlacks⟩ := hcolon.1 haccept
      exact ⟨colon, nofun, .token hnext hspells, hlacks⟩
    | false =>
      obtain ⟨⟨isProtected, mid⟩, hprotected, h⟩ := bind_eq_ok.1 h
      cases isProtected with
      | true =>
        obtain ⟨⟨colon, after⟩, haccept, h⟩ := bind_eq_ok.1 h
        cases h
        obtain ⟨start, hnext⟩ := accept_eq_true_iff.1 hprotected
        obtain ⟨hspells, hlacks⟩ := hcolon.1 haccept
        exact ⟨colon, nofun, .token hnext hspells, hlacks⟩
      | false =>
        cases h
        refine ⟨false, fun _ ↦ rfl, .done, ?_⟩
        exact List.forall_mem_cons.2 ⟨(accept_eq_false_iff.1 hpublic).2,
          List.forall_mem_singleton.2 (accept_eq_false_iff.1 hprotected).2⟩
  · rintro ⟨colon, hnone, hspells, hlacks⟩
    cases protection with
    | none =>
      obtain rfl := spells_nil_iff.1 hspells
      obtain ⟨hpublic, hprotected⟩ := List.forall_mem_cons.1 hlacks
      exact bind_eq_ok.2 ⟨(false, _), accept_eq_false_iff.2 ⟨rfl, hpublic⟩, bind_eq_ok.2
        ⟨(false, _), accept_eq_false_iff.2 ⟨rfl, hprotected _ (List.mem_singleton_self _)⟩, rfl⟩⟩
    | some protection =>
      obtain ⟨start, mid, hnext, hspells⟩ := spells_token_iff.1 hspells
      have haccept := hcolon.2 ⟨hspells, hlacks⟩
      cases protection with
      | publicAccess =>
        exact bind_eq_ok.2 ⟨(true, mid), accept_eq_true_iff.2 ⟨start, hnext⟩,
          bind_eq_ok.2 ⟨_, haccept, rfl⟩⟩
      | protectedAccess =>
        have hpublic : Lacks (.ofName "public") cs := (lacks_iff_of_next hnext).2 (by decide)
        exact bind_eq_ok.2 ⟨(false, cs), accept_eq_false_iff.2 ⟨rfl, hpublic⟩,
          bind_eq_ok.2 ⟨(true, mid), accept_eq_true_iff.2 ⟨start, hnext⟩,
            bind_eq_ok.2 ⟨_, haccept, rfl⟩⟩⟩

/-- What is written in front of a head. -/
def specifiers (protection : Option Protection) (colon isVirtual isStatic : Bool) : List Lexeme :=
  visibility protection colon ++
    (optional (.ofName "virtual") isVirtual ++ optional (.ofName "static") isStatic)

/-- The tokens that would be read as specifiers if a head without `virtual` and `static` in front
of it began with them. -/
def pendingTokens (protection : Option Protection) (colon : Bool) : List Token :=
  visibilityTokens protection colon ++ [.ofName "virtual", .ofName "static"]

/-- The conditions on specifiers in front of a head that begins with `t`. -/
structure AreSpecifiers (protection : Option Protection) (colon isVirtual isStatic : Bool)
    (t : Token) : Prop where
  attached : protection = none → colon = false
  exclusive : ¬(isVirtual = true ∧ isStatic = true)
  fresh : isVirtual = false → isStatic = false → t ∉ pendingTokens protection colon

theorem spells_specifiers {afterProtection afterVirtual : List Char}
    (hprotection : readProtection cs = .ok (protection, afterProtection))
    (hvirtual : acceptWord "virtual" afterProtection = .ok (isVirtual, afterVirtual))
    (hstatic : (if isVirtual then pure (false, afterVirtual) else
      acceptWord "static" afterVirtual) = .ok (isStatic, rest))
    (hnext : next rest = .found t start mid) :
    ∃ colon, AreSpecifiers protection colon isVirtual isStatic t ∧
      Spells cs (specifiers protection colon isVirtual isStatic) rest := by
  obtain ⟨colon, hnone, hvisibility, hlacks⟩ := readProtection_eq_ok_iff.1 hprotection
  obtain ⟨hspells, hlacksVirtual⟩ := accept_eq_ok_iff.1 hvirtual
  refine ⟨colon, ?_⟩
  cases isVirtual with
  | true =>
    cases hstatic
    refine ⟨⟨hnone, by decide, nofun⟩, spells_append_iff.2 ⟨_, hvisibility, ?_⟩⟩
    exact spells_append_iff.2 ⟨_, hspells, .done⟩
  | false =>
    obtain rfl := spells_nil_iff.1 hspells
    obtain ⟨hspells, hlacksStatic⟩ := accept_eq_ok_iff.1 hstatic
    refine ⟨⟨hnone, fun h ↦ Bool.false_ne_true h.1, ?_⟩,
      spells_append_iff.2 ⟨_, hvisibility, hspells⟩⟩
    rintro - rfl
    obtain rfl := spells_nil_iff.1 hspells
    have hpending : ∀ u ∈ pendingTokens protection colon, Lacks u rest :=
      List.forall_mem_append.2 ⟨hlacks, List.forall_mem_cons.2 ⟨hlacksVirtual rfl,
        List.forall_mem_singleton.2 (hlacksStatic rfl)⟩⟩
    exact fun ht ↦ (lacks_iff_of_next hnext).1 (hpending t ht) rfl

theorem read_specifiers_of_spells (hare : AreSpecifiers protection colon isVirtual isStatic t)
    (h : Spells cs (specifiers protection colon isVirtual isStatic) rest)
    (hnext : next rest = .found t start mid) :
    ∃ afterProtection afterVirtual,
      readProtection cs = .ok (protection, afterProtection) ∧
      acceptWord "virtual" afterProtection = .ok (isVirtual, afterVirtual) ∧
      (if isVirtual then pure (false, afterVirtual) else
        acceptWord "static" afterVirtual) = .ok (isStatic, rest) := by
  obtain ⟨afterProtection, hvisibility, h⟩ := spells_append_iff.1 h
  obtain ⟨afterVirtual, hvirtual, hstatic⟩ := spells_append_iff.1 h
  have hwords : ∀ u ∈ visibilityTokens protection colon,
      u ≠ .ofName "virtual" ∧ u ≠ .ofName "static" := by
    cases protection with
    | none => simp [visibilityTokens, Token.ofName]
    | some protection => cases colon <;> simp [visibilityTokens, Token.ofName]
  cases isVirtual with
  | true =>
    obtain rfl : isStatic = false := by simpa using hare.exclusive
    obtain rfl := spells_nil_iff.1 hstatic
    obtain ⟨_, _, hfound⟩ := next_of_spells hvirtual
    refine ⟨afterProtection, _, readProtection_eq_ok_iff.2 ⟨colon, hare.attached, hvisibility, ?_⟩,
      accept_eq_ok_iff.2 ⟨hvirtual, fun h ↦ Bool.noConfusion h⟩, rfl⟩
    exact fun u hu ↦ (lacks_iff_of_next hfound).2 (hwords u hu).1.symm
  | false =>
    obtain rfl := spells_nil_iff.1 hvirtual
    -- Behind the visibility stands `static`, or else the head.
    have hfound : ∃ u start mid, next afterVirtual = .found u start mid ∧
        u ≠ .ofName "virtual" ∧ (isStatic = false → u ≠ .ofName "static") ∧
        u ∉ visibilityTokens protection colon := by
      cases isStatic with
      | true =>
        obtain ⟨_, _, hfound⟩ := next_of_spells hstatic
        exact ⟨_, _, _, hfound, by decide, fun h ↦ Bool.noConfusion h, fun hu ↦ (hwords _ hu).2 rfl⟩
      | false =>
        obtain rfl := spells_nil_iff.1 hstatic
        have ht := hare.fresh rfl rfl
        simp only [pendingTokens, List.mem_append, List.mem_cons, List.not_mem_nil, or_false,
          not_or] at ht
        exact ⟨t, _, _, hnext, ht.2.1, fun _ ↦ ht.2.2, ht.1⟩
    obtain ⟨u, _, _, hfound, huVirtual, huStatic, hu⟩ := hfound
    refine ⟨afterVirtual, afterVirtual,
      readProtection_eq_ok_iff.2 ⟨colon, hare.attached, hvisibility, fun w hw ↦ ?_⟩,
      accept_eq_ok_iff.2 ⟨.done, fun _ ↦ (lacks_iff_of_next hfound).2 huVirtual⟩,
      accept_eq_ok_iff.2 ⟨hstatic, ?_⟩⟩
    · exact (lacks_iff_of_next hfound).2 fun heq ↦ hu (heq ▸ hw)
    · rintro rfl
      obtain rfl := spells_nil_iff.1 hstatic
      exact (lacks_iff_of_next hfound).2 (huStatic rfl)

end Specifiers

/-! ### Marks behind the parameters -/

section Marks

variable {cs rest : List Char} {isConst isOverride isPure isEnded : Bool}

/-- The mark of a pure method. -/
def pureMark (isPure : Bool) : List Lexeme :=
  if isPure then [.token (.symbol '='), .token (.ofName "0")] else []

theorem readPure_eq_ok_iff : readPure cs = .ok (isPure, rest) ↔
    Spells cs (pureMark isPure) rest ∧ (isPure = false → Lacks (.symbol '=') rest) := by
  rw [readPure]
  constructor
  · intro h
    obtain ⟨⟨equals, mid⟩, hequals, h⟩ := bind_eq_ok.1 h
    cases equals with
    | false =>
      cases h
      exact ⟨.done, fun _ ↦ (accept_eq_false_iff.1 hequals).2⟩
    | true =>
      obtain ⟨start, hnext⟩ := accept_eq_true_iff.1 hequals
      simp only [Bool.not_true, Bool.false_eq_true, if_false] at h
      split at h
      · cases h
      · cases h
      · rename_i hzero
        split at h
        · rename_i ht
          subst ht
          cases h
          exact ⟨.token hnext (.token hzero .done), nofun⟩
        · cases h
  · rintro ⟨hspells, hlacks⟩
    cases isPure with
    | false =>
      obtain rfl := spells_nil_iff.1 hspells
      exact bind_eq_ok.2 ⟨(false, _), accept_eq_false_iff.2 ⟨rfl, hlacks rfl⟩, rfl⟩
    | true =>
      obtain ⟨start, mid, hnext, hspells⟩ := spells_token_iff.1 hspells
      obtain ⟨_, _, hzero, hspells⟩ := spells_token_iff.1 hspells
      obtain rfl := spells_nil_iff.1 hspells
      refine bind_eq_ok.2 ⟨(true, mid), accept_eq_true_iff.2 ⟨start, hnext⟩, ?_⟩
      simp only [hzero, Bool.not_true, Bool.false_eq_true, if_false, if_true]
      rfl

theorem readEnd_eq_ok_iff : readEnd cs = .ok () ↔
    ∃ isEnded rest, Spells cs (optional (.symbol ';') isEnded) rest ∧ next rest = .finished := by
  rw [readEnd]
  constructor
  · intro h
    obtain ⟨⟨isEnded, rest⟩, haccept, h⟩ := bind_eq_ok.1 h
    refine ⟨isEnded, rest, (accept_eq_ok_iff.1 haccept).1, ?_⟩
    dsimp only at h
    split at h
    · assumption
    · cases h
    · cases h
  · rintro ⟨isEnded, rest, hspells, hend⟩
    have haccept : accept (.symbol ';') cs = .ok (isEnded, rest) :=
      accept_eq_ok_iff.2 ⟨hspells, fun _ ↦ .inl hend⟩
    refine bind_eq_ok.2 ⟨_, haccept, ?_⟩
    simp only [hend]
    rfl

/-- What is written behind a parameter list. -/
def marks (isConst isOverride isPure isEnded : Bool) : List Lexeme :=
  optional (.ofName "const") isConst ++ (optional (.ofName "override") isOverride ++
    (pureMark isPure ++ optional (.symbol ';') isEnded))

theorem spells_marks {afterConst afterOverride afterPure : List Char}
    (hconst : acceptWord "const" cs = .ok (isConst, afterConst))
    (hoverride : acceptWord "override" afterConst = .ok (isOverride, afterOverride))
    (hpure : readPure afterOverride = .ok (isPure, afterPure))
    (hend : readEnd afterPure = .ok ()) :
    ∃ isEnded rest, Spells cs (marks isConst isOverride isPure isEnded) rest ∧
      next rest = .finished := by
  obtain ⟨isEnded, rest, hended, hrest⟩ := readEnd_eq_ok_iff.1 hend
  refine ⟨isEnded, rest, ?_, hrest⟩
  exact spells_append_iff.2 ⟨_, (accept_eq_ok_iff.1 hconst).1,
    spells_append_iff.2 ⟨_, (accept_eq_ok_iff.1 hoverride).1,
      spells_append_iff.2 ⟨_, (readPure_eq_ok_iff.1 hpure).1, hended⟩⟩⟩

theorem read_marks_of_spells (h : Spells cs (marks isConst isOverride isPure isEnded) rest)
    (hrest : next rest = .finished) :
    ∃ afterConst afterOverride afterPure,
      acceptWord "const" cs = .ok (isConst, afterConst) ∧
      acceptWord "override" afterConst = .ok (isOverride, afterOverride) ∧
      readPure afterOverride = .ok (isPure, afterPure) ∧ readEnd afterPure = .ok () := by
  obtain ⟨afterConst, hconst, h⟩ := exists_accept_of_spells h fun hisConst ↦ by
    subst hisConst
    refine lacks_of_spells_end h hrest ?_
    cases isOverride <;> cases isPure <;> cases isEnded <;> decide
  obtain ⟨afterOverride, hoverride, h⟩ := exists_accept_of_spells h fun hisOverride ↦ by
    subst hisOverride
    refine lacks_of_spells_end h hrest ?_
    cases isPure <;> cases isEnded <;> decide
  obtain ⟨afterPure, hpure, h⟩ := spells_append_iff.1 h
  have hlacks : Lacks (.symbol '=') afterPure := lacks_of_spells_end h hrest (by
    cases isEnded <;> decide)
  exact ⟨afterConst, afterOverride, afterPure, hconst, hoverride,
    readPure_eq_ok_iff.2 ⟨hpure, fun _ ↦ hlacks⟩, readEnd_eq_ok_iff.2 ⟨isEnded, rest, h, hrest⟩⟩

end Marks

/-! ### Whole prototypes -/

/-- What is written for a prototype. -/
structure Layout extends HeadLayout where
  protection : Option Protection := none
  /-- Whether a colon stands behind the visibility. -/
  colon : Bool := false
  isVirtual : Bool := false
  isStatic : Bool := false
  params : List ParamLayout := []
  isConst : Bool := false
  isOverride : Bool := false
  isPure : Bool := false
  /-- Whether a semicolon stands at the end. -/
  isEnded : Bool := false
  deriving Repr, DecidableEq

namespace Layout

def lexemes (l : Layout) : List Lexeme :=
  specifiers l.protection l.colon l.isVirtual l.isStatic ++
    ((l.tokens.map .token ++ [.token (.symbol '(')]) ++
      ((ParamLayout.listLexemes l.params ++ [.token (.symbol ')')]) ++
        marks l.isConst l.isOverride l.isPure l.isEnded))

/-- The prototype as it is read. -/
def toPrototype (l : Layout) : Prototype where
  protection := l.protection
  isVirtual := l.isVirtual
  isStatic := l.isStatic
  returnType := if l.type = [] then none else some (ParamText.typeOf l.type)
  name := String.ofList (l.name.flatMap Token.text)
  isDtor := l.isDtor
  params := ParamLayout.declared false l.params
  isConst := l.isConst
  isOverride := l.isOverride
  isPureVirtual := l.isPure

/-- Whether a layout can be read as a prototype of `className`. -/
structure Fits (className : String) (l : Layout) : Prop extends l.IsSplit where
  head : isHead 0 l.tokens = true
  specifiers : ∀ t ∈ l.tokens.head?,
    AreSpecifiers l.protection l.colon l.isVirtual l.isStatic t
  typed : l.type = [] → l.isDtor = true ∨ l.name.flatMap Token.text = className.toList
  dtor : l.isDtor = true → l.type = []
  params : ∀ p ∈ l.params, p.Fits

/-- A layout can still be read with another parameter in place of one of its own. -/
theorem Fits.replace {className : String} {l : Layout} {before after : List ParamLayout}
    {p q : ParamLayout} (hl : l.Fits className) (hparams : l.params = before ++ p :: after)
    (hq : q.Fits) : { l with params := before ++ q :: after : Layout }.Fits className := by
  have hps := hl.params
  rw [hparams] at hps
  obtain ⟨hbefore, hps⟩ := List.forall_mem_append.1 hps
  obtain ⟨-, hafter⟩ := List.forall_mem_cons.1 hps
  exact { hl with
    params := List.forall_mem_append.2 ⟨hbefore, List.forall_mem_cons.2 ⟨hq, hafter⟩⟩ }

end Layout

/-- Only line breaks are written as something else. -/
theorem breaksToSpaces_eq_self_iff {cs : List Char} : breaksToSpaces cs = cs ↔ '\n' ∉ cs := by
  constructor
  · intro h hmem
    rw [← h] at hmem
    obtain ⟨c, -, hc⟩ := List.mem_map.1 hmem
    split at hc
    · exact absurd hc (by decide)
    · rename_i hbreak
      exact hbreak (beq_iff_eq.2 hc)
  · intro h
    refine (List.map_congr_left fun c hc ↦ if_neg ?_).trans (List.map_id _)
    rw [beq_iff_eq]
    exact ne_of_mem_of_not_mem hc h

theorem isBlank_breakToSpace (c : Char) :
    Text.isBlank (if c == '\n' then ' ' else c) = Text.isBlank c := by
  split
  · rename_i hc
    rw [beq_iff_eq.1 hc]
    decide
  · rfl

/-- Whether a text is written with the given lexemes and nothing else, where line breaks are
spaces. -/
def IsSpelled (text : String) (ls : List Lexeme) : Prop :=
  ∃ rest, Spells (breaksToSpaces text.toList) ls rest ∧ next rest = .finished

/-- A prototype is read from a text exactly when the text is spelled as a layout. -/
theorem parseChars_eq_ok_iff {className : String} {cs : List Char} {p : Prototype} :
    parseChars className cs = .ok p ↔ ∃ l : Layout, l.Fits className ∧
      (∃ rest, Spells cs l.lexemes rest ∧ next rest = .finished) ∧ p = l.toPrototype := by
  constructor
  · intro h
    obtain ⟨⟨protection, afterProtection⟩, hprotection, h⟩ := bind_eq_ok.1 h
    obtain ⟨⟨isVirtual, afterVirtual⟩, hvirtual, h⟩ := bind_eq_ok.1 h
    obtain ⟨⟨isStatic, afterStatic⟩, hstatic, h⟩ := ite_bind_eq_ok.1 h
    obtain ⟨⟨placed, afterHead⟩, hhead, h⟩ := bind_eq_ok.1 h
    obtain ⟨head, hsplit, h⟩ := bind_eq_ok.1 h
    obtain ⟨⟨params, afterParams⟩, hparams, h⟩ := bind_eq_ok.1 h
    obtain ⟨⟨isConst, afterConst⟩, hconst, h⟩ := bind_eq_ok.1 h
    obtain ⟨⟨isOverride, afterOverride⟩, hoverride, h⟩ := bind_eq_ok.1 h
    obtain ⟨⟨isPure, afterPure⟩, hpure, h⟩ := bind_eq_ok.1 h
    obtain ⟨⟨⟩, hend, h⟩ := bind_eq_ok.1 h
    obtain ⟨returnType, hreturn, h⟩ := bind_eq_ok.1 h
    cases h
    obtain ⟨hisHead, hhead⟩ := spells_of_readHead hhead
    obtain ⟨l, hl, hplaced, rfl⟩ := exists_layout_of_splitHead hsplit
    obtain ⟨ps, hps, hlist, rfl⟩ := readParams_eq_ok_iff.1 hparams
    obtain ⟨isEnded, rest, hmarks, hrest⟩ := spells_marks hconst hoverride hpure hend
    obtain ⟨htyped, hdtor, rfl⟩ := returnTypeOf_eq_ok_iff.1 hreturn
    rw [hplaced] at hhead hisHead
    obtain ⟨t, ts, htokens⟩ := List.exists_cons_of_ne_nil hl.tokens_ne_nil
    obtain ⟨start, mid, hnext⟩ := next_of_spells (htokens ▸ hhead)
    obtain ⟨colon, hspecifiers, hspells⟩ := spells_specifiers hprotection hvirtual hstatic hnext
    refine ⟨{ l with
        protection, colon, isVirtual, isStatic, isConst, isOverride, isPure, isEnded
        params := ps },
      { hl with head := hisHead, specifiers := ?_, typed := htyped, dtor := hdtor, params := hps },
      ⟨rest, ?_, hrest⟩, rfl⟩
    · rintro u hu
      rw [htokens] at hu
      cases hu
      exact hspecifiers
    · exact spells_append_iff.2 ⟨_, hspells, spells_append_iff.2 ⟨_, hhead,
        spells_append_iff.2 ⟨_, hlist, hmarks⟩⟩⟩
  · rintro ⟨l, hl, ⟨rest, h, hrest⟩, rfl⟩
    obtain ⟨afterStatic, hspecifiers, h⟩ := spells_append_iff.1 h
    obtain ⟨afterHead, hhead, h⟩ := spells_append_iff.1 h
    obtain ⟨afterParams, hparams, hmarks⟩ := spells_append_iff.1 h
    obtain ⟨t, ts, htokens⟩ := List.exists_cons_of_ne_nil hl.tokens_ne_nil
    obtain ⟨start, mid, hnext⟩ := next_of_spells (htokens ▸ hhead)
    obtain ⟨afterProtection, afterVirtual, hprotection, hvirtual, hstatic⟩ :=
      read_specifiers_of_spells (hl.specifiers t (by rw [htokens]; rfl)) hspecifiers hnext
    obtain ⟨placed, hhead, hplaced⟩ := readHead_of_spells hl.head hhead
    have hparams := readParams_eq_ok_iff.2 ⟨l.params, hl.params, hparams, rfl⟩
    obtain ⟨afterConst, afterOverride, afterPure, hconst, hoverride, hpure, hend⟩ :=
      read_marks_of_spells hmarks hrest
    have hreturn : returnTypeOf className cs l.toHead = .ok l.toPrototype.returnType :=
      returnTypeOf_eq_ok_iff.2 ⟨hl.typed, hl.dtor, rfl⟩
    exact bind_eq_ok.2 ⟨_, hprotection, bind_eq_ok.2 ⟨_, hvirtual, ite_bind_eq_ok.2 ⟨_, hstatic,
      bind_eq_ok.2 ⟨_, hhead, bind_eq_ok.2 ⟨_, splitHead_of_layout hl.toIsSplit hplaced,
        bind_eq_ok.2 ⟨_, hparams, bind_eq_ok.2 ⟨_, hconst, bind_eq_ok.2 ⟨_, hoverride,
          bind_eq_ok.2 ⟨_, hpure, bind_eq_ok.2 ⟨(), hend, bind_eq_ok.2 ⟨_, hreturn, rfl⟩⟩⟩⟩⟩⟩⟩⟩⟩⟩⟩

theorem parse_eq_ok_iff_layout {className text : String} {p : Prototype} :
    parse className text = .ok p ↔
      ∃ l : Layout, l.Fits className ∧ IsSpelled text l.lexemes ∧ p = l.toPrototype := by
  rw [parse]
  simp only [IsSpelled, ← parseChars_eq_ok_iff]
  split
  · rename_i hread
    rw [hread, Except.ok.injEq, Except.ok.injEq]
  · rename_i hread
    simp [hread]

/-- A text that is no prototype is reported with the class and the text. -/
theorem exists_fault_of_parse {className text : String} {e : Error}
    (h : parse className text = .error e) :
    ∃ fault offset, e = .prototype className (Text.trim text) fault offset := by
  rw [parse] at h
  split at h
  · cases h
  · exact ⟨_, _, (Except.error.inj h).symm⟩

end Prototype

end Bindery
