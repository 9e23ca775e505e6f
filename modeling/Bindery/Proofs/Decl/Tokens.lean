import Bindery.Decl.Prototype
import Bindery.Proofs.Decl.TypeTexts
import Mathlib.Data.List.Induction

/-!
Reading tokens from a longer text. A text of tokens is read in the same way when something follows
it that ends a name (`Token.reads_readAll`), so that a type which is its own joined text can be read
wherever it is written (`ParamText.IsCanonical.reads`).
-/

set_option autoImplicit false
set_option relaxedAutoImplicit false

namespace Bindery

namespace Token

/-! ### One token -/

/-- Whether a text that follows a name does not make it longer. -/
def Stops (rest : List Char) : Prop := ∀ c ∈ rest.head?, isNameChar c = false ∧ c ≠ ':'

instance (rest : List Char) : Decidable (Stops rest) := Option.decidableForallMem rest.head?

theorem stops_cons {c : Char} (hname : isNameChar c = false) (hcolon : c ≠ ':') (cs : List Char) :
    Stops (c :: cs) := by
  intro d hd
  cases hd
  exact ⟨hname, hcolon⟩

section

variable {cs start rest rest' : List Char} {t : Token}

theorem spanName_append_rest (cs : List Char) (hrest : Stops rest) :
    spanName (cs ++ rest) = ((spanName cs).1, (spanName cs).2 ++ rest) := by
  fun_induction spanName cs with
  | case1 cs ih => rw [List.cons_append, List.cons_append, spanName, ih]
  | case2 c cs hmark hc ih =>
    have hmark' : ∀ cs', c = ':' → cs ++ rest = ':' :: cs' → False := by
      rintro cs' rfl
      exact absurd hc (by decide)
    rw [List.cons_append, spanName.eq_2 _ _ hmark', if_pos hc, ih]
  | case3 c cs hmark hc =>
    have hmark' : ∀ cs', c = ':' → cs ++ rest = ':' :: cs' → False := by
      intro cs' hcolon heq
      rcases List.append_eq_cons_iff.1 heq with ⟨rfl, hhead⟩ | ⟨cs', rfl, _⟩
      · exact (hrest ':' (by rw [hhead]; rfl)).2 rfl
      · exact hmark cs' hcolon rfl
    rw [List.cons_append, spanName.eq_2 _ _ hmark', if_neg hc]
  | case4 =>
    rw [List.nil_append]
    cases rest with
    | nil => rfl
    | cons c rest =>
      obtain ⟨hname, hcolon⟩ := hrest c rfl
      have hmark : ∀ cs', c = ':' → rest = ':' :: cs' → False := fun _ h _ ↦ hcolon h
      rw [spanName.eq_2 _ _ hmark, if_neg (by simp [hname])]

theorem spanName_of_nameChars (h : ∀ c ∈ cs, isNameChar c = true) : spanName cs = (cs, []) := by
  induction cs with
  | nil => rfl
  | cons c cs ih =>
    obtain ⟨hc, hcs⟩ := List.forall_mem_cons.1 h
    have hmark : ∀ cs', c = ':' → cs = ':' :: cs' → False := by
      rintro cs' rfl
      exact absurd hc (by decide)
    rw [spanName.eq_2 _ _ hmark, if_pos hc, ih hcs]

theorem toNat_of_isNameChar {c : Char} (h : isNameChar c = true) :
    48 ≤ c.toNat ∧ c.toNat ≤ 57 ∨ 65 ≤ c.toNat ∧ c.toNat ≤ 90 ∨ c.toNat = 95 ∨
      97 ≤ c.toNat ∧ c.toNat ≤ 122 := by
  have hupper : c.isUpper = decide (65 ≤ c.val ∧ c.val ≤ 90) := rfl
  have hlower : c.isLower = (decide (97 ≤ c.val) && decide (c.val ≤ 122)) := rfl
  have halpha : c.isAlpha = (c.isUpper || c.isLower) := rfl
  simp only [isNameChar, Char.isAlphanum, Char.isDigit, halpha, hupper, hlower, Bool.or_eq_true,
    Bool.and_eq_true, decide_eq_true_eq, beq_iff_eq, UInt32.le_iff_toNat_le] at h
  rcases h with ((h | h) | h) | rfl
  · exact .inr (.inl h)
  · exact .inr (.inr (.inr h))
  · exact .inl h
  · decide

theorem isBlank_eq_false_of_isNameChar {c : Char} (h : isNameChar c = true) :
    Text.isBlank c = false := by
  have hcode := toNat_of_isNameChar h
  simp only [Text.isBlank, Bool.or_eq_false_iff, Bool.and_eq_false_iff, decide_eq_false_iff_not,
    beq_eq_false_iff_ne]
  omega

theorem isBlank_eq_false_of_isSymbolChar {c : Char} (h : isSymbolChar c = true) :
    Text.isBlank c = false := by
  have hsymbols : "*&()<>,[]=~;:".toList.all (!Text.isBlank ·) = true := by decide
  simpa using List.all_eq_true.1 hsymbols c (List.contains_iff_mem.1 h)

theorem next_symbol {c : Char} (h : isSymbolChar c = true) (cs : List Char) :
    next (c :: cs) = .found (.symbol c) (c :: cs) cs := by
  have hsymbols : "*&()<>,[]=~;:".toList.all (!isNameChar ·) = true := by decide
  have hname : ¬isNameChar c = true := by
    simpa using List.all_eq_true.1 hsymbols c (List.contains_iff_mem.1 h)
  have htrim : Text.trimStartChars (c :: cs) = c :: cs :=
    List.dropWhile_cons_of_neg (by simp [isBlank_eq_false_of_isSymbolChar h])
  simp only [next, htrim, if_neg hname, if_pos h]

/-- A text that tokens are read from goes on behind the last one. -/
theorem next_append (h : next cs = .found t start rest) (hstops : Stops rest') :
    next (cs ++ rest') = .found t (start ++ rest') (rest ++ rest') := by
  have htrim : Text.trimStartChars cs ≠ [] →
      Text.trimStartChars (cs ++ rest') = Text.trimStartChars cs ++ rest' := by
    intro hne
    rw [Text.trimStartChars, List.dropWhile_append, ← Text.trimStartChars,
      if_neg (by simpa using hne)]
  rw [next] at h ⊢
  cases hcs : Text.trimStartChars cs with
  | nil =>
    rw [hcs] at h
    cases h
  | cons c cs =>
    rw [htrim (by simp [hcs]), hcs, List.cons_append]
    rw [hcs] at h
    simp only at h ⊢
    split at h
    · rename_i hc
      cases h
      rw [if_pos hc, spanName_append_rest cs hstops]
      rfl
    · rename_i hc
      rw [if_neg hc]
      split at h
      · rename_i hc
        cases h
        rw [if_pos hc]
        rfl
      · cases h

/-- The text from the first character on that is no blank. -/
def Step.start? : Step → Option (List Char)
  | .finished => none
  | .unexpected _ start => some start
  | .found _ start _ => some start

theorem trimStartChars_of_next (h : (next cs).start? = some start) :
    Text.trimStartChars cs = start := by
  rw [next] at h
  split at h
  · cases h
  · rename_i htrim
    rw [htrim]
    split at h
    · exact Option.some.inj h
    · split at h <;> exact Option.some.inj h

theorem start_of_next (h : next cs = .found t start rest) :
    start = t.text ++ rest ∧ start <:+ cs := by
  have hstart : Text.trimStartChars cs <:+ cs := List.dropWhile_suffix _
  rw [next] at h
  split at h
  · cases h
  · rename_i c cs' htrim
    rw [htrim] at hstart
    split at h
    · cases h
      exact ⟨congrArg _ (spanName_append cs').symm, hstart⟩
    · split at h
      · cases h
        exact ⟨rfl, hstart⟩
      · cases h

theorem rest_suffix_of_next (h : next cs = .found t start rest) : rest <:+ cs := by
  obtain ⟨rfl, hstart⟩ := start_of_next h
  exact (List.suffix_append _ _).trans hstart

/-- A token is some characters, none of which is a blank. -/
theorem text_of_next (h : next cs = .found t start rest) :
    t.text ≠ [] ∧ ∀ c ∈ t.text, isNameChar c = true ∨ isSymbolChar c = true := by
  have hspan : ∀ cs, ∀ c ∈ (spanName cs).1, isNameChar c = true ∨ isSymbolChar c = true := by
    intro cs
    fun_induction spanName cs with
    | case1 cs ih =>
      have hcolon : isSymbolChar ':' = true := by decide
      exact List.forall_mem_cons.2 ⟨.inr hcolon, List.forall_mem_cons.2 ⟨.inr hcolon, ih⟩⟩
    | case2 c cs _ hc ih => exact List.forall_mem_cons.2 ⟨.inl hc, ih⟩
    | case3 => exact List.forall_mem_nil _
    | case4 => exact List.forall_mem_nil _
  rw [next] at h
  split at h
  · cases h
  · split at h
    · rename_i hc
      cases h
      exact ⟨List.cons_ne_nil _ _, List.forall_mem_cons.2 ⟨.inl hc, hspan _⟩⟩
    · split at h
      · rename_i hc
        cases h
        exact ⟨List.cons_ne_nil _ _, List.forall_mem_singleton.2 (.inr hc)⟩
      · cases h

/-! ### All tokens -/

/-- The characters that tokens and the spaces between them are written with. -/
def isTokenChar (c : Char) : Bool := isNameChar c || isSymbolChar c || c == ' '

/-- Where the first character that is no blank begins a token, there is a token to read. -/
theorem exists_next_of_trimStartChars {c : Char} (h : Text.trimStartChars cs = c :: rest)
    (hc : isNameChar c = true ∨ isSymbolChar c = true) :
    ∃ t start rest, next cs = .found t start rest := by
  rw [next, h]
  by_cases hname : isNameChar c
  · exact ⟨_, _, _, if_pos hname⟩
  · exact ⟨_, _, _, (if_neg hname).trans (if_pos (hc.resolve_left hname))⟩

theorem head_trimStartChars {c : Char} (h : Text.trimStartChars cs = c :: rest) :
    c ∈ cs ∧ Text.isBlank c = false := by
  have hsuffix : Text.trimStartChars cs <:+ cs := List.dropWhile_suffix _
  have hhead := List.head?_dropWhile_not Text.isBlank cs
  rw [← Text.trimStartChars, h] at hhead
  rw [h] at hsuffix
  exact ⟨hsuffix.mem List.mem_cons_self, hhead⟩

/-- In a text of token characters that ends in a token there is a token to read. -/
theorem exists_next_found (hne : cs ≠ []) (hchars : ∀ c ∈ cs, isTokenChar c = true)
    (hlast : ∀ c ∈ cs.getLast?, Text.isBlank c = false) :
    ∃ t start rest, next cs = .found t start rest := by
  cases htrim : Text.trimStartChars cs with
  | nil =>
    have hblank := List.dropWhile_eq_nil_iff.1 htrim _ (List.getLast_mem hne)
    rw [hlast _ (List.getLast?_eq_some_getLast hne)] at hblank
    cases hblank
  | cons c cs' =>
    obtain ⟨hmem, hc⟩ := head_trimStartChars htrim
    have hspace : c ≠ ' ' := by
      rintro rfl
      exact absurd hc (by decide)
    refine exists_next_of_trimStartChars htrim ?_
    simpa [isTokenChar, hspace] using hchars c hmem

theorem readAll_of_next (h : next cs = .found t start rest) : readAll cs = t :: readAll rest := by
  rw [readAll]
  split
  · rename_i hfound
    rw [h] at hfound
    cases hfound
    rfl
  · rename_i hother
    exact (hother _ _ _ h).elim

/-- Reading the tokens one after another from a text leaves `rest`. -/
inductive Reads : List Char → List Token → List Char → Prop
  | done {rest : List Char} : Reads rest [] rest
  | token {cs start mid rest : List Char} {t : Token} {ts : List Token}
    (h : next cs = .found t start mid) (hmid : Reads mid ts rest) : Reads cs (t :: ts) rest

theorem Reads.append {mid : List Char} {ts more : List Token} (h : Reads cs ts mid)
    (hmore : Reads mid more rest) : Reads cs (ts ++ more) rest := by
  induction h with
  | done => exact hmore
  | token h _ ih => exact .token h (ih hmore)

theorem readAll_of_reads {ts : List Token} (h : Reads cs ts []) : readAll cs = ts := by
  generalize hrest : ([] : List Char) = rest at h
  induction h with
  | done =>
    subst hrest
    rw [readAll]
    rfl
  | token hnext _ ih => rw [readAll_of_next hnext, ih hrest]

theorem Reads.blank {ts : List Token} (hne : ts ≠ []) (h : Reads cs ts rest) :
    Reads (' ' :: cs) ts rest := by
  cases h with
  | done => exact (hne rfl).elim
  | token h hmid => exact .token h hmid

/-- A text of token characters that ends in a token is read to its end, whatever ends a name follows
it. -/
theorem reads_readAll (hchars : ∀ c ∈ cs, isTokenChar c = true)
    (hlast : ∀ c ∈ cs.getLast?, Text.isBlank c = false) (hstops : Stops rest) :
    Reads (cs ++ rest) (readAll cs) rest := by
  fun_induction readAll cs with
  | case1 cs t start mid h hlt ih =>
    obtain ⟨before, rfl⟩ := rest_suffix_of_next h
    refine .token (next_append h hstops) (ih (fun c hc ↦ hchars c (List.mem_append_right _ hc)) ?_)
    intro c hc
    refine hlast c ?_
    rw [List.getLast?_append, Option.mem_def.1 hc]
    rfl
  | case2 cs h =>
    have hnil : cs = [] := by
      by_contra hne
      obtain ⟨t, start, mid, hfound⟩ := exists_next_found hne hchars hlast
      exact h _ _ _ hfound
    subst hnil
    exact .done

/-- A plain name is one token. -/
theorem reads_name {name : List Char} (hne : name ≠ []) (hchars : ∀ c ∈ name, isNameChar c = true)
    (hstops : Stops rest) : Reads (name ++ rest) [.word name] rest := by
  obtain ⟨c, cs, rfl⟩ := List.exists_cons_of_ne_nil hne
  obtain ⟨hc, hcs⟩ := List.forall_mem_cons.1 hchars
  have hnext : next (c :: cs) = .found (.word (c :: cs)) (c :: cs) [] := by
    have htrim : Text.trimStartChars (c :: cs) = c :: cs :=
      List.dropWhile_cons_of_neg (by simp [isBlank_eq_false_of_isNameChar hc])
    simp only [next, htrim, if_pos hc, spanName_of_nameChars hcs]
  exact .token (next_append hnext hstops) .done

theorem text_of_mem_readAll (h : t ∈ readAll cs) :
    t.text ≠ [] ∧ ∀ c ∈ t.text, isNameChar c = true ∨ isSymbolChar c = true := by
  fun_induction readAll cs with
  | case1 cs t' start mid hnext hlt ih =>
    rcases List.mem_cons.1 h with rfl | h
    · exact text_of_next hnext
    · exact ih h
  | case2 => cases h

end

end Token

/-! ### Types -/

namespace ParamText

theorem joinTokens_append (ts : List Token) (t : Token) :
    joinTokens (ts ++ [t]) = appendToken (joinTokens ts) t := List.foldl_append ..

theorem text_suffix_appendToken (out : List Char) (t : Token) : t.text <:+ appendToken out t := by
  cases t with
  | word chars =>
    rw [appendToken]
    split
    · exact List.suffix_append _ _
    · exact (List.suffix_cons _ _).trans (List.suffix_append _ _)
  | symbol c =>
    rw [appendToken]
    split
    · exact (List.suffix_cons ' ' [c]).trans (List.suffix_append _ _)
    · exact List.suffix_append _ _

theorem forall_mem_appendToken {p : Char → Prop} {out : List Char} {t : Token} (hspace : p ' ')
    (hout : ∀ c ∈ out, p c) (ht : ∀ c ∈ t.text, p c) : ∀ c ∈ appendToken out t, p c := by
  cases t with
  | word chars =>
    rw [appendToken]
    split
    · exact List.forall_mem_append.2 ⟨hout, ht⟩
    · exact List.forall_mem_append.2 ⟨hout, List.forall_mem_cons.2 ⟨hspace, ht⟩⟩
  | symbol c =>
    rw [appendToken]
    split
    · exact List.forall_mem_append.2 ⟨hout, List.forall_mem_cons.2 ⟨hspace, ht⟩⟩
    · exact List.forall_mem_append.2 ⟨hout, ht⟩

theorem forall_mem_joinTokens {p : Char → Prop} {ts : List Token} (hspace : p ' ')
    (hts : ∀ t ∈ ts, ∀ c ∈ t.text, p c) : ∀ c ∈ joinTokens ts, p c := by
  induction ts using List.reverseRecOn with
  | nil => exact List.forall_mem_nil _
  | append_singleton ts t ih =>
    rw [joinTokens_append]
    obtain ⟨hts, ht⟩ := List.forall_mem_append.1 hts
    exact forall_mem_appendToken hspace (ih hts) (ht t (List.mem_singleton_self t))

/-- Whether a token can stand in a type outside of template brackets, or open these. -/
def isTypePart : Token → Bool
  | .word _ => true
  | .symbol c => isPointerMark c || c == '<'

/-- Whether tokens are words, pointer marks and groups in template brackets, with `depth` brackets
open in front of them. Inside the brackets any token can stand. -/
def isGrouped (depth : Nat) : List Token → Bool
  | [] => depth == 0
  | t :: ts => (depth != 0 || isTypePart t) && isGrouped (Prototype.nesting depth t) ts

theorem isGrouped_append_word {depth : Nat} {ts : List Token} {name : List Char}
    (h : isGrouped depth ts = true) : isGrouped depth (ts ++ [.word name]) = true := by
  induction ts generalizing depth with
  | nil =>
    obtain rfl : depth = 0 := beq_iff_eq.1 h
    rfl
  | cons t ts ih =>
    obtain ⟨hpart, h⟩ := Bool.and_eq_true_iff.1 h
    exact Bool.and_eq_true_iff.2 ⟨hpart, ih h⟩

theorem splitTokens_of_none {ts : List Token} (h : (splitTokens ts).2 = none) :
    splitTokens ts = (ts, none) := by
  rw [splitTokens] at h ⊢
  split at h
  · split at h
    · cases h
    · rename_i htype
      rw [if_neg htype]
  · rfl

/-- Grouped tokens end in a part of a type or in a closing bracket. -/
theorem getLast?_ne_of_isGrouped {depth : Nat} {ts : List Token}
    (h : isGrouped depth ts = true) : ts.getLast? ≠ some (.symbol '~') := by
  induction ts generalizing depth with
  | nil => simp
  | cons t ts ih =>
    obtain ⟨hpart, h⟩ := Bool.and_eq_true_iff.1 h
    cases ts with
    | nil =>
      rintro hlast
      cases hlast
      obtain rfl : depth = 0 := beq_iff_eq.1 h
      exact absurd hpart (by decide)
    | cons u ts =>
      rw [List.getLast?_cons_cons]
      exact ih h

/-- Whether tokens say a type: some words, pointer marks and groups in template brackets. -/
def isType (ts : List Token) : Bool := !ts.isEmpty && isGrouped 0 ts

/-- A type that is written as its tokens are joined. -/
structure IsCanonical (type : String) : Prop where
  joined : joinTokens (Token.readAll type.toList) = type.toList
  isType : isType (Token.readAll type.toList) = true

namespace IsCanonical

variable {type : String}

theorem typeOf_eq (h : IsCanonical type) : typeOf (Token.readAll type.toList) = type := by
  rw [typeOf, h.joined, String.ofList_toList]

theorem readAll_ne_nil (h : IsCanonical type) : Token.readAll type.toList ≠ [] := by
  simpa using (Bool.and_eq_true_iff.1 h.isType).1

theorem grouped (h : IsCanonical type) : isGrouped 0 (Token.readAll type.toList) = true :=
  (Bool.and_eq_true_iff.1 h.isType).2

theorem isTokenChar (h : IsCanonical type) : ∀ c ∈ type.toList, Token.isTokenChar c = true := by
  rw [← h.joined]
  refine forall_mem_joinTokens (by decide) fun t ht c hc ↦ ?_
  rcases (Token.text_of_mem_readAll ht).2 c hc with hname | hsymbol
  · simp [Token.isTokenChar, hname]
  · simp [Token.isTokenChar, hsymbol]

theorem unbroken (h : IsCanonical type) : '\n' ∉ type.toList := fun hc ↦
  absurd (h.isTokenChar _ hc) (by decide)

theorem isBlank_getLast? (h : IsCanonical type) :
    ∀ c ∈ type.toList.getLast?, Text.isBlank c = false := by
  obtain ⟨ts, t, hts⟩ : ∃ ts t, Token.readAll type.toList = ts ++ [t] :=
    ⟨_, _, (List.dropLast_concat_getLast h.readAll_ne_nil).symm⟩
  have hmem : t ∈ Token.readAll type.toList := by simp [hts]
  obtain ⟨hne, hchars⟩ := Token.text_of_mem_readAll hmem
  obtain ⟨before, hbefore⟩ := text_suffix_appendToken (joinTokens ts) t
  obtain ⟨last, hlast⟩ := Option.ne_none_iff_exists'.1 (mt List.getLast?_eq_none_iff.1 hne)
  rw [← h.joined, hts, joinTokens_append, ← hbefore, List.getLast?_append, hlast]
  rintro c hc
  cases hc
  rcases hchars last (List.mem_of_getLast? hlast) with hname | hsymbol
  · exact Token.isBlank_eq_false_of_isNameChar hname
  · exact Token.isBlank_eq_false_of_isSymbolChar hsymbol

/-- A canonical type is read wherever it is written, up to its end. -/
theorem reads (h : IsCanonical type) {rest : List Char} (hstops : Token.Stops rest) :
    Token.Reads (type.toList ++ rest) (Token.readAll type.toList) rest :=
  Token.reads_readAll h.isTokenChar h.isBlank_getLast? hstops

end IsCanonical

end ParamText

end Bindery
