import Bindery.Proofs.Decl.Lexemes
import Bindery.Proofs.Decl.Spacing

/-!
Texts with another end. What is read from a text up to some place depends on what follows there only
by its first character: whether it makes a name longer, whether it is a colon, and whether it ends a
default value (`Prototype.spells_of_alike`). So a name in front of a delimiter can be written over
with another name, and the lexemes of the text are the same but for the name
(`Prototype.exists_rename_of_spells`).
-/

set_option autoImplicit false
set_option relaxedAutoImplicit false

namespace Bindery

/-! ### Tokens in front of another end -/

namespace Token

variable {cs front more start rest name : List Char} {t : Token} {c d : Char}

/-- Two characters of which neither is part of a word or a mark in front of it unless the other one
is. -/
structure Alike (c d : Char) : Prop where
  isNameChar : isNameChar d = isNameChar c
  left : c ≠ ':'
  right : d ≠ ':'

theorem spanName_cons (h : c = ':' → cs.head? ≠ some ':') : spanName (c :: cs) =
    if isNameChar c then (c :: (spanName cs).1, (spanName cs).2) else ([], c :: cs) := by
  refine spanName.eq_2 c cs ?_
  rintro rest hc rfl
  exact h hc rfl

/-- A name that ends in front of a character ends in front of one like it. -/
theorem spanName_of_alike {word : List Char} (hcd : Alike c d) (other : List Char)
    (h : spanName (front ++ c :: more) = (word, rest ++ c :: more)) :
    spanName (front ++ d :: other) = (word, rest ++ d :: other) := by
  fun_induction spanName front generalizing word with
  | case1 front ih =>
    obtain ⟨rfl, hrest⟩ := Prod.mk.inj h
    rw [List.cons_append, List.cons_append, spanName, ih (Prod.ext rfl hrest)]
    rfl
  | case2 b front hcolons hb ih =>
    have hb' (cs : List Char) : b = ':' → cs.head? ≠ some ':' := by
      rintro rfl
      exact absurd hb (by decide)
    rw [List.cons_append, spanName_cons (hb' _), if_pos hb] at h ⊢
    obtain ⟨rfl, hrest⟩ := Prod.mk.inj h
    rw [ih (Prod.ext rfl hrest)]
  | case3 b front hcolons hb =>
    have hb' {e : Char} (he : e ≠ ':') (tail : List Char) :
        b = ':' → (front ++ e :: tail).head? ≠ some ':' := by
      rintro rfl hhead
      cases front with
      | nil => exact he (Option.some.inj hhead)
      | cons e' front => exact hcolons front rfl (congrArg (· :: front) (Option.some.inj hhead))
    rw [List.cons_append, spanName_cons (hb' hcd.left _), if_neg hb] at h
    obtain ⟨rfl, hrest⟩ := Prod.mk.inj h
    obtain rfl : b :: front = rest := List.append_cancel_right hrest
    rw [List.cons_append, spanName_cons (hb' hcd.right _), if_neg hb]
  | case4 =>
    rw [List.nil_append, spanName_cons fun heq ↦ (hcd.left heq).elim] at h
    rw [List.nil_append, spanName_cons fun heq ↦ (hcd.right heq).elim, hcd.isNameChar]
    split at h
    · -- The name cannot end behind the character.
      have hle := length_spanName_le more
      rw [(Prod.mk.inj h).2, List.length_append, List.length_cons] at hle
      omega
    · rename_i hc
      obtain ⟨rfl, hrest⟩ := Prod.mk.inj h
      rw [if_neg hc, List.self_eq_append_left.1 hrest]
      rfl

/-- Blanks in front of a token are passed over. -/
theorem next_blanks {blanks : List Char} (hblanks : ∀ b ∈ blanks, Text.isBlank b = true)
    (cs : List Char) : next (blanks ++ cs) = next cs := by
  have hskip : Text.trimStartChars (blanks ++ cs) = Text.trimStartChars cs :=
    List.dropWhile_append_of_pos hblanks
  rw [next, hskip, ← next]

/-- A token that ends in front of a character is read in front of one like it. -/
theorem next_of_alike (hcd : Alike c d) (other : List Char)
    (h : next (front ++ c :: more) = .found t start (rest ++ c :: more)) :
    ∃ start, next (front ++ d :: other) = .found t start (rest ++ d :: other) := by
  have htrim (cs : List Char) (hne : Text.trimStartChars front ≠ []) :
      Text.trimStartChars (front ++ cs) = Text.trimStartChars front ++ cs := by
    rw [Text.trimStartChars, List.dropWhile_append, ← Text.trimStartChars,
      if_neg (by simpa using hne)]
  cases hfront : Text.trimStartChars front with
  | nil =>
    -- The token would have to end behind the character.
    have hblanks : ∀ b ∈ front, Text.isBlank b = true := List.dropWhile_eq_nil_iff.1 hfront
    have hlt := length_lt_of_next ((next_blanks hblanks _).symm.trans h)
    rw [List.length_append] at hlt
    omega
  | cons b front' =>
    have hne : Text.trimStartChars front ≠ [] := by simp [hfront]
    rw [next, htrim _ hne, hfront, List.cons_append] at h
    rw [next, htrim _ hne, hfront, List.cons_append]
    simp only at h ⊢
    split at h
    · rename_i hb
      injection h with ht hstart hrest
      rw [if_pos hb, spanName_of_alike hcd other (Prod.ext rfl hrest), ht]
      exact ⟨_, rfl⟩
    · rename_i hb
      split at h
      · rename_i hsymbol
        injection h with ht hstart hrest
        rw [if_neg hb, if_pos hsymbol, List.append_cancel_right hrest, ht]
        exact ⟨_, rfl⟩
      · cases h

/-- A name is read behind blanks, wherever something follows that ends it. -/
theorem next_name {blanks : List Char} (hblanks : ∀ b ∈ blanks, Text.isBlank b = true)
    (hne : name ≠ []) (hname : ∀ b ∈ name, isNameChar b = true) (hstops : Stops rest) :
    next (blanks ++ (name ++ rest)) = .found (.word name) (name ++ rest) rest := by
  cases reads_name hne hname hstops with
  | token hnext hdone =>
    cases hdone
    rw [next_blanks hblanks, hnext, (start_of_next hnext).1]
    rfl

/-- What a mark follows does not make a name in front of it longer. -/
theorem stops_of_next (h : next cs = .found (.symbol c) start rest) (hc : c ≠ ':') : Stops cs := by
  rintro b hb
  obtain ⟨cs, rfl⟩ := List.head?_eq_some_iff.1 hb
  constructor
  · by_contra hname
    have hname : isNameChar b = true := by simpa using hname
    have htrim : Text.trimStartChars (b :: cs) = b :: cs :=
      List.dropWhile_cons_of_neg (by simp [isBlank_eq_false_of_isNameChar hname])
    simp only [next, htrim, if_pos hname] at h
    cases h
  · rintro rfl
    rw [next_symbol rfl] at h
    cases h
    exact hc rfl

end Token

namespace Prototype

open Token

/-! ### Lexemes in front of another end -/

/-- An identifier that is no word of a type. -/
structure IsIdentifier (name : List Char) : Prop where
  ne_nil : name ≠ []
  chars : ∀ c ∈ name, isNameChar c = true
  untyped : ParamText.isTypeWord name = false

section Spells

variable {cs front more rest name : List Char} {c d : Char} {ls before after : List Lexeme}

theorem suffix_of_spells (h : Spells cs ls rest) : rest <:+ cs := by
  induction h with
  | done => exact List.suffix_rfl
  | token h _ ih => exact ih.trans (rest_suffix_of_next h)
  | default h _ _ _ ih =>
    exact ih.trans ((List.suffix_append _ _).trans (rest_suffix_of_next h))

/-- Lexemes that end in front of a character are spelled in front of one like it. -/
theorem spells_of_alike (hcd : Alike c d) (hc : ¬IsSeparator c) (other : List Char)
    (h : Spells (front ++ c :: more) ls (c :: more)) :
    Spells (front ++ d :: other) ls (d :: other) := by
  induction ls generalizing front with
  | nil =>
    have hfront := spells_nil_iff.1 h
    rw [List.self_eq_append_left.1 hfront]
    exact .done
  | cons l ls ih =>
    cases h with
    | token hnext h =>
      obtain ⟨mid, rfl⟩ := suffix_of_spells h
      obtain ⟨start, hother⟩ := next_of_alike hcd other hnext
      exact .token hother (ih h)
    | @default _ start mid _ value e _ hnext hvalue he h =>
      obtain ⟨mid', hmid⟩ := suffix_of_spells h
      cases mid' with
      | nil =>
        cases hmid
        exact (hc he).elim
      | cons e' mid' =>
        obtain ⟨rfl, rfl⟩ := List.cons.inj hmid
        have hnext' : next (front ++ c :: more) =
            .found (.symbol '=') start ((value ++ e' :: mid') ++ c :: more) := by
          rw [hnext, List.append_assoc]
          rfl
        obtain ⟨_, hother⟩ := next_of_alike hcd other hnext'
        rw [List.append_assoc] at hother
        exact .default hother hvalue he (@ih (e' :: mid') h)

/-- Lexemes that end in front of blanks and a character are spelled in front of the same blanks and
a character like it. -/
theorem spells_of_alike_blanks (hcd : Alike c d) (hc : ¬IsSeparator c) {blanks : List Char}
    (hblanks : ∀ b ∈ blanks, Text.isBlank b = true) (other : List Char)
    (h : Spells (front ++ (blanks ++ c :: more)) ls (blanks ++ c :: more)) :
    Spells (front ++ (blanks ++ d :: other)) ls (blanks ++ d :: other) := by
  cases blanks with
  | nil => exact spells_of_alike hcd hc other h
  | cons b blanks =>
    have hb := hblanks b List.mem_cons_self
    have hcolon : b ≠ ':' := by
      rintro rfl
      exact absurd hb (by decide)
    refine spells_of_alike ⟨rfl, hcolon, hcolon⟩ ?_ _ h
    rintro (rfl | rfl) <;> exact absurd hb (by decide)

/-- Another name can be written where a name is spelled in front of a delimiter. -/
theorem exists_rename_of_spells (hname : IsIdentifier name) {l : Lexeme}
    (hl : l.first ∈ delimiters)
    (h : Spells cs (before ++ .token (.word name) :: l :: after) rest) :
    ∃ front back, cs = front ++ (name ++ back) ∧ ∀ other, IsIdentifier other →
      Spells (front ++ (other ++ back)) (before ++ .token (.word other) :: l :: after) rest := by
  obtain ⟨mid, hbefore, hmid⟩ := spells_append_iff.1 h
  obtain ⟨start, back, hnext, hback⟩ := spells_token_iff.1 hmid
  obtain ⟨front, rfl⟩ := suffix_of_spells hbefore
  obtain ⟨blanks, hblanks, rfl, -⟩ := exists_blanks_of_next hnext
  have hstops : Stops back := by
    obtain ⟨_, _, hdelimiter⟩ := next_of_spells hback
    rcases mem_delimiters_iff.1 hl with heq | heq | heq | heq <;> rw [heq] at hdelimiter <;>
      exact stops_of_next hdelimiter (by decide)
  refine ⟨front ++ blanks, back, by simp [Token.text], fun other hother ↦ ?_⟩
  have hword := next_name hblanks hother.ne_nil hother.chars hstops
  rw [List.append_assoc]
  refine spells_append_iff.2 ⟨_, ?_, .token hword hback⟩
  obtain ⟨c, cs, rfl⟩ := List.exists_cons_of_ne_nil hname.ne_nil
  obtain ⟨d, ds, rfl⟩ := List.exists_cons_of_ne_nil hother.ne_nil
  have hne {e : Char} (he : isNameChar e = true) : e ≠ ':' := by
    rintro rfl
    exact absurd he (by decide)
  have hc := hname.chars c List.mem_cons_self
  have hd := hother.chars d List.mem_cons_self
  refine spells_of_alike_blanks ⟨hd.trans hc.symm, hne hc, hne hd⟩ ?_ hblanks _ hbefore
  rintro (rfl | rfl) <;> exact absurd hc (by decide)

end Spells

end Prototype

end Bindery
