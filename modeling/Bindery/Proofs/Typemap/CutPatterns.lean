import Bindery.Proofs.Decl.JoinedTypes
import Bindery.Proofs.Typemap.NormalTypes

/-!
What is kept of a text that is split into a type and a name. The tokens of a text hold all of its
characters but the blanks (`Token.Spaced.marks_eq`), and joining them adds no more than spaces. So
nothing is lost of a text that is written with the characters of declarations. Reading stops without
a word at the first character of another kind, so that any other text is split, and any other
pattern is compared with parameters, as if it ended in front of this character
(`ParamText.split_keeps_beginning`).
-/

set_option autoImplicit false
set_option relaxedAutoImplicit false

namespace Bindery

theorem Text.IsWord.marks_eq {word : List Char} (h : IsWord word) : marks word = word :=
  List.filter_eq_self.2 fun c hc ↦ by simp [h.isBlank_eq_false c hc]

namespace Token

variable {cs rest : List Char} {spaced : List (Bool × Token)}

/-! ### Texts written with the characters of declarations -/

/-- Whether declarations are written with a character: in a token or between two of them. -/
def isDeclChar (c : Char) : Bool := Text.isBlank c || isNameChar c || isSymbolChar c

/-- The beginning of a text in front of the first character that no declaration is written with. -/
def declStart (cs : List Char) : List Char := cs.takeWhile isDeclChar

theorem declStart_append_dropWhile (cs : List Char) :
    declStart cs ++ cs.dropWhile isDeclChar = cs := List.takeWhile_append_dropWhile

theorem declStart_eq_self (h : cs.all isDeclChar = true) : declStart cs = cs :=
  List.takeWhile_eq_self_iff.2 (List.all_eq_true.1 h)

theorem isDeclChar_eq_false_of_dropWhile {c : Char} (h : cs.dropWhile isDeclChar = c :: rest) :
    isDeclChar c = false := by
  have hhead := List.head?_dropWhile_not isDeclChar cs
  rwa [h] at hhead

/-- A text is kept up to its end just when all its characters are of this kind: the first one of
another kind is no blank. -/
theorem marks_declStart_eq_iff (cs : List Char) :
    Text.marks (declStart cs) = Text.marks cs ↔ cs.all isDeclChar = true := by
  refine ⟨fun h ↦ ?_, fun h ↦ by rw [declStart_eq_self h]⟩
  rw [← declStart_append_dropWhile cs, Text.marks_append, declStart_append_dropWhile] at h
  cases hrest : cs.dropWhile isDeclChar with
  | nil => exact List.all_eq_true.2 (List.dropWhile_eq_nil_iff.1 hrest)
  | cons c rest =>
    have hc := isDeclChar_eq_false_of_dropWhile hrest
    simp only [isDeclChar, Bool.or_eq_false_iff] at hc
    obtain ⟨⟨hblank, -⟩, -⟩ := hc
    rw [hrest] at h
    simp [Text.marks, hblank] at h

/-- A text that is written with the characters of declarations is read to its end. -/
theorem exists_spaced (h : cs.all isDeclChar = true) : ∃ spaced, Spaced cs spaced := by
  fun_induction readAll cs with
  | case1 cs t start rest hnext hlt ih =>
    obtain ⟨blanks, -, rfl, -⟩ := exists_blanks_of_next hnext
    rw [List.all_append, List.all_append, Bool.and_eq_true, Bool.and_eq_true] at h
    obtain ⟨spaced, hspaced⟩ := ih h.2.2
    exact ⟨_, .token hnext hspaced⟩
  | case2 cs hnone =>
    refine ⟨[], .done ?_⟩
    cases htrim : Text.trimStartChars cs with
    | nil => rw [next, htrim]
    | cons c rest =>
      obtain ⟨hmem, hblank⟩ := head_trimStartChars htrim
      have hc := List.all_eq_true.1 h c hmem
      rw [isDeclChar, hblank, Bool.false_or, Bool.or_eq_true] at hc
      obtain ⟨t, start, tail, hnext⟩ := exists_next_of_trimStartChars htrim hc
      exact (hnone t start tail hnext).elim

/-- Tokens hold all the characters of a text but the blanks. -/
theorem Spaced.marks_eq (h : Spaced cs spaced) :
    Text.marks cs = (spaced.map Prod.snd).flatMap text := by
  induction h with
  | done h => exact Text.marks_of_isBlank (isBlank_of_next_finished h)
  | token h _ ih =>
    obtain ⟨blanks, hblanks, rfl, -⟩ := exists_blanks_of_next h
    rw [Text.marks_append, Text.marks_append, Text.marks_of_isBlank hblanks,
      (isWord_text_of_next h).marks_eq, ih]
    rfl

theorem readAll_nil : readAll [] = [] := by
  rw [readAll]
  rfl

theorem Spaced.readAll_eq (h : Spaced cs spaced) : readAll cs = spaced.map Prod.snd := by
  have hstops : Stops [] := by decide
  have hread := h.readAll_append hstops
  rwa [List.append_nil, readAll_nil, List.append_nil] at hread

/-- Nothing is read from a character on that no declaration is written with, and no name goes on
with it. -/
theorem readAll_dropWhile (cs : List Char) :
    Stops (cs.dropWhile isDeclChar) ∧ readAll (cs.dropWhile isDeclChar) = [] := by
  cases hrest : cs.dropWhile isDeclChar with
  | nil => exact ⟨by decide, readAll_nil⟩
  | cons c rest =>
    have hc := isDeclChar_eq_false_of_dropWhile hrest
    simp only [isDeclChar, Bool.or_eq_false_iff] at hc
    obtain ⟨⟨hblank, hname⟩, hsymbol⟩ := hc
    have htrim : Text.trimStartChars (c :: rest) = c :: rest :=
      List.dropWhile_cons_of_neg (by simp [hblank])
    refine ⟨stops_cons hname ?_ rest, readAll_eq_nil ?_⟩
    · rintro rfl
      exact absurd hsymbol (by decide)
    · simp [next, htrim, hname, hsymbol]

/-- A text is read up to the first character that no declaration is written with, and no further. -/
theorem exists_spaced_declStart (cs : List Char) :
    ∃ spaced, Spaced (declStart cs) spaced ∧ readAll cs = spaced.map Prod.snd := by
  have hall : (declStart cs).all isDeclChar = true := List.all_takeWhile
  obtain ⟨spaced, hspaced⟩ := exists_spaced hall
  obtain ⟨hstops, hrest⟩ := readAll_dropWhile cs
  have hread := hspaced.readAll_append hstops
  rw [declStart_append_dropWhile, hrest, List.append_nil] at hread
  exact ⟨spaced, hspaced, hread⟩

theorem readAll_declStart (cs : List Char) : readAll (declStart cs) = readAll cs := by
  obtain ⟨spaced, hspaced, hread⟩ := exists_spaced_declStart cs
  rw [hread, hspaced.readAll_eq]

end Token

namespace ParamText

open Token

variable {ts : List Token}

/-! ### Splitting -/

theorem marks_appendToken (out : List Char) {t : Token} (ht : Text.IsWord t.text) :
    Text.marks (appendToken out t) = Text.marks out ++ t.text := by
  have hspace : Text.marks [' '] = [] := by decide
  cases t with
  | word chars =>
    have hchars : Text.marks chars = chars := ht.marks_eq
    rw [appendToken]
    split
    · rw [Text.marks_append, hchars]
      rfl
    · rw [List.append_cons, Text.marks_append, Text.marks_append, hspace, List.append_nil, hchars]
      rfl
  | symbol c =>
    have hc : Text.marks [c] = [c] := ht.marks_eq
    rw [appendToken]
    split
    · rw [List.append_cons, Text.marks_append, Text.marks_append, hspace, List.append_nil, hc]
      rfl
    · rw [Text.marks_append, hc]
      rfl

/-- Joining adds no more than spaces. -/
theorem marks_joinTokens (hts : ∀ t ∈ ts, Text.IsWord t.text) :
    Text.marks (joinTokens ts) = ts.flatMap text := by
  induction ts using List.reverseRecOn with
  | nil => rfl
  | append_singleton ts t ih =>
    obtain ⟨hts, ht⟩ := List.forall_mem_append.1 hts
    rw [joinTokens_append, marks_appendToken _ (ht t (List.mem_singleton_self t)), ih hts,
      List.flatMap_append, List.flatMap_singleton]

/-- The tokens go to the type and to the name, in their order. -/
theorem marks_splitTokens (hts : ∀ t ∈ ts, Text.IsWord t.text) :
    Text.marks (joinTokens (splitTokens ts).1 ++ (splitTokens ts).2.getD []) =
      ts.flatMap text := by
  rw [splitTokens]
  split
  · rename_i last hlast
    obtain ⟨front, rfl⟩ := List.getLast?_eq_some_iff.1 hlast
    split
    · obtain ⟨hfront, hname⟩ := List.forall_mem_append.1 hts
      have hname : Text.marks last = last := (hname _ (List.mem_singleton_self _)).marks_eq
      rw [List.dropLast_concat, Option.getD_some, Text.marks_append, marks_joinTokens hfront, hname,
        List.flatMap_append, List.flatMap_singleton]
      rfl
    · rw [Option.getD_none, List.append_nil, marks_joinTokens hts]
  · rw [Option.getD_none, List.append_nil, marks_joinTokens hts]

/-- The type and, behind it, the name that a text is split into. -/
def unsplit (parts : String × Option String) : List Char :=
  parts.1.toList ++ (parts.2.getD "").toList

theorem marks_unsplit_split (text : String) :
    Text.marks (unsplit (split text)) = Text.marks (declStart text.toList) := by
  obtain ⟨spaced, hspaced, hread⟩ := exists_spaced_declStart text.toList
  have hwords : ∀ t ∈ readAll text.toList, Text.IsWord t.text :=
    hread ▸ List.forall_mem_map.2 hspaced.isWord_text
  have hparts : unsplit (split text) = joinTokens (splitTokens (readAll text.toList)).1 ++
      (splitTokens (readAll text.toList)).2.getD [] := by
    have htype : (split text).1 = typeOf (splitTokens (readAll text.toList)).1 := rfl
    have hname : (split text).2 = (splitTokens (readAll text.toList)).2.map String.ofList := rfl
    rw [unsplit, htype, hname, typeOf, String.toList_ofList]
    cases (splitTokens (readAll text.toList)).2 with
    | none => rfl
    | some name => rw [Option.map_some, Option.getD_some, Option.getD_some, String.toList_ofList]
  rw [hparts, marks_splitTokens hwords, hspaced.marks_eq, hread]

theorem split_declStart (text : String) :
    split (String.ofList (declStart text.toList)) = split text := by
  rw [split, split, String.toList_ofList, readAll_declStart]

/-- A text is split, and the body of a parameter pattern is read, as if it ended in front of the
first character that no declaration is written with. Of this beginning, the type and the name hold
all characters but the blanks; and they hold those of the whole text just when there is no other
character in it. -/
theorem split_keeps_beginning (text : String) (pattern : List Char) :
    (split text = split (String.ofList (declStart text.toList)) ∧
      Text.marks (unsplit (split text)) = Text.marks (declStart text.toList) ∧
      (Text.marks (unsplit (split text)) = Text.marks text.toList ↔
        text.toList.all isDeclChar = true)) ∧
    ParamPattern.parse pattern =
      let parts := split (String.ofList (declStart (ParamPattern.body pattern)))
      ⟨comparableType (parts.1 ++ ParamPattern.brackets pattern), parts.2⟩ := by
  refine ⟨⟨(split_declStart text).symm, marks_unsplit_split text, ?_⟩, ?_⟩
  · rw [marks_unsplit_split, marks_declStart_eq_iff]
  · have hcut := split_declStart (String.ofList (ParamPattern.body pattern))
    rw [String.toList_ofList] at hcut
    rw [hcut, ParamPattern.parse_eq]

/-- An ellipsis is lost without a word: a type and an ellipsis are split as the type alone, and as a
pattern they match every parameter of this type. -/
theorem ellipsis_lost : split "int..." = ("int", none) ∧
    Text.marks (unsplit (split "int...")) ≠ Text.marks "int...".toList ∧
    ParamPattern.parse "int...".toList = ParamPattern.parse "int".toList ∧
    (Typemap.ofPatterns ["int..."]).matchesParam { name := "count", type := "int" } = true := by
  decide +kernel

end ParamText

end Bindery
