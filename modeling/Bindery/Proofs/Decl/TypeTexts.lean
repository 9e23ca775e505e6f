import Bindery.Decl.TypeText
import Mathlib.Data.List.TakeWhile

/-!
Normal type texts. Putting a word behind a text changes the normal text of it by the same word
(`normalizeTypeChars_append`, `normalizeTypeChars_append_word`), so that what words are joined to is
its own normal text (`isNormal_foldl_appendWord`): normalizing a type twice is normalizing it once,
and the brackets of an array may be written behind it.
-/

set_option autoImplicit false
set_option relaxedAutoImplicit false

namespace Bindery

namespace Text

/-! ### Trimming -/

theorem trimStartChars_eq_self_iff (cs : List Char) :
    trimStartChars cs = cs ↔ ∀ c ∈ cs.head?, isBlank c = false := by
  rw [trimStartChars, List.dropWhile_eq_self_iff]
  cases cs <;> simp

theorem trimEndChars_eq_self_iff (cs : List Char) :
    trimEndChars cs = cs ↔ ∀ c ∈ cs.getLast?, isBlank c = false := by
  rw [trimEndChars, List.reverse_eq_iff, ← List.head?_reverse]
  exact trimStartChars_eq_self_iff cs.reverse

/-- A text is trimmed when neither its first nor its last character is a blank. -/
theorem trimChars_eq_self_iff (cs : List Char) : trimChars cs = cs ↔
    (∀ c ∈ cs.head?, isBlank c = false) ∧ ∀ c ∈ cs.getLast?, isBlank c = false := by
  rw [← trimStartChars_eq_self_iff, ← trimEndChars_eq_self_iff]
  refine ⟨fun h ↦ ?_, fun ⟨hstart, hend⟩ ↦ by rw [trimChars, hstart, hend]⟩
  have hstart : trimStartChars cs = cs := by
    refine (List.dropWhile_suffix isBlank).eq_of_length (Nat.le_antisymm ?_ ?_)
    · exact (List.dropWhile_suffix isBlank).length_le
    · have hle : (trimEndChars (trimStartChars cs)).length ≤ (trimStartChars cs).length := by
        rw [trimEndChars, List.length_reverse, ← @List.length_reverse _ (trimStartChars cs)]
        exact (List.dropWhile_suffix isBlank).length_le
      rw [← trimChars, h] at hle
      exact hle
  exact ⟨hstart, by rw [← hstart, ← trimChars, h, hstart]⟩

/-! ### Words -/

/-- Some characters and no blank. -/
structure IsWord (word : List Char) : Prop where
  ne_nil : word ≠ []
  isBlank_eq_false : ∀ c ∈ word, isBlank c = false

theorem words_eq_singleton {word : List Char} (h : IsWord word) : words word = [word] := by
  rw [words, List.splitOnP_eq_singleton h.isBlank_eq_false]
  simp [h.ne_nil]

/-- A blank ends the word in front of it. -/
theorem words_append_cons {c : Char} (hc : isBlank c = true) (cs ds : List Char) :
    words (cs ++ c :: ds) = words cs ++ words ds := by
  rw [words, List.splitOnP_append_cons _ _ hc, List.filter_append]
  rfl

theorem words_blanks_append {blanks : List Char} (h : ∀ c ∈ blanks, isBlank c = true)
    (cs : List Char) : words (blanks ++ cs) = words cs := by
  induction blanks with
  | nil => rfl
  | cons c blanks ih =>
    obtain ⟨hc, hblanks⟩ := List.forall_mem_cons.1 h
    exact (words_append_cons hc [] _).trans (ih hblanks)

theorem words_append_blanks {blanks : List Char} (h : ∀ c ∈ blanks, isBlank c = true)
    (cs : List Char) : words (cs ++ blanks) = words cs := by
  cases blanks with
  | nil => rw [List.append_nil]
  | cons c blanks =>
    obtain ⟨hc, hblanks⟩ := List.forall_mem_cons.1 h
    have hnone := words_blanks_append hblanks []
    rw [List.append_nil] at hnone
    rw [words_append_cons hc, hnone]
    exact List.append_nil _

theorem isWord_of_mem_words {cs word : List Char} (h : word ∈ words cs) : IsWord word := by
  obtain ⟨hmem, hne⟩ := List.mem_filter.1 h
  refine ⟨by simpa using hne, ?_⟩
  clear h hne
  induction cs generalizing word with
  | nil =>
    rw [List.splitOnP_nil, List.mem_singleton] at hmem
    simp [hmem]
  | cons c cs ih =>
    rw [List.splitOnP_cons_eq_if_modifyHead] at hmem
    split at hmem
    · rcases List.mem_cons.1 hmem with rfl | hmem
      · simp
      · exact ih hmem
    · rename_i hc
      obtain ⟨first, rest, hsplit⟩ := List.exists_cons_of_ne_nil
        (List.splitOnP_ne_nil isBlank cs)
      rw [hsplit, List.modifyHead_cons] at hmem
      rcases List.mem_cons.1 hmem with rfl | hmem
      · have hfirst : first ∈ cs.splitOnP isBlank := hsplit ▸ List.mem_cons_self
        exact List.forall_mem_cons.2 ⟨eq_false_of_ne_true hc, ih hfirst⟩
      · exact ih (hsplit ▸ List.mem_cons_of_mem _ hmem)

/-- A word that is put behind a text without a blank between them makes the last word longer. -/
theorem exists_words_append {cs word : List Char} (hne : cs ≠ [])
    (hlast : ∀ c ∈ cs.getLast?, isBlank c = false) (hword : ∀ c ∈ word, isBlank c = false) :
    ∃ before last, last ≠ [] ∧ words cs = before ++ [last] ∧
      words (cs ++ word) = before ++ [last ++ word] := by
  have hsplit : ∃ before last, last ≠ [] ∧ cs.splitOnP isBlank = before ++ [last] ∧
      (cs ++ word).splitOnP isBlank = before ++ [last ++ word] := by
    induction cs with
    | nil => exact (hne rfl).elim
    | cons c cs ih =>
      rw [List.cons_append, List.splitOnP_cons_eq_if_modifyHead,
        List.splitOnP_cons_eq_if_modifyHead]
      cases cs with
      | nil =>
        have hc : isBlank c = false := hlast c rfl
        rw [hc, List.nil_append, List.splitOnP_nil, List.splitOnP_eq_singleton hword]
        exact ⟨[], [c], List.cons_ne_nil _ _, rfl, rfl⟩
      | cons next cs =>
        obtain ⟨before, last, hlastWord, hcs, happend⟩ := ih (List.cons_ne_nil _ _)
          fun d hd ↦ hlast d (by rwa [List.getLast?_cons_cons])
        rw [hcs, happend]
        cases isBlank c with
        | true => exact ⟨[] :: before, last, hlastWord, rfl, rfl⟩
        | false =>
          cases before with
          | nil => exact ⟨[], c :: last, List.cons_ne_nil _ _, rfl, rfl⟩
          | cons first before => exact ⟨(c :: first) :: before, last, hlastWord, rfl, rfl⟩
  obtain ⟨before, last, hlastWord, hcs, happend⟩ := hsplit
  refine ⟨before.filter (!·.isEmpty), last, hlastWord, ?_, ?_⟩
  · rw [words, hcs, List.filter_append]
    simp [hlastWord]
  · rw [words, happend, List.filter_append]
    simp [hlastWord]

end Text

/-! ### Normal texts -/

section Words

variable {cs out word : List Char}

/-- Behind blanks, a word is appended as a word of its own. -/
theorem normalizeTypeChars_append_word {blanks : List Char} (hne : blanks ≠ [])
    (hblanks : ∀ c ∈ blanks, Text.isBlank c = true) (hword : Text.IsWord word) (cs : List Char) :
    normalizeTypeChars (cs ++ (blanks ++ word)) = appendWord (normalizeTypeChars cs) word := by
  obtain ⟨c, blanks, rfl⟩ := List.exists_cons_of_ne_nil hne
  obtain ⟨hc, hblanks⟩ := List.forall_mem_cons.1 hblanks
  rw [List.cons_append, normalizeTypeChars, Text.words_append_cons hc,
    Text.words_blanks_append hblanks, Text.words_eq_singleton hword, List.foldl_append]
  rfl

theorem normalizeTypeChars_append (hne : cs ≠ [])
    (hlast : ∀ c ∈ cs.getLast?, Text.isBlank c = false)
    (hword : ∀ c ∈ word, Text.isBlank c = false) :
    normalizeTypeChars (cs ++ word) = normalizeTypeChars cs ++ word := by
  obtain ⟨before, last, hlastWord, hcs, happend⟩ := Text.exists_words_append hne hlast hword
  obtain ⟨c, last, rfl⟩ := List.exists_cons_of_ne_nil hlastWord
  rw [normalizeTypeChars, normalizeTypeChars, hcs, happend, List.foldl_append, List.foldl_append,
    List.foldl_cons, List.foldl_cons, List.foldl_nil, List.foldl_nil, appendWord, appendWord]
  have hglued : ∀ out, isGlued out (c :: last ++ word) = isGlued out (c :: last) := fun _ ↦ rfl
  rw [hglued]
  split <;> simp

/-- A text that is its own normal text. It is trimmed, too. -/
structure IsNormal (cs : List Char) : Prop where
  normalizeTypeChars_eq : normalizeTypeChars cs = cs
  trimChars_eq : Text.trimChars cs = cs

theorem isNormal_appendWord (hout : IsNormal out) (hword : Text.IsWord word) :
    IsNormal (appendWord out word) := by
  have hnonblank := hword.isBlank_eq_false
  have hwordEnds : (∀ c ∈ word.head?, Text.isBlank c = false) ∧
      ∀ c ∈ word.getLast?, Text.isBlank c = false :=
    ⟨fun c hc ↦ hnonblank c (List.mem_of_head? hc),
      fun c hc ↦ hnonblank c (List.mem_of_getLast? hc)⟩
  obtain ⟨hhead, hlast⟩ := (Text.trimChars_eq_self_iff out).1 hout.trimChars_eq
  by_cases hne : out = []
  · subst hne
    have hself : appendWord [] word = word := rfl
    refine ⟨?_, by rw [hself]; exact (Text.trimChars_eq_self_iff word).2 hwordEnds⟩
    rw [hself, normalizeTypeChars, Text.words_eq_singleton hword]
    rfl
  · obtain ⟨first, hfirst⟩ := Option.ne_none_iff_exists'.1 (mt List.head?_eq_none_iff.1 hne)
    obtain ⟨last, hwordLast⟩ :=
      Option.ne_none_iff_exists'.1 (mt List.getLast?_eq_none_iff.1 hword.ne_nil)
    constructor
    · by_cases hglued : isGlued out word
      · rw [appendWord, if_pos hglued, normalizeTypeChars_append hne hlast hnonblank,
          hout.normalizeTypeChars_eq]
      · have happend : appendWord out word = out ++ ([' '] ++ word) := if_neg hglued
        have hspace : ∀ c ∈ [' '], Text.isBlank c = true := List.forall_mem_singleton.2 rfl
        rw [happend, normalizeTypeChars_append_word (List.cons_ne_nil _ _) hspace hword,
          hout.normalizeTypeChars_eq, happend]
    · rw [appendWord, Text.trimChars_eq_self_iff]
      split <;>
        simpa [List.head?_append, List.getLast?_append, List.getLast?_cons, hfirst, hwordLast] using
          And.intro (hhead first hfirst) (hwordEnds.2 last hwordLast)

theorem isNormal_foldl_appendWord {words : List (List Char)} (hwords : ∀ w ∈ words, Text.IsWord w)
    (hout : IsNormal out) : IsNormal (words.foldl appendWord out) := by
  induction words generalizing out with
  | nil => exact hout
  | cons w words ih =>
    obtain ⟨hw, hwords⟩ := List.forall_mem_cons.1 hwords
    exact ih hwords (isNormal_appendWord hout hw)

end Words

/-- Normalizing a type text twice is normalizing it once. -/
theorem isNormal_normalizeTypeChars (cs : List Char) : IsNormal (normalizeTypeChars cs) :=
  isNormal_foldl_appendWord (fun _ ↦ Text.isWord_of_mem_words) ⟨rfl, rfl⟩

theorem normalizeType_normalizeType (type : String) :
    normalizeType (normalizeType type) = normalizeType type := by
  rw [normalizeType, normalizeType, String.toList_ofList,
    (isNormal_normalizeTypeChars _).normalizeTypeChars_eq]

/-- The brackets of an array stay with the type in front of them. -/
theorem isNormal_brackets (cs : List Char) : IsNormal (normalizeTypeChars cs ++ ['[', ']']) := by
  have hglued : appendWord (normalizeTypeChars cs) ['[', ']'] =
      normalizeTypeChars cs ++ ['[', ']'] := by
    rw [appendWord, isGlued]
    simp [joinsLeft]
  rw [← hglued]
  refine isNormal_appendWord (isNormal_normalizeTypeChars cs) ⟨by simp, ?_⟩
  exact List.forall_mem_cons.2 ⟨rfl, List.forall_mem_singleton.2 rfl⟩

end Bindery
