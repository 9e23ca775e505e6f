import Bindery.Proofs.Decl.Tokens

/-!
The spacing of types. A type is read as tokens, and its normal text is these tokens, with a space
where the type has blanks between two of them and no mark joins them
(`Token.Spaced.normalizeTypeChars_eq`). So a normal text does depend on the spacing. Two types of
the same tokens have one normal text when they agree on the blanks in the gaps where blanks are kept
and can be left out, and only then (`normalizeType_eq_iff`). These gaps are beside symbols that join
nothing on that side, such as the one in front of a `<` or the one between a `*` and a word. Any
other gap is closed by a mark, or stands between two words, which need a blank.
-/

set_option autoImplicit false
set_option relaxedAutoImplicit false

namespace Bindery

namespace Token

/-- A text is read to its end as tokens, each with whether blanks stand in front of it. -/
inductive Spaced : List Char → List (Bool × Token) → Prop
  | done {cs : List Char} (h : next cs = .finished) : Spaced cs []
  | token {cs start rest : List Char} {t : Token} {spaced : List (Bool × Token)}
    (h : next cs = .found t start rest) (hrest : Spaced rest spaced) :
    Spaced cs ((cs.head?.any Text.isBlank, t) :: spaced)

def isWord : Token → Bool
  | .word _ => true
  | .symbol _ => false

/-- Whether no mark joins two neighbours, so that blanks between them stay in the normal text. -/
def isApart (t u : Token) : Bool :=
  !t.text.getLast?.any joinsRight && !u.text.head?.any joinsLeft

/-- Whether the blanks between two neighbours stay in the normal text and can be left out. -/
def isFree (t u : Token) : Bool := isApart t u && !(isWord t && isWord u)

/-- The normal text of the tokens behind `t`. -/
def normalRest (t : Token) : List (Bool × Token) → List Char
  | [] => []
  | (blank, u) :: spaced => (if blank && isApart t u then [' '] else []) ++ u.text ++
      normalRest u spaced

/-- The normal text of tokens. -/
def normalText : List (Bool × Token) → List Char
  | [] => []
  | (_, t) :: spaced => t.text ++ normalRest t spaced

/-- Whether there are blanks in each of the free gaps behind `t`. -/
def freeBlanksAfter (t : Token) : List (Bool × Token) → List Bool
  | [] => []
  | (blank, u) :: spaced => if isFree t u then blank :: freeBlanksAfter u spaced
      else freeBlanksAfter u spaced

/-- Whether there are blanks in each of the free gaps between tokens. -/
def freeBlanks : List (Bool × Token) → List Bool
  | [] => []
  | (_, t) :: spaced => freeBlanksAfter t spaced

section

variable {cs start rest : List Char} {t u : Token} {spaced others : List (Bool × Token)}

/-! ### The normal text of tokens -/

theorem isWord_text_of_next (h : next cs = .found t start rest) : Text.IsWord t.text := by
  obtain ⟨hne, hchars⟩ := text_of_next h
  refine ⟨hne, fun c hc ↦ ?_⟩
  rcases hchars c hc with hname | hsymbol
  · exact isBlank_eq_false_of_isNameChar hname
  · exact isBlank_eq_false_of_isSymbolChar hsymbol

/-- In front of a token there are only blanks. -/
theorem exists_blanks_of_next (h : next cs = .found t start rest) :
    ∃ blanks, (∀ c ∈ blanks, Text.isBlank c = true) ∧ cs = blanks ++ (t.text ++ rest) ∧
      cs.head?.any Text.isBlank = !blanks.isEmpty := by
  have hstart : Text.trimStartChars cs = start := trimStartChars_of_next (congrArg Step.start? h)
  have hblanks : ∀ c ∈ cs.takeWhile Text.isBlank, Text.isBlank c = true := fun _ ↦
    List.mem_takeWhile_imp
  have htext : cs = cs.takeWhile Text.isBlank ++ (t.text ++ rest) := by
    rw [← (start_of_next h).1, ← hstart]
    exact List.takeWhile_append_dropWhile.symm
  refine ⟨_, hblanks, htext, ?_⟩
  cases hcs : cs with
  | nil => rfl
  | cons c cs =>
    rw [List.head?_cons, Option.any_some, List.takeWhile_cons]
    cases Text.isBlank c <;> rfl

theorem isBlank_of_next_finished (h : next cs = .finished) : ∀ c ∈ cs, Text.isBlank c = true := by
  rw [next] at h
  split at h
  · rename_i htrim
    exact List.dropWhile_eq_nil_iff.1 htrim
  · split at h
    · cases h
    · split at h <;> cases h

theorem getLast?_of_suffix {out word : List Char} (hword : word ≠ []) (h : word <:+ out) :
    out.getLast? = word.getLast? := by
  obtain ⟨front, rfl⟩ := h
  rw [List.getLast?_append, List.getLast?_eq_some_getLast hword, Option.some_or]

/-- A word is appended behind a token without a space when a mark joins the two. -/
theorem appendWord_of_suffix {out : List Char} (ht : Text.IsWord t.text) (h : t.text <:+ out) :
    appendWord out u.text = out ++ ((if isApart t u then [' '] else []) ++ u.text) := by
  have hout : out.isEmpty = false := by
    obtain ⟨front, rfl⟩ := h
    simp [ht.ne_nil]
  have hglued : isGlued out u.text = !isApart t u := by
    rw [isGlued, isApart, hout, getLast?_of_suffix ht.ne_nil h, Bool.false_or, Bool.or_comm,
      Bool.not_and, Bool.not_not, Bool.not_not]
  rw [appendWord, hglued]
  cases isApart t u <;> simp

/-- Behind a text that ends in `t`, blanks in front of a token stay as a space when no mark joins the
two. -/
theorem normalizeTypeChars_append_token {front blanks : List Char} (ht : Text.IsWord t.text)
    (hfront : t.text <:+ front) (hnormal : t.text <:+ normalizeTypeChars front)
    (hblanks : ∀ c ∈ blanks, Text.isBlank c = true) (hu : Text.IsWord u.text) :
    normalizeTypeChars (front ++ (blanks ++ u.text)) = normalizeTypeChars front ++
      ((if !blanks.isEmpty && isApart t u then [' '] else []) ++ u.text) := by
  by_cases hnone : blanks = []
  · have hne : front ≠ [] := by
      obtain ⟨more, rfl⟩ := hfront
      simp [ht.ne_nil]
    have hlast : ∀ c ∈ front.getLast?, Text.isBlank c = false := fun c hc ↦
      ht.isBlank_eq_false c (List.mem_of_getLast? (getLast?_of_suffix ht.ne_nil hfront ▸ hc))
    simp [hnone, Bindery.normalizeTypeChars_append hne hlast hu.isBlank_eq_false]
  · rw [normalizeTypeChars_append_word hnone hblanks hu, appendWord_of_suffix ht hnormal]
    simp [hnone]

/-- Behind a text that ends in `t`, the tokens of a text are put one after another. -/
theorem Spaced.normalizeTypeChars_append (h : Spaced cs spaced) {front : List Char}
    (ht : Text.IsWord t.text) (hfront : t.text <:+ front)
    (hnormal : t.text <:+ normalizeTypeChars front) :
    normalizeTypeChars (front ++ cs) = normalizeTypeChars front ++ normalRest t spaced := by
  induction h generalizing front t with
  | done h =>
    rw [normalizeTypeChars, Text.words_append_blanks (isBlank_of_next_finished h), normalRest,
      List.append_nil]
    rfl
  | @token cs start rest u spaced h _ ih =>
    obtain ⟨blanks, hblanks, htext, hblank⟩ := exists_blanks_of_next h
    have hu := isWord_text_of_next h
    have hword := normalizeTypeChars_append_token ht hfront hnormal hblanks hu
    rw [← hblank] at hword
    have hends : u.text <:+ normalizeTypeChars (front ++ (blanks ++ u.text)) := by
      rw [hword, ← List.append_assoc]
      exact List.suffix_append _ _
    have happend := ih hu ((List.suffix_append blanks _).trans (List.suffix_append front _)) hends
    rw [hword] at happend
    rw [normalRest]
    generalize cs.head?.any Text.isBlank = blank at happend ⊢
    rw [htext]
    simpa only [List.append_assoc] using happend

/-- A normal text is that of the tokens. -/
theorem Spaced.normalizeTypeChars_eq (h : Spaced cs spaced) :
    normalizeTypeChars cs = normalText spaced := by
  cases h with
  | done h =>
    have hblanks := isBlank_of_next_finished h
    have hwords := Text.words_append_blanks hblanks []
    rw [List.nil_append] at hwords
    rw [normalizeTypeChars, hwords]
    rfl
  | @token _ start rest t spaced h hrest =>
    obtain ⟨blanks, hblanks, rfl, -⟩ := exists_blanks_of_next h
    have ht := isWord_text_of_next h
    have hword : normalizeTypeChars (blanks ++ t.text) = t.text := by
      rw [normalizeTypeChars, Text.words_blanks_append hblanks, Text.words_eq_singleton ht]
      rfl
    rw [← List.append_assoc, hrest.normalizeTypeChars_append ht (List.suffix_append _ _)
      (hword.symm ▸ List.suffix_refl _), hword]
    rfl

/-! ### Texts of the same tokens -/

theorem Spaced.isWord_text (h : Spaced cs spaced) : ∀ g ∈ spaced, Text.IsWord g.2.text := by
  induction h with
  | done => exact List.forall_mem_nil _
  | token h _ ih => exact List.forall_mem_cons.2 ⟨isWord_text_of_next h, ih⟩

/-- A word is read up to a character that belongs to none. -/
theorem isNameChar_of_next_word {word : List Char} (h : next cs = .found (.word word) start rest) :
    (∀ c ∈ word.head?, isNameChar c = true) ∧ ∀ c ∈ rest.head?, isNameChar c = false := by
  have hspan : ∀ cs, ∀ c ∈ (spanName cs).2.head?, isNameChar c = false := by
    intro cs
    fun_induction spanName cs with
    | case1 _ ih => exact ih
    | case2 _ _ _ _ ih => exact ih
    | case3 c _ _ hc =>
      rintro d hd
      cases hd
      exact eq_false_of_ne_true hc
    | case4 => simp
  rw [next] at h
  split at h
  · cases h
  · split at h
    · rename_i hc
      cases h
      refine ⟨fun d hd ↦ ?_, hspan _⟩
      cases hd
      exact hc
    · split at h <;> cases h

/-- Words in a row have blanks between them. -/
def AreSeparated : List (Bool × Token) → Prop :=
  List.IsChain fun g g' ↦ g.2.isWord = true → g'.2.isWord = true → g'.1 = true

theorem Spaced.areSeparated (h : Spaced cs spaced) : AreSeparated spaced := by
  induction h with
  | done => exact .nil
  | @token cs start rest t spaced h hrest ih =>
    cases hrest with
    | done => exact .singleton _
    | @token _ start' rest' u spaced h' hrest' =>
      refine List.isChain_cons_cons.2 ⟨fun ht hu ↦ ?_, ih⟩
      obtain ⟨blanks, -, htext, hblank⟩ := exists_blanks_of_next h'
      rw [hblank]
      by_contra hnone
      -- Without blanks, the second word would belong to the first.
      obtain rfl : blanks = [] := by simpa using hnone
      cases t with
      | symbol c => cases ht
      | word first =>
        cases u with
        | symbol c => cases hu
        | word second =>
          obtain ⟨c, second, rfl⟩ := List.exists_cons_of_ne_nil (isWord_text_of_next h').ne_nil
          have hfirst := (isNameChar_of_next_word h).2 c (by rw [htext]; rfl)
          rw [(isNameChar_of_next_word h').1 c rfl] at hfirst
          cases hfirst

/-- A word is set off by a space in both of two equal texts or in none. -/
theorem spaced_append_eq_iff {blank blank' : Bool} {word rest' : List Char}
    (hword : Text.IsWord word) :
    (if blank then [' '] else []) ++ word ++ rest =
        (if blank' then [' '] else []) ++ word ++ rest' ↔
      blank = blank' ∧ rest = rest' := by
  obtain ⟨c, word, rfl⟩ := List.exists_cons_of_ne_nil hword.ne_nil
  have hspace : c ≠ ' ' := by
    rintro rfl
    exact absurd (hword.isBlank_eq_false ' ' List.mem_cons_self) (by decide)
  cases blank <;> cases blank' <;> simp [hspace, hspace.symm]

/-- The normal texts of the same tokens behind `t` are the same when there are blanks in the same
free gaps. -/
theorem normalRest_eq_iff {blank blank' : Bool} (hspaced : AreSeparated ((blank, t) :: spaced))
    (hothers : AreSeparated ((blank', t) :: others))
    (hwords : ∀ g ∈ spaced, Text.IsWord g.2.text)
    (htokens : spaced.map Prod.snd = others.map Prod.snd) :
    normalRest t spaced = normalRest t others ↔
      freeBlanksAfter t spaced = freeBlanksAfter t others := by
  induction spaced generalizing t others blank blank' with
  | nil =>
    obtain rfl := List.map_eq_nil_iff.1 htokens.symm
    exact iff_of_true rfl rfl
  | cons g spaced ih =>
    obtain ⟨here, u⟩ := g
    obtain ⟨⟨there, u'⟩, others, rfl, hu, hrest⟩ := List.map_eq_cons_iff.1 htokens.symm
    obtain rfl : u = u' := hu.symm
    obtain ⟨hword, hwords⟩ := List.forall_mem_cons.1 hwords
    obtain ⟨hhere, hspaced⟩ := List.isChain_cons_cons.1 hspaced
    obtain ⟨hthere, hothers⟩ := List.isChain_cons_cons.1 hothers
    -- Between words both have blanks, so a gap without a mark matters only if it is free.
    have hgap : ((here && isApart t u) = (there && isApart t u)) ↔
        (isFree t u = true → here = there) := by
      rw [isFree]
      cases isApart t u with
      | false => simp
      | true =>
        simp only [Bool.and_true, Bool.true_and, Bool.not_eq_true', Bool.and_eq_false_iff]
        refine ⟨fun heq _ ↦ heq, fun h ↦ ?_⟩
        by_cases hboth : t.isWord = true ∧ u.isWord = true
        · exact (hhere hboth.1 hboth.2).trans (hthere hboth.1 hboth.2).symm
        · exact h ((not_and_or.1 hboth).imp eq_false_of_ne_true eq_false_of_ne_true)
    rw [normalRest, normalRest, spaced_append_eq_iff hword, hgap,
      ih hspaced hothers hwords hrest.symm, freeBlanksAfter, freeBlanksAfter]
    split <;> simp [*]

/-- Tokens have one normal text when there are blanks in the same free gaps between them. -/
theorem normalText_eq_iff (h : Spaced cs spaced) {ds : List Char} (hothers : Spaced ds others)
    (htokens : spaced.map Prod.snd = others.map Prod.snd) :
    normalText spaced = normalText others ↔ freeBlanks spaced = freeBlanks others := by
  cases spaced with
  | nil =>
    obtain rfl := List.map_eq_nil_iff.1 htokens.symm
    exact iff_of_true rfl rfl
  | cons g spaced =>
    obtain ⟨⟨_, t⟩, others, rfl, ht, hrest⟩ := List.map_eq_cons_iff.1 htokens.symm
    obtain rfl : t = g.2 := ht
    rw [normalText, normalText, List.append_cancel_left_eq]
    exact normalRest_eq_iff h.areSeparated hothers.areSeparated
      (List.forall_mem_cons.1 h.isWord_text).2 hrest.symm

end

end Token

/-- Two types that are read as the same tokens have one normal text when the blanks in their free
gaps are the same, and only then. -/
theorem normalizeType_eq_iff {type other : String} {spaced others : List (Bool × Token)}
    (h : Token.Spaced type.toList spaced) (hother : Token.Spaced other.toList others)
    (htokens : spaced.map Prod.snd = others.map Prod.snd) :
    normalizeType type = normalizeType other ↔
      Token.freeBlanks spaced = Token.freeBlanks others := by
  rw [← Token.normalText_eq_iff h hother htokens, ← h.normalizeTypeChars_eq,
    ← hother.normalizeTypeChars_eq, normalizeType, normalizeType, String.ofList_inj]

/-- A tabulator, two spaces and none at all are alike where a mark joins its neighbours. -/
theorem map_type_spacing :
    Token.Spaced "const\tstd::map< int,wxWindow * >&".toList
        [(false, .ofName "const"), (true, .ofName "std::map"), (false, .symbol '<'),
          (true, .ofName "int"), (false, .symbol ','), (false, .ofName "wxWindow"),
          (true, .symbol '*'), (true, .symbol '>'), (false, .symbol '&')] ∧
      Token.Spaced "const  std::map<int, wxWindow*> &".toList
        [(false, .ofName "const"), (true, .ofName "std::map"), (false, .symbol '<'),
          (false, .ofName "int"), (false, .symbol ','), (true, .ofName "wxWindow"),
          (false, .symbol '*'), (false, .symbol '>'), (true, .symbol '&')] ∧
      normalizeType "const\tstd::map< int,wxWindow * >&" =
        normalizeType "const  std::map<int, wxWindow*> &" := by
  refine ⟨?first, ?second, (normalizeType_eq_iff ?first ?second rfl).2 rfl⟩
  case first =>
    exact .token rfl (.token rfl (.token rfl (.token rfl (.token rfl (.token rfl (.token rfl
      (.token rfl (.token rfl (.done rfl)))))))))
  case second =>
    exact .token rfl (.token rfl (.token rfl (.token rfl (.token rfl (.token rfl (.token rfl
      (.token rfl (.token rfl (.done rfl)))))))))

/-- The space between a pointer mark and a word is free, so the same type has two normal texts. -/
theorem const_pointer_spacing :
    Token.Spaced "wxWindow * const".toList
        [(false, .ofName "wxWindow"), (true, .symbol '*'), (true, .ofName "const")] ∧
      Token.Spaced "wxWindow *const".toList
        [(false, .ofName "wxWindow"), (true, .symbol '*'), (false, .ofName "const")] ∧
      normalizeType "wxWindow * const" = "wxWindow* const" ∧
      normalizeType "wxWindow *const" = "wxWindow*const" :=
  ⟨.token rfl (.token rfl (.token rfl (.done rfl))),
    .token rfl (.token rfl (.token rfl (.done rfl))), by decide +kernel, by decide +kernel⟩

end Bindery
