import Bindery.Proofs.Decl.Endings

/-!
Types as their tokens are joined. A type text is read as tokens and written from them again, with
spaces of its own (`Token.setsOff`), where the text may have had others. The normal text of what is
written is that of the tokens with these spaces (`Token.normalizeTypeChars_joinTokens`), so it is
the normal text of the type just when the type has the same spaces in the gaps where a normal text
keeps them (`Token.normalText_joined_iff`).
-/

set_option autoImplicit false
set_option relaxedAutoImplicit false

namespace Bindery

namespace Token

open ParamText

variable {cs rest out : List Char} {t u : Token} {ts : List Token}
  {spaced others : List (Bool × Token)}

/-! ### Reading a type in front of more -/

theorem readAll_eq_nil (h : ∀ t start mid, next cs ≠ .found t start mid) : readAll cs = [] := by
  rw [readAll]
  split
  · rename_i hfound
    exact (h _ _ _ hfound).elim
  · rfl

theorem readAll_eq_of_next {ds : List Char} (h : next cs = next ds) : readAll cs = readAll ds := by
  cases hds : next ds with
  | found t start mid => rw [readAll_of_next hds, readAll_of_next (h.trans hds)]
  | _ => rw [readAll_eq_nil (by simp [h, hds]), readAll_eq_nil (by simp [hds])]

/-- The tokens of a text are read in front of whatever ends a name. -/
theorem Spaced.readAll_append (h : Spaced cs spaced) (hstops : Stops rest) :
    readAll (cs ++ rest) = spaced.map Prod.snd ++ readAll rest := by
  induction h with
  | done h => exact readAll_eq_of_next (next_blanks (isBlank_of_next_finished h) rest)
  | token h _ ih => rw [readAll_of_next (next_append h hstops), ih, List.map_cons, List.cons_append]

/-- A text is read in one way. -/
theorem Spaced.unique (h : Spaced cs spaced) (hother : Spaced cs others) : spaced = others := by
  induction h generalizing others with
  | done h =>
    cases hother with
    | done => rfl
    | token hfound => cases h.symm.trans hfound
  | token h _ ih =>
    cases hother with
    | done hdone => cases h.symm.trans hdone
    | token hfound hrest =>
      cases h.symm.trans hfound
      rw [ih hrest]

/-! ### Tokens that are joined -/

/-- Whether a joined text sets a token off from the one in front of it. -/
def setsOff (t : Token) : Token → Bool
  | .word _ => !t.text.getLast?.any fun c ↦ c == '<' || c == ':'
  | .symbol c => isPointerMark c && !t.text.getLast?.any isPointerMark

/-- The tokens behind `t`, each with whether a joined text sets it off. -/
def joinedAfter (t : Token) : List Token → List (Bool × Token)
  | [] => []
  | u :: ts => (setsOff t u, u) :: joinedAfter u ts

/-- Tokens, each with whether a joined text sets it off. -/
def joined : List Token → List (Bool × Token)
  | [] => []
  | t :: ts => (false, t) :: joinedAfter t ts

theorem appendToken_of_suffix (ht : Text.IsWord t.text) (h : t.text <:+ out) (u : Token) :
    appendToken out u = out ++ ((if setsOff t u then [' '] else []) ++ u.text) := by
  have hout : out.isEmpty = false := by
    obtain ⟨front, rfl⟩ := h
    simp [ht.ne_nil]
  have hlast := getLast?_of_suffix ht.ne_nil h
  cases u with
  | word chars =>
    rw [appendToken, hout, hlast, Bool.false_or, setsOff]
    cases t.text.getLast?.any fun c ↦ c == '<' || c == ':' <;> rfl
  | symbol c =>
    rw [appendToken, hout, hlast, Bool.false_or, setsOff]
    cases isPointerMark c && !t.text.getLast?.any isPointerMark <;> rfl

theorem appendToken_nil (t : Token) : appendToken [] t = t.text := by
  cases t with
  | word chars => rfl
  | symbol c => simp [appendToken, Token.text]

/-- Behind a text that ends in `t`, joined tokens are put one after another. -/
theorem normalizeTypeChars_foldl_appendToken (hts : ∀ u ∈ ts, Text.IsWord u.text)
    (ht : Text.IsWord t.text) (hout : t.text <:+ out)
    (hnormal : t.text <:+ normalizeTypeChars out) :
    normalizeTypeChars (ts.foldl appendToken out) =
      normalizeTypeChars out ++ normalRest t (joinedAfter t ts) := by
  -- Both the joined text and its normal text end in the token that the next one is put behind.
  induction ts generalizing t out with
  | nil => exact (List.append_nil _).symm
  | cons u ts ih =>
    obtain ⟨hu, hts⟩ := List.forall_mem_cons.1 hts
    have hblanks : ∀ c ∈ (if setsOff t u then [' '] else []), Text.isBlank c = true := by
      split <;> simp
      decide
    have hword := normalizeTypeChars_append_token ht hout hnormal hblanks hu
    have hends : u.text <:+ normalizeTypeChars (appendToken out u) := by
      rw [appendToken_of_suffix ht hout, hword, ← List.append_assoc]
      exact List.suffix_append _ _
    rw [List.foldl_cons, ih hts hu (text_suffix_appendToken out u) hends,
      appendToken_of_suffix ht hout, hword, joinedAfter, normalRest]
    cases setsOff t u <;> simp

/-- The normal text of joined tokens is that of the tokens as they are joined. -/
theorem normalizeTypeChars_joinTokens (hts : ∀ u ∈ ts, Text.IsWord u.text) :
    normalizeTypeChars (joinTokens ts) = normalText (joined ts) := by
  cases ts with
  | nil => rfl
  | cons t ts =>
    obtain ⟨ht, hts⟩ := List.forall_mem_cons.1 hts
    have hself : normalizeTypeChars t.text = t.text := by
      rw [normalizeTypeChars, Text.words_eq_singleton ht]
      rfl
    rw [joinTokens, List.foldl_cons, appendToken_nil,
      normalizeTypeChars_foldl_appendToken hts ht (List.suffix_refl _)
        (hself.symm ▸ List.suffix_refl _), hself]
    rfl

/-- A joined text ends in its last token. -/
theorem isBlank_getLast?_joinTokens (hne : ts ≠ []) (hts : ∀ u ∈ ts, Text.IsWord u.text) :
    joinTokens ts ≠ [] ∧ ∀ c ∈ (joinTokens ts).getLast?, Text.isBlank c = false := by
  obtain ⟨front, t, rfl⟩ := (List.eq_nil_or_concat ts).resolve_left hne
  rw [List.concat_eq_append] at hne hts ⊢
  have ht := hts t (by simp)
  have hsuffix : t.text <:+ joinTokens (front ++ [t]) := by
    rw [joinTokens_append]
    exact text_suffix_appendToken _ t
  refine ⟨fun hnil ↦ ?_, fun c hc ↦ ?_⟩
  · rw [hnil] at hsuffix
    exact ht.ne_nil (List.suffix_nil.1 hsuffix)
  · rw [getLast?_of_suffix ht.ne_nil hsuffix] at hc
    exact ht.isBlank_eq_false c (List.mem_of_getLast? hc)

/-- In the gaps where a normal text keeps blanks, there are blanks just where a joined text has a
space. -/
def IsJoined : List (Bool × Token) → Prop :=
  List.IsChain fun g g' ↦ isApart g.2 g'.2 = true → g'.1 = setsOff g.2 g'.2

theorem normalRest_joinedAfter_iff {blank : Bool} (hwords : ∀ g ∈ spaced, Text.IsWord g.2.text) :
    normalRest t (joinedAfter t (spaced.map Prod.snd)) = normalRest t spaced ↔
      IsJoined ((blank, t) :: spaced) := by
  induction spaced generalizing t blank with
  | nil => exact iff_of_true rfl (.singleton _)
  | cons g spaced ih =>
    obtain ⟨here, u⟩ := g
    obtain ⟨hu, hwords⟩ := List.forall_mem_cons.1 hwords
    have hgap : ((setsOff t u && isApart t u) = (here && isApart t u)) ↔
        (isApart t u = true → here = setsOff t u) := by
      cases isApart t u <;> simp [eq_comm]
    rw [List.map_cons, joinedAfter, normalRest, normalRest, spaced_append_eq_iff hu, hgap,
      ih hwords, IsJoined, List.isChain_cons_cons]

/-- Tokens keep their normal text when they are joined, just when they are spaced as they are
joined. -/
theorem normalText_joined_iff (hwords : ∀ g ∈ spaced, Text.IsWord g.2.text) :
    normalText (joined (spaced.map Prod.snd)) = normalText spaced ↔ IsJoined spaced := by
  cases spaced with
  | nil => exact iff_of_true rfl .nil
  | cons g spaced =>
    rw [List.map_cons, joined, normalText, normalText, List.append_cancel_left_eq]
    exact normalRest_joinedAfter_iff (List.forall_mem_cons.1 hwords).2

/-! ### The characters of a normal text -/

theorem filter_normalRest (hwords : ∀ g ∈ spaced, Text.IsWord g.2.text) :
    (normalRest t spaced).filter (!Text.isBlank ·) = (spaced.map Prod.snd).flatMap text := by
  induction spaced generalizing t with
  | nil => rfl
  | cons g spaced ih =>
    obtain ⟨hg, hwords⟩ := List.forall_mem_cons.1 hwords
    have hspace : (if g.1 && isApart t g.2 then [' '] else []).filter (!Text.isBlank ·) = [] := by
      split <;> decide
    have hself : g.2.text.filter (!Text.isBlank ·) = g.2.text :=
      List.filter_eq_self.2 fun c hc ↦ by simp [hg.isBlank_eq_false c hc]
    rw [normalRest, List.filter_append, List.filter_append, hspace, hself, ih hwords]
    rfl

/-- But for the spaces, a normal text is the tokens alone. -/
theorem filter_normalText (hwords : ∀ g ∈ spaced, Text.IsWord g.2.text) :
    (normalText spaced).filter (!Text.isBlank ·) = (spaced.map Prod.snd).flatMap text := by
  cases spaced with
  | nil => rfl
  | cons g spaced =>
    obtain ⟨hg, hwords⟩ := List.forall_mem_cons.1 hwords
    have hself : g.2.text.filter (!Text.isBlank ·) = g.2.text :=
      List.filter_eq_self.2 fun c hc ↦ by simp [hg.isBlank_eq_false c hc]
    rw [normalText, List.filter_append, hself, filter_normalRest hwords]
    rfl

theorem map_snd_joined (ts : List Token) : (joined ts).map Prod.snd = ts := by
  have hafter (t : Token) (ts : List Token) : (joinedAfter t ts).map Prod.snd = ts := by
    induction ts generalizing t with
    | nil => rfl
    | cons u ts ih => rw [joinedAfter, List.map_cons, ih]
  cases ts with
  | nil => rfl
  | cons t ts => rw [joined, List.map_cons, hafter]

/-- Joining tokens changes no more than the spaces. -/
theorem filter_normalText_joined (hwords : ∀ g ∈ spaced, Text.IsWord g.2.text) :
    (normalText (joined (spaced.map Prod.snd))).filter (!Text.isBlank ·) =
      (normalText spaced).filter (!Text.isBlank ·) := by
  have hjoined : ∀ g ∈ joined (spaced.map Prod.snd), Text.IsWord g.2.text := by
    have htokens : ∀ t ∈ (joined (spaced.map Prod.snd)).map Prod.snd, Text.IsWord t.text := by
      rw [map_snd_joined]
      exact List.forall_mem_map.2 hwords
    exact fun g hg ↦ htokens g.2 (List.mem_map_of_mem hg)
  rw [filter_normalText hwords, filter_normalText hjoined, map_snd_joined]

end Token

end Bindery
