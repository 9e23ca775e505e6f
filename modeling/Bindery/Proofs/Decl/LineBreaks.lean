import Bindery.Proofs.Decl.Prototypes

/-!
Line breaks in a text of tokens. Whatever blanks are written in place of the line breaks of a text,
also none at all, the same tokens are read from it, as long as no word goes on behind a break then
(`Token.next_withBreaks`). So the readers of a prototype do the same, one after another, and what is
left of the text in front of them is left with its breaks replaced in the same way
(`Prototype.Relays`). Only default values are taken over as they stand, with what is written in
place of their breaks (`Prototype.relays_parseChars`).
-/

set_option autoImplicit false
set_option relaxedAutoImplicit false

namespace Bindery

/-! ### Texts -/

namespace Text

/-- A text with something else written in place of each line break. -/
def withBreaks (mark cs : List Char) : List Char :=
  cs.flatMap fun c ↦ if c = '\n' then mark else [c]

variable {mark cs : List Char} {c : Char}

theorem withBreaks_append (mark cs ds : List Char) :
    withBreaks mark (cs ++ ds) = withBreaks mark cs ++ withBreaks mark ds := List.flatMap_append

theorem withBreaks_break (mark cs : List Char) :
    withBreaks mark ('\n' :: cs) = mark ++ withBreaks mark cs := rfl

theorem withBreaks_cons (hc : c ≠ '\n') (mark cs : List Char) :
    withBreaks mark (c :: cs) = c :: withBreaks mark cs := by
  rw [withBreaks, List.flatMap_cons, if_neg hc]
  rfl

theorem ne_break_of_isBlank (hc : isBlank c = false) : c ≠ '\n' := by
  rintro rfl
  exact absurd hc (by decide)

theorem withBreaks_nil (cs : List Char) : withBreaks [] cs = cs.filter (· != '\n') := by
  induction cs with
  | nil => rfl
  | cons c cs ih =>
    by_cases hc : c = '\n'
    · subst hc
      rw [withBreaks_break, ih]
      rfl
    · rw [withBreaks_cons hc, ih, List.filter_cons_of_pos (by simpa using hc)]

theorem withBreaks_space (cs : List Char) : withBreaks [' '] cs = Prototype.breaksToSpaces cs := by
  induction cs with
  | nil => rfl
  | cons c cs ih =>
    by_cases hc : c = '\n'
    · subst hc
      rw [withBreaks_break, ih]
      rfl
    · rw [withBreaks_cons hc, ih, Prototype.breaksToSpaces, Prototype.breaksToSpaces, List.map_cons]
      simp [hc]

theorem reverse_withBreaks (mark cs : List Char) :
    (withBreaks mark cs).reverse = withBreaks mark.reverse cs.reverse := by
  induction cs with
  | nil => rfl
  | cons c cs ih =>
    rw [List.reverse_cons, withBreaks_append, ← ih]
    by_cases hc : c = '\n'
    · subst hc
      rw [withBreaks_break, List.reverse_append, withBreaks_break]
      simp [withBreaks]
    · rw [withBreaks_cons hc, List.reverse_cons, withBreaks_cons hc]
      rfl

/-- Blanks in place of breaks are trimmed like the breaks. -/
theorem trimStartChars_withBreaks (hmark : ∀ c ∈ mark, isBlank c = true) (cs : List Char) :
    trimStartChars (withBreaks mark cs) = withBreaks mark (trimStartChars cs) := by
  unfold trimStartChars
  induction cs with
  | nil => rfl
  | cons c cs ih =>
    by_cases hc : c = '\n'
    · subst hc
      rw [withBreaks_break, List.dropWhile_append_of_pos hmark, ih]
      rfl
    · rw [withBreaks_cons hc, List.dropWhile_cons, List.dropWhile_cons, ih]
      split
      · rfl
      · rw [withBreaks_cons hc]

theorem trimChars_withBreaks (hmark : ∀ c ∈ mark, isBlank c = true) (cs : List Char) :
    trimChars (withBreaks mark cs) = withBreaks mark (trimChars cs) := by
  have hreverse : ∀ c ∈ mark.reverse, isBlank c = true := fun c hc ↦
    hmark c (List.mem_reverse.1 hc)
  rw [trimChars, trimStartChars_withBreaks hmark, trimEndChars, reverse_withBreaks,
    ← trimStartChars, trimStartChars_withBreaks hreverse, reverse_withBreaks, List.reverse_reverse]
  rfl

theorem trimEndChars_prefix (cs : List Char) : trimEndChars cs <+: cs := by
  have hsuffix : cs.reverse.dropWhile isBlank <:+ cs.reverse := List.dropWhile_suffix _
  rw [← List.reverse_prefix, List.reverse_reverse] at hsuffix
  exact hsuffix

/-- A trimmed text does not begin with a blank. -/
theorem isBlank_of_trimChars_eq_cons {ds : List Char} (h : trimChars cs = c :: ds) :
    isBlank c = false := by
  obtain ⟨more, hmore⟩ := trimEndChars_prefix (trimStartChars cs)
  rw [← trimChars, h, List.cons_append, trimStartChars] at hmore
  have hhead := List.head?_dropWhile_not isBlank cs
  rw [← hmore] at hhead
  simpa using hhead

theorem isEmpty_withBreaks_trimChars (mark cs : List Char) :
    (withBreaks mark (trimChars cs)).isEmpty = (trimChars cs).isEmpty := by
  cases htrim : trimChars cs with
  | nil => rfl
  | cons c ds =>
    rw [withBreaks_cons (ne_break_of_isBlank (isBlank_of_trimChars_eq_cons htrim))]
    rfl

end Text

/-! ### Tokens -/

namespace Token

open Text (withBreaks)

/-- No word of a text goes on behind a line break when `mark` is written in place of all breaks. -/
def IsLoose (mark cs : List Char) : Prop :=
  ∀ c rest, c :: rest <:+ cs → isNameChar c = true →
    spanName (withBreaks mark rest) = ((spanName rest).1, withBreaks mark (spanName rest).2)

variable {mark cs rest start : List Char} {t : Token}

theorem IsLoose.of_suffix (h : IsLoose mark cs) (hrest : rest <:+ cs) : IsLoose mark rest :=
  fun c ds hsuffix ↦ h c ds (hsuffix.trans hrest)

/-- A text is loose when neither the characters of a word nor a colon follow its breaks. -/
theorem isLoose_of_stops
    (h : ∀ rest, '\n' :: rest <:+ cs → Stops (mark ++ withBreaks mark rest)) :
    IsLoose mark cs := by
  have hspan (ds : List Char) (hds : ds <:+ cs) :
      spanName (withBreaks mark ds) = ((spanName ds).1, withBreaks mark (spanName ds).2) := by
    fun_induction spanName ds with
    | case1 rest ih =>
      have hrest := ih ((List.suffix_append [':', ':'] rest).trans hds)
      rw [Text.withBreaks_cons (by decide), Text.withBreaks_cons (by decide), spanName, hrest]
    | case2 c rest _ hname ih =>
      have hbreak : c ≠ '\n' := by
        rintro rfl
        exact absurd hname (by decide)
      have hcolon : ∀ ds, c = ':' → withBreaks mark rest = ':' :: ds → False := by
        rintro ds rfl
        exact absurd hname (by decide)
      rw [Text.withBreaks_cons hbreak, spanName.eq_2 _ _ hcolon, if_pos hname,
        ih ((List.suffix_cons c rest).trans hds)]
    | case3 c rest hcolons hname =>
      by_cases hc : c = '\n'
      · subst hc
        exact spanName_append_rest [] (h rest hds)
      · have hcolon : ∀ ds, c = ':' → withBreaks mark rest = ':' :: ds → False := by
          rintro ds rfl heq
          cases rest with
          | nil => cases heq
          | cons d rest =>
            by_cases hd : d = '\n'
            · subst hd
              have hstops := h rest ((List.suffix_cons ':' _).trans hds)
              rw [← Text.withBreaks_break, heq] at hstops
              exact (hstops ':' rfl).2 rfl
            · rw [Text.withBreaks_cons hd] at heq
              exact hcolons rest rfl (congrArg (· :: rest) (List.cons.inj heq).1)
        rw [Text.withBreaks_cons hc, spanName.eq_2 _ _ hcolon, if_neg hname]
    | case4 => rfl
  exact fun c ds hsuffix _ ↦ hspan ds ((List.suffix_cons c ds).trans hsuffix)

/-- The places of a step in the text with its breaks replaced. -/
def Step.withBreaks (mark : List Char) : Step → Step
  | .finished => .finished
  | .unexpected c start => .unexpected c (Text.withBreaks mark start)
  | .found t start rest => .found t (Text.withBreaks mark start) (Text.withBreaks mark rest)

theorem next_withBreaks (hmark : ∀ c ∈ mark, Text.isBlank c = true) (h : IsLoose mark cs) :
    next (withBreaks mark cs) = (next cs).withBreaks mark := by
  rw [next, next, Text.trimStartChars_withBreaks hmark]
  cases htrim : Text.trimStartChars cs with
  | nil => rfl
  | cons c rest =>
    have hsuffix : c :: rest <:+ cs := htrim ▸ List.dropWhile_suffix _
    have hblank : Text.isBlank c = false := by
      have hhead := List.head?_dropWhile_not Text.isBlank cs
      rw [← Text.trimStartChars, htrim] at hhead
      simpa using hhead
    rw [Text.withBreaks_cons (Text.ne_break_of_isBlank hblank)]
    simp only
    split
    · rename_i hname
      rw [h c rest hsuffix hname, Step.withBreaks,
        Text.withBreaks_cons (Text.ne_break_of_isBlank hblank)]
    · split <;> rw [Step.withBreaks, Text.withBreaks_cons (Text.ne_break_of_isBlank hblank)]

theorem found_withBreaks (hmark : ∀ c ∈ mark, Text.isBlank c = true) (h : IsLoose mark cs)
    (hnext : next cs = .found t start rest) :
    next (withBreaks mark cs) = .found t (withBreaks mark start) (withBreaks mark rest) ∧
      IsLoose mark rest := by
  rw [next_withBreaks hmark h, hnext]
  exact ⟨rfl, h.of_suffix (rest_suffix_of_next hnext)⟩

end Token

/-! ### What is read -/

/-- A parameter with the breaks in its default value replaced. -/
def Param.withBreaks (mark : List Char) (p : Param) : Param :=
  { p with default := p.default.map fun value ↦
      String.ofList (Text.withBreaks mark value.toList) }

namespace Prototype

open Token (IsLoose)

def Draft.withBreaks (mark : List Char) (d : Draft) : Draft :=
  { d with default := d.default.map fun value ↦
      String.ofList (Text.withBreaks mark value.toList) }

/-- A prototype with the breaks in its default values replaced. -/
def withBreaks (mark : List Char) (p : Prototype) : Prototype :=
  { p with params := p.params.map (Param.withBreaks mark) }

/-- A failure at the same place of a text with its breaks replaced. -/
def Failure.withBreaks (mark : List Char) (e : Failure) : Failure :=
  { e with place := Text.withBreaks mark e.place }

/-- What is read from a text with its breaks replaced, when this is what is read from the text: the
outcome is changed, and what is left of the text in front of the next reader is fit for it. -/
inductive Relays {α β : Type} (mark : List Char) (P : α → Prop) (change : α → β) :
    Except Failure α → Except Failure β → Prop
  | ok {a : α} (h : P a) : Relays mark P change (.ok a) (.ok (change a))
  | error (e : Failure) : Relays mark P change (.error e) (.error (e.withBreaks mark))

/-- The same for readers, which leave a rest of the text. -/
abbrev RelaysRead {α β : Type} (mark : List Char) (change : α → β) :
    Except Failure (α × List Char) → Except Failure (β × List Char) → Prop :=
  Relays mark (fun read ↦ IsLoose mark read.2) (Prod.map change (Text.withBreaks mark))

section Relays

variable {α β γ δ : Type} {mark : List Char} {P : α → Prop} {change : α → β}
  {x : Except Failure α} {y : Except Failure β}

theorem Relays.of_ok {a : α} (h : Relays mark P change (.ok a) y) : P a ∧ y = .ok (change a) := by
  cases h with
  | ok ha => exact ⟨ha, rfl⟩

theorem Relays.of_error {e : Failure} (h : Relays mark P change (.error e) y) :
    y = .error (e.withBreaks mark) := by
  cases h
  rfl

theorem Relays.bind {Q : γ → Prop} {change' : γ → δ} {k : α → Except Failure γ}
    {k' : β → Except Failure δ} (h : Relays mark P change x y)
    (hk : ∀ a, P a → Relays mark Q change' (k a) (k' (change a))) :
    Relays mark Q change' (x >>= k) (y >>= k') := by
  cases h with
  | ok ha => exact hk _ ha
  | error e => exact .error e

/-- A reader that is only used when a condition does not hold is followed by one continuation. -/
theorem Relays.bind_ite {Q : γ → Prop} {change' : γ → δ} {c : Prop} [Decidable c]
    {x' : Except Failure α} {y' : Except Failure β} {k : α → Except Failure γ}
    {k' : β → Except Failure δ}
    (h : Relays mark P change (if c then x else x') (if c then y else y'))
    (hk : ∀ a, P a → Relays mark Q change' (k a) (k' (change a))) :
    Relays mark Q change' (if c then x >>= k else x' >>= k)
      (if c then y >>= k' else y' >>= k') := by
  split at h
  · rw [if_pos ‹c›, if_pos ‹c›]
    exact h.bind hk
  · rw [if_neg ‹¬c›, if_neg ‹¬c›]
    exact h.bind hk

theorem Relays.map {Q : γ → Prop} {change' : γ → δ} {f : α → γ} {g : β → δ}
    (h : Relays mark P change x y) (hP : ∀ a, P a → Q (f a))
    (hfg : ∀ a, g (change a) = change' (f a)) :
    Relays mark Q change' (x.map f) (y.map g) := by
  cases h with
  | @ok a ha =>
    rw [Except.map, Except.map, hfg]
    exact .ok (hP a ha)
  | error e => exact .error e

end Relays

section Readers

variable {mark cs : List Char}

/-- A blank neither ends a default value nor opens or closes anything in it. -/
theorem scanStep_of_isBlank {quote : Option Char} (hquote : ∀ q ∈ quote, Text.isBlank q = false)
    (depth : Nat) {c : Char} (hc : Text.isBlank c = true) :
    scanStep quote depth c = some (quote, depth) := by
  have hne {d : Char} (hd : Text.isBlank d = false) : (c == d) = false := by
    refine beq_false_of_ne ?_
    rintro rfl
    rw [hc] at hd
    cases hd
  cases quote with
  | some q => simp [scanStep, hne (hquote q rfl)]
  | none =>
    have hdouble := hne (d := '"') (by decide)
    have hsingle := hne (d := singleQuote) (by decide)
    simp [scanStep, hdouble, hsingle, hne (d := '(') (by decide), hne (d := '<') (by decide),
      hne (d := ')') (by decide), hne (d := '>') (by decide), hne (d := ',') (by decide)]

/-- What opens a quote is no blank. -/
theorem scanStep_quote {quote quote' : Option Char} (hquote : ∀ q ∈ quote, Text.isBlank q = false)
    {depth depth' : Nat} {c : Char} (h : scanStep quote depth c = some (quote', depth')) :
    ∀ q ∈ quote', Text.isBlank q = false := by
  cases quote with
  | some q =>
    cases h
    split
    · simp
    · exact hquote
  | none =>
    simp only [scanStep] at h
    split_ifs at h with hc <;> cases h
    · rintro q hq
      cases hq
      rcases Bool.or_eq_true_iff.1 hc with hc | hc <;> rw [eq_of_beq hc] <;> decide
    all_goals simp

theorem scanDefault_blanks {quote : Option Char} (hquote : ∀ q ∈ quote, Text.isBlank q = false)
    (depth : Nat) {blanks : List Char} (hblanks : ∀ c ∈ blanks, Text.isBlank c = true)
    (cs : List Char) : scanDefault quote depth (blanks ++ cs) =
      (scanDefault quote depth cs).map fun read ↦ (blanks ++ read.1, read.2) := by
  induction blanks with
  | nil => simp
  | cons c blanks ih =>
    obtain ⟨hc, hrest⟩ := List.forall_mem_cons.1 hblanks
    rw [List.cons_append, scanDefault_cons, scanStep_of_isBlank hquote depth hc]
    simp only [ih hrest, Option.map_map]
    rfl

/-- The places of tokens in the text with its breaks replaced. -/
def placedWithBreaks (mark : List Char) (placed : List Placed) : List Placed :=
  placed.map (Prod.map id (Text.withBreaks mark))

theorem splitHead_relays (text : List Char) (placed : List Placed) :
    Relays mark (fun _ ↦ True) id (splitHead text placed)
      (splitHead (Text.withBreaks mark text) (placedWithBreaks mark placed)) := by
  have htokens : (placedWithBreaks mark placed).map Prod.fst = placed.map Prod.fst := by
    rw [placedWithBreaks, List.map_map]
    rfl
  have hlast : (placedWithBreaks mark placed).getLast? =
      placed.getLast?.map (Prod.map id (Text.withBreaks mark)) := List.getLast?_map
  rw [splitHead, splitHead, htokens, hlast]
  split
  · exact .ok (a := _) trivial
  · cases placed.getLast? with
    | none => exact .error ⟨_, text⟩
    | some last =>
      obtain ⟨t, place⟩ := last
      cases t with
      | symbol c => exact .error ⟨_, place⟩
      | word name =>
        simp only [Option.map_some, Prod.map, id_eq]
        split
        · exact .ok (a := _) trivial
        · exact .ok (a := _) trivial

theorem returnTypeOf_relays (className : String) (text : List Char) (head : Head) :
    Relays mark (fun _ ↦ True) id (returnTypeOf className text head)
      (returnTypeOf className (Text.withBreaks mark text) head) := by
  unfold returnTypeOf
  split
  · split
    · exact .error ⟨_, text⟩
    · exact .ok (a := none) trivial
  · split
    · exact .error ⟨_, text⟩
    · exact .ok (a := some _) trivial

variable (hmark : ∀ c ∈ mark, Text.isBlank c = true)

include hmark

theorem accept_relays (t : Token) (h : IsLoose mark cs) :
    RelaysRead mark id (accept t cs) (accept t (Text.withBreaks mark cs)) := by
  rw [accept, accept, Token.next_withBreaks hmark h]
  cases hnext : Token.next cs with
  | finished => exact .ok (a := (false, cs)) h
  | unexpected c start => exact .error ⟨_, start⟩
  | found found start rest =>
    simp only [Token.Step.withBreaks]
    split
    · exact .ok (a := (true, rest)) (h.of_suffix (Token.rest_suffix_of_next hnext))
    · exact .ok (a := (false, cs)) h

theorem readHead_relays (depth : Nat) (h : IsLoose mark cs) :
    RelaysRead mark (placedWithBreaks mark) (readHead depth cs)
      (readHead depth (Text.withBreaks mark cs)) := by
  fun_induction readHead depth cs with
  | case1 depth cs hnext =>
    rw [readHead_eq depth (Text.withBreaks mark cs), Token.next_withBreaks hmark h, hnext]
    exact .error ⟨_, []⟩
  | case2 depth cs c start hnext =>
    rw [readHead_eq depth (Text.withBreaks mark cs), Token.next_withBreaks hmark h, hnext]
    exact .error ⟨_, start⟩
  | case3 depth cs t start rest hnext _ hopens =>
    obtain ⟨hnext', hrest⟩ := Token.found_withBreaks hmark h hnext
    rw [readHead_of_next hnext', if_pos hopens]
    exact .ok (a := ([], rest)) hrest
  | case4 depth cs t start rest hnext _ hother ih =>
    obtain ⟨hnext', hrest⟩ := Token.found_withBreaks hmark h hnext
    rw [readHead_of_next hnext', if_neg hother]
    exact (ih hrest).map (fun _ h ↦ h) fun _ ↦ rfl

/-! #### Default values -/

/-- A default value ends at the same place, whatever is written in place of its breaks. -/
theorem scanDefault_withBreaks {quote : Option Char}
    (hquote : ∀ q ∈ quote, Text.isBlank q = false) (depth : Nat) (cs : List Char) :
    scanDefault quote depth (Text.withBreaks mark cs) = (scanDefault quote depth cs).map
      (Prod.map (Text.withBreaks mark) (Prod.map id (Text.withBreaks mark))) := by
  induction cs generalizing quote depth with
  | nil => rfl
  | cons c cs ih =>
    by_cases hc : c = '\n'
    · -- A break is part of the value, and so are the blanks that stand for it.
      subst hc
      have hbreak : scanDefault quote depth (['\n'] ++ cs) =
          (scanDefault quote depth cs).map fun read ↦ (['\n'] ++ read.1, read.2) :=
        scanDefault_blanks hquote depth (List.forall_mem_singleton.2 (by decide)) cs
      rw [Text.withBreaks_break, scanDefault_blanks hquote depth hmark, ih hquote,
        ← List.singleton_append, hbreak, Option.map_map, Option.map_map]
      rfl
    · rw [Text.withBreaks_cons hc, scanDefault_cons, scanDefault_cons]
      split
      · rename_i hstep
        rw [ih (scanStep_quote hquote hstep), Option.map_map, Option.map_map]
        refine congrArg (Option.map · _) (funext fun read ↦ ?_)
        exact Prod.ext (Text.withBreaks_cons hc mark read.1).symm rfl
      · rfl

theorem readDefault_relays (h : IsLoose mark cs) :
    RelaysRead mark (Draft.withBreaks mark) (readDefault cs)
      (readDefault (Text.withBreaks mark cs)) := by
  rw [readDefault, readDefault, scanDefault_withBreaks hmark (by simp)]
  cases hscan : scanDefault none 0 cs with
  | none => exact .error ⟨_, []⟩
  | some read =>
    obtain ⟨value, last, rest⟩ := read
    simp only [Option.map_some, Prod.map, id_eq, Text.trimChars_withBreaks hmark,
      Text.isEmpty_withBreaks_trimChars]
    split
    · exact .error ⟨_, cs⟩
    · obtain ⟨-, c, -, -, rfl⟩ := isClosed_of_scanDefault hscan
      have hrest : rest <:+ value ++ c :: rest :=
        (List.suffix_cons c rest).trans (List.suffix_append _ _)
      have hok : RelaysRead mark (Draft.withBreaks mark)
          (.ok ({ default := some (String.ofList (Text.trimChars value)), last }, rest)) _ :=
        .ok (h.of_suffix hrest)
      simpa [Draft.withBreaks] using hok

/-! #### Parameters -/

theorem closeBracket_relays (h : IsLoose mark cs) :
    RelaysRead mark id (closeBracket cs) (closeBracket (Text.withBreaks mark cs)) := by
  rw [closeBracket, closeBracket, Token.next_withBreaks hmark h]
  cases hnext : Token.next cs with
  | finished => exact .error ⟨_, []⟩
  | unexpected c start => exact .error ⟨_, start⟩
  | found t start rest =>
    simp only [Token.Step.withBreaks]
    split
    · exact .ok (a := ((), rest)) (h.of_suffix (Token.rest_suffix_of_next hnext))
    · exact .error ⟨_, start⟩

theorem readParam_relays (depth : Nat) (h : IsLoose mark cs) :
    RelaysRead mark (Draft.withBreaks mark) (readParam depth cs)
      (readParam depth (Text.withBreaks mark cs)) := by
  -- Both texts give the same token, which decides what is read behind it.
  fun_induction readParam depth cs with
  | case1 depth cs hnext =>
    rw [readParam_eq depth (Text.withBreaks mark cs), Token.next_withBreaks hmark h, hnext]
    exact .error ⟨_, []⟩
  | case2 depth cs c start hnext =>
    rw [readParam_eq depth (Text.withBreaks mark cs), Token.next_withBreaks hmark h, hnext]
    exact .error ⟨_, start⟩
  | case3 depth cs t start rest hnext _ hcomma =>
    obtain ⟨hnext', hrest⟩ := Token.found_withBreaks hmark h hnext
    rw [readParam_of_next hnext', if_pos hcomma]
    exact .ok (a := (({ last := false } : Draft), rest)) hrest
  | case4 depth cs t start rest hnext _ hcomma hparen =>
    obtain ⟨hnext', hrest⟩ := Token.found_withBreaks hmark h hnext
    rw [readParam_of_next hnext', if_neg hcomma, if_pos hparen]
    exact .ok (a := (({ last := true } : Draft), rest)) hrest
  | case5 depth cs t start rest hnext _ hcomma hparen hdefault =>
    obtain ⟨hnext', hrest⟩ := Token.found_withBreaks hmark h hnext
    rw [readParam_of_next hnext', if_neg hcomma, if_neg hparen, if_pos hdefault]
    exact readDefault_relays hmark hrest
  | case6 depth cs t start rest hnext _ hcomma hparen hdefault hopens e hclose =>
    obtain ⟨hnext', hrest⟩ := Token.found_withBreaks hmark h hnext
    rw [readParam_of_next hnext', if_neg hcomma, if_neg hparen, if_neg hdefault, if_pos hopens]
    have hrelays := closeBracket_relays hmark hrest
    rw [hclose] at hrelays
    rw [hrelays.of_error]
    exact .error e
  | case7 depth cs t start rest hnext _ hcomma hparen hdefault hopens u rest' hclose _ ih =>
    obtain ⟨hnext', hrest⟩ := Token.found_withBreaks hmark h hnext
    rw [readParam_of_next hnext', if_neg hcomma, if_neg hparen, if_neg hdefault, if_pos hopens]
    have hrelays := closeBracket_relays hmark hrest
    rw [hclose] at hrelays
    obtain ⟨hrest', hclose'⟩ := hrelays.of_ok
    rw [hclose']
    exact (ih hrest').map (fun _ h ↦ h) fun _ ↦ rfl
  | case8 depth cs t start rest hnext _ hcomma hparen hdefault hopens ih =>
    obtain ⟨hnext', hrest⟩ := Token.found_withBreaks hmark h hnext
    rw [readParam_of_next hnext', if_neg hcomma, if_neg hparen, if_neg hdefault, if_neg hopens]
    exact (ih hrest).map (fun _ h ↦ h) fun _ ↦ rfl

theorem readParamList_relays (kept : Bool) (h : IsLoose mark cs) :
    RelaysRead mark (List.map (Param.withBreaks mark)) (readParamList kept cs)
      (readParamList kept (Text.withBreaks mark cs)) := by
  have hhere (kept : Bool) (draft : Draft) :
      (if (draft.withBreaks mark).isLoneVoid && !kept then [] else
          [(draft.withBreaks mark).toParam]) =
        (if draft.isLoneVoid && !kept then [] else [draft.toParam]).map
          (Param.withBreaks mark) := by
    split <;> rename_i hlone
    · rw [if_pos (show (draft.isLoneVoid && !kept) = true from hlone), List.map_nil]
    · rw [if_neg (show ¬(draft.isLoneVoid && !kept) = true from hlone)]
      rfl
  fun_induction readParamList kept cs with
  | case1 kept cs e hread =>
    have hrelays := readParam_relays hmark 0 h
    rw [hread] at hrelays
    rw [readParamList_eq kept (Text.withBreaks mark cs), hrelays.of_error]
    exact .error e
  | case2 kept cs draft rest hread _ hempty =>
    have hrelays := readParam_relays hmark 0 h
    rw [hread] at hrelays
    obtain ⟨-, hread'⟩ := hrelays.of_ok
    have hempty' : (draft.withBreaks mark).tokens.isEmpty = true := hempty
    have hplace : (if draft.last then ')' else ',') ≠ '\n' := by split <;> decide
    rw [readParamList_of_read hread', if_pos hempty']
    have herror : RelaysRead mark (List.map (Param.withBreaks mark)) _ _ :=
      .error ⟨.emptyParameter, (if draft.last then ')' else ',') :: rest⟩
    rwa [Failure.withBreaks, Text.withBreaks_cons hplace] at herror
  | case3 kept cs draft rest hread _ hempty here hlast =>
    have hrelays := readParam_relays hmark 0 h
    rw [hread] at hrelays
    obtain ⟨hrest, hread'⟩ := hrelays.of_ok
    have hempty' : ¬(draft.withBreaks mark).tokens.isEmpty = true := hempty
    have hlast' : (draft.withBreaks mark).last = true := hlast
    rw [readParamList_of_read hread', if_neg hempty', hhere]
    dsimp only
    rw [if_pos hlast']
    exact .ok (a := (here, rest)) hrest
  | case4 kept cs draft rest hread _ hempty here hlast ih =>
    have hrelays := readParam_relays hmark 0 h
    rw [hread] at hrelays
    obtain ⟨hrest, hread'⟩ := hrelays.of_ok
    have hempty' : ¬(draft.withBreaks mark).tokens.isEmpty = true := hempty
    have hlast' : ¬(draft.withBreaks mark).last = true := hlast
    rw [readParamList_of_read hread', if_neg hempty', hhere]
    dsimp only
    rw [if_neg hlast', List.isEmpty_map]
    exact (ih hrest).map (fun _ h ↦ h) fun read ↦ Prod.ext List.map_append.symm rfl

theorem readParams_relays (h : IsLoose mark cs) :
    RelaysRead mark (List.map (Param.withBreaks mark)) (readParams cs)
      (readParams (Text.withBreaks mark cs)) := by
  refine (accept_relays hmark _ h).bind fun read hrest ↦ ?_
  obtain ⟨closed, rest⟩ := read
  cases closed with
  | true => exact .ok (a := ([], rest)) hrest
  | false => exact readParamList_relays hmark false h

/-! #### The other parts of a prototype -/

theorem readProtection_relays (h : IsLoose mark cs) :
    RelaysRead mark id (readProtection cs) (readProtection (Text.withBreaks mark cs)) := by
  refine (accept_relays hmark _ h).bind fun read hrest ↦ ?_
  obtain ⟨isPublic, rest⟩ := read
  cases isPublic with
  | true =>
    refine (accept_relays hmark _ hrest).bind fun read hrest ↦ ?_
    exact .ok (a := (some Protection.publicAccess, read.2)) hrest
  | false =>
    refine (accept_relays hmark _ h).bind fun read hrest ↦ ?_
    obtain ⟨isProtected, rest⟩ := read
    cases isProtected with
    | true =>
      refine (accept_relays hmark _ hrest).bind fun read hrest ↦ ?_
      exact .ok (a := (some Protection.protectedAccess, read.2)) hrest
    | false => exact .ok (a := ((none : Option Protection), cs)) h

theorem readPure_relays (h : IsLoose mark cs) :
    RelaysRead mark id (readPure cs) (readPure (Text.withBreaks mark cs)) := by
  refine (accept_relays hmark _ h).bind fun read hrest ↦ ?_
  obtain ⟨equals, rest⟩ := read
  cases equals with
  | false => exact .ok (a := (false, cs)) h
  | true =>
    simp only [Prod.map, id_eq, Bool.not_true, Bool.false_eq_true, if_false]
    rw [Token.next_withBreaks hmark hrest]
    cases hnext : Token.next rest with
    | finished => exact .error ⟨_, []⟩
    | unexpected c start => exact .error ⟨_, start⟩
    | found t start rest' =>
      simp only [Token.Step.withBreaks]
      split
      · exact .ok (a := (true, rest')) (IsLoose.of_suffix hrest (Token.rest_suffix_of_next hnext))
      · exact .error ⟨_, start⟩

theorem readEnd_relays (h : IsLoose mark cs) :
    Relays mark (fun _ ↦ True) id (readEnd cs) (readEnd (Text.withBreaks mark cs)) := by
  refine (accept_relays hmark _ h).bind fun read hrest ↦ ?_
  obtain ⟨_, rest⟩ := read
  dsimp only [Prod.map]
  rw [Token.next_withBreaks hmark hrest]
  cases hnext : Token.next rest with
  | finished => exact .ok (a := ()) trivial
  | unexpected c start => exact .error ⟨_, start⟩
  | found t start rest' => exact .error ⟨_, start⟩

/-- A prototype is read from the text with its breaks replaced when one is read from the text, and
it is the same but for the breaks in its default values. A failure is the same, and at the same
place. -/
theorem relays_parseChars (h : IsLoose mark cs) (className : String) :
    Relays mark (fun _ ↦ True) (Prototype.withBreaks mark) (parseChars className cs)
      (parseChars className (Text.withBreaks mark cs)) := by
  refine (readProtection_relays hmark h).bind fun ⟨protection, rest⟩ hrest ↦ ?_
  refine (accept_relays hmark _ hrest).bind fun ⟨isVirtual, rest⟩ hrest ↦ ?_
  have hstatic : RelaysRead mark id
      (if isVirtual then pure (false, rest) else acceptWord "static" rest)
      (if isVirtual then pure (false, Text.withBreaks mark rest)
        else acceptWord "static" (Text.withBreaks mark rest)) := by
    cases isVirtual with
    | true => exact .ok (a := (false, rest)) hrest
    | false => exact accept_relays hmark _ hrest
  refine hstatic.bind_ite fun ⟨isStatic, rest⟩ hrest ↦ ?_
  refine (readHead_relays hmark 0 hrest).bind fun ⟨placed, rest⟩ hrest ↦ ?_
  refine (splitHead_relays cs placed).bind fun head _ ↦ ?_
  refine (readParams_relays hmark hrest).bind fun ⟨params, rest⟩ hrest ↦ ?_
  refine (accept_relays hmark _ hrest).bind fun ⟨isConst, rest⟩ hrest ↦ ?_
  refine (accept_relays hmark _ hrest).bind fun ⟨isOverride, rest⟩ hrest ↦ ?_
  refine (readPure_relays hmark hrest).bind fun ⟨isPureVirtual, rest⟩ hrest ↦ ?_
  refine (readEnd_relays hmark hrest).bind fun _ _ ↦ ?_
  exact (returnTypeOf_relays className cs head).bind fun returnType _ ↦ .ok (a := _) trivial

end Readers

end Prototype

end Bindery
