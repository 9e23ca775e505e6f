import Bindery.Proofs.Decl.Endings
import Bindery.Proofs.Decl.LineBreaks

/-!
Where the faults of prototypes are reported. A reader that fails knows the place of the fault as an
end of the text that is read, and what the fault names stands at this place
(`Prototype.blames_parseChars`). The place is reported as a number of bytes of this text, but
together with the text without the white space around it. So what a fault names stands in the
reported text as many bytes before the reported offset as there is white space in front of the text
(`Prototype.parse_error_place`). Behind this white space the offset is too large
(`gate_fault_behind_indent`).
-/

set_option autoImplicit false
set_option relaxedAutoImplicit false

namespace Bindery

/-! ### Bytes of a text, and the white space around it -/

namespace Text

/-- The number of bytes that characters are written with. -/
def byteSize (cs : List Char) : Nat := (String.ofList cs).utf8ByteSize

/-- The number of bytes in front of the first character that is no blank. -/
def indent (text : String) : Nat := byteSize (text.toList.takeWhile isBlank)

section

variable {c : Char} {cs ds front place : List Char}

theorem byteSize_toList (text : String) : byteSize text.toList = text.utf8ByteSize := by
  rw [byteSize, String.ofList_toList]

theorem byteSize_append (cs ds : List Char) :
    byteSize (cs ++ ds) = byteSize cs + byteSize ds := by
  rw [byteSize, String.ofList_append, String.utf8ByteSize_append, ← byteSize, ← byteSize]

theorem byteSize_singleton (c : Char) : byteSize [c] = c.utf8Size := by
  rw [byteSize, ← String.singleton_eq_ofList, String.utf8ByteSize_singleton]

theorem byteSize_cons (c : Char) (cs : List Char) :
    byteSize (c :: cs) = c.utf8Size + byteSize cs := by
  rw [← List.singleton_append, byteSize_append, byteSize_singleton]

theorem byteSize_eq_zero_iff : byteSize cs = 0 ↔ cs = [] := by
  cases cs with
  | nil => exact iff_of_true rfl rfl
  | cons c cs =>
    have hpos := c.utf8Size_pos
    simp only [byteSize_cons, reduceCtorEq, iff_false]
    omega

/-- A space is as long as a line break. -/
theorem byteSize_breaksToSpaces (cs : List Char) :
    byteSize (Prototype.breaksToSpaces cs) = byteSize cs := by
  induction cs with
  | nil => rfl
  | cons c cs ih =>
    rw [Prototype.breaksToSpaces, List.map_cons, ← Prototype.breaksToSpaces, byteSize_cons,
      byteSize_cons, ih]
    split
    · rename_i hc
      rw [beq_iff_eq.1 hc]
      rfl
    · rfl

/-- A part of a text is all of it when it has as many bytes. -/
theorem eq_of_byteSize_le (h : cs <:+: ds) (hsize : byteSize ds ≤ byteSize cs) : cs = ds := by
  obtain ⟨front, back, rfl⟩ := h
  rw [byteSize_append, byteSize_append] at hsize
  have hfront : front = [] := byteSize_eq_zero_iff.1 (by omega)
  have hback : back = [] := byteSize_eq_zero_iff.1 (by omega)
  rw [hfront, hback, List.nil_append, List.append_nil]

theorem trimChars_infix (cs : List Char) : trimChars cs <:+: cs := by
  have hend : trimChars cs <+: trimStartChars cs := trimEndChars_prefix _
  exact hend.isInfix.trans (List.dropWhile_suffix _).isInfix

/-- A text is trimmed on both sides of a character that is no blank. -/
theorem exists_trimChars_of_append_cons (h : cs = front ++ c :: place) (hc : isBlank c = false) :
    ∃ front' place' trail, front = cs.takeWhile isBlank ++ front' ∧
      trimChars cs = front' ++ c :: place' ∧ place = place' ++ trail ∧
      ∀ b ∈ trail, isBlank b = true := by
  have hnot : ¬isBlank c = true := by simp [hc]
  have htake (cs ds : List Char) : (cs ++ c :: ds).takeWhile isBlank = cs.takeWhile isBlank := by
    induction cs with
    | nil => exact List.takeWhile_cons_of_neg hnot
    | cons b cs ih => rw [List.cons_append, List.takeWhile_cons, List.takeWhile_cons, ih]
  have hdrop (cs ds : List Char) :
      (cs ++ c :: ds).dropWhile isBlank = cs.dropWhile isBlank ++ c :: ds := by
    induction cs with
    | nil => exact List.dropWhile_cons_of_neg hnot
    | cons b cs ih =>
      rw [List.cons_append, List.dropWhile_cons, List.dropWhile_cons, ih]
      split <;> rfl
  refine ⟨front.dropWhile isBlank, (place.reverse.dropWhile isBlank).reverse,
    (place.reverse.takeWhile isBlank).reverse, ?_, ?_, ?_, ?_⟩
  · rw [h, htake, List.takeWhile_append_dropWhile]
  · rw [h, trimChars, trimStartChars, hdrop, trimEndChars, List.reverse_append, List.reverse_cons,
      List.append_assoc, List.singleton_append, hdrop]
    simp
  · rw [← List.reverse_append, List.takeWhile_append_dropWhile, List.reverse_reverse]
  · intro b hb
    exact List.mem_takeWhile_imp (List.mem_reverse.1 hb)

end

end Text

/-! ### What stands at a place -/

namespace Token

/-- What is found at a place: a token, or a character that begins none. -/
inductive Found
  | token (t : Token)
  | character (c : Char)
  deriving Repr, DecidableEq

namespace Found

def text : Found → List Char
  | .token t => t.text
  | .character c => [c]

def quotedText : Found → String
  | .token t => t.quotedText
  | .character c => "'" ++ c.toString ++ "'"

end Found

def Step.found? : Step → Option Found
  | .finished => none
  | .unexpected c _ => some (.character c)
  | .found t _ _ => some (.token t)

/-- Whether something is found at the beginning of a text, with no blank in front of it. -/
structure Found.StartsAt (found : Found) (cs : List Char) : Prop where
  next : (Token.next cs).found? = some found
  head : ∀ c ∈ cs.head?, Text.isBlank c = false

/-- Whether something is found in a text behind a number of bytes. -/
def Found.StandsIn (found : Found) (text : String) (offset : Nat) : Prop :=
  ∃ front place, text.toList = front ++ place ∧ Text.byteSize front = offset ∧
    found.StartsAt place

section

variable {c : Char} {cs start rest more : List Char} {t : Token} {found : Found}

theorem next_cons (hc : Text.isBlank c = false) (cs : List Char) : next (c :: cs) =
    if isNameChar c then .found (.word (c :: (spanName cs).1)) (c :: cs) (spanName cs).2
    else if isSymbolChar c then .found (.symbol c) (c :: cs) cs
    else .unexpected c (c :: cs) := by
  have htrim : Text.trimStartChars (c :: cs) = c :: cs :=
    List.dropWhile_cons_of_neg (by simp [hc])
  rw [next, htrim]

theorem Found.StartsAt.exists_cons (h : found.StartsAt cs) :
    ∃ c rest, cs = c :: rest ∧ Text.isBlank c = false := by
  cases cs with
  | nil => cases h.next
  | cons c rest => exact ⟨c, rest, rfl, h.head c rfl⟩

/-- What is found at a place is written there. -/
theorem Found.StartsAt.text_isPrefix (h : found.StartsAt cs) : found.text <+: cs := by
  obtain ⟨c, rest, rfl, hc⟩ := h.exists_cons
  have hnext := h.next
  rw [next_cons hc] at hnext
  split at hnext
  · obtain rfl := Option.some.inj hnext
    exact ⟨(spanName rest).2, congrArg (c :: ·) (spanName_append rest)⟩
  · split at hnext <;> obtain rfl := Option.some.inj hnext <;> exact ⟨rest, rfl⟩

theorem stops_of_blanks (hmore : ∀ b ∈ more, Text.isBlank b = true) : Stops more := by
  intro b hb
  have hblank := hmore b (List.mem_of_head? hb)
  constructor
  · by_contra hname
    rw [isBlank_eq_false_of_isNameChar (by simpa using hname)] at hblank
    cases hblank
  · rintro rfl
    exact absurd hblank (by decide)

/-- Nothing else is found when a text goes on with what does not make a name longer. -/
theorem Found.startsAt_append_iff (hc : Text.isBlank c = false) (hmore : Stops more) :
    found.StartsAt (c :: (cs ++ more)) ↔ found.StartsAt (c :: cs) := by
  have hhead (ds : List Char) : ∀ d ∈ (c :: ds).head?, Text.isBlank d = false := by
    rintro d ⟨⟩
    exact hc
  have hnext : (Token.next (c :: (cs ++ more))).found? = (Token.next (c :: cs)).found? := by
    rw [next_cons hc, next_cons hc, spanName_append_rest cs hmore]
    split
    · rfl
    · split <;> rfl
  exact ⟨fun h ↦ ⟨hnext.symm.trans h.next, hhead _⟩, fun h ↦ ⟨hnext.trans h.next, hhead _⟩⟩

/-- Nothing else is found when line breaks count as spaces. -/
theorem Found.startsAt_of_breaksToSpaces (h : found.StartsAt (Prototype.breaksToSpaces cs)) :
    found.StartsAt cs := by
  have hloose : IsLoose [' '] cs :=
    isLoose_of_stops fun _ _ ↦ stops_cons (by decide) (by decide) _
  have hblank : ∀ c ∈ [' '], Text.isBlank c = true := List.forall_mem_singleton.2 (by decide)
  obtain ⟨hnext, hhead⟩ := h
  rw [← Text.withBreaks_space, next_withBreaks hblank hloose] at hnext
  refine ⟨?_, fun c hc ↦ ?_⟩
  · rw [← hnext]
    cases Token.next cs <;> rfl
  · cases cs with
    | nil => cases hc
    | cons d cs =>
      cases hc
      exact (Prototype.isBlank_breakToSpace c).symm.trans (hhead _ rfl)

/-- What is read stands behind the blanks in front of it. -/
theorem startsAt_of_next (hfound : (next cs).found? = some found)
    (hstart : (next cs).start? = some start) : found.StartsAt start ∧ start <:+ cs := by
  obtain rfl := trimStartChars_of_next hstart
  have hsplit : cs.takeWhile Text.isBlank ++ Text.trimStartChars cs = cs :=
    List.takeWhile_append_dropWhile
  have hblanks : ∀ b ∈ cs.takeWhile Text.isBlank, Text.isBlank b = true := fun _ ↦
    List.mem_takeWhile_imp
  refine ⟨⟨?_, fun c hc ↦ ?_⟩, List.dropWhile_suffix _⟩
  · rwa [← next_blanks hblanks, hsplit]
  · have hhead := List.head?_dropWhile_not Text.isBlank cs
    rw [← Text.trimStartChars, Option.mem_def.1 hc] at hhead
    simpa using hhead

end

end Token

namespace Prototype

open Token (Found)

/-! ### What faults name -/

namespace Fault

/-- What was found in place of something else. -/
def found? : Fault → Option Found
  | .unexpectedCharacter c => some (.character c)
  | .expectedSymbol _ found => found.map .token
  | .expectedZero found => found.map .token
  | .expectedName found => some (.token found)
  | .leftover found => some (.token found)
  | _ => none

/-- Whether the end of the text is at fault. -/
def isAtEnd : Fault → Bool
  | .expectedSymbol _ found => found.isNone
  | .expectedZero found => found.isNone
  | .missingParameterList | .unterminatedTemplate | .unterminatedParameters
  | .unterminatedDefault => true
  | _ => false

theorem isAtEnd_of_found? {fault : Fault} {found : Found} (h : fault.found? = some found) :
    fault.isAtEnd = false := by
  cases fault with
  | expectedSymbol symbol t =>
    obtain ⟨t, rfl, -⟩ := Option.map_eq_some_iff.1 h
    rfl
  | expectedZero t =>
    obtain ⟨t, rfl, -⟩ := Option.map_eq_some_iff.1 h
    rfl
  | unexpectedCharacter | expectedName | leftover => rfl
  | _ => cases h

/-- What was found is quoted. -/
theorem exists_message_eq {fault : Fault} {found : Found} (h : fault.found? = some found) :
    ∃ front back, fault.message = front ++ found.quotedText ++ back := by
  cases fault with
  | unexpectedCharacter c =>
    cases h
    have hquote : "unexpected character '" = "unexpected character " ++ "'" := by
      decide +kernel
    refine ⟨"unexpected character ", "", ?_⟩
    rw [Token.Found.quotedText, String.append_empty, ← String.append_assoc, ← String.append_assoc,
      ← hquote]
    rfl
  | expectedSymbol symbol t =>
    obtain ⟨t, rfl, rfl⟩ := Option.map_eq_some_iff.1 h
    exact ⟨"expected '" ++ symbol.toString ++ "' but found ", "", String.append_empty.symm⟩
  | expectedZero t =>
    obtain ⟨t, rfl, rfl⟩ := Option.map_eq_some_iff.1 h
    exact ⟨_, "", String.append_empty.symm⟩
  | expectedName t =>
    cases h
    exact ⟨_, "", String.append_empty.symm⟩
  | leftover t =>
    cases h
    exact ⟨_, _, rfl⟩
  | _ => cases h

end Fault

/-- Whether a failure is at its place in a text. The place is an end of the text. It begins with
what the fault names, and it is empty when the end of the text is at fault. Otherwise it is not
among the blanks behind the text, unless it is the whole text. -/
structure Failure.IsIn (text : List Char) (e : Failure) : Prop where
  place : e.place <:+ text
  found : ∀ found ∈ e.fault.found?, found.StartsAt e.place
  ended : e.fault.isAtEnd = true → e.place = []
  inside : e.fault.isAtEnd = false → e.place = text ∨ ∃ c ∈ e.place, Text.isBlank c = false

/-- What comes of reading a text, when each failure is at its place in the text. -/
inductive Blames {α : Type} (text : List Char) (P : α → Prop) : Except Failure α → Prop
  | ok {a : α} (h : P a) : Blames text P (.ok a)
  | error {e : Failure} (h : e.IsIn text) : Blames text P (.error e)

/-- The same for readers, which leave an end of the text. -/
abbrev BlamesRead {α : Type} (text : List Char) : Except Failure (α × List Char) → Prop :=
  Blames text fun read ↦ read.2 <:+ text

section Blames

variable {α β : Type} {text : List Char} {P : α → Prop} {Q : β → Prop} {x : Except Failure α}

theorem Blames.of_ok {a : α} (h : Blames text P (.ok a)) : P a := by
  cases h with
  | ok ha => exact ha

theorem Blames.of_error {e : Failure} (h : Blames text P (.error e)) : e.IsIn text := by
  cases h with
  | error he => exact he

theorem Blames.bind {k : α → Except Failure β} (h : Blames text P x)
    (hk : ∀ a, P a → Blames text Q (k a)) : Blames text Q (x >>= k) := by
  cases h with
  | ok ha => exact hk _ ha
  | error he => exact .error he

/-- A reader that is only used when a condition does not hold is followed by one continuation. -/
theorem Blames.bind_ite {c : Prop} [Decidable c] {x' : Except Failure α} {k : α → Except Failure β}
    (h : Blames text P (if c then x else x')) (hk : ∀ a, P a → Blames text Q (k a)) :
    Blames text Q (if c then x >>= k else x' >>= k) := by
  split at h
  · rw [if_pos ‹c›]
    exact h.bind hk
  · rw [if_neg ‹¬c›]
    exact h.bind hk

theorem Blames.map {f : α → β} (h : Blames text P x) (hf : ∀ a, P a → Q (f a)) :
    Blames text Q (x.map f) := by
  cases h with
  | ok ha => exact .ok (hf _ ha)
  | error he => exact .error he

end Blames

/-! ### The place of a failure -/

section Readers

variable {text cs start rest : List Char} {fault : Fault} {t : Token} {c : Char}

theorem isIn_of_end (hend : fault.isAtEnd = true) : Failure.IsIn text ⟨fault, []⟩ where
  place := List.nil_suffix
  found found h := by
    rw [Fault.isAtEnd_of_found? h] at hend
    cases hend
  ended _ := rfl
  inside h := by
    rw [hend] at h
    cases h

/-- A fault that names what is read is at its place. -/
theorem isIn_of_next {found : Found} (hcs : cs <:+ text)
    (hfound : (Token.next cs).found? = some found) (hstart : (Token.next cs).start? = some start)
    (hfault : fault.found? = some found) : Failure.IsIn text ⟨fault, start⟩ := by
  obtain ⟨hstarts, hsuffix⟩ := Token.startsAt_of_next hfound hstart
  refine ⟨hsuffix.trans hcs, fun other hother ↦ ?_, fun hend ↦ ?_, fun _ ↦ .inr ?_⟩
  · obtain rfl := Option.some.inj (hfault.symm.trans hother)
    exact hstarts
  · rw [Fault.isAtEnd_of_found? hfault] at hend
    cases hend
  · obtain ⟨c, rest, rfl, hc⟩ := hstarts.exists_cons
    exact ⟨c, List.mem_cons_self, hc⟩

theorem isIn_of_unexpected (hcs : cs <:+ text) (h : Token.next cs = .unexpected c start) :
    Failure.IsIn text ⟨.unexpectedCharacter c, start⟩ :=
  isIn_of_next hcs (congrArg Token.Step.found? h) (congrArg Token.Step.start? h) rfl

theorem isIn_of_found (hcs : cs <:+ text) (h : Token.next cs = .found t start rest)
    (hfault : fault.found? = some (.token t)) : Failure.IsIn text ⟨fault, start⟩ :=
  isIn_of_next hcs (congrArg Token.Step.found? h) (congrArg Token.Step.start? h) hfault

/-- A fault that names nothing can be at a place with something to read. -/
theorem isIn_of_mem (hcs : cs <:+ text) (hfound : fault.found? = none)
    (hend : fault.isAtEnd = false) (hinside : cs = text ∨ ∃ c ∈ cs, Text.isBlank c = false) :
    Failure.IsIn text ⟨fault, cs⟩ where
  place := hcs
  found found h := by
    rw [hfound] at h
    cases h
  ended h := by
    rw [hend] at h
    cases h
  inside _ := hinside

theorem suffix_of_found (hcs : cs <:+ text) (h : Token.next cs = .found t start rest) :
    rest <:+ text := (Token.rest_suffix_of_next h).trans hcs

theorem blames_accept (t : Token) (hcs : cs <:+ text) : BlamesRead text (accept t cs) := by
  rw [accept]
  cases hnext : Token.next cs with
  | finished => exact .ok hcs
  | unexpected c start => exact .error (isIn_of_unexpected hcs hnext)
  | found found start rest =>
    dsimp only
    split
    · exact .ok (suffix_of_found hcs hnext)
    · exact .ok hcs

/-- Where the tokens of a head stand in a text. -/
def ArePlaced (text : List Char) (placed : List Placed) : Prop :=
  ∀ t start, (t, start) ∈ placed → ∃ cs rest, cs <:+ text ∧ Token.next cs = .found t start rest

theorem blames_readHead (depth : Nat) (hcs : cs <:+ text) :
    Blames text (fun read ↦ ArePlaced text read.1 ∧ read.2 <:+ text) (readHead depth cs) := by
  fun_induction readHead depth cs with
  | case1 depth cs hnext => exact .error (isIn_of_end (by split <;> rfl))
  | case2 depth cs c start hnext => exact .error (isIn_of_unexpected hcs hnext)
  | case3 depth cs t start rest hnext _ _ =>
    exact .ok ⟨fun _ _ h ↦ (List.not_mem_nil h).elim, suffix_of_found hcs hnext⟩
  | case4 depth cs t start rest hnext _ _ ih =>
    refine (ih (suffix_of_found hcs hnext)).map fun read hread ↦ ⟨fun u place h ↦ ?_, hread.2⟩
    rcases List.mem_cons.1 h with heq | h
    · cases heq
      exact ⟨cs, rest, hcs, hnext⟩
    · exact hread.1 u place h

theorem blames_splitHead {placed : List Placed} (hplaced : ArePlaced text placed) :
    Blames text (fun _ ↦ True) (splitHead text placed) := by
  rw [splitHead]
  split
  · exact .ok trivial
  · split
    · exact .error (isIn_of_mem List.suffix_rfl rfl rfl (.inl rfl))
    · rename_i symbol place hlast
      obtain ⟨cs, rest, hcs, hnext⟩ := hplaced _ _ (List.mem_of_getLast? hlast)
      exact .error (isIn_of_found hcs hnext rfl)
    · split <;> exact .ok trivial

theorem blames_readDefault (hcs : cs <:+ text) : BlamesRead text (readDefault cs) := by
  rw [readDefault]
  cases hscan : scanDefault none 0 cs with
  | none => exact .error (isIn_of_end rfl)
  | some read =>
    obtain ⟨value, last, rest⟩ := read
    obtain ⟨-, c, hc, -, rfl⟩ := isClosed_of_scanDefault hscan
    dsimp only
    split
    · exact .error (isIn_of_mem hcs rfl rfl (.inr ⟨c, by simp, isBlank_of_isSeparator hc⟩))
    · have hrest : rest <:+ value ++ c :: rest :=
        (List.suffix_cons c rest).trans (List.suffix_append _ _)
      exact .ok (hrest.trans hcs)

theorem blames_closeBracket (hcs : cs <:+ text) : BlamesRead text (closeBracket cs) := by
  rw [closeBracket]
  cases hnext : Token.next cs with
  | finished => exact .error (isIn_of_end rfl)
  | unexpected c start => exact .error (isIn_of_unexpected hcs hnext)
  | found t start rest =>
    dsimp only
    split
    · exact .ok (suffix_of_found hcs hnext)
    · exact .error (isIn_of_found hcs hnext rfl)

theorem blames_readParam (depth : Nat) (hcs : cs <:+ text) :
    BlamesRead text (readParam depth cs) := by
  fun_induction readParam depth cs with
  | case1 depth cs hnext => exact .error (isIn_of_end (by split <;> rfl))
  | case2 depth cs c start hnext => exact .error (isIn_of_unexpected hcs hnext)
  | case3 depth cs t start rest hnext _ _ => exact .ok (suffix_of_found hcs hnext)
  | case4 depth cs t start rest hnext _ _ _ => exact .ok (suffix_of_found hcs hnext)
  | case5 depth cs t start rest hnext _ _ _ _ =>
    exact blames_readDefault (suffix_of_found hcs hnext)
  | case6 depth cs t start rest hnext _ _ _ _ _ e hclose =>
    have hblames := blames_closeBracket (suffix_of_found hcs hnext)
    rw [hclose] at hblames
    exact .error hblames.of_error
  | case7 depth cs t start rest hnext _ _ _ _ _ u rest' hclose _ ih =>
    have hblames := blames_closeBracket (suffix_of_found hcs hnext)
    rw [hclose] at hblames
    exact (ih hblames.of_ok).map fun _ h ↦ h
  | case8 depth cs t start rest hnext _ _ _ _ _ ih =>
    exact (ih (suffix_of_found hcs hnext)).map fun _ h ↦ h

/-- The separator that ends a parameter stands in front of what is left. -/
theorem separator_suffix_of_readParam {draft : Draft}
    (h : readParam 0 cs = .ok (draft, rest)) :
    (if draft.last then ')' else ',') :: rest <:+ cs := by
  obtain ⟨p, c, -, hc, hspells, rfl⟩ := readParam_eq_ok_iff.1 h
  obtain ⟨mid, hmid, hseparator⟩ := spells_append_iff.1 hspells
  obtain ⟨start, rest', hnext, hrest⟩ := spells_token_iff.1 hseparator
  obtain rfl := spells_nil_iff.1 hrest
  obtain ⟨rfl, hstart⟩ := Token.start_of_next hnext
  have hlast : (if (p.draft (c == ')')).last then ')' else ',') = c := by
    rcases hc with rfl | rfl <;> rfl
  rw [hlast]
  exact hstart.trans (suffix_of_spells hmid)

theorem blames_readParamList (kept : Bool) (hcs : cs <:+ text) :
    BlamesRead text (readParamList kept cs) := by
  fun_induction readParamList kept cs with
  | case1 kept cs e hread =>
    have hblames := blames_readParam 0 hcs
    rw [hread] at hblames
    exact .error hblames.of_error
  | case2 kept cs draft rest hread _ _ =>
    have hplace := (separator_suffix_of_readParam hread).trans hcs
    refine .error (isIn_of_mem hplace rfl rfl (.inr ⟨_, List.mem_cons_self, ?_⟩))
    split <;> decide
  | case3 kept cs draft rest hread _ _ here _ =>
    have hblames := blames_readParam 0 hcs
    rw [hread] at hblames
    exact .ok hblames.of_ok
  | case4 kept cs draft rest hread _ _ here _ ih =>
    have hblames := blames_readParam 0 hcs
    rw [hread] at hblames
    exact (ih hblames.of_ok).map fun _ h ↦ h

theorem blames_readParams (hcs : cs <:+ text) : BlamesRead text (readParams cs) := by
  refine (blames_accept _ hcs).bind fun read hrest ↦ ?_
  obtain ⟨closed, rest⟩ := read
  cases closed with
  | true => exact .ok hrest
  | false => exact blames_readParamList false hcs

theorem blames_readProtection (hcs : cs <:+ text) : BlamesRead text (readProtection cs) := by
  refine (blames_accept _ hcs).bind fun read hrest ↦ ?_
  obtain ⟨isPublic, rest⟩ := read
  cases isPublic with
  | true => exact (blames_accept _ hrest).bind fun _ hrest ↦ .ok hrest
  | false =>
    refine (blames_accept _ hcs).bind fun read hrest ↦ ?_
    obtain ⟨isProtected, rest⟩ := read
    cases isProtected with
    | true => exact (blames_accept _ hrest).bind fun _ hrest ↦ .ok hrest
    | false => exact .ok hcs

theorem blames_readPure (hcs : cs <:+ text) : BlamesRead text (readPure cs) := by
  refine (blames_accept _ hcs).bind fun read hrest ↦ ?_
  obtain ⟨equals, rest⟩ := read
  cases equals with
  | false => exact .ok hcs
  | true =>
    simp only [Bool.not_true, Bool.false_eq_true, if_false]
    cases hnext : Token.next rest with
    | finished => exact .error (isIn_of_end rfl)
    | unexpected c start => exact .error (isIn_of_unexpected hrest hnext)
    | found t start rest' =>
      dsimp only
      split
      · exact .ok (suffix_of_found hrest hnext)
      · exact .error (isIn_of_found hrest hnext rfl)

theorem blames_readEnd (hcs : cs <:+ text) : Blames text (fun _ ↦ True) (readEnd cs) := by
  refine (blames_accept _ hcs).bind fun read hrest ↦ ?_
  obtain ⟨_, rest⟩ := read
  dsimp only
  cases hnext : Token.next rest with
  | finished => exact .ok trivial
  | unexpected c start => exact .error (isIn_of_unexpected hrest hnext)
  | found t start rest' => exact .error (isIn_of_found hrest hnext rfl)

theorem blames_returnTypeOf (className : String) (head : Head) :
    Blames text (fun _ ↦ True) (returnTypeOf className text head) := by
  have htext {fault : Fault} (hfound : fault.found? = none) (hend : fault.isAtEnd = false) :
      Failure.IsIn text ⟨fault, text⟩ := isIn_of_mem List.suffix_rfl hfound hend (.inl rfl)
  unfold returnTypeOf
  split
  · split
    · exact .error (htext rfl rfl)
    · exact .ok trivial
  · split
    · exact .error (htext rfl rfl)
    · exact .ok trivial

/-- What is read as a prototype fails only at a place of the text. -/
theorem blames_parseChars (className : String) (text : List Char) :
    Blames text (fun _ ↦ True) (parseChars className text) := by
  refine (blames_readProtection List.suffix_rfl).bind fun ⟨protection, rest⟩ hrest ↦ ?_
  refine (blames_accept _ hrest).bind fun ⟨isVirtual, rest⟩ hrest ↦ ?_
  have hstatic : BlamesRead text
      (if isVirtual then pure (false, rest) else acceptWord "static" rest) := by
    split
    · exact .ok hrest
    · exact blames_accept _ hrest
  refine hstatic.bind_ite fun ⟨isStatic, rest⟩ hrest ↦ ?_
  refine (blames_readHead 0 hrest).bind fun ⟨placed, rest⟩ ⟨hplaced, hrest⟩ ↦ ?_
  refine (blames_splitHead hplaced).bind fun head _ ↦ ?_
  refine (blames_readParams hrest).bind fun ⟨params, rest⟩ hrest ↦ ?_
  refine (blames_accept _ hrest).bind fun ⟨isConst, rest⟩ hrest ↦ ?_
  refine (blames_accept _ hrest).bind fun ⟨isOverride, rest⟩ hrest ↦ ?_
  refine (blames_readPure hrest).bind fun ⟨isPureVirtual, rest⟩ hrest ↦ ?_
  refine (blames_readEnd hrest).bind fun _ _ ↦ ?_
  exact (blames_returnTypeOf className head).bind fun returnType _ ↦ .ok trivial

end Readers

/-! ### The reported offset -/

section Offsets

variable {className text : String} {e : Failure} {found : Found}

/-- The offset is the number of bytes in front of the place. -/
theorem Failure.IsIn.exists_append {cs : List Char} (h : e.IsIn (breaksToSpaces cs)) :
    ∃ front place, cs = front ++ place ∧ breaksToSpaces place = e.place ∧
      byteOffset (breaksToSpaces cs) e.place = Text.byteSize front := by
  obtain ⟨front', hfront⟩ := h.place
  obtain ⟨front, place, rfl, -, hplace⟩ := List.map_eq_append_iff.1 hfront.symm
  refine ⟨front, place, rfl, hplace, ?_⟩
  rw [byteOffset, ← Text.byteSize, ← Text.byteSize, ← hplace, ← breaksToSpaces,
    Text.byteSize_breaksToSpaces, Text.byteSize_breaksToSpaces, Text.byteSize_append,
    Nat.add_sub_cancel]

/-- What a fault names stands in the trimmed text, behind the offset without the white space in
front of the text. -/
theorem Failure.IsIn.standsIn_trim (h : e.IsIn (breaksToSpaces text.toList))
    (hfound : e.fault.found? = some found) :
    Text.indent text ≤ byteOffset (breaksToSpaces text.toList) e.place ∧
      found.StandsIn (Text.trim text)
        (byteOffset (breaksToSpaces text.toList) e.place - Text.indent text) := by
  obtain ⟨front, place, htext, hplace, hoffset⟩ := h.exists_append
  have hstarts : found.StartsAt place := by
    refine Token.Found.startsAt_of_breaksToSpaces ?_
    rw [hplace]
    exact h.found found hfound
  -- The place begins with no blank, so only white space is cut off in front of it and behind it.
  obtain ⟨c, rest, rfl, hc⟩ := hstarts.exists_cons
  obtain ⟨front', place', trail, hfront, htrim, rfl, htrail⟩ :=
    Text.exists_trimChars_of_append_cons htext hc
  have hsize : Text.byteSize front = Text.indent text + Text.byteSize front' := by
    rw [hfront, Text.byteSize_append, Text.indent]
  rw [hoffset]
  refine ⟨by omega, front', c :: place', ?_, by omega,
    (Token.Found.startsAt_append_iff hc (Token.stops_of_blanks htrail)).1 hstarts⟩
  rw [Text.trim, String.toList_ofList, htrim]

theorem Failure.IsIn.byteOffset_of_end (h : e.IsIn (breaksToSpaces text.toList))
    (hend : e.fault.isAtEnd = true) :
    byteOffset (breaksToSpaces text.toList) e.place = text.utf8ByteSize := by
  obtain ⟨front, place, htext, hplace, hoffset⟩ := h.exists_append
  rw [h.ended hend] at hplace
  obtain rfl : place = [] := List.map_eq_nil_iff.1 hplace
  rw [hoffset, ← Text.byteSize_toList, htext, List.append_nil]

theorem Failure.IsIn.byteOffset_le (h : e.IsIn (breaksToSpaces text.toList))
    (hend : e.fault.isAtEnd = false) :
    byteOffset (breaksToSpaces text.toList) e.place ≤
      Text.indent text + (Text.trim text).utf8ByteSize := by
  rcases h.inside hend with hall | ⟨c, hmem, hc⟩
  · rw [hall, byteOffset, Nat.sub_self]
    exact Nat.zero_le _
  · -- The last character that is left by trimming is at the place or behind it.
    obtain ⟨front, place, htext, hplace, hoffset⟩ := h.exists_append
    rw [← hplace] at hmem
    obtain ⟨d, hd, rfl⟩ := List.mem_map.1 hmem
    rw [isBlank_breakToSpace] at hc
    obtain ⟨more, rest, rfl⟩ := List.append_of_mem hd
    rw [← List.append_assoc] at htext
    obtain ⟨front', place', trail, hfront, htrim, -, -⟩ :=
      Text.exists_trimChars_of_append_cons htext hc
    have hsize := congrArg Text.byteSize hfront
    rw [Text.byteSize_append, Text.byteSize_append, ← Text.indent] at hsize
    rw [hoffset, Text.trim, ← Text.byteSize, htrim, Text.byteSize_append]
    omega

/-- A text that is no prototype is reported without the white space around it. What a fault names
stands in the reported text as many bytes before the reported offset as there is white space in
front of the text. The offset is at most as far behind the reported text, unless the end of the text
is at fault, which is reported where the text ends with its white space. So the offset tells the
place in the reported text when there is no white space in front of the text, and it is in this text
when there is none behind it or the end is not at fault. -/
theorem parse_error_place {e : Error} (h : parse className text = .error e) :
    ∃ fault offset, e = .prototype className (Text.trim text) fault offset ∧
      (∀ found ∈ fault.found?,
        (∃ front back, fault.message = front ++ found.quotedText ++ back) ∧
        Text.indent text ≤ offset ∧
        found.StandsIn (Text.trim text) (offset - Text.indent text)) ∧
      (fault.isAtEnd = true → offset = text.utf8ByteSize) ∧
      (fault.isAtEnd = false → offset ≤ Text.indent text + (Text.trim text).utf8ByteSize) ∧
      (Text.indent text = 0 →
        (∀ found ∈ fault.found?, found.StandsIn (Text.trim text) offset) ∧
        (offset ≤ (Text.trim text).utf8ByteSize ↔
          (fault.isAtEnd = true → Text.trim text = text))) := by
  rw [parse] at h
  split at h
  · cases h
  · rename_i failure hread
    have hin : failure.IsIn (breaksToSpaces text.toList) := by
      have hblames := blames_parseChars className (breaksToSpaces text.toList)
      rw [hread] at hblames
      exact hblames.of_error
    have hnamed (found : Found) (hfound : found ∈ failure.fault.found?) :=
      hin.standsIn_trim hfound
    refine ⟨_, _, (Except.error.inj h).symm,
      fun found hfound ↦ ⟨Fault.exists_message_eq hfound, hnamed found hfound⟩,
      hin.byteOffset_of_end, hin.byteOffset_le, fun hindent ↦ ⟨fun found hfound ↦ ?_, ?_⟩⟩
    · have hstands := (hnamed found hfound).2
      rwa [hindent, Nat.sub_zero] at hstands
    · cases hend : failure.fault.isAtEnd with
      | false =>
        have hle := hin.byteOffset_le hend
        rw [hindent, Nat.zero_add] at hle
        exact iff_of_true hle fun hend ↦ absurd hend Bool.false_ne_true
      | true =>
        rw [hin.byteOffset_of_end hend]
        constructor
        · intro hle _
          have htrim : Text.trimChars text.toList = text.toList :=
            Text.eq_of_byteSize_le (Text.trimChars_infix _) (by rwa [Text.byteSize_toList])
          rw [Text.trim, htrim, String.ofList_toList]
        · intro htrim
          rw [htrim rfl]

end Offsets

end Prototype

open Prototype

/-- Blanks of more than one byte in front of a text, and a letter of two bytes that begins no token,
are counted by their bytes. -/
theorem gate_unexpected_letter :
    parse "Gate" " \u3000void Open(Größe g)" =
      .error (.prototype "Gate" "void Open(Größe g)" (.unexpectedCharacter 'ö') 16) ∧
    Text.indent " \u3000void Open(Größe g)" = 4 ∧
    (Token.Found.character 'ö').StandsIn "void Open(Größe g)" 12 := by
  have hparse : parse "Gate" " \u3000void Open(Größe g)" =
      .error (.prototype "Gate" "void Open(Größe g)" (.unexpectedCharacter 'ö') 16) := by
    decide +kernel
  have hindent : Text.indent " \u3000void Open(Größe g)" = 4 := by decide +kernel
  obtain ⟨fault, offset, he, hfound, -⟩ := parse_error_place hparse
  cases he
  obtain ⟨-, -, hstands⟩ := hfound (.character 'ö') rfl
  rw [hindent] at hstands
  exact ⟨hparse, hindent, hstands⟩

/-- The word that is left over does not stand at the reported offset, and the end of the text is
reported behind the reported text. -/
theorem gate_fault_behind_indent :
    parse "Gate" "  void Open() shut" =
      .error (.prototype "Gate" "void Open() shut" (.leftover (.ofName "shut")) 14) ∧
    ¬(Token.Found.token (.ofName "shut")).StandsIn "void Open() shut" 14 ∧
    parse "Gate" "void Open(int x  " =
      .error (.prototype "Gate" "void Open(int x" .unterminatedParameters 17) ∧
    "void Open(int x".utf8ByteSize < 17 := by
  refine ⟨by decide +kernel, ?_, by decide +kernel, by decide⟩
  rintro ⟨front, place, htext, hfront, hstarts⟩
  obtain ⟨rest, rfl⟩ := hstarts.text_isPrefix
  have hsize := congrArg Text.byteSize htext
  rw [Text.byteSize_append, Text.byteSize_append, hfront] at hsize
  have htotal : Text.byteSize "void Open() shut".toList = 16 := by decide +kernel
  have hword : Text.byteSize (Token.Found.token (.ofName "shut")).text = 4 := by decide +kernel
  omega

end Bindery
