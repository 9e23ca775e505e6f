import Bindery.Proofs.Decl.Prototypes
import Bindery.Proofs.Decl.Signatures

/-!
How the tool reads directives. A directive begins with a line that names its direction with some
options, and its patterns; the lines of its code follow, indented, up to a closing brace. A pattern
that is a run of parameters stands in parentheses, and so does the temporary variable behind a
pattern (`Directive.text`). Directives are read back from a text line by line
(`Directive.readAll`), as long as no parenthesis and no line break stands inside what they name
(`Directive.reads_text`).
-/

set_option autoImplicit false
set_option relaxedAutoImplicit false

namespace Bindery

/-- What a directive says. -/
structure Directive where
  direction : String
  options : List String := []
  /-- The patterns, with the temporary variables that are declared for them. -/
  targets : List (String × Option String)
  /-- The lines of the code. -/
  code : List String := []
  deriving Repr, DecidableEq

namespace Directive

/-! ### Written directives -/

def targetText (target : String × Option String) : String :=
  (if ',' ∈ target.1.toList then "(" ++ target.1 ++ ")" else target.1) ++
    match target.2 with
    | some temp => " (" ++ temp ++ ")"
    | none => ""

def codeText (line : String) : String := if line = "" then "\n" else "  " ++ line ++ "\n"

/-- The line that a directive begins with. -/
def head (w : Directive) : String :=
  "%typemap(" ++ ",".intercalate (w.direction :: w.options) ++ ") " ++
    ", ".intercalate (w.targets.map targetText) ++ " \x7b"

def text (w : Directive) : String :=
  w.head ++ "\n" ++ String.join (w.code.map codeText) ++ "\x7d\n"

/-! ### Reading -/

/-- Splits at the commas outside of parentheses. -/
def splitTargets (isInside : Bool) : List Char → List (List Char)
  | [] => [[]]
  | c :: cs =>
    if c == ',' && !isInside then [] :: splitTargets false cs
    else Text.consFirst c (splitTargets (c == '(' || (isInside && c != ')')) cs)

def isParen (c : Char) : Bool := c == '(' || c == ')'

/-- Reads a pattern and what is declared for it. Either can stand in parentheses. -/
def readTarget? (cs : List Char) : Option (String × Option String) :=
  match cs.splitOnP isParen with
  | [pattern] => some (String.ofList pattern, none)
  | [before, inner, []] =>
    if before = [] then some (String.ofList inner, none)
    else (Text.beforeEnd? [' '] before).map fun pattern ↦
      (String.ofList pattern, some (String.ofList inner))
  | [before, run, between, temp, []] =>
    if before = [] ∧ between = [' '] then some (String.ofList run, some (String.ofList temp))
    else none
  | _ => none

/-- Reads patterns, each behind a space. -/
def readTargets? (cs : List Char) : Option (List (String × Option String)) :=
  (splitTargets false cs).mapM fun piece ↦ (Text.afterStart? [' '] piece).bind readTarget?

/-- Reads a line that begins a directive. -/
def readHead? (line : List Char) : Option Directive := do
  let rest ← Text.afterStart? "%typemap(".toList line
  let (method, rest) ← Text.cutAtFirst (· == ')') rest
  let targets ← readTargets? (← Text.beforeEnd? [' ', '\x7b'] rest)
  let pieces := (method.splitOn ',').map String.ofList
  return { direction := pieces.headD "", options := pieces.tail, targets }

/-- Reads a line of code, without its indentation. -/
def readCode (line : List Char) : String :=
  String.ofList ((Text.afterStart? [' ', ' '] line).getD line)

/-- The directives that some lines hold, the first of which can be open. Lines between directives
are passed over. -/
def readLines : Option Directive → List (List Char) → List Directive
  | _, [] => []
  | none, line :: lines => readLines (readHead? line) lines
  | some w, line :: lines =>
    if line = ['\x7d'] then w :: readLines none lines
    else readLines (some { w with code := w.code ++ [readCode line] }) lines

/-- The directives of a text. -/
def readAll (text : String) : List Directive := readLines none (text.toList.splitOn '\n')

/-- Whether a directive is for a direction and lists a pattern. -/
def defines (direction pattern : String) (w : Directive) : Bool :=
  w.direction == direction && (w.targets.map Prod.fst).contains pattern

/-- What can be told from the text around it: it holds no parenthesis and no line break. -/
def IsPlain (s : String) : Prop := ∀ c ∈ s.toList, c ≠ '(' ∧ c ≠ ')' ∧ c ≠ '\n'

instance (s : String) : Decidable (IsPlain s) := List.decidableBAll _ _

theorem IsPlain.unparenthesized {s : String} (h : IsPlain s) : ∀ c ∈ s.toList, c ≠ '(' ∧ c ≠ ')' :=
  fun c hc ↦ ⟨(h c hc).1, (h c hc).2.1⟩

/-- What can be one of the options of a directive. -/
def IsOption (s : String) : Prop := ∀ c ∈ s.toList, c ≠ ',' ∧ c ≠ ')' ∧ c ≠ '\n'

instance (s : String) : Decidable (IsOption s) := List.decidableBAll _ _

/-- Whether a directive can be read back. -/
structure IsReadable (w : Directive) : Prop where
  options : ∀ s ∈ w.direction :: w.options, IsOption s
  targets : w.targets ≠ []
  patterns : ∀ target ∈ w.targets, IsPlain target.1
  temps : ∀ target ∈ w.targets, ∀ temp ∈ target.2, IsPlain temp
  code : ∀ line ∈ w.code, '\n' ∉ line.toList

end Directive

/-! ### Reading back -/

namespace Text

theorem afterStart?_append (start rest : List Char) :
    afterStart? start (start ++ rest) = some rest := by
  induction start with
  | nil => rfl
  | cons c start ih => rw [List.cons_append, afterStart?, if_pos (beq_self_eq_true c), ih]

theorem beforeEnd?_append (cs ending : List Char) :
    beforeEnd? ending (cs ++ ending) = some cs := by
  rw [beforeEnd?, List.reverse_append, afterStart?_append, Option.map_some, List.reverse_reverse]

end Text

namespace Directive

section Targets

variable {cs ds : List Char} {target : String × Option String}

/-- Whether no comma of a text is one to split at, and its parentheses are closed. -/
def IsUnsplit (cs : List Char) : Prop :=
  ∀ rest, splitTargets false (cs ++ rest) = cs.foldr Text.consFirst (splitTargets false rest)

theorem IsUnsplit.append (hcs : IsUnsplit cs) (hds : IsUnsplit ds) : IsUnsplit (cs ++ ds) := by
  intro rest
  rw [List.append_assoc, hcs, hds, List.foldr_append]

/-- Inside of parentheses a comma is a character like others. -/
theorem splitTargets_plain {isInside : Bool}
    (h : ∀ c ∈ cs, c ≠ '(' ∧ c ≠ ')' ∧ (isInside = false → c ≠ ',')) (rest : List Char) :
    splitTargets isInside (cs ++ rest) = cs.foldr Text.consFirst (splitTargets isInside rest) := by
  induction cs with
  | nil => rfl
  | cons c cs ih =>
    obtain ⟨⟨hopen, hclose, hcomma⟩, h⟩ := List.forall_mem_cons.1 h
    have hnot : ¬(c == ',' && !isInside) = true := by
      rw [Bool.and_eq_true, beq_iff_eq, Bool.not_eq_true']
      exact fun hsplit ↦ hcomma hsplit.2 hsplit.1
    have hstays : (c == '(' || (isInside && c != ')')) = isInside := by
      rw [beq_false_of_ne hopen, bne_iff_ne.2 hclose, Bool.and_true, Bool.false_or]
    rw [List.cons_append, splitTargets, if_neg hnot, hstays, List.foldr_cons, ih h]

theorem isUnsplit_group (h : ∀ c ∈ cs, c ≠ '(' ∧ c ≠ ')') :
    IsUnsplit ('(' :: (cs ++ [')'])) := by
  intro rest
  have hinside : splitTargets true (cs ++ ')' :: rest) =
      cs.foldr Text.consFirst (splitTargets true (')' :: rest)) :=
    splitTargets_plain (fun c hc ↦ ⟨(h c hc).1, (h c hc).2, fun hfalse ↦ by cases hfalse⟩) _
  rw [List.cons_append, List.append_assoc, List.singleton_append]
  simp [splitTargets, hinside]

theorem isUnsplit_targetText (hpattern : IsPlain target.1)
    (htemp : ∀ temp ∈ target.2, IsPlain temp) : IsUnsplit (targetText target).toList := by
  obtain ⟨pattern, temp?⟩ := target
  rw [targetText, String.toList_append]
  refine .append ?_ ?_
  · split
    · rw [String.toList_append, String.toList_append]
      exact isUnsplit_group hpattern.unparenthesized
    · rename_i hcomma
      exact splitTargets_plain fun c hc ↦
        ⟨(hpattern c hc).1, (hpattern c hc).2.1, fun _ heq ↦ hcomma (heq ▸ hc)⟩
  · cases temp? with
    | none => exact fun _ ↦ rfl
    | some temp =>
      have hblank : IsUnsplit [' '] := splitTargets_plain (by simp)
      change IsUnsplit (" (" ++ temp ++ ")").toList
      rw [String.toList_append, String.toList_append]
      exact hblank.append (isUnsplit_group (htemp temp rfl).unparenthesized)

theorem splitOnP_isParen (h : ∀ c ∈ cs, c ≠ '(' ∧ c ≠ ')') : cs.splitOnP isParen = [cs] :=
  List.splitOnP_eq_singleton fun c hc ↦ by
    rw [isParen, beq_false_of_ne (h c hc).1, beq_false_of_ne (h c hc).2, Bool.or_false]

theorem splitOnP_group (h : ∀ c ∈ cs, c ≠ '(' ∧ c ≠ ')') (before after : List Char) :
    (before ++ '(' :: (cs ++ ')' :: after)).splitOnP isParen =
      before.splitOnP isParen ++ cs :: after.splitOnP isParen := by
  rw [List.splitOnP_append_cons _ _ rfl, List.splitOnP_append_cons _ _ rfl, splitOnP_isParen h,
    List.singleton_append]

/-- A pattern is read back with what is declared for it. -/
theorem readTarget?_targetText (hpattern : IsPlain target.1)
    (htemp : ∀ temp ∈ target.2, IsPlain temp) :
    readTarget? (targetText target).toList = some target := by
  obtain ⟨pattern, temp?⟩ := target
  have hcs : ∀ c ∈ pattern.toList, c ≠ '(' ∧ c ≠ ')' := hpattern.unparenthesized
  rw [readTarget?]
  by_cases hcomma : ',' ∈ pattern.toList
  · cases temp? with
    | none =>
      have htext : (targetText (pattern, none)).toList =
          [] ++ '(' :: (pattern.toList ++ [')']) := by
        simp [targetText, hcomma]
      rw [htext, splitOnP_group hcs [] [], List.splitOnP_nil]
      simp
    | some temp =>
      have hds : ∀ c ∈ temp.toList, c ≠ '(' ∧ c ≠ ')' := (htemp temp rfl).unparenthesized
      have htext : (targetText (pattern, some temp)).toList =
          [] ++ '(' :: (pattern.toList ++ ')' :: ([' '] ++ '(' :: (temp.toList ++ [')']))) := by
        simp [targetText, hcomma]
      have hblank : [' '].splitOnP isParen = [[' ']] := splitOnP_isParen (by simp)
      rw [htext, splitOnP_group hcs, splitOnP_group hds, hblank]
      simp
  · cases temp? with
    | none =>
      have htext : (targetText (pattern, none)).toList = pattern.toList := by
        simp [targetText, hcomma]
      rw [htext, splitOnP_isParen hcs]
      simp
    | some temp =>
      have hds : ∀ c ∈ temp.toList, c ≠ '(' ∧ c ≠ ')' := (htemp temp rfl).unparenthesized
      have htext : (targetText (pattern, some temp)).toList =
          (pattern.toList ++ [' ']) ++ '(' :: (temp.toList ++ [')']) := by
        simp [targetText, hcomma]
      have hbefore : ∀ c ∈ pattern.toList ++ [' '], c ≠ '(' ∧ c ≠ ')' :=
        List.forall_mem_append.2 ⟨hcs, by simp⟩
      rw [htext, splitOnP_group hds, splitOnP_isParen hbefore]
      simp [Text.beforeEnd?_append]

/-- Splitting undoes joining with commas. -/
theorem splitTargets_intercalate {pieces : List (List Char)} (hne : pieces ≠ [])
    (h : ∀ piece ∈ pieces, IsUnsplit piece) :
    splitTargets false ([','].intercalate pieces) = pieces := by
  induction pieces with
  | nil => exact (hne rfl).elim
  | cons piece pieces ih =>
    obtain ⟨hpiece, h⟩ := List.forall_mem_cons.1 h
    cases pieces with
    | nil =>
      have hsplit := hpiece []
      rw [List.intercalate_singleton]
      rwa [splitTargets, Query.foldr_consFirst, List.append_nil] at hsplit
    | cons next pieces =>
      rw [List.intercalate_cons_cons, List.append_assoc, hpiece, List.singleton_append,
        splitTargets, if_pos (by decide), ih (List.cons_ne_nil _ _) h, Query.foldr_consFirst,
        List.append_nil]

theorem spaced_intercalate {pieces : List (List Char)} (hne : pieces ≠ []) :
    ' ' :: [',', ' '].intercalate pieces = [','].intercalate (pieces.map (' ' :: ·)) := by
  induction pieces with
  | nil => exact (hne rfl).elim
  | cons piece pieces ih =>
    cases pieces with
    | nil => rfl
    | cons next pieces =>
      have hrest := ih (List.cons_ne_nil _ _)
      rw [List.map_cons] at hrest
      rw [List.map_cons, List.map_cons, List.intercalate_cons_cons, List.intercalate_cons_cons,
        ← hrest]
      simp

/-- The patterns of a directive are read back. -/
theorem readTargets?_intercalate {targets : List (String × Option String)} (hne : targets ≠ [])
    (hpatterns : ∀ target ∈ targets, IsPlain target.1)
    (htemps : ∀ target ∈ targets, ∀ temp ∈ target.2, IsPlain temp) :
    readTargets? (' ' :: (", ".intercalate (targets.map targetText)).toList) = some targets := by
  have hblank : IsUnsplit [' '] := splitTargets_plain (by simp)
  have hunsplit : ∀ piece ∈ targets.map fun target ↦ ' ' :: (targetText target).toList,
      IsUnsplit piece := List.forall_mem_map.2 fun target h ↦
    hblank.append (isUnsplit_targetText (hpatterns target h) (htemps target h))
  have htext : ' ' :: (", ".intercalate (targets.map targetText)).toList =
      [','].intercalate (targets.map fun target ↦ ' ' :: (targetText target).toList) := by
    rw [String.toList_intercalate]
    refine (spaced_intercalate (by simpa using hne)).trans ?_
    rw [List.map_map, List.map_map]
    rfl
  rw [readTargets?, htext, splitTargets_intercalate (by simpa using hne) hunsplit]
  clear htext hunsplit hne
  induction targets with
  | nil => rfl
  | cons target targets ih =>
    obtain ⟨hpattern, hpatterns⟩ := List.forall_mem_cons.1 hpatterns
    obtain ⟨htemp, htemps⟩ := List.forall_mem_cons.1 htemps
    rw [List.map_cons, List.mapM_cons, ih hpatterns htemps]
    change (readTarget? (targetText target).toList).bind _ = _
    rw [readTarget?_targetText hpattern htemp]
    rfl

end Targets

/-! ### Lines -/

section Lines

variable {w : Directive} {line cs ds : List Char}

/-- The line that a directive begins with is read back. -/
theorem readHead?_head (h : w.IsReadable) :
    readHead? w.head.toList = some { w with code := [] } := by
  have hparts : ∀ piece ∈ (w.direction :: w.options).map String.toList, ',' ∉ piece :=
    List.forall_mem_map.2 fun s hs hmem ↦ (h.options s hs ',' hmem).1 rfl
  have hsplit : ((",".intercalate (w.direction :: w.options)).toList.splitOn ',').map
      String.ofList = w.direction :: w.options := by
    rw [String.toList_intercalate, show ",".toList = [','] from rfl,
      List.splitOn_intercalate ',' hparts (List.cons_ne_nil _ _), List.map_map]
    exact (List.map_congr_left fun s _ ↦ String.ofList_toList).trans (List.map_id _)
  have hmethod : ∀ c ∈ (",".intercalate (w.direction :: w.options)).toList, (c == ')') = false := by
    intro c hc
    refine beq_false_of_ne fun heq ↦ ?_
    rw [heq, String.toList_intercalate] at hc
    refine not_mem_intercalate (by decide) (List.forall_mem_map.2 fun s hs hmem ↦ ?_) hc
    exact (h.options s hs ')' hmem).2.1 rfl
  have htext : w.head.toList = "%typemap(".toList ++
      ((",".intercalate (w.direction :: w.options)).toList ++ ')' ::
        ((' ' :: (", ".intercalate (w.targets.map targetText)).toList) ++ [' ', '\x7b'])) := by
    simp [head]
  rw [readHead?, htext, Text.afterStart?_append, Option.bind_eq_bind, Option.bind_some,
    Text.cutAtFirst_append hmethod rfl]
  simp only [Option.bind_eq_bind, Option.bind_some, Text.beforeEnd?_append,
    readTargets?_intercalate h.targets h.patterns h.temps, hsplit]
  rfl

theorem not_mem_targetText {target : String × Option String} (hpattern : IsPlain target.1)
    (htemp : ∀ temp ∈ target.2, IsPlain temp) : '\n' ∉ (targetText target).toList := by
  have hplain {s : String} (h : IsPlain s) : '\n' ∉ s.toList := fun hmem ↦ (h _ hmem).2.2 rfl
  obtain ⟨pattern, temp?⟩ := target
  have hown : '\n' ∉ pattern.toList := hplain hpattern
  cases temp? with
  | none => by_cases hcomma : ',' ∈ pattern.toList <;> simp [targetText, hcomma, hown]
  | some temp =>
    have hdeclared : '\n' ∉ temp.toList := hplain (htemp temp rfl)
    by_cases hcomma : ',' ∈ pattern.toList <;> simp [targetText, hcomma, hown, hdeclared]

theorem not_mem_head (h : w.IsReadable) : '\n' ∉ w.head.toList := by
  have hmethod : '\n' ∉ (",".intercalate (w.direction :: w.options)).toList := by
    rw [String.toList_intercalate]
    exact not_mem_intercalate (by decide) (List.forall_mem_map.2 fun s hs hmem ↦
      (h.options s hs '\n' hmem).2.2 rfl)
  have htargets : '\n' ∉ (", ".intercalate (w.targets.map targetText)).toList := by
    rw [String.toList_intercalate]
    exact not_mem_intercalate (by decide) (List.forall_mem_map.2 (List.forall_mem_map.2
      fun target ht ↦ not_mem_targetText (h.patterns target ht) (h.temps target ht)))
  simp only [head, String.toList_append, List.mem_append, not_or]
  exact ⟨⟨⟨⟨by decide, hmethod⟩, by decide⟩, htargets⟩, by decide⟩

theorem splitOn_line (h : '\n' ∉ line) (rest : List Char) :
    (line ++ '\n' :: rest).splitOn '\n' = line :: rest.splitOn '\n' := by
  have hbreaks : ∀ c ∈ line, (c == '\n') = false := fun c hc ↦
    beq_false_of_ne fun heq ↦ h (heq ▸ hc)
  rw [List.splitOn_eq_splitOnP, List.splitOn_eq_splitOnP,
    @List.splitOnP_append_cons _ (· == '\n') _ _ _ rfl, List.splitOnP_eq_singleton hbreaks,
    List.singleton_append]

/-- Whatever follows a text, these are the directives in it. -/
def Reads (cs : List Char) (ws : List Directive) : Prop :=
  ∀ rest, readLines none ((cs ++ rest).splitOn '\n') =
    ws ++ readLines none (rest.splitOn '\n')

theorem Reads.append {ws others : List Directive} (h : Reads cs ws) (hothers : Reads ds others) :
    Reads (cs ++ ds) (ws ++ others) := by
  intro rest
  rw [List.append_assoc, h, hothers, List.append_assoc]

theorem Reads.join {α : Type} {xs : List α} {text : α → String} {ws : α → List Directive}
    (h : ∀ x ∈ xs, Reads (text x).toList (ws x)) :
    Reads (String.join (xs.map text)).toList (xs.flatMap ws) := by
  rw [String.toList_join, List.flatMap_map]
  induction xs with
  | nil => exact fun _ ↦ rfl
  | cons x xs ih =>
    obtain ⟨hx, hxs⟩ := List.forall_mem_cons.1 h
    rw [List.flatMap_cons, List.flatMap_cons]
    exact hx.append (ih hxs)

/-- A line that begins no directive is passed over. -/
theorem reads_line (h : '\n' ∉ line) (hhead : readHead? line = none) :
    Reads (line ++ ['\n']) [] := by
  intro rest
  rw [List.append_assoc, List.singleton_append, splitOn_line h, readLines, hhead, List.nil_append]

theorem Reads.readAll_eq {text : String} {ws : List Directive} (h : Reads text.toList ws) :
    readAll text = ws := by
  have hnil := h []
  rw [List.append_nil, List.splitOn_nil, readLines] at hnil
  rw [readAll, hnil]
  exact List.append_nil ws

/-- A line of code is indented unless it is empty, so that it closes no directive. -/
theorem exists_codeText {line : String} (h : '\n' ∉ line.toList) :
    ∃ written, (codeText line).toList = written ++ ['\n'] ∧ '\n' ∉ written ∧ written ≠ ['\x7d'] ∧
      readCode written = line := by
  rw [codeText]
  split
  · rename_i hempty
    exact ⟨[], rfl, List.not_mem_nil, by decide, hempty.symm⟩
  · refine ⟨' ' :: ' ' :: line.toList, by simp, by simpa using h, by simp, ?_⟩
    exact (congrArg (fun cs ↦ String.ofList (Option.getD cs _))
      (Text.afterStart?_append [' ', ' '] line.toList)).trans String.ofList_toList

/-- An open directive goes on with the lines of its code. -/
theorem readLines_code {code : List String} (h : ∀ line ∈ code, '\n' ∉ line.toList)
    (rest : List Char) :
    readLines (some w) (((String.join (code.map codeText)).toList ++ rest).splitOn '\n') =
      readLines (some { w with code := w.code ++ code }) (rest.splitOn '\n') := by
  induction code generalizing w with
  | nil => simp
  | cons line code ih =>
    obtain ⟨hline, h⟩ := List.forall_mem_cons.1 h
    obtain ⟨written, htext, hbreak, hother, hread⟩ := exists_codeText hline
    have hjoin : (String.join ((line :: code).map codeText)).toList ++ rest =
        written ++ '\n' :: ((String.join (code.map codeText)).toList ++ rest) := by
      simp [String.toList_join, htext]
    rw [hjoin, splitOn_line hbreak, readLines, if_neg hother, hread, ih h, List.append_assoc,
      List.singleton_append]

/-- A directive is read back, whatever follows. -/
theorem reads_text (h : w.IsReadable) : Reads w.text.toList [w] := by
  intro rest
  have htext : w.text.toList ++ rest = w.head.toList ++ '\n' ::
      ((String.join (w.code.map codeText)).toList ++ (['\x7d'] ++ '\n' :: rest)) := by
    simp [text]
  rw [htext, splitOn_line (not_mem_head h), readLines, readHead?_head h, readLines_code h.code,
    splitOn_line (by decide), readLines, if_pos rfl, List.nil_append]
  rfl

end Lines

end Directive

end Bindery
