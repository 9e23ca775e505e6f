import Bindery.Proofs.Decl.Tokens

/-!
The preprocessor of the target, as far as texts need it whose conditionals are tests for symbols. A
line is read by its names and marks (`Preprocessor.lexemes`), `#ifdef` and `#if` ask which symbols
are defined, and `Preprocessor.compile` is what is kept of a text. A text that is compiled by itself
is compiled in the same way between other lines (`Preprocessor.compile_append`).
-/

set_option autoImplicit false
set_option relaxedAutoImplicit false

namespace Bindery

namespace Preprocessor

open Token (isNameChar)

/-! ### Lines -/

/-- Whether a character belongs to the same lexeme as the one in front of it. -/
def sticks (c d : Char) : Bool := isNameChar c && isNameChar d || c == '|' && d == '|'

/-- The names and marks of a line. -/
def lexemes : List Char → List (List Char)
  | [] => []
  | c :: cs =>
    if Text.isBlank c then lexemes cs
    else if cs.head?.any (sticks c) then Text.consFirst c (lexemes cs)
    else [c] :: lexemes cs

def bars : List Char := ['|', '|']

/-- Whether a lexeme can be the name of a symbol. -/
def isSymbolName (lexeme : List Char) : Bool :=
  lexeme.head?.any fun c ↦ isNameChar c && !c.isDigit

theorem ne_nil_of_isSymbolName {lexeme : List Char} (h : isSymbolName lexeme = true) :
    lexeme ≠ [] := by
  rintro rfl
  cases h

/-- The symbol whose definition is tested, with or without parentheses. -/
def testedSymbol? : List (List Char) → Option String
  | [word, ['('], name, [')']] | [word, name] =>
    if word == "defined".toList && isSymbolName name then some (String.ofList name) else none
  | _ => none

/-- The lines that conditional compilation goes by. -/
inductive Directive
  /-- Opens a group for when one of the symbols is defined, if the condition is well-formed. -/
  | opening (symbols : Option (List String))
  | closing
  /-- Anything else that is no text. -/
  | other
  deriving DecidableEq

/-- The condition of `#ifdef` is one symbol, and that of `#if` is one or more tests, with `||`
between them. -/
def directive? (line : String) : Option Directive :=
  match lexemes line.toList with
  | ['#'] :: word :: rest =>
    if word == "ifdef".toList then
      match rest with
      | [name] => some (.opening (if isSymbolName name then some [String.ofList name] else none))
      | _ => some (.opening none)
    else if word == "if".toList then some (.opening ((rest.splitOn bars).mapM testedSymbol?))
    else if word == "endif".toList && rest.isEmpty then some .closing
    else some .other
  | [['#']] => some .other
  | _ => none

/-- The symbols of a line that is a well-formed conditional. It is true when one of them is
defined. -/
def conditional? (line : String) : Option (List String) :=
  match directive? line with
  | some (.opening symbols) => symbols
  | _ => none

/-- The lines that are kept of a text, where `groups` tells for each group that is open, the
innermost first, whether its condition is true. In a group that is passed over no condition is
looked at. -/
def compile (isDefined : String → Bool) : List Bool → List String → Option (List String)
  | groups, [] => if groups.isEmpty then some [] else none
  | groups, line :: lines =>
    match directive? line with
    | none =>
      (compile isDefined groups lines).map fun kept ↦
        if groups.all id then line :: kept else kept
    | some (.opening symbols) =>
      if groups.all id then
        symbols.bind fun symbols ↦ compile isDefined (symbols.any isDefined :: groups) lines
      else compile isDefined (false :: groups) lines
    | some .closing => if groups.isEmpty then none else compile isDefined groups.tail lines
    | some .other => none

/-! ### Reading lines -/

section Lexemes

variable {c : Char} {cs name rest : List Char}

theorem lexemes_blank (h : Text.isBlank c = true) (cs : List Char) :
    lexemes (c :: cs) = lexemes cs := by rw [lexemes, if_pos h]

theorem lexemes_mark (hblank : Text.isBlank c = false) (hname : isNameChar c = false)
    (hbar : c ≠ '|') (cs : List Char) : lexemes (c :: cs) = [c] :: lexemes cs := by
  have hsticks : cs.head?.any (sticks c) = false := by
    cases cs with
    | nil => rfl
    | cons d cs => simp [sticks, hname, hbar]
  rw [lexemes, hblank, hsticks, if_neg Bool.false_ne_true, if_neg Bool.false_ne_true]

/-- A name is one lexeme in front of whatever does not make it longer. -/
theorem lexemes_name (hne : name ≠ []) (hname : ∀ c ∈ name, isNameChar c = true)
    (hrest : ∀ c ∈ rest.head?, isNameChar c = false) :
    lexemes (name ++ rest) = name :: lexemes rest := by
  induction name with
  | nil => exact (hne rfl).elim
  | cons c name ih =>
    obtain ⟨hc, hname⟩ := List.forall_mem_cons.1 hname
    have hblank := Token.isBlank_eq_false_of_isNameChar hc
    rw [List.cons_append, lexemes, hblank, if_neg Bool.false_ne_true]
    cases name with
    | nil =>
      have hbar : c ≠ '|' := by
        rintro rfl
        exact absurd hc (by decide)
      have hsticks : rest.head?.any (sticks c) = false := by
        rw [Option.any_eq_false]
        intro d hd
        simp [sticks, hrest d hd, hbar]
      rw [List.nil_append, hsticks, if_neg Bool.false_ne_true]
    | cons d name =>
      obtain ⟨hd, -⟩ := List.forall_mem_cons.1 hname
      have hsticks : ((d :: name) ++ rest).head?.any (sticks c) = true := by
        simp [sticks, hc, hd]
      rw [hsticks, if_pos rfl, ih (List.cons_ne_nil _ _) hname]
      rfl

end Lexemes

/-! ### Compiling -/

section Compile

variable {isDefined : String → Bool} {inner inner' groups : List Bool}
  {line : String} {lines body kept : List String}

/-- The value of the condition of a group that is opened. It is not looked at in a group that is
passed over. -/
def conditionValue? (isDefined : String → Bool) (isLive : Bool) (symbols : Option (List String)) :
    Option Bool :=
  if isLive then symbols.map fun symbols ↦ symbols.any isDefined else some false

theorem compile_opening {symbols : Option (List String)}
    (hline : directive? line = some (.opening symbols)) :
    compile isDefined groups (line :: lines) =
      (conditionValue? isDefined (groups.all id) symbols).bind fun value ↦
        compile isDefined (value :: groups) lines := by
  rw [compile, hline, conditionValue?]
  simp only
  split
  · rw [Option.bind_map]
    rfl
  · rfl

/-- A condition that has a value in some groups has it also inside of others, as long as these are
not passed over. -/
theorem exists_conditionValue?_append {symbols : Option (List String)} {value : Bool}
    (hinner : groups.all id = true → inner' = inner)
    (h : conditionValue? isDefined (inner.all id) symbols = some value) :
    ∃ value', conditionValue? isDefined ((inner' ++ groups).all id) symbols = some value' ∧
      (groups.all id = true → value' = value) := by
  cases hgroups : groups.all id with
  | true =>
    refine ⟨value, ?_, fun _ ↦ rfl⟩
    rw [List.all_append, hgroups, Bool.and_true, hinner hgroups, h]
  | false =>
    refine ⟨false, ?_, fun hlive ↦ by cases hlive⟩
    rw [List.all_append, hgroups, Bool.and_false]
    rfl

/-- A text that is compiled by itself is compiled in the same way inside of other groups, or passed
over as a whole. -/
theorem compile_append (groups : List Bool) (hlength : inner.length = inner'.length)
    (hinner : groups.all id = true → inner' = inner)
    (h : compile isDefined inner body = some kept) (rest : List String) :
    compile isDefined (inner' ++ groups) (body ++ rest) =
      (compile isDefined groups rest).map fun more ↦
        if groups.all id then kept ++ more else more := by
  induction body generalizing inner inner' kept with
  | nil =>
    rw [compile] at h
    split at h
    · rename_i hnone
      cases h
      rw [List.isEmpty_iff] at hnone
      rw [hnone] at hlength
      rw [List.eq_nil_of_length_eq_zero hlength.symm]
      simp
    · cases h
  | cons line body ih =>
    rw [List.cons_append]
    cases hdirective : directive? line with
    | none =>
      rw [compile, hdirective] at h ⊢
      obtain ⟨kept, hbody, rfl⟩ := Option.map_eq_some_iff.1 h
      simp only
      rw [ih hlength hinner hbody, Option.map_map]
      refine congrArg (Option.map · _) (funext fun more ↦ ?_)
      cases hgroups : groups.all id with
      | false => simp [hgroups]
      | true =>
        rw [hinner hgroups]
        cases hall : inner.all id <;> simp [hgroups, hall]
    | some directive =>
      cases directive with
      | opening symbols =>
        rw [compile_opening hdirective] at h ⊢
        obtain ⟨value, hvalue, hbody⟩ := Option.bind_eq_some_iff.1 h
        obtain ⟨value', hvalue', hsame⟩ := exists_conditionValue?_append hinner hvalue
        rw [hvalue', Option.bind_some]
        have hopened : groups.all id = true → value' :: inner' = value :: inner :=
          fun hgroups ↦ by rw [hsame hgroups, hinner hgroups]
        exact ih (congrArg (· + 1) hlength) hopened hbody
      | closing =>
        rw [compile, hdirective] at h ⊢
        cases inner with
        | nil => cases h
        | cons value inner =>
          cases inner' with
          | nil => cases hlength
          | cons value' inner' =>
            exact ih (Nat.succ.inj hlength) (fun hgroups ↦ (List.cons.inj (hinner hgroups)).2) h
      | other =>
        rw [compile, hdirective] at h
        cases h

theorem compile_concat (hbody : compile isDefined [] body = some kept) (rest : List String) :
    compile isDefined [] (body ++ rest) =
      (compile isDefined [] rest).map fun more ↦ kept ++ more :=
  compile_append [] rfl (fun _ ↦ rfl) hbody rest

end Compile

end Preprocessor

end Bindery
