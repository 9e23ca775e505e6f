import Mathlib.Data.List.Infix
import Bindery.Proofs.Decl.LineBreaks
import Bindery.Proofs.Interface.Overriding

/-!
Method declarations of a policy that stand on several lines. They are read as one line, from which
the line breaks are dropped, while `Prototype.parse` takes a break for a space. So a declaration
that can be read is added only if its lines can be read when they are written without anything in
between (`ClassTarget.addCustom_eq`). This is so if no word goes on behind a break then, and the
method that is entered is the one that is read, but for breaks inside default values
(`ClassTarget.addCustom_of_isLoose`).
-/

set_option autoImplicit false
set_option relaxedAutoImplicit false

namespace Bindery

theorem oneLine_eq (decl : String) :
    oneLine decl = String.ofList (Text.withBreaks [] decl.toList) := by
  rw [Text.withBreaks_nil]
  rfl

namespace Text

theorem withBreaks_of_not_mem {mark cs : List Char} (h : '\n' ∉ cs) : withBreaks mark cs = cs := by
  induction cs with
  | nil => rfl
  | cons c cs ih =>
    obtain ⟨hc, hcs⟩ := not_or.1 (mt List.mem_cons.2 h)
    rw [withBreaks_cons (Ne.symm hc), ih hcs]

theorem break_not_mem_withBreaks {mark : List Char} (hmark : '\n' ∉ mark) (cs : List Char) :
    '\n' ∉ withBreaks mark cs := by
  intro h
  obtain ⟨c, -, hc⟩ := List.mem_flatMap.1 h
  split at hc
  · exact hmark hc
  · rename_i hbreak
    exact hbreak (List.mem_singleton.1 hc).symm

/-- Breaks can be dropped or taken for spaces alike only where there are none. -/
theorem withBreaks_nil_eq_space_iff {cs : List Char} :
    withBreaks [] cs = withBreaks [' '] cs ↔ '\n' ∉ cs := by
  constructor
  · intro h
    have hlength : (cs.filter (· != '\n')).length = cs.length := by
      rw [← withBreaks_nil, h, withBreaks_space, Prototype.breaksToSpaces, List.length_map]
    intro hbreak
    exact absurd (List.length_filter_eq_length_iff.1 hlength _ hbreak) (by decide)
  · intro h
    rw [withBreaks_of_not_mem h, withBreaks_of_not_mem h]

end Text

namespace Prototype

variable {className decl : String} {mark : List Char} {p q : Prototype}

/-- A declaration has an opening parenthesis, and a closing one somewhere behind it. -/
theorem isMethodText_iff {text : String} :
    isMethodText text = true ↔ ['(', ')'].Sublist text.toList := by
  rw [isMethodText]
  induction text.toList with
  | nil => simp [Text.cutAtFirst]
  | cons c cs ih =>
    rw [Text.cutAtFirst]
    by_cases hc : c = '('
    · subst hc
      rw [if_pos (beq_self_eq_true _), List.cons_sublist_cons, List.singleton_sublist,
        List.contains_iff_mem]
    · have hskip : ['(', ')'].Sublist (c :: cs) ↔ ['(', ')'].Sublist cs := by
        rw [List.sublist_cons_iff]
        refine or_iff_left ?_
        rintro ⟨rest, heq, -⟩
        exact hc (List.cons.inj heq).1.symm
      rw [if_neg (by simpa using hc), hskip, ← ih]
      cases Text.cutAtFirst (· == '(') cs <;> rfl

theorem isMethodText_oneLine (decl : String) :
    isMethodText (oneLine decl) = isMethodText decl := by
  rw [Bool.eq_iff_iff, isMethodText_iff, isMethodText_iff, oneLine, String.toList_ofList]
  exact ⟨fun h ↦ h.trans List.filter_sublist, fun h ↦ h.filter (· != '\n')⟩

/-- What is read from a text that stands for a declaration with its breaks replaced. -/
theorem parse_eq_ok_iff {text : String} (hmark : ∀ c ∈ mark, Text.isBlank c = true)
    (h : Token.IsLoose mark decl.toList)
    (htext : breaksToSpaces text.toList = Text.withBreaks mark decl.toList) :
    parse className text = .ok p ↔
      ∃ q, parseChars className decl.toList = .ok q ∧ p = q.withBreaks mark := by
  have hrelays := relays_parseChars hmark h className
  rw [parse, htext]
  cases hread : parseChars className decl.toList with
  | ok q =>
    rw [hread] at hrelays
    rw [hrelays.of_ok.2]
    simp [eq_comm]
  | error e =>
    rw [hread] at hrelays
    rw [hrelays.of_error]
    simp

/-- A declaration is read like the text with its breaks, with a space for each break in a default
value. -/
theorem parse_eq_ok_iff_spaces :
    parse className decl = .ok p ↔
      ∃ q, parseChars className decl.toList = .ok q ∧ p = q.withBreaks [' '] :=
  parse_eq_ok_iff (List.forall_mem_singleton.2 (by decide))
    (Token.isLoose_of_stops fun _ _ ↦ Token.stops_cons (by decide) (by decide) _)
    (Text.withBreaks_space _).symm

theorem parse_oneLine_eq_ok_iff (h : Token.IsLoose [] decl.toList) :
    parse className (oneLine decl) = .ok p ↔
      ∃ q, parseChars className decl.toList = .ok q ∧ p = q.withBreaks [] := by
  refine parse_eq_ok_iff (by simp) h ?_
  rw [oneLine_eq, String.toList_ofList, ← Text.withBreaks_space,
    Text.withBreaks_of_not_mem (Text.break_not_mem_withBreaks (List.not_mem_nil) _)]

/-- No default value goes over several lines. -/
def HasPlainDefaults (p : Prototype) : Prop :=
  ∀ param ∈ p.params, ∀ value ∈ param.default, '\n' ∉ value.toList

theorem toMethod_withBreaks (mark : List Char) (p : Prototype) (className : String) :
    (p.withBreaks mark).toMethod className =
      { p.toMethod className with params := p.params.map (Param.withBreaks mark) } := rfl

theorem toMethod_withBreaks_eq_iff :
    (q.withBreaks []).toMethod className = (q.withBreaks [' ']).toMethod className ↔
      q.HasPlainDefaults := by
  have hparam (param : Param) : param.withBreaks [] = param.withBreaks [' '] ↔
      ∀ value ∈ param.default, '\n' ∉ value.toList := by
    rw [Param.withBreaks, Param.withBreaks, Param.mk.injEq]
    cases param.default with
    | none => simp
    | some value => simp [String.ofList_inj, Text.withBreaks_nil_eq_space_iff]
  rw [toMethod_withBreaks, toMethod_withBreaks]
  constructor
  · intro h param hmem
    exact (hparam param).1 (List.map_inj_left.1 (congrArg Method.params h) param hmem)
  · intro h
    rw [List.map_congr_left fun param hmem ↦ (hparam param).2 (h param hmem)]

end Prototype

namespace ClassTarget

variable {target : ClassTarget} {visibility : Protection} {i : ClassInterface} {decl : String}

/-- An interface with a declaration of the policy and the method that is read from it. -/
def withCustom (target : ClassTarget) (visibility : Protection) (i : ClassInterface)
    (decl : String) (p : Prototype) : ClassInterface :=
  (i.addMember visibility (.custom decl)).enter (target.entry (p.toMethod target.className) true)

/-- A method declaration is added if it can be read without its line breaks. -/
theorem addCustom_eq (hdecl : Prototype.isMethodText decl = true) :
    target.addCustom visibility i decl =
      (Prototype.parse target.className (oneLine decl)).map
        (target.withCustom visibility i decl) := by
  have hflat := (Prototype.isMethodText_oneLine decl).trans hdecl
  refine (if_pos hflat).trans ?_
  change (Prototype.parse target.className (oneLine decl) >>= _) = _
  cases Prototype.parse target.className (oneLine decl) <;> rfl

/-- A method declaration is added just if it can be read without its line breaks. Where no word
goes on behind a break then, this is so just if it can be read at all, and the method that is read
is entered, unless a default value goes over several lines. -/
theorem addCustom_of_parse (hdecl : Prototype.isMethodText decl = true) :
    target.addCustom visibility i decl =
        (Prototype.parse target.className (oneLine decl)).map
          (target.withCustom visibility i decl) ∧
      (Token.IsLoose [] decl.toList →
        ((∃ j, target.addCustom visibility i decl = .ok j) ↔
          ∃ p, Prototype.parse target.className decl = .ok p) ∧
        ∀ p, Prototype.parse target.className decl = .ok p →
          ∃ q, Prototype.parseChars target.className decl.toList = .ok q ∧
            p = q.withBreaks [' '] ∧
            target.addCustom visibility i decl =
              .ok (target.withCustom visibility i decl (q.withBreaks [])) ∧
            ((q.withBreaks []).toMethod target.className = p.toMethod target.className ↔
              q.HasPlainDefaults)) := by
  have hadd : target.addCustom visibility i decl = _ := addCustom_eq hdecl
  refine ⟨hadd, fun hloose ↦ ?_⟩
  have hread {q : Prototype} (hq : Prototype.parseChars target.className decl.toList = .ok q) :
      target.addCustom visibility i decl =
        .ok (target.withCustom visibility i decl (q.withBreaks [])) := by
    rw [hadd, (Prototype.parse_oneLine_eq_ok_iff hloose).2 ⟨q, hq, rfl⟩]
    rfl
  refine ⟨⟨?_, ?_⟩, fun p hp ↦ ?_⟩
  · rintro ⟨j, hj⟩
    rw [hadd] at hj
    cases hflat : Prototype.parse target.className (oneLine decl) with
    | error e =>
      rw [hflat] at hj
      cases hj
    | ok p =>
      obtain ⟨q, hq, -⟩ := (Prototype.parse_oneLine_eq_ok_iff hloose).1 hflat
      exact ⟨_, Prototype.parse_eq_ok_iff_spaces.2 ⟨q, hq, rfl⟩⟩
  · rintro ⟨p, hp⟩
    obtain ⟨q, hq, -⟩ := Prototype.parse_eq_ok_iff_spaces.1 hp
    exact ⟨_, hread hq⟩
  · obtain ⟨q, hq, rfl⟩ := Prototype.parse_eq_ok_iff_spaces.1 hp
    exact ⟨q, hq, rfl, hread hq, Prototype.toMethod_withBreaks_eq_iff⟩

end ClassTarget

/-! ### Awnings -/

namespace Awnings

def awning : ClassTarget where
  policy := Policy.empty "Awnings" "Drawing"
  className := "Awning"
  keepsPure := false

/-- The lines behind the first one are indented. -/
def indented : String := "virtual void\n  Draw(int width,\n       int height = 3)"

def flushLeft : String := "virtual void\nDraw()"

end Awnings

open Awnings in
/-- How an awning is drawn is added as it is read, though it stands on three lines. -/
theorem awning_drawing_added : Prototype.isMethodText indented = true ∧
    Token.IsLoose [] indented.toList ∧
    ∃ p, Prototype.parse "Awning" indented = .ok p ∧
      awning.addCustom .publicAccess {} indented =
        .ok ((ClassInterface.addMember {} .publicAccess (.custom indented)).enter
          (awning.entry (p.toMethod "Awning") true)) := by
  have hdecl : Prototype.isMethodText indented = true := by decide +kernel
  have hstops : ∀ tail ∈ indented.toList.tails, tail.head? = some '\n' →
      Token.Stops (Text.withBreaks [] tail.tail) := by decide +kernel
  have hloose : Token.IsLoose [] indented.toList := Token.isLoose_of_stops fun rest hrest ↦
    hstops _ ((List.mem_tails _ _).2 hrest) rfl
  have hparse : ((Prototype.parse "Awning" indented).toOption.isSome &&
      (Prototype.parseChars "Awning" indented.toList).toOption.any fun q ↦
        q.params.all fun param ↦ param.default.all (!·.toList.contains '\n')) = true := by
    decide +kernel
  obtain ⟨hsome, hplain⟩ := Bool.and_eq_true_iff.1 hparse
  obtain ⟨p, hp⟩ := Option.isSome_iff_exists.1 hsome
  obtain ⟨q, hq, -, hadd, hsame⟩ :=
    ((@ClassTarget.addCustom_of_parse awning .publicAccess {} indented hdecl).2 hloose).2 p
      (eq_ok_of_toOption hp)
  have hdefaults : q.HasPlainDefaults := by
    intro param hparam value hvalue
    rw [show Prototype.parseChars "Awning" indented.toList = .ok q from hq] at hplain
    have hvalues := List.all_eq_true.1 hplain param hparam
    rw [Option.mem_def.1 hvalue] at hvalues
    simpa using hvalues
  refine ⟨hdecl, hloose, p, eq_ok_of_toOption hp, ?_⟩
  rw [hadd, ClassTarget.withCustom, hsame.2 hdefaults]
  rfl

open Awnings in
/-- An awning can be drawn as the policy declares it, but the declaration is not added. -/
theorem awning_drawing_not_read : Prototype.isMethodText flushLeft = true ∧
    (∃ p, Prototype.parse "Awning" flushLeft = .ok p) ∧
    ∃ e, awning.addCustom .publicAccess {} flushLeft = .error e := by
  have hparse : ((Prototype.parse "Awning" flushLeft).toOption.isSome &&
      (awning.addCustom .publicAccess {} flushLeft).toOption.isNone) = true := by decide +kernel
  obtain ⟨hsome, hnone⟩ := Bool.and_eq_true_iff.1 hparse
  obtain ⟨p, hp⟩ := Option.isSome_iff_exists.1 hsome
  refine ⟨by decide +kernel, ⟨p, eq_ok_of_toOption hp⟩, ?_⟩
  cases hadd : awning.addCustom .publicAccess {} flushLeft with
  | error e => exact ⟨e, rfl⟩
  | ok j =>
    rw [hadd] at hnone
    cases hnone

end Bindery
