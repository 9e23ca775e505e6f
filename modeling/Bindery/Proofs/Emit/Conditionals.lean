import Bindery.Proofs.Emit.Guards
import Bindery.Proofs.Emit.Preprocessor
import Bindery.Proofs.Emit.StubOutline
import Bindery.Proofs.Extract.Platforms

/-!
The two readings of a guard. The filter for a platform asks whether the guard admits the platform,
and the preprocessor of the target reads the opening line of the guard and asks which symbols are
defined. `Guard.holdsOn` is the value of this line where the symbol of one platform is defined and
no other.

Both readings agree (`Guard.holdsOn_eq_admits`). So the filter leaves out what is restricted by a
line that does not hold, and compiling a text for the platform keeps what the filter would keep, one
guard inside another (`guards_read_alike`). But the opening line of a guard for an empty list of
platforms is no conditional, so that a text with such a guard is not compiled at all
(`nowhere_unreadable`).
-/

set_option autoImplicit false
set_option relaxedAutoImplicit false

namespace Bindery

/-! ### The opening lines of guards -/

namespace Guard

open Preprocessor Token

/-- The platforms that a guard lists. -/
def platforms : Guard → List String
  | .single platform => [platform]
  | .anyOf platforms => platforms

/-- A platform is named by an identifier, or by a symbol already. -/
def IsPlatform (platform : String) : Prop := ∀ c ∈ platform.toList, isNameChar c = true

instance (platform : String) : Decidable (IsPlatform platform) :=
  decidable_of_iff (platform.toList.all isNameChar = true) List.all_eq_true

def IsNamed (guard : Guard) : Prop := ∀ platform ∈ guard.platforms, IsPlatform platform

instance (guard : Guard) : Decidable guard.IsNamed :=
  inferInstanceAs (Decidable (∀ platform ∈ guard.platforms, IsPlatform platform))

/-- Whether the opening line of a guard is a conditional that is true where the symbol of a platform
is defined and no other. -/
def holdsOn (platform : String) (guard : Guard) : Bool :=
  (conditional? guard.openLine).any fun symbols ↦ symbols.any (· == platformSymbol platform)

theorem isNameChar_toUpper : ∀ n < 128, isNameChar (Char.ofNat n) = true →
    isNameChar (Char.ofNat n).toUpper = true := by decide

theorem isNameChar_of_mem_upperChar {c d : Char} (hc : isNameChar c = true)
    (hd : d ∈ Text.upperChar c) : isNameChar d = true := by
  have hascii : c.toNat < 128 := by
    have := toNat_of_isNameChar hc
    omega
  rw [Text.upperChar, if_pos hascii, List.mem_singleton] at hd
  have hupper := isNameChar_toUpper c.toNat hascii
  rw [Char.ofNat_toNat] at hupper
  exact hd ▸ hupper hc

/-- The symbol of a platform that is named is the name of a symbol. -/
theorem isSymbolName_platformSymbol {platform : String} (h : IsPlatform platform) :
    isSymbolName (platformSymbol platform).toList = true ∧
      ∀ c ∈ (platformSymbol platform).toList, isNameChar c = true := by
  rw [platformSymbol]
  split
  · rename_i hstart
    obtain ⟨rest, hrest⟩ := List.isPrefixOf_iff_prefix.1 hstart
    refine ⟨?_, h⟩
    rw [← hrest]
    rfl
  · have hbefore : ∀ c ∈ "__".toList, isNameChar c = true := List.all_eq_true.1 rfl
    rw [String.toList_append, String.toList_append, Text.upper]
    refine ⟨rfl, List.forall_mem_append.2 ⟨List.forall_mem_append.2 ⟨hbefore, fun d hd ↦ ?_⟩,
      hbefore⟩⟩
    rw [String.toList_ofList] at hd
    obtain ⟨c, hc, hd⟩ := List.mem_flatMap.1 hd
    exact isNameChar_of_mem_upperChar (h c hc) hd

/-- The lexemes of a test. -/
def testLexemes (platform : String) : List (List Char) :=
  ["defined".toList, ['('], (platformSymbol platform).toList, [')']]

theorem lexemes_test {platform : String} (h : IsPlatform platform) (rest : List Char) :
    lexemes (("defined(" ++ platformSymbol platform ++ ")").toList ++ rest) =
      testLexemes platform ++ lexemes rest := by
  obtain ⟨hsymbol, hname⟩ := isSymbolName_platformSymbol h
  have htext : ("defined(" ++ platformSymbol platform ++ ")").toList ++ rest =
      "defined".toList ++ '(' :: ((platformSymbol platform).toList ++ ')' :: rest) := by
    simp
  have hclosing : ∀ c ∈ (')' :: rest).head?, isNameChar c = false := by simp; decide
  have hopening (cs : List Char) : ∀ c ∈ ('(' :: cs).head?, isNameChar c = false := by simp; decide
  rw [htext, lexemes_name (by decide) (List.all_eq_true.1 rfl) (hopening _),
    lexemes_mark (by decide) (by decide) (by decide),
    lexemes_name (ne_nil_of_isSymbolName hsymbol) hname hclosing,
    lexemes_mark (by decide) (by decide) (by decide)]
  rfl

theorem testedSymbol?_testLexemes {platform : String} (h : IsPlatform platform) :
    testedSymbol? (testLexemes platform) = some (platformSymbol platform) := by
  have hsymbol := (isSymbolName_platformSymbol h).1
  rw [testLexemes, testedSymbol?, hsymbol, String.ofList_toList]
  rfl

theorem lexemes_bars (cs : List Char) :
    lexemes (" || ".toList ++ cs) = [bars] ++ lexemes cs := by
  have htext : " || ".toList ++ cs = ' ' :: '|' :: '|' :: ' ' :: cs := by simp
  have hblank : Text.isBlank ' ' = true := by decide
  have hbar : Text.isBlank '|' = false := by decide
  have hfirst : ('|' :: ' ' :: cs).head?.any (sticks '|') = true := rfl
  have hsecond : (' ' :: cs).head?.any (sticks '|') = false := rfl
  rw [htext, lexemes_blank hblank, lexemes, hbar, hfirst, if_neg Bool.false_ne_true, if_pos rfl,
    lexemes, hbar, hsecond, if_neg Bool.false_ne_true, if_neg Bool.false_ne_true,
    lexemes_blank hblank]
  rfl

/-- The condition of a list of platforms is their tests, with bars between them. -/
theorem lexemes_tests {platforms : List String}
    (h : ∀ platform ∈ platforms, IsPlatform platform) :
    lexemes (" || ".intercalate
        (platforms.map fun p ↦ "defined(" ++ platformSymbol p ++ ")")).toList =
      [bars].intercalate (platforms.map testLexemes) := by
  rw [String.toList_intercalate, List.map_map]
  induction platforms with
  | nil => rfl
  | cons platform platforms ih =>
    obtain ⟨hplatform, hplatforms⟩ := List.forall_mem_cons.1 h
    cases platforms with
    | nil =>
      have htest := lexemes_test hplatform []
      rw [lexemes, List.append_nil, List.append_nil] at htest
      simpa only [List.map_cons, List.map_nil, List.intercalate_singleton, Function.comp_apply]
        using htest
    | cons next platforms =>
      have hrest := ih hplatforms
      simp only [List.map_cons, List.intercalate_cons_cons, List.append_assoc] at hrest ⊢
      rw [Function.comp_apply, lexemes_test hplatform, lexemes_bars, hrest]

theorem mapM_testedSymbol? {platforms : List String}
    (h : ∀ platform ∈ platforms, IsPlatform platform) :
    (platforms.map testLexemes).mapM testedSymbol? = some (platforms.map platformSymbol) := by
  induction platforms with
  | nil => rfl
  | cons platform platforms ih =>
    obtain ⟨hplatform, hplatforms⟩ := List.forall_mem_cons.1 h
    rw [List.map_cons, List.mapM_cons, testedSymbol?_testLexemes hplatform, ih hplatforms]
    rfl

theorem bars_not_mem_testLexemes {platform : String} (h : IsPlatform platform) :
    bars ∉ testLexemes platform := by
  have hsymbol : bars ≠ (platformSymbol platform).toList := by
    intro heq
    have hname := (isSymbolName_platformSymbol h).2 '|' (heq ▸ List.mem_cons_self)
    exact absurd hname (by decide)
  simpa [testLexemes, bars] using hsymbol

theorem lexemes_directive {word : List Char} (hne : word ≠ [])
    (hword : ∀ c ∈ word, isNameChar c = true) (cs : List Char) :
    lexemes ('#' :: (word ++ ' ' :: cs)) = ['#'] :: word :: lexemes cs := by
  have hend : ∀ c ∈ (' ' :: cs).head?, isNameChar c = false := by simp; decide
  rw [lexemes_mark (by decide) (by decide) (by decide), lexemes_name hne hword hend,
    lexemes_blank (by decide)]

/-- The opening line of a guard tests for the symbols of its platforms. -/
theorem directive?_openLine {guard : Guard} (h : guard.IsNamed) :
    directive? guard.openLine = some (.opening
      (if guard = .anyOf [] then none else some (guard.platforms.map platformSymbol))) := by
  cases guard with
  | single platform =>
    obtain ⟨hsymbol, hname⟩ := isSymbolName_platformSymbol (h platform List.mem_cons_self)
    have hline : (Guard.single platform).openLine.toList =
        '#' :: ("ifdef".toList ++ ' ' :: ((platformSymbol platform).toList ++ [])) := by
      simp [openLine]
    have hlexemes : lexemes (Guard.single platform).openLine.toList =
        [['#'], "ifdef".toList, (platformSymbol platform).toList] := by
      rw [hline, lexemes_directive (by decide) (List.all_eq_true.1 rfl),
        lexemes_name (ne_nil_of_isSymbolName hsymbol) hname (by simp), lexemes]
    rw [directive?, hlexemes]
    simp only [beq_self_eq_true, if_true, hsymbol, String.ofList_toList]
    rfl
  | anyOf platforms =>
    have hplatforms : ∀ platform ∈ platforms, IsPlatform platform := h
    have hline : (Guard.anyOf platforms).openLine.toList =
        '#' :: ("if".toList ++ ' ' :: (" || ".intercalate
          (platforms.map fun p ↦ "defined(" ++ platformSymbol p ++ ")")).toList) := by
      simp [openLine]
    have hlexemes : lexemes (Guard.anyOf platforms).openLine.toList =
        ['#'] :: "if".toList :: [bars].intercalate (platforms.map testLexemes) := by
      rw [hline, lexemes_directive (by decide) (List.all_eq_true.1 rfl), lexemes_tests hplatforms]
    have hword : ("if".toList == "ifdef".toList) = false := by decide
    rw [directive?, hlexemes]
    simp only [hword, Bool.false_eq_true, if_false, beq_self_eq_true, if_true]
    cases platforms with
    | nil => rfl
    | cons platform platforms =>
      have hbars : ∀ lexemes ∈ (platform :: platforms).map testLexemes, bars ∉ lexemes := by
        rintro _ hmem
        obtain ⟨p, hp, rfl⟩ := List.mem_map.1 hmem
        exact bars_not_mem_testLexemes (hplatforms p hp)
      rw [List.splitOn_intercalate bars hbars (List.cons_ne_nil _ _),
        mapM_testedSymbol? hplatforms, if_neg (by simp)]
      rfl

theorem directive?_closeLine : directive? closeLine = some .closing := by decide

/-- The opening line of a guard is a conditional unless the guard lists no platform. -/
theorem conditional?_openLine {guard : Guard} (h : guard.IsNamed) :
    conditional? guard.openLine =
      if guard = .anyOf [] then none else some (guard.platforms.map platformSymbol) := by
  rw [conditional?, directive?_openLine h]

theorem admits_eq (guard : Guard) (platform : String) : guard.admits platform =
    (guard.platforms.map platformSymbol).any (· == platformSymbol platform) := by
  rw [List.any_map]
  cases guard with
  | single id => exact (Bool.or_false _).symm
  | anyOf ids => rfl

theorem holdsOn_eq_admits {guard : Guard} (h : guard.IsNamed) (platform : String) :
    guard.holdsOn platform = guard.admits platform := by
  rw [holdsOn, conditional?_openLine h, admits_eq]
  split
  · rename_i hnone
    rw [hnone]
    rfl
  · rfl

/-- A text between the lines of a guard is compiled just where the guard admits the platform. -/
theorem compile_enclose {guard : Guard} (h : guard.IsNamed) (hne : guard ≠ .anyOf [])
    {platform : String} {body kept : List String}
    (hbody : compile (· == platformSymbol platform) [] body = some kept) :
    compile (· == platformSymbol platform) [] (enclose (some guard) body) =
      some (if guard.admits platform then kept else []) := by
  have hinside := compile_append [guard.admits platform] rfl (fun _ ↦ rfl) hbody [closeLine]
  have hclosed : compile (· == platformSymbol platform) [guard.admits platform] [closeLine] =
      some [] := by
    rw [compile, directive?_closeLine]
    rfl
  rw [enclose, List.cons_append, compile, directive?_openLine h, if_neg hne]
  simp only [List.all_nil, if_true, Option.bind_some]
  rw [← admits_eq]
  rw [List.nil_append, hclosed] at hinside
  rw [hinside]
  cases guard.admits platform <;> simp

end Guard

/-! ### The filter for a platform -/

namespace Policy

variable {policy : Policy} {m : Module} {d : Location} {guard : Guard}

/-- Whether the line of some restriction that covers a declaration does not hold on a platform. -/
def failsOn (policy : Policy) (platform : String) (m : Module) (d : Location) : Bool :=
  policy.onlyFor.any fun restriction ↦
    !restriction.1.holdsOn platform && restriction.2.any (m.covers · d)

theorem isForeign_eq_failsOn (h : ∀ restriction ∈ policy.onlyFor, restriction.1.IsNamed)
    (platform : String) (m : Module) (d : Location) :
    policy.isForeign platform m d = policy.failsOn platform m d := by
  rw [Bool.eq_iff_iff, isForeign, failsOn, List.any_eq_true, List.any_eq_true]
  refine exists_congr fun restriction ↦ and_congr_right fun hmem ↦ ?_
  rw [Guard.holdsOn_eq_admits (h restriction hmem)]

theorem infoAt?_dropForeign (policy : Policy) (platform : String) (m : Module) (d : Location) :
    (policy.dropForeign platform m).infoAt? d = (m.infoAt? d).map fun info ↦
      { info with ignored := info.ignored || policy.isForeign platform m d } := by
  have hrevise := policy.applyPlatform_revise (some platform) m .nothing
  rw [Module.revise_nothing, Module.revise_andThen, Module.revise_nothing, applyPlatform]
    at hrevise
  rw [hrevise, Module.infoAt?_revise]
  exact congrArg (Option.map · _) (funext (policy.info_platformPass platform m d))

theorem exists_of_guardOn (h : policy.guardOn m d = some guard) :
    ∃ names, (guard, names) ∈ policy.onlyFor ∧ names.any (m.covers · d) = true := by
  rw [guardOn_eq] at h
  obtain ⟨⟨_, names⟩, hrestriction, rfl⟩ := Option.map_eq_some_iff.1 h
  exact ⟨names, List.mem_filter.1 (List.mem_of_getLast? hrestriction)⟩

/-- Where all restrictions on a declaration have the guard that it keeps, this guard decides. -/
theorem failsOn_eq_of_guardOn (h : policy.guardOn m d = some guard)
    (hsame : ∀ restriction ∈ policy.onlyFor, restriction.2.any (m.covers · d) = true →
      restriction.1 = guard) (platform : String) :
    policy.failsOn platform m d = !guard.holdsOn platform := by
  rw [Bool.eq_iff_iff, failsOn, List.any_eq_true]
  constructor
  · rintro ⟨restriction, hmem, hfails⟩
    obtain ⟨hholds, hcovers⟩ := Bool.and_eq_true_iff.1 hfails
    rwa [← hsame restriction hmem hcovers]
  · intro hholds
    obtain ⟨names, hmem, hcovers⟩ := exists_of_guardOn h
    exact ⟨(guard, names), hmem, Bool.and_eq_true_iff.2 ⟨hholds, hcovers⟩⟩

end Policy

namespace Emit

open Bindery.Emit.Part Preprocessor

/-! ### Outlines on a platform -/

/-- Whether a declaration is restricted, where its guard is heeded, and not to a platform. -/
def isForeign (heeds : Place → Target → Bool) (platform : String) (place : Place)
    (declared : Target) : Bool :=
  heeds place declared && declared.info.onlyFor.any (!·.admits platform)

namespace Part

mutual

/-- What is left of a part on a platform. -/
def keptOn (heeds : Place → Target → Bool) (platform : String) : Part → List Part
  | .line text => [.line text]
  | .written place declared body =>
    if isForeign heeds platform place declared then []
    else [.written place declared (allKeptOn heeds platform body)]

def allKeptOn (heeds : Place → Target → Bool) (platform : String) : List Part → List Part
  | [] => []
  | part :: parts => part.keptOn heeds platform ++ allKeptOn heeds platform parts

end

end Part

/-- The lines of some parts are no conditionals, and what opens their guards is. -/
inductive Compilable (heeds : Place → Target → Bool) : List Part → Prop
  | nil : Compilable heeds []
  | line {text : String} {parts : List Part} (htext : directive? text = none)
      (hparts : Compilable heeds parts) : Compilable heeds (.line text :: parts)
  | written {place : Place} {declared : Target} {body parts : List Part}
      (hguard : ∀ guard, heeds place declared = true → declared.info.onlyFor = some guard →
        guard.IsNamed ∧ guard ≠ .anyOf [])
      (hbody : Compilable heeds body) (hparts : Compilable heeds parts) :
      Compilable heeds (.written place declared body :: parts)

theorem compile_linesOf {heeds : Place → Target → Bool} {parts : List Part}
    (h : Compilable heeds parts) (platform : String) :
    compile (· == Guard.platformSymbol platform) [] (linesOf heeds parts) =
      some (linesOf heedsNone (allKeptOn heeds platform parts)) := by
  induction h with
  | nil => rfl
  | @line text parts htext _ ih =>
    rw [linesOf, lines, List.singleton_append, compile, htext]
    simp only [List.all_nil, if_true]
    rw [ih]
    rfl
  | @written place declared body parts hguard _ _ ihbody ih =>
    have hkept : linesOf heedsNone [.written place declared (allKeptOn heeds platform body)] =
        linesOf heedsNone (allKeptOn heeds platform body) := by
      rw [linesOf_singleton, lines_heedsNone]
    have hpart : compile (· == Guard.platformSymbol platform) []
        ((Part.written place declared body).lines heeds) =
          some (linesOf heedsNone ((Part.written place declared body).keptOn heeds platform)) := by
      rw [lines, Part.keptOn, isForeign]
      cases hheeds : heeds place declared with
      | false => simpa [hkept] using ihbody
      | true =>
        cases honlyFor : declared.info.onlyFor with
        | none => simpa [hkept, Guard.enclose] using ihbody
        | some guard =>
          obtain ⟨hnamed, hne⟩ := hguard guard hheeds honlyFor
          have hguarded := Guard.compile_enclose hnamed hne ihbody
          cases hadmits : guard.admits platform <;> simpa [hadmits, hkept, linesOf] using hguarded
    rw [linesOf, allKeptOn, compile_concat hpart, ih, linesOf_append]
    rfl

/-- The two readings of guards agree. The opening line of a guard is a conditional just when the
guard lists some platform, and it holds where the guard admits the platform. So the filter for a
platform leaves out what some restriction covers whose line does not hold, which is the line that a
declaration is written with if all restrictions on it have one guard; and a text with conditionals
is compiled to what is left of its outline on the platform. -/
theorem guards_read_alike (platform : String) :
    (∀ guard : Guard, guard.IsNamed →
      ((conditional? guard.openLine).isSome = true ↔ guard ≠ .anyOf []) ∧
      guard.holdsOn platform = guard.admits platform) ∧
    (∀ (policy : Policy) (m : Module),
      (∀ restriction ∈ policy.onlyFor, restriction.1.IsNamed) →
      ∀ d, (policy.dropForeign platform m).infoAt? d = (m.infoAt? d).map (fun info ↦
          { info with ignored := info.ignored || policy.failsOn platform m d }) ∧
        ∀ guard, policy.guardOn m d = some guard →
          (∀ restriction ∈ policy.onlyFor, restriction.2.any (m.covers · d) = true →
            restriction.1 = guard) →
          policy.failsOn platform m d = !guard.holdsOn platform) ∧
    (∀ heeds parts, Compilable heeds parts →
      compile (· == Guard.platformSymbol platform) [] (linesOf heeds parts) =
        some (linesOf heedsNone (allKeptOn heeds platform parts))) := by
  refine ⟨fun guard h ↦ ⟨?_, Guard.holdsOn_eq_admits h platform⟩,
    fun policy m hnamed d ↦ ⟨?_, fun guard hguard hsame ↦
      Policy.failsOn_eq_of_guardOn hguard hsame platform⟩,
    fun heeds parts h ↦ compile_linesOf h platform⟩
  · rw [Guard.conditional?_openLine h]
    split <;> simp [*]
  · rw [policy.infoAt?_dropForeign, Policy.isForeign_eq_failsOn hnamed]

namespace Watches

/-- Clocks are for two platforms. -/
def restricted : Policy :=
  { Policy.empty "Clocks" "Watches" with onlyFor := [(.anyOf ["msw", "osx"], ["Clock"])] }

/-- The place of the clock. -/
def place : Location := { item := 0, way := .here }

/-- The declaration of a clock with its constructor. -/
def clockParts : List Part :=
  [.written .item (.ofClass clock)
    [.line "class Clock \x7b", .written .member (.method ⟨build, []⟩) [.line "  Clock();"],
      .line "\x7d;"]]

end Watches

open Watches in
/-- Clocks that are for two platforms are left out on a third one, where of the text of a clock the
constructor is passed over. -/
theorem clock_read_alike :
    ((conditional? (Guard.anyOf ["msw", "osx"]).openLine).isSome = true ∧
      (Guard.anyOf ["msw", "osx"]).holdsOn "gtk" = false) ∧
    ((restricted.dropForeign "gtk" clocks.module).infoAt? place).map (·.ignored) = some true ∧
    compile (· == "__GTK__") [] (linesOf isGuarded clockParts) =
      some ["class Clock \x7b", "\x7d;"] := by
  obtain ⟨hguards, hfilter, htext⟩ := guards_read_alike "gtk"
  have hlist := hguards (.anyOf ["msw", "osx"]) (by decide +kernel)
  obtain ⟨hinfo, honce⟩ := hfilter restricted clocks.module (by decide +kernel) place
  have hfails := honce (.anyOf ["msw", "osx"]) (by decide +kernel) (by decide +kernel)
  have hparts : Compilable isGuarded clockParts := by
    refine .written (fun guard _ h ↦ ?_) (.line (by decide +kernel) (.written (fun guard _ h ↦ ?_)
      (.line (by decide +kernel) .nil) (.line (by decide +kernel) .nil))) .nil
    · cases h
    · cases h
      exact ⟨by decide +kernel, by decide⟩
  have hfalse : (Guard.anyOf ["msw", "osx"]).holdsOn "gtk" = false :=
    hlist.2.trans (by decide +kernel)
  refine ⟨⟨hlist.1.2 (by decide), hfalse⟩, ?_, ?_⟩
  · rw [hinfo, hfails, hfalse]
    decide +kernel
  · have hcompiled := htext isGuarded clockParts hparts
    rw [show Guard.platformSymbol "gtk" = "__GTK__" by decide +kernel] at hcompiled
    rw [hcompiled]
    decide +kernel

/-- A guard for an empty list of platforms is one that admits no platform, but its opening line is
no conditional, and a text with it is not compiled. -/
theorem nowhere_unreadable : Guard.ofList [] = .anyOf [] ∧ (Guard.anyOf []).IsNamed ∧
    (Guard.anyOf []).admits "msw" = false ∧ (Guard.anyOf []).openLine = "#if " ∧
    conditional? (Guard.anyOf []).openLine = none ∧
    compile (· == "__MSW__") [] (Guard.enclose (some (.anyOf [])) ["void Beep();"]) = none :=
  ⟨rfl, by decide, rfl, by decide +kernel, by decide +kernel, by decide +kernel⟩

end Emit

end Bindery
