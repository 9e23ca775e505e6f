import Bindery.Package.Generation
import Bindery.Proofs.Files.Growth
import Bindery.Proofs.Interface.Growth
import Bindery.Proofs.Run

/-!
Emission. The texts of a module depend on the registry only through the interfaces of its own
classes (`codeTexts_congr`, `docText_congr`). Writing texts to outputs of a package ends in the same
way whatever outputs have been written before, and leaves the same texts behind
(`run_writeIfChanged_of_writable`, `run_writeTexts`).
-/

set_option autoImplicit false
set_option relaxedAutoImplicit false

namespace Bindery

/-! ### Texts -/

/-- The registries agree on the classes that a module generates. -/
def View.AgreeOn (view : View) (registry other : InterfaceRegistry) : Prop :=
  ∀ c ∈ view.generatedClasses,
    registry.interface? (view.className c) = other.interface? (view.className c)

section Congr

variable {view : View} {registry other : InterfaceRegistry} (h : view.AgreeOn registry other)

include h

theorem View.AgreeOn.expect {c : Class} (hc : c ∈ view.generatedClasses) :
    registry.expect (view.className c) = other.expect (view.className c) := by
  rw [InterfaceRegistry.expect, InterfaceRegistry.expect, h c hc]

theorem Emit.header_congr (rules : TypemapRules) :
    Emit.header view registry rules = Emit.header view other rules := by
  have hclasses : view.generatedClasses.mapM (classLines view registry rules) =
      view.generatedClasses.mapM (classLines view other rules) := by
    refine mapM_congr_left fun c hc ↦ ?_
    have hexpect : registry.expect (view.policy.className c.name) =
        other.expect (view.policy.className c.name) := h.expect hc
    rw [classLines, classLines, hexpect]
  rw [header, header, hclasses]

theorem Emit.documentation_congr (rules : TypemapRules) :
    Emit.documentation view registry rules = Emit.documentation view other rules := by
  have hclasses : (view.generatedClasses.filter (!·.info.ignoreDoc)).mapM
      (classStub view registry rules) =
        (view.generatedClasses.filter (!·.info.ignoreDoc)).mapM (classStub view other rules) := by
    refine mapM_congr_left fun c hc ↦ ?_
    have hexpect : registry.expect (view.policy.className c.name) =
        other.expect (view.policy.className c.name) := h.expect (List.mem_filter.1 hc).1
    rw [classStub, classStub, hexpect]
  rw [documentation, documentation]
  simp only [hclasses]

end Congr

namespace Package

variable {package : Package} {module : String} {policy : Policy} {extraction : Extraction}
  {registry other : InterfaceRegistry}

theorem codeTexts_congr (hpolicy : package.policy module = .ok policy)
    (h : View.AgreeOn ⟨policy, extraction.module⟩ registry other) :
    package.codeTexts module extraction registry = package.codeTexts module extraction other := by
  rw [codeTexts, codeTexts, hpolicy]
  simp only [bind, Except.bind, Emit.header_congr h]

theorem docText_congr (hpolicy : package.policy module = .ok policy)
    (h : View.AgreeOn ⟨policy, extraction.module⟩ registry other) :
    package.docText module extraction registry = package.docText module extraction other := by
  rw [docText, docText, hpolicy]
  simp only [bind, Except.bind, Emit.documentation_congr h]

end Package

/-! ### Writing -/

namespace Files

/-- The text that writing some files leaves at a place. Of several for one, the last counts. -/
def lastText? : List (String × String) → Place → Option String
  | [], _ => none
  | (path, text) :: rest, place =>
    (lastText? rest place).or (if destination path = place then some text else none)

/-- The texts in front of the first that cannot be written. -/
def writable (fs : Files) (texts : List (String × String)) : List (String × String) :=
  texts.takeWhile fun entry ↦ (fs.write entry.1 entry.2).1

theorem writable_cons_of_true {fs : Files} {path text : String} {rest : List (String × String)}
    (h : (fs.write path text).1 = true) :
    fs.writable ((path, text) :: rest) = (path, text) :: fs.writable rest :=
  List.takeWhile_cons_of_pos h

theorem writable_cons_of_false {fs : Files} {path text : String} {rest : List (String × String)}
    (h : (fs.write path text).1 = false) : fs.writable ((path, text) :: rest) = [] :=
  List.takeWhile_cons_of_neg (by simp [h])

theorem exists_of_lastText?_eq_some {texts : List (String × String)} {place : Place} {text : String}
    (h : lastText? texts place = some text) : ∃ entry ∈ texts, destination entry.1 = place := by
  induction texts with
  | nil => cases h
  | cons entry rest ih =>
    obtain ⟨path, first⟩ := entry
    rw [lastText?] at h
    by_cases hplace : destination path = place
    · exact ⟨(path, first), List.mem_cons_self, hplace⟩
    · rw [if_neg hplace, Option.or_none] at h
      obtain ⟨entry, hentry, heq⟩ := ih h
      exact ⟨entry, List.mem_cons_of_mem _ hentry, heq⟩

end Files

namespace Run

variable {paths : List String} {files : Files} {s t : Session} {path text : String}

/-- After a file has been written, it holds the text. The flag tells whether it could not be read
with this text before. -/
theorem writeIfChanged_eq_ok {written : Bool}
    (h : (writeIfChanged path text).run s = (.ok written, t)) :
    t.files.content? (Files.destination path) = some text ∧
      (written = true ↔ s.files.read? path ≠ some text) := by
  rw [writeIfChanged, run_get_bind] at h
  by_cases hread : s.files.read? path = some text
  · rw [if_pos hread] at h
    obtain ⟨houtcome, hsame⟩ := Prod.mk.inj h
    rw [← hsame, ← Except.ok.inj houtcome]
    exact ⟨Files.content?_of_read? hread, iff_of_false Bool.false_ne_true fun hne ↦ hne hread⟩
  · rw [if_neg hread] at h
    have hself := @Files.content?_write_self s.files path text
    rcases hwrite : s.files.write path text with ⟨isWritten, later⟩
    rw [hwrite] at h hself
    cases isWritten with
    | false => cases (Prod.mk.inj h).1
    | true =>
      obtain ⟨houtcome, hsame⟩ := Prod.mk.inj h
      rw [← hsame, ← Except.ok.inj houtcome]
      exact ⟨hself rfl, iff_of_true rfl hread⟩

variable (hseparate : Files.Separate paths) (hgrown : Files.Grown paths files s.files)

include hseparate hgrown

/-- An output that could be written at the start is written, unless it holds the text already. -/
theorem run_writeIfChanged_of_writable (hpath : path ∈ paths)
    (hwritable : (files.write path text).1 = true) :
    ∃ written later, (writeIfChanged path text).run s = (.ok written, { s with files := later }) ∧
      Files.Grown paths files later ∧ ∀ place, later.content? place =
        (if Files.destination path = place then some text else none).or
          (s.files.content? place) := by
  rw [writeIfChanged, run_get_bind]
  by_cases hread : s.files.read? path = some text
  · rw [if_pos hread]
    refine ⟨false, s.files, rfl, hgrown, fun place ↦ ?_⟩
    by_cases hplace : Files.destination path = place
    · rw [if_pos hplace, Option.some_or, ← hplace, Files.content?_of_read? hread]
    · rw [if_neg hplace, Option.none_or]
  · rw [if_neg hread]
    have hwritten : (s.files.write path text).1 = true :=
      (hgrown.write_fst hseparate hpath text text).trans hwritable
    have hlater := hgrown.write (hseparate.names path hpath) hpath text
    have hself := Files.content?_write_self hwritten
    have hother {place : Place} (hplace : place ≠ Files.destination path) :
        (s.files.write path text).2.content? place = s.files.content? place :=
      Files.content?_write_of_ne hplace
    rcases hwrite : s.files.write path text with ⟨written, later⟩
    rw [hwrite] at hwritten hlater hself hother
    obtain rfl : written = true := hwritten
    refine ⟨true, later, rfl, hlater, fun place ↦ ?_⟩
    by_cases hplace : Files.destination path = place
    · rw [if_pos hplace, Option.some_or, ← hplace]
      exact hself
    · rw [if_neg hplace, Option.none_or]
      exact hother (Ne.symm hplace)

/-- An output that could not be written at the start is never written. -/
theorem run_writeIfChanged_of_not_writable (hpath : path ∈ paths)
    (hwritable : (files.write path text).1 = false) :
    ∃ later, (writeIfChanged path text).run s = (.error .io, { s with files := later }) ∧
      Files.Grown paths files later ∧
        ∀ place, later.content? place = s.files.content? place := by
  have hwritten : (s.files.write path text).1 = false :=
    (hgrown.write_fst hseparate hpath text text).trans hwritable
  have hread : s.files.read? path ≠ some text := by
    intro hread
    have hwrite := Files.write_of_read? (hseparate.names path hpath) hread text
    rw [hwritten] at hwrite
    cases hwrite
  have hlater := hgrown.write (hseparate.names path hpath) hpath text
  have hcontent := Files.content?_write_of_failed hwritten
  rw [writeIfChanged, run_get_bind, if_neg hread]
  rcases hwrite : s.files.write path text with ⟨written, later⟩
  rw [hwrite] at hwritten hlater hcontent
  obtain rfl : written = false := hwritten
  exact ⟨later, rfl, hlater, hcontent⟩

omit hgrown in
/-- Outputs are written up to the first that could not be written at the start. -/
theorem run_writeTexts (hgrown : Files.Grown paths files s.files) {texts : List (String × String)}
    (hpaths : ∀ entry ∈ texts, entry.1 ∈ paths) :
    ∃ later, (writeTexts texts).run s =
        (if texts.all fun entry ↦ (files.write entry.1 entry.2).1 then .ok () else .error .io,
          { s with files := later }) ∧
      Files.Grown paths files later ∧ ∀ place, later.content? place =
        (Files.lastText? (files.writable texts) place).or (s.files.content? place) := by
  unfold writeTexts
  induction texts generalizing s with
  | nil => exact ⟨s.files, rfl, hgrown, fun place ↦ rfl⟩
  | cons entry rest ih =>
    obtain ⟨path, text⟩ := entry
    obtain ⟨hpath, hrest⟩ := List.forall_mem_cons.1 hpaths
    rw [List.forM, List.all_cons]
    cases hwritable : (files.write path text).1 with
    | true =>
      obtain ⟨written, next, hrun, hnext, hcontent⟩ :=
        run_writeIfChanged_of_writable hseparate hgrown hpath hwritable
      obtain ⟨later, hlater, hgrownLater, hcontentLater⟩ := ih (s := { s with files := next })
        hnext hrest
      have hfirst : (do let _ ← writeIfChanged path text : Run Unit).run s =
          (.ok (), { s with files := next }) := run_bind_of_ok hrun _
      rw [run_bind_of_ok hfirst, hlater, Files.writable_cons_of_true hwritable]
      refine ⟨later, rfl, hgrownLater, fun place ↦ ?_⟩
      rw [hcontentLater, hcontent, Files.lastText?, Option.or_assoc]
    | false =>
      obtain ⟨later, hrun, hlater, hcontent⟩ :=
        run_writeIfChanged_of_not_writable hseparate hgrown hpath hwritable
      have hfirst : (do let _ ← writeIfChanged path text : Run Unit).run s =
          (.error .io, { s with files := later }) := run_bind_of_error hrun _
      rw [run_bind_of_error hfirst, Files.writable_cons_of_false hwritable]
      exact ⟨later, rfl, hlater, fun place ↦ hcontent place⟩

end Run

end Bindery
