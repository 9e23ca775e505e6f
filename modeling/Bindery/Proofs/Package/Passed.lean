import Bindery.Package.Calls
import Bindery.Proofs.Files.Writing
import Bindery.Proofs.Interface.Comparison
import Bindery.Proofs.Interface.Entries
import Bindery.Proofs.Package.Lookup
import Mathlib.Data.List.Induction

/-!
Modules that have passed the check. An analysis ends in one of four ways (`analyze_cases`): the
module cannot be prepared, it has passed before, its check fails, or its check passes. Only the last
marks the module, and a module that is marked stays prepared. So the marked modules are those whose
check has passed in one of the calls (`mem_checked_iff`), nothing is written for any other module,
and a module that has passed once can be analyzed forever (`files_written_once_passed`).
-/

set_option autoImplicit false
set_option relaxedAutoImplicit false

namespace Bindery

namespace Session

/-- What an analysis keeps until it marks the module: registered classes up to dropped methods,
extractions, the marks, and the files. -/
structure Grows (s t : Session) : Prop where
  registry : s.registry.Grows t.registry
  extractions : ∀ module extraction, s.extractions.find? module = some extraction →
    t.extractions.find? module = some extraction
  checked : t.checked = s.checked
  files : t.files = s.files

instance : IsPreorder Session Grows where
  refl s := ⟨.refl s.registry, fun _ _ h ↦ h, rfl, rfl⟩
  trans _ _ _ hst htu :=
    { registry := hst.registry.trans htu.registry
      extractions := fun module extraction h ↦
        htu.extractions module extraction (hst.extractions module extraction h)
      checked := htu.checked.trans hst.checked
      files := htu.files.trans hst.files }

theorem allows_grows : Allows Grows where
  index s _ _ := ⟨.refl s.registry, fun _ _ h ↦ h, rfl, rfl⟩
  keep s module extraction hnew := by
    refine ⟨.refl s.registry, fun other known hknown ↦ ?_, rfl, rfl⟩
    have hne : other ≠ module := by
      intro heq
      rw [heq, hnew] at hknown
      cases hknown
    exact (Table.find?_alter_of_ne s.extractions hne extraction _).trans hknown
  register s className interface _ :=
    ⟨(InterfaceRegistry.extends_append s.registry className interface).grows, fun _ _ h ↦ h, rfl,
      rfl⟩

theorem grows_settle (s : Session) (found : List Finding) : s.Grows (s.settle found) :=
  ⟨InterfaceRegistry.grows_foldl_settle s.registry found, fun _ _ h ↦ h, rfl, rfl⟩

/-- What writing some files keeps: everything but the files, and the text of every other file. -/
structure Writes (paths : List String) (s t : Session) : Prop where
  same : t = { s with files := t.files }
  content : ∀ place, place ∉ paths.map Files.destination →
    t.files.content? place = s.files.content? place

instance (paths : List String) : IsPreorder Session (Writes paths) where
  refl _ := ⟨rfl, fun _ _ ↦ rfl⟩
  trans _ _ _ hst htu :=
    { same := by rw [htu.same, hst.same]
      content := fun place hplace ↦ (htu.content place hplace).trans (hst.content place hplace) }

end Session

/-- Writing a file changes nothing but the files. -/
theorem Run.moves_writeIfChanged_of_files {R : Session → Session → Prop} [IsPreorder Session R]
    {path text : String} (h : ∀ s : Session, R s { s with files := (s.files.write path text).2 }) :
    (Run.writeIfChanged path text).Moves R := by
  intro s
  rw [writeIfChanged, run_get_bind]
  split
  · exact Std.Refl.refl s
  · have hfiles := h s
    rcases hwrite : s.files.write path text with ⟨written, files⟩
    rw [hwrite] at hfiles
    cases written <;> exact hfiles

/-- Writing a file changes no more than the text at its destination. -/
theorem Run.moves_writeIfChanged {paths : List String} {path : String} (hpath : path ∈ paths)
    (text : String) : (Run.writeIfChanged path text).Moves (Session.Writes paths) := by
  refine moves_writeIfChanged_of_files fun s ↦ ⟨rfl, fun place hplace ↦ ?_⟩
  refine Files.content?_write_of_ne fun heq ↦ hplace ?_
  exact List.mem_map.2 ⟨path, hpath, heq.symm⟩

namespace Package

variable {package : Package} {s t : Session} {module : String}

/-! ### Preparing a module -/

/-- The module is extracted, and all of its classes are registered. -/
def IsPrepared (package : Package) (s : Session) (module : String) (policy : Policy)
    (extraction : Extraction) : Prop :=
  package.policy module = .ok policy ∧
    s.extractions.find? policy.moduleName = some extraction ∧
      ∀ c ∈ View.generatedClasses ⟨policy, extraction.module⟩,
        s.registry.hasClass (View.className ⟨policy, extraction.module⟩ c) = true

variable {policy : Policy} {extraction : Extraction}

theorem isPrepared_of_prepare_eq_ok
    (h : (package.prepare module).run s = (.ok (policy, extraction), t)) :
    package.IsPrepared t module policy extraction := by
  obtain ⟨found, u, hpolicy, h⟩ := Run.run_bind_eq_ok.1 h
  obtain ⟨known, v, hextract, h⟩ := Run.run_bind_eq_ok.1 h
  obtain ⟨_, w, hregister, h⟩ := Run.run_bind_eq_ok.1 h
  cases h
  rw [Run.run_ofExcept] at hpolicy
  refine ⟨(Prod.mk.inj hpolicy).1, ?_, fun c hc ↦ View.hasClass_of_registerClasses hregister hc⟩
  have hgrows : v.Grows t :=
    (View.moves_registerClasses Session.allows_grows ⟨policy, extraction.module⟩).of_eq hregister
  exact hgrows.extractions _ _ (find?_of_extract_eq_ok hextract)

/-- A prepared module is not prepared again. -/
theorem IsPrepared.run_prepare (h : package.IsPrepared s module policy extraction) :
    (package.prepare module).run s = (.ok (policy, extraction), s) := by
  obtain ⟨hpolicy, hextraction, hclasses⟩ := h
  rw [prepare, hpolicy, Run.run_ofExcept_bind_ok,
    Run.run_bind_of_ok (run_extract_of_known hextraction),
    Run.run_bind_of_ok (View.run_registerClasses_of_known hclasses)]
  rfl

/-- A module stays prepared while registered classes and extractions are kept. -/
theorem IsPrepared.mono (h : package.IsPrepared s module policy extraction)
    (hregistry : s.registry.Grows t.registry)
    (hextractions : ∀ module extraction, s.extractions.find? module = some extraction →
      t.extractions.find? module = some extraction) :
    package.IsPrepared t module policy extraction :=
  ⟨h.1, hextractions _ _ h.2.1, fun c hc ↦ hregistry.hasClass (h.2.2 c hc)⟩

/-! ### Analyses -/

theorem moves_check_grows (view : View) :
    (view.check package.ensureInterface).Moves Session.Grows :=
  (admits_of_allows Session.allows_grows package).check Session.grows_settle view

/-- A module that has passed before is prepared and nothing else. -/
theorem run_analyze_of_marked
    (hprepare : (package.prepare module).run s = (.ok (policy, extraction), t))
    (hmarked : module ∈ t.checked) : (package.analyze module).run s = (.ok extraction, t) := by
  rw [analyze, Run.run_bind_of_ok hprepare]
  simp only [Run.run_get_bind, List.contains_iff_mem.2 hmarked, Bool.not_true]
  rfl

/-- Any other module is checked, and marked when the check passes. -/
theorem run_analyze_of_unmarked
    (hprepare : (package.prepare module).run s = (.ok (policy, extraction), t))
    (hnew : module ∉ t.checked) {outcome : Except Error Report} {u : Session}
    (hcheck : (View.check package.ensureInterface ⟨policy, extraction.module⟩).run t =
      (outcome, u)) :
    (package.analyze module).run s =
      match outcome with
      | .ok _ => (.ok extraction, { u with checked := u.checked ++ [module] })
      | .error e => (.error e, u) := by
  have hcontains : t.checked.contains module = false := by simp [hnew]
  rw [analyze, Run.run_bind_of_ok hprepare]
  simp only [Run.run_get_bind, hcontains, Bool.not_false, if_true]
  cases outcome with
  | ok report =>
    rw [Run.run_bind_of_ok hcheck]
    rfl
  | error e => rw [Run.run_bind_of_error hcheck]

/-- The check of a module passes in an analysis that starts in a session: the module is prepared, it
is not marked, and the check returns a report. -/
def PassesIn (package : Package) (s : Session) (module : String) : Prop :=
  ∃ policy extraction prepared report checked,
    (package.prepare module).run s = (.ok (policy, extraction), prepared) ∧
      module ∉ prepared.checked ∧
        (View.check package.ensureInterface ⟨policy, extraction.module⟩).run prepared =
          (.ok report, checked)

/-- An analysis fails without passing the check, or the module has passed before, or it passes now,
and is marked. -/
theorem analyze_cases (package : Package) (module : String) (s : Session) :
    (∃ e t, (package.analyze module).run s = (.error e, t) ∧ s.Grows t ∧
      ¬package.PassesIn s module) ∨
    (∃ policy extraction t, (package.analyze module).run s = (.ok extraction, t) ∧ s.Grows t ∧
      package.IsPrepared t module policy extraction ∧ module ∈ s.checked ∧
      ¬package.PassesIn s module) ∨
    ∃ policy extraction t, (package.analyze module).run s =
        (.ok extraction, { t with checked := t.checked ++ [module] }) ∧ s.Grows t ∧
      package.IsPrepared t module policy extraction ∧ package.PassesIn s module := by
  rcases hprepare : (package.prepare module).run s with ⟨outcome, t⟩
  have hst : s.Grows t := (moves_prepare Session.allows_grows package module).of_eq hprepare
  cases outcome with
  | error e =>
    refine .inl ⟨e, t, by rw [analyze, Run.run_bind_of_error hprepare], hst, ?_⟩
    rintro ⟨policy, extraction, prepared, report, checked, h, -⟩
    rw [hprepare] at h
    cases h
  | ok prepared =>
    obtain ⟨policy, extraction⟩ := prepared
    have hprepared := isPrepared_of_prepare_eq_ok hprepare
    by_cases hmarked : module ∈ t.checked
    · refine .inr (.inl ⟨policy, extraction, t, run_analyze_of_marked hprepare hmarked, hst,
        hprepared, hst.checked ▸ hmarked, ?_⟩)
      rintro ⟨policy, extraction, prepared, report, checked, h, hnew, -⟩
      rw [hprepare] at h
      cases h
      exact hnew hmarked
    · rcases hcheck : (View.check package.ensureInterface ⟨policy, extraction.module⟩).run t with
        ⟨outcome, u⟩
      have htu : t.Grows u := (moves_check_grows ⟨policy, extraction.module⟩).of_eq hcheck
      have hsu : s.Grows u := IsTrans.trans _ _ _ hst htu
      have hrun := run_analyze_of_unmarked hprepare hmarked hcheck
      cases outcome with
      | error e =>
        refine .inl ⟨e, u, hrun, hsu, ?_⟩
        rintro ⟨policy, extraction, prepared, report, checked, h, -, hpasses⟩
        rw [hprepare] at h
        cases h
        rw [hcheck] at hpasses
        cases hpasses
      | ok report =>
        refine .inr (.inr ⟨policy, extraction, u, hrun, hsu, ?_, ?_⟩)
        · exact hprepared.mono htu.registry htu.extractions
        · exact ⟨policy, extraction, t, report, u, hprepare, hmarked, hcheck⟩

theorem IsPrepared.run_analyze (h : package.IsPrepared s module policy extraction)
    (hmarked : module ∈ s.checked) : (package.analyze module).run s = (.ok extraction, s) :=
  run_analyze_of_marked h.run_prepare hmarked

/-! ### Calls -/

/-- The code of a module goes to its outputs. -/
theorem mem_outputs_of_codeTexts {registry : InterfaceRegistry} {texts : List (String × String)}
    (h : package.codeTexts module extraction registry = .ok texts) :
    ∀ entry ∈ texts, entry.1 ∈ package.outputs .code module := by
  obtain ⟨policy, -, h⟩ := bind_eq_ok.1 h
  obtain ⟨rules, -, h⟩ := bind_eq_ok.1 h
  obtain ⟨header, -, h⟩ := bind_eq_ok.1 h
  cases h
  intro entry hentry
  simp only [List.cons_append, List.nil_append, List.mem_cons, List.mem_map] at hentry
  rcases hentry with rfl | rfl | ⟨script, -, rfl⟩ <;> dsimp only
  · exact List.mem_cons_self
  · exact List.mem_cons_of_mem _ List.mem_cons_self
  · exact List.mem_cons_of_mem _ (List.mem_cons_of_mem _ List.mem_cons_self)

section Emit

variable {R : Session → Session → Prop} [IsPreorder Session R]

theorem moves_emitCode (hwrite : ∀ path ∈ package.outputs .code module, ∀ text,
    (Run.writeIfChanged path text).Moves R) (extraction : Extraction) :
    (package.emitCode module extraction).Moves R := by
  refine Run.moves_get.bind fun session ↦ Run.moves_ofExcept_bind fun texts htexts ↦ ?_
  refine Run.moves_forM fun entry hentry ↦ ?_
  have hpath := mem_outputs_of_codeTexts htexts entry hentry
  exact (hwrite entry.1 hpath entry.2).bind fun _ ↦ Run.moves_pure _

theorem moves_emitDoc (hwrite : ∀ path ∈ package.outputs .doc module, ∀ text,
    (Run.writeIfChanged path text).Moves R) (extraction : Extraction) :
    (package.emitDoc module extraction).Moves R :=
  Run.moves_get.bind fun _ ↦ Run.moves_ofExcept_bind fun text _ ↦
    hwrite _ (List.mem_singleton_self _) text

/-- After the analysis, a call moves as writing the outputs of its module does. -/
theorem moves_emit (package : Package) (call : Call) (extraction : Extraction)
    (hwrite : ∀ path ∈ package.outputs call.kind call.module, ∀ text,
      (Run.writeIfChanged path text).Moves R) : (package.emit call extraction).Moves R := by
  obtain ⟨kind, module⟩ := call
  cases kind with
  | analyze => exact Run.moves_pure _
  | code => exact (moves_emitCode hwrite extraction).bind fun _ ↦ Run.moves_pure _
  | doc => exact (moves_emitDoc hwrite extraction).bind fun _ ↦ Run.moves_pure _

end Emit

/-- After the analysis, a call only writes outputs of its module. -/
theorem writes_emit (package : Package) (call : Call) (extraction : Extraction) :
    (package.emit call extraction).Moves
      (Session.Writes (package.outputs call.kind call.module)) :=
  moves_emit package call extraction fun _ hpath text ↦ Run.moves_writeIfChanged hpath text

/-- What a call does: registered classes and extractions stay, the module is marked if its check
passes in the call, and files are only written for a module that is marked. -/
structure Performs (package : Package) (call : Call) (s t : Session) : Prop where
  registry : s.registry.Grows t.registry
  extractions : ∀ module extraction, s.extractions.find? module = some extraction →
    t.extractions.find? module = some extraction
  marked : ∀ module, module ∈ t.checked ↔
    module ∈ s.checked ∨ module = call.module ∧ package.PassesIn s module
  prepared : package.PassesIn s call.module →
    ∃ policy extraction, package.IsPrepared t call.module policy extraction
  files : call.module ∉ t.checked → t.files = s.files
  content : ∀ place,
    place ∉ (package.outputs call.kind call.module).map Files.destination →
      t.files.content? place = s.files.content? place

theorem performs (package : Package) (call : Call) (s : Session) :
    package.Performs call s ((package.perform call).run s).2 := by
  rw [perform_eq]
  rcases package.analyze_cases call.module s with
    ⟨e, t, hrun, hst, hfails⟩ | ⟨policy, extraction, t, hrun, hst, -, hmarked, hnew⟩ |
      ⟨policy, extraction, t, hrun, hst, hprepared, hpasses⟩
  · rw [Run.run_bind_of_error hrun]
    refine ⟨hst.registry, hst.extractions, fun module ↦ ?_, ?_, fun _ ↦ hst.files, fun _ _ ↦ ?_⟩
    · rw [hst.checked]
      exact ⟨.inl, fun h ↦ h.elim id fun ⟨heq, hpasses⟩ ↦ (hfails (heq ▸ hpasses)).elim⟩
    · exact fun hpasses ↦ (hfails hpasses).elim
    · rw [hst.files]
  · rw [Run.run_bind_of_ok hrun]
    obtain ⟨hsame, hcontent⟩ := writes_emit package call extraction t
    rw [hsame]
    refine ⟨hst.registry, hst.extractions, fun module ↦ ?_, ?_, fun habsent ↦ ?_, ?_⟩
    · rw [hst.checked]
      exact ⟨.inl, fun h ↦ h.elim id fun ⟨heq, _⟩ ↦ heq ▸ hmarked⟩
    · exact fun hpasses ↦ (hnew hpasses).elim
    · exact (habsent (hst.checked ▸ hmarked)).elim
    · exact fun place hplace ↦ (hcontent place hplace).trans (by rw [hst.files])
  · rw [Run.run_bind_of_ok hrun]
    obtain ⟨hsame, hcontent⟩ :=
      writes_emit package call extraction { t with checked := t.checked ++ [call.module] }
    rw [hsame]
    refine ⟨hst.registry, hst.extractions, fun module ↦ ?_, ?_, fun habsent ↦ ?_, ?_⟩
    · rw [List.mem_append, List.mem_singleton, hst.checked]
      exact ⟨fun h ↦ h.imp id fun heq ↦ ⟨heq, heq ▸ hpasses⟩, fun h ↦ h.imp id And.left⟩
    · exact fun _ ↦ ⟨policy, extraction, hprepared⟩
    · exact (habsent (List.mem_append_right _ (List.mem_singleton_self _))).elim
    · exact fun place hplace ↦ (hcontent place hplace).trans (by rw [hst.files])

theorem after_analyze (package : Package) (s : Session) (module : String) :
    package.after s [⟨.analyze, module⟩] = ((package.analyze module).run s).2 := by
  rcases hrun : (package.analyze module).run s with ⟨outcome, t⟩
  have hreply := Run.run_bind_pure hrun Reply.extraction
  exact congrArg Prod.snd hreply

/-! ### Sequences of calls -/

/-- The check of the module has passed in one of the calls. -/
def Passed (package : Package) (start : Session) (calls : List Call) (module : String) : Prop :=
  ∃ before kind, before ++ [⟨kind, module⟩] <+: calls ∧
    package.PassesIn (package.after start before) module

theorem passed_concat_iff {start : Session} {calls : List Call} {call : Call} :
    package.Passed start (calls ++ [call]) module ↔
      package.Passed start calls module ∨
        module = call.module ∧ package.PassesIn (package.after start calls) module := by
  constructor
  · rintro ⟨before, kind, hprefix, hpasses⟩
    rcases List.prefix_concat_iff.1 hprefix with heq | hprefix
    · obtain ⟨rfl, hcall⟩ := List.append_inj' heq rfl
      exact .inr ⟨congrArg Call.module (List.singleton_inj.1 hcall), hpasses⟩
    · exact .inl ⟨before, kind, hprefix, hpasses⟩
  · rintro (⟨before, kind, hprefix, hpasses⟩ | ⟨rfl, hpasses⟩)
    · exact ⟨before, kind, hprefix.trans (List.prefix_append _ _), hpasses⟩
    · exact ⟨calls, call.kind, List.prefix_rfl, hpasses⟩

/-- The marked modules are those that have passed. -/
theorem mem_checked_iff {start : Session} (hstart : start.checked = []) {calls : List Call} :
    module ∈ (package.after start calls).checked ↔ package.Passed start calls module := by
  induction calls using List.reverseRecOn with
  | nil =>
    rw [after_nil, hstart]
    refine ⟨fun h ↦ (List.not_mem_nil h).elim, ?_⟩
    rintro ⟨before, kind, hprefix, -⟩
    simp at hprefix
  | append_singleton calls call ih =>
    rw [after_concat, (performs package call _).marked, ih, passed_concat_iff]

/-- A module that has passed stays prepared. -/
theorem isPrepared_of_passed {start : Session} {calls : List Call}
    (h : package.Passed start calls module) : ∃ policy extraction,
      package.IsPrepared (package.after start calls) module policy extraction := by
  induction calls using List.reverseRecOn with
  | nil =>
    obtain ⟨before, kind, hprefix, -⟩ := h
    simp at hprefix
  | append_singleton calls call ih =>
    have hcall := performs package call (package.after start calls)
    rw [after_concat]
    rcases passed_concat_iff.1 h with hbefore | ⟨rfl, hpasses⟩
    · obtain ⟨policy, extraction, hprepared⟩ := ih hbefore
      exact ⟨policy, extraction, hprepared.mono hcall.registry hcall.extractions⟩
    · exact hcall.prepared hpasses

/-- In every sequence of calls on a new package, whatever of them fails: a call for a module that
has not passed the check by then leaves all files as they are; the texts that a call changes are
those of outputs of its module; and a module that has passed can be analyzed in all that follows. -/
theorem files_written_once_passed (package : Package) (files : Files) (calls : List Call) :
    (∀ call, ¬package.Passed { files } (calls ++ [call]) call.module →
      (package.after { files } (calls ++ [call])).files =
        (package.after { files } calls).files) ∧
    (∀ call place, (package.after { files } (calls ++ [call])).files.content? place ≠
        (package.after { files } calls).files.content? place →
      package.Passed { files } (calls ++ [call]) call.module ∧
        ∃ path ∈ package.outputs call.kind call.module, place = Files.destination path) ∧
    ∀ module, package.Passed { files } calls module →
      ∃ extraction, (package.analyze module).run (package.after { files } calls) =
        (.ok extraction, package.after { files } calls) := by
  have hfiles (call : Call) (hnew : ¬package.Passed { files } (calls ++ [call]) call.module) :
      (package.after { files } (calls ++ [call])).files =
        (package.after { files } calls).files := by
    have hcall := performs package call (package.after { files } calls)
    rw [← mem_checked_iff rfl] at hnew
    rw [after_concat] at hnew ⊢
    exact hcall.files hnew
  refine ⟨hfiles, fun call place hchanged ↦ ⟨?_, ?_⟩, fun module hpassed ↦ ?_⟩
  · by_contra hnew
    exact hchanged (by rw [hfiles call hnew])
  · by_contra hother
    refine hchanged ?_
    rw [after_concat]
    refine (performs package call (package.after { files } calls)).content place fun hmem ↦ ?_
    obtain ⟨path, hpath, heq⟩ := List.mem_map.1 hmem
    exact hother ⟨path, hpath, heq.symm⟩
  · obtain ⟨policy, extraction, hprepared⟩ := isPrepared_of_passed hpassed
    exact ⟨extraction, hprepared.run_analyze ((mem_checked_iff rfl).2 hpassed)⟩

/-! ### A package of two modules -/

namespace Drawing

def methodEntry (name : String) : MemberEntry :=
  .method { common := { name }, isVirtual := true }

def classFile (name : String) (bases : List Base) (methods : List String) : DeclFile where
  items := [.ofClass { common := { name }, bases, members := methods.map methodEntry }]

def source : Source := .memory [
  ("Shapes", classFile "Shape" [] ["Draw", "Fill"]),
  ("Circles", classFile "Circle" [⟨"Shape", []⟩] ["Draw"])]

/-- Circles come first, and derive from the shapes of the other module. -/
def drawing : Package where
  name := "Drawing"
  config := {}
  source
  manifest := none
  policies := [Policy.empty "Circles" "Drawing", Policy.empty "Shapes" "Drawing"]
  distinct := by decide

end Drawing

open Drawing in
/-- The documentation of circles is written by the call in which they pass the check. -/
theorem circles_passed :
    drawing.Passed {} ([] ++ [⟨.doc, "Circles"⟩]) "Circles" ∧
      (∃ path ∈ drawing.outputs .doc "Circles",
        ["lib", "wx", "doc", "gen", "circles.rb"] = Files.destination path) ∧
      ∃ extraction, (drawing.analyze "Circles").run (drawing.after {} [⟨.doc, "Circles"⟩]) =
        (.ok extraction, drawing.after {} [⟨.doc, "Circles"⟩]) := by
  have hchanged : (drawing.after {} ([] ++ [⟨.doc, "Circles"⟩])).files.content?
      ["lib", "wx", "doc", "gen", "circles.rb"] ≠
        (drawing.after {} []).files.content? ["lib", "wx", "doc", "gen", "circles.rb"] := by
    decide +kernel
  obtain ⟨hpassed, hpath⟩ :=
    (files_written_once_passed drawing {} []).2.1 ⟨.doc, "Circles"⟩ _ hchanged
  exact ⟨hpassed, hpath,
    (files_written_once_passed drawing {} [⟨.doc, "Circles"⟩]).2.2 "Circles" hpassed⟩

end Package

end Bindery
