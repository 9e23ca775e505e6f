import Bindery.Proofs.Files.Parts
import Bindery.Proofs.Package.Kinds
import Bindery.Proofs.Package.OtherTrees
import Bindery.Proofs.Package.OutputPaths

/-!
Outputs that are written over earlier ones. A file that holds its text already is not written again,
and a file that is not made is not looked at. So the interface file, the header and the stub of a
module end up as in a clean tree, whatever stood in their places, and so does the script of a module
that has one. A module that has no script keeps the script that it had before
(`Package.refresh_like_clean_run`).
-/

set_option autoImplicit false
set_option relaxedAutoImplicit false

namespace Bindery

/-! ### Writing over part of a tree -/

namespace Run

variable {s t : Session} {path text : String}

theorem run_writeIfChanged_of_read (h : s.files.read? path = some text) :
    (writeIfChanged path text).run s = (.ok false, s) := by
  rw [writeIfChanged, run_get_bind, if_pos h]
  rfl

theorem run_writeIfChanged_of_write (hread : s.files.read? path ≠ some text)
    (h : (s.files.write path text).1 = true) :
    (writeIfChanged path text).run s = (.ok true, s.over (s.files.write path text).2) := by
  rw [writeIfChanged, run_get_bind, if_neg hread]
  rcases hwrite : s.files.write path text with ⟨written, files⟩
  rw [hwrite] at h
  obtain rfl : written = true := h
  rfl

theorem write_of_writeIfChanged {written : Bool} (hread : s.files.read? path ≠ some text)
    (h : (writeIfChanged path text).run s = (.ok written, t)) :
    (s.files.write path text).1 = true := by
  rw [writeIfChanged, run_get_bind, if_neg hread] at h
  rcases hwrite : s.files.write path text with ⟨isWritten, files⟩
  rw [hwrite] at h
  cases isWritten with
  | true => rfl
  | false => cases h

/-- A file that can be written can be written over a part of the tree, and then the one tree is part
of the other again. -/
theorem exists_writeIfChanged_over {part : Files} {written : Bool} (hpart : part.Part s.files)
    (hname : Files.isFileName (Files.fileName path) = true)
    (h : (writeIfChanged path text).run s = (.ok written, t)) :
    ∃ written' later, (writeIfChanged path text).run (s.over part) = (.ok written', t.over later) ∧
      later.Part t.files := by
  by_cases hread : s.files.read? path = some text
  · have hsame := (run_writeIfChanged_of_read hread).symm.trans h
    cases hsame
    by_cases hpartRead : part.read? path = some text
    · exact ⟨_, part, @run_writeIfChanged_of_read (s.over part) path text hpartRead, hpart⟩
    · have hwrite := hpart.write_fst hname (Files.write_of_read? hname hread text) text
      exact ⟨_, _, @run_writeIfChanged_of_write (s.over part) path text hpartRead hwrite,
        hpart.write_left hname hwrite (Files.content?_of_read? hread)
          (Files.isUsable_of_read? hread).2⟩
  · have hpartRead : part.read? path ≠ some text := fun heq ↦ hread (hpart.read? heq)
    have hwrite := write_of_writeIfChanged hread h
    have hsame := (run_writeIfChanged_of_write hread hwrite).symm.trans h
    cases hsame
    exact ⟨_, _, @run_writeIfChanged_of_write (s.over part) path text hpartRead
      (hpart.write_fst hname hwrite text), hpart.write hname hwrite⟩

theorem writeTexts_nil_eq_ok : (writeTexts []).run s = (.ok (), t) ↔ s = t := by
  refine ⟨fun h ↦ ?_, fun h ↦ h ▸ rfl⟩
  cases h
  rfl

theorem writeTexts_cons_eq_ok {entry : String × String} {rest : List (String × String)} :
    (writeTexts (entry :: rest)).run s = (.ok (), t) ↔
      ∃ written u, (writeIfChanged entry.1 entry.2).run s = (.ok written, u) ∧
        (writeTexts rest).run u = (.ok (), t) := by
  rw [writeTexts, List.forM, run_bind_eq_ok]
  constructor
  · rintro ⟨_, u, hfirst, hrest⟩
    obtain ⟨written, v, hwrite, hv⟩ := run_bind_eq_ok.1 hfirst
    cases hv
    exact ⟨written, u, hwrite, hrest⟩
  · rintro ⟨written, u, hwrite, hrest⟩
    exact ⟨(), u, run_bind_of_ok hwrite _, hrest⟩

theorem writeTexts_concat_eq_ok {texts : List (String × String)} :
    (writeTexts (texts ++ [(path, text)])).run s = (.ok (), t) ↔
      ∃ u written, (writeTexts texts).run s = (.ok (), u) ∧
        (writeIfChanged path text).run u = (.ok written, t) := by
  induction texts generalizing s with
  | nil => simp [writeTexts_cons_eq_ok, writeTexts_nil_eq_ok]
  | cons first rest ih =>
    simp only [List.cons_append, writeTexts_cons_eq_ok, ih]
    constructor
    · rintro ⟨written, u, hfirst, v, last, hrest, hwrite⟩
      exact ⟨v, last, ⟨written, u, hfirst, hrest⟩, hwrite⟩
    · rintro ⟨v, last, ⟨written, u, hfirst, hrest⟩, hwrite⟩
      exact ⟨written, u, hfirst, v, last, hrest, hwrite⟩

/-- The same holds for several files that are written in order. -/
theorem exists_writeTexts_over {part : Files} {texts : List (String × String)}
    (hpart : part.Part s.files)
    (hnames : ∀ entry ∈ texts, Files.isFileName (Files.fileName entry.1) = true)
    (h : (writeTexts texts).run s = (.ok (), t)) :
    ∃ later, (writeTexts texts).run (s.over part) = (.ok (), t.over later) := by
  induction texts generalizing s part with
  | nil =>
    rw [writeTexts_nil_eq_ok] at h
    exact ⟨part, writeTexts_nil_eq_ok.2 (h ▸ rfl)⟩
  | cons entry rest ih =>
    obtain ⟨hname, hrest⟩ := List.forall_mem_cons.1 hnames
    obtain ⟨written, u, hfirst, hmore⟩ := writeTexts_cons_eq_ok.1 h
    obtain ⟨written', later, hfirst', hlater⟩ := exists_writeIfChanged_over hpart hname hfirst
    obtain ⟨last, hmore'⟩ := ih hlater hrest hmore
    exact ⟨last, writeTexts_cons_eq_ok.2 ⟨written', _, hfirst', hmore'⟩⟩

end Run

/-! ### The outputs of one module -/

/-- Whether the code and the documentation of a module have this output. Only a module with a
constant that is made when the toolkit runs has a script. -/
def OutputKind.isWritten (m : Module) : OutputKind → Bool
  | .interface | .header | .doc => true
  | .script => !(Constants.scriptLines m).isEmpty
  | .deps => false

namespace Package

variable {package : Package} {s t u v : Session} {module : String} {policy : Policy}
  {extraction : Extraction}

/-- Writes the code of a module, and then its documentation. -/
def refresh (package : Package) (module : String) : Run Bool := do
  package.writeCode module
  package.writeDoc module

/-- The code of an analyzed module and its documentation, by the paths of their files. -/
def refreshTexts (package : Package) (module : String) (extraction : Extraction)
    (registry : InterfaceRegistry) : Except Error (List (String × String)) := do
  let texts ← package.codeTexts module extraction registry
  let doc ← package.docText module extraction registry
  return texts ++ [(package.config.docFile module, doc)]

theorem refreshTexts_eq_ok_iff {registry : InterfaceRegistry} {all : List (String × String)} :
    package.refreshTexts module extraction registry = .ok all ↔
      ∃ texts doc, package.codeTexts module extraction registry = .ok texts ∧
        package.docText module extraction registry = .ok doc ∧
        texts ++ [(package.config.docFile module, doc)] = all := by
  constructor
  · intro h
    obtain ⟨texts, htexts, h⟩ := bind_eq_ok.1 h
    obtain ⟨doc, hdoc, h⟩ := bind_eq_ok.1 h
    exact ⟨texts, doc, htexts, hdoc, Except.ok.inj h⟩
  · rintro ⟨texts, doc, htexts, hdoc, rfl⟩
    rw [refreshTexts, htexts, hdoc]
    rfl

/-- What is written are the outputs that the module has. -/
theorem map_fst_of_refreshTexts {registry : InterfaceRegistry} {texts : List (String × String)}
    (hpolicy : package.policy module = .ok policy)
    (h : package.refreshTexts module extraction registry = .ok texts) :
    texts.map Prod.fst = (OutputKind.all.filter (·.isWritten extraction.module)).map
      (package.config.output · module) := by
  obtain ⟨texts, doc, hcode, -, rfl⟩ := refreshTexts_eq_ok_iff.1 h
  obtain ⟨rules, header, -, rfl⟩ := codeTexts_eq_ok hpolicy hcode
  cases hlines : Constants.scriptLines extraction.module <;>
    simp [Constants.script?, hlines, OutputKind.all, OutputKind.isWritten, Config.output]

theorem nodup_of_refreshTexts {registry : InterfaceRegistry} {texts : List (String × String)}
    (hpolicy : package.policy module = .ok policy)
    (h : package.refreshTexts module extraction registry = .ok texts) :
    ((texts.map Prod.fst).map Files.destination).Nodup := by
  rw [map_fst_of_refreshTexts hpolicy h, List.map_map]
  have hall : OutputKind.all.Nodup := by decide
  exact (hall.filter _).map (OutputKind.destination_output_injective package.config module)

theorem output_mem_of_refreshTexts {registry : InterfaceRegistry} {texts : List (String × String)}
    (hpolicy : package.policy module = .ok policy)
    (h : package.refreshTexts module extraction registry = .ok texts) {kind : OutputKind}
    (hwritten : kind.isWritten extraction.module = true) :
    ∃ text, (package.config.output kind module, text) ∈ texts := by
  have hmem : package.config.output kind module ∈ texts.map Prod.fst := by
    rw [map_fst_of_refreshTexts hpolicy h]
    exact List.mem_map.2 ⟨kind, List.mem_filter.2 ⟨kind.mem_all, hwritten⟩, rfl⟩
  obtain ⟨⟨path, text⟩, hentry, rfl⟩ := List.mem_map.1 hmem
  exact ⟨text, hentry⟩

theorem destination_not_mem_of_refreshTexts {registry : InterfaceRegistry}
    {texts : List (String × String)} (hpolicy : package.policy module = .ok policy)
    (h : package.refreshTexts module extraction registry = .ok texts) {kind : OutputKind}
    (hwritten : kind.isWritten extraction.module = false) :
    Files.destination (package.config.output kind module) ∉
      (texts.map Prod.fst).map Files.destination := by
  rw [map_fst_of_refreshTexts hpolicy h, List.map_map]
  intro hmem
  have hkind := (List.mem_map_of_injective
    (OutputKind.destination_output_injective package.config module)).1 hmem
  have htrue := (List.mem_filter.1 hkind).2
  rw [hwritten] at htrue
  cases htrue

/-! ### What is left in the files -/

theorem mem_checked_of_analyze_eq_ok (h : (package.analyze module).run s = (.ok extraction, t)) :
    module ∈ t.checked := by
  rcases package.analyze_cases module s with
    ⟨e, u, hrun, -⟩ | ⟨_, _, u, hrun, hgrows, -, hmarked, -⟩ | ⟨_, _, u, hrun, -⟩
  · cases hrun.symm.trans h
  · cases hrun.symm.trans h
    rwa [hgrows.checked]
  · cases hrun.symm.trans h
    exact List.mem_append_right _ (List.mem_singleton_self module)

/-- Once a module has been analyzed, it is analyzed again over any files. -/
theorem analyze_again (h : (package.analyze module).run s = (.ok extraction, u)) (files : Files) :
    (package.analyze module).run (u.over files) = (.ok extraction, u.over files) := by
  obtain ⟨policy, hprepared⟩ := isPrepared_of_analyze_eq_ok h
  have hover : package.IsPrepared (u.over files) module policy extraction := hprepared
  have hmarked : module ∈ u.checked := mem_checked_of_analyze_eq_ok h
  exact hover.run_analyze hmarked

theorem emitCode_eq_ok_iff : (package.emitCode module extraction).run u = (.ok (), v) ↔
    ∃ texts, package.codeTexts module extraction u.registry = .ok texts ∧
      (Run.writeTexts texts).run u = (.ok (), v) := by
  rw [emitCode, Run.run_get_bind, Run.run_ofExcept_bind_eq_ok]

theorem emitDoc_eq_ok_iff {written : Bool} :
    (package.emitDoc module extraction).run v = (.ok written, t) ↔
      ∃ doc, package.docText module extraction v.registry = .ok doc ∧
        (Run.writeIfChanged (package.config.docFile module) doc).run v = (.ok written, t) := by
  rw [emitDoc, Run.run_get_bind, Run.run_ofExcept_bind_eq_ok]

/-- A second analysis does nothing. -/
theorem refresh_eq_ok_iff_emit {written : Bool} :
    (package.refresh module).run s = (.ok written, t) ↔
      ∃ extraction u v, (package.analyze module).run s = (.ok extraction, u) ∧
        (package.emitCode module extraction).run u = (.ok (), v) ∧
        (package.emitDoc module extraction).run v = (.ok written, t) := by
  have hagain {extraction : Extraction} {u v : Session}
      (hanalyze : (package.analyze module).run s = (.ok extraction, u))
      (hcode : (package.emitCode module extraction).run u = (.ok (), v)) :
      (package.analyze module).run v = (.ok extraction, v) := by
    obtain ⟨texts, -, hwrite⟩ := emitCode_eq_ok_iff.1 hcode
    have hv : v = u.over v.files := ((Run.moves_writeTexts texts).of_eq hwrite).same
    rw [hv]
    exact analyze_again hanalyze v.files
  rw [refresh, Run.run_bind_eq_ok]
  constructor
  · rintro ⟨_, v, hcode, hdoc⟩
    rw [writeCode, Run.run_bind_eq_ok] at hcode
    obtain ⟨extraction, u, hanalyze, hcode⟩ := hcode
    rw [writeDoc, Run.run_bind_of_ok (hagain hanalyze hcode)] at hdoc
    exact ⟨extraction, u, v, hanalyze, hcode, hdoc⟩
  · rintro ⟨extraction, u, v, hanalyze, hcode, hdoc⟩
    refine ⟨(), v, ?_, ?_⟩
    · rw [writeCode, Run.run_bind_of_ok hanalyze, hcode]
    · rw [writeDoc, Run.run_bind_of_ok (hagain hanalyze hcode), hdoc]

/-- The code and the documentation are made after one analysis, and written one after another. -/
theorem refresh_eq_ok_iff : (∃ written, (package.refresh module).run s = (.ok written, t)) ↔
    ∃ extraction u texts, (package.analyze module).run s = (.ok extraction, u) ∧
      package.refreshTexts module extraction u.registry = .ok texts ∧
      (Run.writeTexts texts).run u = (.ok (), t) := by
  have hregistry {texts : List (String × String)} {u v : Session}
      (hwrite : (Run.writeTexts texts).run u = (.ok (), v)) : v.registry = u.registry := by
    rw [((Run.moves_writeTexts texts).of_eq hwrite).same]
  simp only [refresh_eq_ok_iff_emit, emitCode_eq_ok_iff, emitDoc_eq_ok_iff]
  constructor
  · rintro ⟨written, extraction, u, v, hanalyze, ⟨texts, htexts, hwrite⟩, doc, hdoc, hwriteDoc⟩
    rw [hregistry hwrite] at hdoc
    exact ⟨extraction, u, _, hanalyze, refreshTexts_eq_ok_iff.2 ⟨texts, doc, htexts, hdoc, rfl⟩,
      Run.writeTexts_concat_eq_ok.2 ⟨v, written, hwrite, hwriteDoc⟩⟩
  · rintro ⟨extraction, u, all, hanalyze, hall, hwriteAll⟩
    obtain ⟨texts, doc, htexts, hdoc, rfl⟩ := refreshTexts_eq_ok_iff.1 hall
    obtain ⟨v, written, hwrite, hwriteDoc⟩ := Run.writeTexts_concat_eq_ok.1 hwriteAll
    rw [← hregistry hwrite] at hdoc
    exact ⟨written, extraction, u, v, hanalyze, ⟨texts, htexts, hwrite⟩, doc, hdoc, hwriteDoc⟩

section Contents

variable {registry : InterfaceRegistry} {texts : List (String × String)} {kind : OutputKind}
  (hpolicy : package.policy module = .ok policy)
  (htexts : package.refreshTexts module extraction registry = .ok texts)

include hpolicy htexts

/-- An output that the module has holds its text, whatever it held before. -/
theorem exists_content?_of_isWritten (hwritten : kind.isWritten extraction.module = true) :
    ∃ text, ∀ u t, (Run.writeTexts texts).run u = (.ok (), t) →
      t.files.content? (Files.destination (package.config.output kind module)) = some text := by
  obtain ⟨text, hentry⟩ := output_mem_of_refreshTexts hpolicy htexts hwritten
  exact ⟨text, fun u t hwrite ↦
    Run.content?_of_writeTexts (nodup_of_refreshTexts hpolicy htexts) hwrite hentry⟩

/-- An output that the module has not is as it was. -/
theorem content?_of_not_isWritten (hwritten : kind.isWritten extraction.module = false)
    (hwrite : (Run.writeTexts texts).run u = (.ok (), t)) :
    t.files.content? (Files.destination (package.config.output kind module)) =
      u.files.content? (Files.destination (package.config.output kind module)) :=
  ((Run.moves_writeTexts texts).of_eq hwrite).content _
    (destination_not_mem_of_refreshTexts hpolicy htexts hwritten)

end Contents

/-! ### Clean trees -/

/-- What can be read in a part of a tree is read alike in the whole. -/
theorem keepsDeclarations_of_part {part whole : Files} (h : part.Part whole) :
    package.KeepsDeclarations part whole := fun _ _ _ hread ↦
  Policy.extract_of_load (fun _ _ ↦ Source.load_of_read? fun _ _ ↦ h.read?) hread

/-- Declarations in memory do not depend on files. -/
theorem keepsDeclarations_of_memory {items : List (String × DeclFile)}
    (h : package.source = .memory items) (files later : Files) :
    package.KeepsDeclarations files later := by
  intro policy _ extraction hread
  rw [Package.extraction, h] at hread ⊢
  exact hread

/-- The files of a package before anything is written to the directories of its outputs. -/
def emptied (package : Package) (files : Files) : Files :=
  files.emptied (OutputKind.all.map fun kind ↦ Files.destination (kind.dir package.config))

/-- The directories of the outputs are empty then, as far as the name of a module leads no
further. -/
theorem content?_emptied_output (package : Package) (files : Files)
    (hmodule : '/' ∉ module.toList) (kind : OutputKind) :
    (package.emptied files).content?
      (Files.destination (package.config.output kind module)) = none := by
  have hname := kind.isName_fileName hmodule
  have hfile := hname.isFileName
  have hslash : kind.fileName module ≠ "/" := fun heq ↦ hname.slash (heq ▸ by decide)
  simp only [Files.isFileName, Bool.and_eq_true, bne_iff_ne] at hfile
  rw [emptied, Files.content?_emptied, if_pos]
  refine List.any_eq_true.2 ⟨_, List.mem_map.2 ⟨kind, kind.mem_all, rfl⟩, ?_⟩
  rw [OutputKind.output_eq, Files.destination_join hname, Files.isBelow, List.drop_left]
  simp [hfile.2, hslash]

/-- A run over part of the tree succeeds as well, as long as the declarations are there. -/
theorem exists_refresh_over {written : Bool} {part : Files}
    (h : (package.refresh module).run s = (.ok written, t)) (hpart : part.Part s.files)
    (hkept : package.KeepsDeclarations s.files part) :
    ∃ written' t', (package.refresh module).run (s.over part) = (.ok written', t') := by
  obtain ⟨extraction, u, texts, hanalyze, htexts, hwrite⟩ := refresh_eq_ok_iff.1 ⟨written, h⟩
  obtain ⟨policy, hprepared⟩ := isPrepared_of_analyze_eq_ok hanalyze
  obtain ⟨hfiles, hanalyze'⟩ := transfers_analyze hkept module s extraction u rfl hanalyze
  have hnames : ∀ entry ∈ texts, Files.isFileName (Files.fileName entry.1) = true := by
    intro entry hentry
    have hmem := List.mem_map_of_mem (f := Prod.fst) hentry
    rw [map_fst_of_refreshTexts hprepared.1 htexts] at hmem
    obtain ⟨kind, -, hkind⟩ := List.mem_map.1 hmem
    rw [← hkind]
    exact OutputKind.isFileName_output _ kind _
  obtain ⟨later, hwrite'⟩ := Run.exists_writeTexts_over (hfiles ▸ hpart) hnames hwrite
  obtain ⟨written', h'⟩ := refresh_eq_ok_iff.2 ⟨extraction, _, texts, hanalyze', htexts, hwrite'⟩
  exact ⟨written', _, h'⟩

/-- A run over part of the tree that succeeds writes the same texts. -/
theorem writeTexts_over_of_refresh {texts : List (String × String)} {part : Files} {written : Bool}
    (hanalyze : (package.analyze module).run s = (.ok extraction, u))
    (htexts : package.refreshTexts module extraction u.registry = .ok texts)
    (hpart : part.Part s.files)
    (h : (package.refresh module).run (s.over part) = (.ok written, t)) :
    (Run.writeTexts texts).run (u.over part) = (.ok (), t) := by
  obtain ⟨extraction', u', texts', hanalyze', htexts', hwrite⟩ := refresh_eq_ok_iff.1 ⟨written, h⟩
  obtain ⟨hfiles, hback⟩ := transfers_analyze (keepsDeclarations_of_part hpart) module _ _ _ rfl
    hanalyze'
  obtain ⟨hsame, rfl⟩ := Prod.mk.inj (hanalyze.symm.trans hback)
  obtain rfl := Except.ok.inj hsame
  obtain rfl := Except.ok.inj (htexts.symm.trans htexts')
  rw [← hfiles]
  exact hwrite

/-- Whatever stands in the files, after the code and the documentation of a module have been written:
where a clean tree has only files and directories that were there, the run over it succeeds as well,
if the declarations are there, and leaves the same outputs, except for the script of a module that
has none. There the script is as it was before. This is so for the tree in which the directories of
the outputs are emptied, which has no outputs. -/
theorem refresh_like_clean_run {written : Bool}
    (h : (package.refresh module).run s = (.ok written, t)) :
    ∃ policy extraction, package.IsPrepared t module policy extraction ∧
      (∀ clean : Files, clean.Part s.files →
        (package.KeepsDeclarations s.files clean →
          ∃ written' t', (package.refresh module).run (s.over clean) = (.ok written', t')) ∧
        ∀ written' t', (package.refresh module).run (s.over clean) = (.ok written', t') →
          t' = t.over t'.files ∧ ∀ kind : OutputKind,
            let place := Files.destination (package.config.output kind module)
            if kind.isWritten extraction.module then
              (t.files.content? place).isSome = true ∧
                t'.files.content? place = t.files.content? place
            else t.files.content? place = s.files.content? place ∧
              t'.files.content? place = clean.content? place) ∧
      (package.emptied s.files).Part s.files ∧
      ('/' ∉ module.toList → ∀ kind : OutputKind,
        (package.emptied s.files).content?
          (Files.destination (package.config.output kind module)) = none) := by
  obtain ⟨extraction, u, texts, hanalyze, htexts, hwrite⟩ := refresh_eq_ok_iff.1 ⟨written, h⟩
  obtain ⟨policy, hprepared⟩ := isPrepared_of_analyze_eq_ok hanalyze
  have hfiles : u.files = s.files := by rw [← files_analyze package module s, hanalyze]
  have ht : t = u.over t.files := ((Run.moves_writeTexts texts).of_eq hwrite).same
  have hprepared' : package.IsPrepared t module policy extraction := ht ▸ hprepared
  refine ⟨policy, extraction, hprepared', fun clean hclean ↦
    ⟨exists_refresh_over h hclean, fun written' t' h' ↦ ?_⟩, Files.part_emptied _ _,
    package.content?_emptied_output s.files⟩
  have hwrite' := writeTexts_over_of_refresh hanalyze htexts hclean h'
  have ht' : t' = u.over t'.files := ((Run.moves_writeTexts texts).of_eq hwrite').same
  refine ⟨by rw [ht]; exact ht', fun kind ↦ ?_⟩
  cases hwritten : kind.isWritten extraction.module with
  | true =>
    obtain ⟨text, htext⟩ := exists_content?_of_isWritten hprepared.1 htexts hwritten
    simp only [if_true]
    rw [htext u t hwrite, htext _ t' hwrite']
    exact ⟨rfl, rfl⟩
  | false =>
    simp only [Bool.false_eq_true, if_false]
    rw [content?_of_not_isWritten hprepared.1 htexts hwritten hwrite, hfiles,
      content?_of_not_isWritten hprepared.1 htexts hwritten hwrite']
    exact ⟨rfl, rfl⟩

namespace Measures

/-- An interface file and a script that were written before. -/
def staleFiles : Files :=
  ((Files.empty.write "swig/Dials.i" "").2.write "lib/wx/ext/dials_ext.rb" "module Wx\nend\n").2

/-- The meters after they have been written over the earlier files. -/
def metersOverStale : Session := ((meters.refresh "Dials").run { files := staleFiles }).2

/-- The dials have a script. -/
theorem refresh_meters :
    (meters.refresh "Dials").run { files := staleFiles } = (.ok true, metersOverStale) ∧
      (metersOverStale.extractions.find? "Dials").any (fun extraction ↦
        OutputKind.isWritten extraction.module .script) = true := by
  have hrun : ((meters.refresh "Dials").run { files := staleFiles }).1.toOption = some true ∧
      (metersOverStale.extractions.find? "Dials").any (fun extraction ↦
        OutputKind.isWritten extraction.module .script) = true := by decide +kernel
  exact ⟨Run.run_eq_of_toOption hrun.1, hrun.2⟩

/-- The meters without the definition that needs a script. -/
def limits : Package :=
  { meters with
    source := .memory [("Dials",
      { items := [.define { common := { name := "wxDIAL_LIMIT" }, value := some "12" }] })] }

end Measures

open Measures in
/-- The script of the dials is written over the earlier one, and is that of a clean tree. -/
theorem script_like_clean_run :
    (meters.refresh "Dials").run { files := staleFiles } = (.ok true, metersOverStale) ∧
      (meters.emptied staleFiles).Part staleFiles ∧
      meters.KeepsDeclarations staleFiles (meters.emptied staleFiles) ∧
      ∃ written t, (meters.refresh "Dials").run { files := meters.emptied staleFiles } =
          (.ok written, t) ∧
        t.files.content? (Files.destination (meters.config.output .script "Dials")) =
          metersOverStale.files.content?
            (Files.destination (meters.config.output .script "Dials")) := by
  obtain ⟨hmeters, hscript⟩ := refresh_meters
  obtain ⟨policy, extraction, hprepared, hclean, hpart, -⟩ := refresh_like_clean_run hmeters
  have hkept : meters.KeepsDeclarations staleFiles (meters.emptied staleFiles) :=
    keepsDeclarations_of_memory rfl _ _
  have hstart : ({ files := staleFiles } : Session).over (meters.emptied staleFiles) =
      { files := meters.emptied staleFiles } := rfl
  obtain ⟨hruns, hsame⟩ := hclean _ hpart
  rw [hstart] at hruns hsame
  obtain ⟨written, t, hrun⟩ := hruns hkept
  obtain rfl : policy = { Policy.empty "Dials" "Meters" with skipped := [.defines] } :=
    Except.ok.inj (hprepared.1.symm.trans rfl)
  have hextraction : metersOverStale.extractions.find? "Dials" = some extraction := hprepared.2.1
  rw [hextraction, Option.any_some] at hscript
  have hfile := (hsame written t hrun).2 .script
  simp only [hscript, if_true] at hfile
  exact ⟨hmeters, hpart, hkept, written, t, hrun, hfile.2⟩

open Measures in
/-- Dials without a constant for a script keep the script that they had before, while there is none
in a clean tree. -/
theorem stale_script_kept : ¬∀ (package : Package) (module : String) (files : Files)
    (written written' : Bool) (t t' : Session),
    (package.refresh module).run { files } = (.ok written, t) →
    (package.refresh module).run { files := package.emptied files } = (.ok written', t') →
    ∀ kind ∈ [OutputKind.interface, .header, .script, .doc],
      t.files.content? (Files.destination (package.config.output kind module)) =
        t'.files.content? (Files.destination (package.config.output kind module)) := by
  intro h
  have hruns : ((limits.refresh "Dials").run { files := staleFiles }).1.toOption = some true ∧
      ((limits.refresh "Dials").run { files := limits.emptied staleFiles }).1.toOption =
        some true ∧
      ¬((limits.refresh "Dials").run { files := staleFiles }).2.files.content?
          (Files.destination (limits.config.output .script "Dials")) =
        ((limits.refresh "Dials").run { files := limits.emptied staleFiles }).2.files.content?
          (Files.destination (limits.config.output .script "Dials")) := by decide +kernel
  obtain ⟨hrun, hrun', hkept⟩ := hruns
  exact hkept (h limits "Dials" staleFiles true true _ _ (Run.run_eq_of_toOption hrun)
    (Run.run_eq_of_toOption hrun') .script (by decide))

end Package

end Bindery
