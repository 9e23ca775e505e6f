import Bindery.Proofs.Package.Coherence
import Bindery.Proofs.Package.Passed
import Mathlib.Data.List.Induction

/-!
What sessions of any package keep track of. Some modules of the package may be unreadable, and two
of them may generate classes of one name. Still a session is traced (`Package.Traced`): what it has
extracted is what its files give, each class in its index is generated by the module that the index
names, and each registered interface is the one that some module gives the class, up to dropped
methods. Every call keeps sessions traced, whatever it ends with, so that all sessions that calls
lead to are (`traced_after`).
-/

set_option autoImplicit false
set_option relaxedAutoImplicit false

namespace Bindery

namespace Package

variable {package : Package} {files : Files} {s t u : Session} {policy : Policy}
  {extraction : Extraction} {name module : String}

/-! ### Modules that can be extracted -/

/-- The module can be extracted in a new session. -/
def Extractable (package : Package) (files : Files) (policy : Policy) : Prop :=
  ((package.extract policy).run { files }).1.isOk = true

/-- A module can be extracted when it can be read and the base classes of all classes that it
generates are known. -/
theorem extractable_iff :
    package.Extractable files policy ↔
      ∃ extraction, package.extraction files policy = .ok extraction ∧
        ∀ c ∈ View.generatedClasses ⟨policy, extraction.module⟩,
          ∃ base, View.baseClass ⟨policy, extraction.module⟩ c = .ok base := by
  rw [Extractable]
  constructor
  · intro hok
    rcases hrun : (package.extract policy).run { files } with ⟨outcome, t⟩
    cases outcome with
    | error e =>
      rw [hrun] at hok
      cases hok
    | ok extraction =>
      obtain ⟨hextracted, hbases, -⟩ := extract_new_eq_ok rfl hrun
      exact ⟨extraction, hextracted, hbases⟩
  · rintro ⟨extraction, hextracted, hbases⟩
    rw [run_extract_of_sound rfl hextracted hbases]
    rfl

/-- A module that can be read can be extracted when nothing is wrong with its bases. -/
theorem extractable_iff_checkBases (h : package.extraction files policy = .ok extraction) :
    package.Extractable files policy ↔ View.checkBases ⟨policy, extraction.module⟩
      (View.generatedClasses ⟨policy, extraction.module⟩) = .ok () := by
  rw [extractable_iff, View.checkBases_eq_ok_iff]
  refine ⟨?_, fun hbases ↦ ⟨extraction, h, hbases⟩⟩
  rintro ⟨_, hsame, hbases⟩
  cases h.symm.trans hsame
  exact hbases

theorem Prepares.extractable (h : package.Prepares files policy) :
    package.Extractable files policy := by
  obtain ⟨extraction, hextracts⟩ := h.exists_extracts
  exact extractable_iff.2 ⟨extraction, hextracts.extracted, h.baseClass_eq_ok hextracts⟩

theorem extraction_of_mem_generatedNames (h : name ∈ package.generatedNames files policy) :
    ∃ extraction, package.extraction files policy = .ok extraction := by
  cases hextraction : package.extraction files policy with
  | ok extraction => exact ⟨extraction, rfl⟩
  | error e =>
    rw [generatedNames, hextraction] at h
    cases h

/-! ### Traced sessions -/

/-- What the session has worked out comes from modules of the package, as its files give them. -/
structure Traced (package : Package) (s : Session) : Prop where
  /-- A module that has been extracted has indexed all of its classes. -/
  kept : ∀ policy ∈ package.policies, ∀ extraction,
    s.extractions.find? policy.moduleName = some extraction →
      package.extraction s.files policy = .ok extraction ∧ package.Extractable s.files policy ∧
        ∀ name ∈ package.generatedNames s.files policy, (s.classIndex.find? name).isSome = true
  /-- A module that can be extracted indexes all of its classes, or none. -/
  whole : ∀ policy ∈ package.policies, package.Extractable s.files policy →
    ∀ name, s.classIndex.find? name = some policy.moduleName →
      ∀ other ∈ package.generatedNames s.files policy, (s.classIndex.find? other).isSome = true
  indexed : ∀ name module, s.classIndex.find? name = some module →
    ∃ policy ∈ package.policies, policy.moduleName = module ∧
      name ∈ package.generatedNames s.files policy
  registered : ∀ name i, s.registry.interface? name = some i →
    (s.classIndex.find? name).isSome = true ∧ ∃ policy ∈ package.policies, ∃ built,
      package.interfaceIn? s.files name policy = some built ∧ built.Within i

theorem traced_start (package : Package) (files : Files) : package.Traced { files } where
  kept _ _ _ h := by cases h
  whole _ _ _ _ h := by cases h
  indexed _ _ h := by cases h
  registered _ _ h := by cases h

/-- Dropping methods of registered classes keeps a session traced. -/
theorem Traced.settle (hs : package.Traced s) (found : List Finding) :
    package.Traced (s.settle found) where
  kept := hs.kept
  whole := hs.whole
  indexed := hs.indexed
  registered name i hi := by
    obtain ⟨old, hold, hdrops⟩ := InterfaceRegistry.exists_of_foldl_settle hi
    obtain ⟨hindexed, policy, hpolicy, built, hbuilt, hwithin⟩ := hs.registered name old hold
    exact ⟨hindexed, policy, hpolicy, built, hbuilt, hwithin.trans hdrops⟩

/-- What a session keeps track of outlasts the writing of outputs. -/
theorem Traced.withFiles (hs : package.Traced s) {paths : List String} {later : Files}
    (hgrown : Files.Grown paths s.files later) (hpaths : ∀ path ∈ paths, HasOutputEnding path) :
    package.Traced { s with files := later } := by
  have hextraction {policy : Policy} {extraction : Extraction}
      (h : package.extraction s.files policy = .ok extraction) :
      package.extraction later policy = .ok extraction := extraction_of_grown hgrown hpaths h
  have hnames {policy : Policy} {extraction : Extraction}
      (h : package.extraction s.files policy = .ok extraction) :
      package.generatedNames later policy = package.generatedNames s.files policy := by
    rw [generatedNames, generatedNames, h, hextraction h]
  refine ⟨fun policy hpolicy extraction hfound ↦ ?_, fun policy hpolicy hlater name hname ↦ ?_,
    fun name module hmodule ↦ ?_, fun name i hi ↦ ?_⟩
  · obtain ⟨hextracted, hextractable, hindexed⟩ := hs.kept policy hpolicy extraction hfound
    have hlater : package.Extractable later policy :=
      (extractable_iff_checkBases (hextraction hextracted)).2
        ((extractable_iff_checkBases hextracted).1 hextractable)
    exact ⟨hextraction hextracted, hlater, hnames hextracted ▸ hindexed⟩
  · obtain ⟨other, hother, heq, hmem⟩ := hs.indexed name policy.moduleName hname
    obtain rfl := eq_of_moduleName_eq hother hpolicy heq
    obtain ⟨extraction, hextracted⟩ := extraction_of_mem_generatedNames hmem
    have hextractable : package.Extractable s.files other :=
      (extractable_iff_checkBases hextracted).2
        ((extractable_iff_checkBases (hextraction hextracted)).1 hlater)
    change ∀ other ∈ package.generatedNames later _, _
    rw [hnames hextracted]
    exact hs.whole other hother hextractable name hname
  · obtain ⟨policy, hpolicy, heq, hmem⟩ := hs.indexed name module hmodule
    obtain ⟨extraction, hextracted⟩ := extraction_of_mem_generatedNames hmem
    exact ⟨policy, hpolicy, heq, (hnames hextracted).symm ▸ hmem⟩
  · obtain ⟨hindexed, policy, hpolicy, built, hbuilt, hwithin⟩ := hs.registered name i hi
    refine ⟨hindexed, policy, hpolicy, built, ?_, hwithin⟩
    cases hextracted : package.extraction s.files policy with
    | ok extraction =>
      simp only [interfaceIn?, hextracted] at hbuilt
      simpa only [interfaceIn?, hextraction hextracted] using hbuilt
    | error e =>
      simp only [interfaceIn?, hextracted] at hbuilt
      cases hbuilt

/-! ### Steps -/

/-- A session stays traced when a module indexes some of its classes, and all of them if it can be
extracted. -/
theorem Traced.index (hs : package.Traced s) (h : package.Extracts s.files policy extraction)
    {index : Table String String}
    (hindex : ∀ name, index.find? name = s.classIndex.find? name ∨
      name ∈ package.generatedNames s.files policy ∧ index.find? name = some policy.moduleName)
    (hall : package.Extractable s.files policy →
      ∀ name ∈ package.generatedNames s.files policy, (index.find? name).isSome = true) :
    package.Traced { s with classIndex := index } := by
  have hgrows {name : String} (hname : (s.classIndex.find? name).isSome = true) :
      (index.find? name).isSome = true := by
    rcases hindex name with hold | ⟨-, hnew⟩
    · rw [hold, hname]
    · rw [hnew]
      rfl
  refine ⟨fun other hother found hfound ↦ ?_, fun other hother hextractable name hname ↦ ?_,
    fun name module hmodule ↦ ?_, fun name i hi ↦ ?_⟩
  · obtain ⟨hextracted, hextractable, hindexed⟩ := hs.kept other hother found hfound
    exact ⟨hextracted, hextractable, fun name hname ↦ hgrows (hindexed name hname)⟩
  · change index.find? name = some other.moduleName at hname
    change ∀ name ∈ package.generatedNames s.files other, (index.find? name).isSome = true
    rcases hindex name with hold | ⟨-, hnew⟩
    · exact fun last hlast ↦
        hgrows (hs.whole other hother hextractable name (hold ▸ hname) last hlast)
    · obtain rfl := eq_of_moduleName_eq h.mem hother (Option.some.inj (hnew.symm.trans hname))
      exact hall hextractable
  · change index.find? name = some module at hmodule
    rcases hindex name with hold | ⟨hmem, hnew⟩
    · exact hs.indexed name module (hold ▸ hmodule)
    · exact ⟨policy, h.mem, Option.some.inj (hnew.symm.trans hmodule), hmem⟩
  · exact (hs.registered name i hi).imp_left hgrows

/-- A session stays traced when the extraction of a module is kept that has indexed its classes. -/
theorem Traced.keep (hs : package.Traced s) (h : package.Extracts s.files policy extraction)
    (hextractable : package.Extractable s.files policy)
    (hindexed : ∀ name ∈ package.generatedNames s.files policy,
      (s.classIndex.find? name).isSome = true) :
    package.Traced (s.keepExtraction policy.moduleName extraction) := by
  refine ⟨fun other hother found hfound ↦ ?_, hs.whole, hs.indexed, hs.registered⟩
  change (s.extractions.set policy.moduleName extraction).find? other.moduleName = some found
    at hfound
  by_cases hsame : other.moduleName = policy.moduleName
  · obtain rfl := eq_of_moduleName_eq hother h.mem hsame
    rw [Table.set, Table.find?_alter_self] at hfound
    exact ⟨h.extracted.trans (congrArg _ (Option.some.inj hfound)), hextractable, hindexed⟩
  · rw [Table.set, Table.find?_alter_of_ne _ hsame] at hfound
    exact hs.kept other hother found hfound

/-- How an extraction ends in a traced session: a module that can be extracted is, and has indexed
its classes; any other fails. All that changes is the index and what has been extracted. -/
structure Extracting (package : Package) (policy : Policy) (s : Session)
    (outcome : Except Error Extraction) (t : Session) : Prop where
  run : (package.extract policy).run s = (outcome, t)
  traced : package.Traced t
  files : t.files = s.files
  registry : t.registry = s.registry
  isOk_iff : outcome.isOk = true ↔ package.Extractable s.files policy
  extracts : ∀ extraction, outcome = .ok extraction → package.Extracts s.files policy extraction
  index : ∀ name, t.classIndex.find? name = s.classIndex.find? name ∨
    name ∈ package.generatedNames s.files policy ∧
      t.classIndex.find? name = some policy.moduleName

/-- A module that has been extracted is not extracted again. -/
theorem Traced.extracting_of_known (hs : package.Traced s) (hpolicy : policy ∈ package.policies)
    (hknown : s.extractions.find? policy.moduleName = some extraction) :
    package.Extracting policy s (.ok extraction) s := by
  obtain ⟨hextracted, hextractable, -⟩ := hs.kept policy hpolicy extraction hknown
  refine ⟨run_extract_of_known hknown, hs, rfl, rfl, iff_of_true rfl hextractable, ?_,
    fun _ ↦ .inl rfl⟩
  rintro _ ⟨⟩
  exact ⟨hpolicy, hextracted⟩

/-- A module that cannot be read changes nothing. -/
theorem Traced.extracting_of_unreadable (hs : package.Traced s)
    (hnew : s.extractions.find? policy.moduleName = none) {e : Error}
    (hextracted : package.extraction s.files policy = .error e) :
    package.Extracting policy s (.error e) s := by
  have hrun : (package.extract policy).run s = _ := run_extract_of_new hnew
  rw [hextracted] at hrun
  refine ⟨hrun, hs, rfl, rfl, iff_of_false Bool.false_ne_true fun h ↦ ?_, nofun, fun _ ↦ .inl rfl⟩
  obtain ⟨_, hsame, -⟩ := extractable_iff.1 h
  cases hextracted.symm.trans hsame

/-- A module that can be read indexes its classes, and is kept if the bases of all are known. -/
theorem Traced.exists_extracting_of_new (hs : package.Traced s)
    (hnew : s.extractions.find? policy.moduleName = none)
    (h : package.Extracts s.files policy extraction) :
    ∃ outcome t, package.Extracting policy s outcome t := by
  let view : View := ⟨policy, extraction.module⟩
  have hindex : ∀ name, (view.indexed s).classIndex.find? name = s.classIndex.find? name ∨
      name ∈ package.generatedNames s.files policy ∧
        (view.indexed s).classIndex.find? name = some policy.moduleName := by
    rw [h.generatedNames_eq]
    exact view.find?_indexed_cases s
  have hextractable_iff : package.Extractable s.files policy ↔
      view.checkBases view.generatedClasses = .ok () := extractable_iff_checkBases h.extracted
  have hall (hextractable : package.Extractable s.files policy) :
      ∀ name ∈ package.generatedNames s.files policy,
        ((view.indexed s).classIndex.find? name).isSome = true := by
    intro name hname
    rw [View.find?_indexed (View.checkBases_eq_ok_iff.1 (hextractable_iff.1 hextractable)),
      if_pos (h.generatedNames_eq ▸ hname)]
    rfl
  have htraced : package.Traced (view.indexed s) := hs.index h hindex hall
  have hrun : (package.extract policy).run s = _ := run_extract_of_new hnew
  simp only [h.extracted] at hrun
  cases hbases : view.checkBases view.generatedClasses with
  | error e =>
    simp only [view] at hbases
    rw [hbases] at hrun
    refine ⟨.error e, _, hrun, htraced, rfl, rfl,
      iff_of_false Bool.false_ne_true fun hextractable ↦ ?_, nofun, hindex⟩
    cases hbases.symm.trans (hextractable_iff.1 hextractable)
  | ok _ =>
    have hextractable := hextractable_iff.2 hbases
    simp only [view] at hbases
    rw [hbases] at hrun
    refine ⟨.ok extraction, _, hrun, htraced.keep h hextractable (hall hextractable), rfl, rfl,
      iff_of_true rfl hextractable, ?_, hindex⟩
    rintro _ ⟨⟩
    exact h

theorem Traced.run_extract (hs : package.Traced s) (hpolicy : policy ∈ package.policies) :
    ∃ outcome t, package.Extracting policy s outcome t := by
  cases hknown : s.extractions.find? policy.moduleName with
  | some known => exact ⟨_, _, hs.extracting_of_known hpolicy hknown⟩
  | none =>
    cases hextracted : package.extraction s.files policy with
    | error e => exact ⟨_, _, hs.extracting_of_unreadable hknown hextracted⟩
    | ok extraction => exact hs.exists_extracting_of_new hknown ⟨hpolicy, hextracted⟩

/-- No class of the package is generated under another name. -/
def Plain (package : Package) : Prop := ∀ policy ∈ package.policies, policy.templatesAsClass = []

/-- The classes of a module that has been extracted can be registered. -/
theorem Traced.registerClasses (hs : package.Traced s) (hpolicy : policy ∈ package.policies)
    (hplain : policy.templatesAsClass = [])
    (hknown : s.extractions.find? policy.moduleName = some extraction) :
    package.Traced ((View.registerClasses ⟨policy, extraction.module⟩).run s).2 := by
  obtain ⟨hextracted, -, hindexed⟩ := hs.kept policy hpolicy extraction hknown
  obtain ⟨outcome, registry, hrun, hregistry⟩ :=
    View.run_forM_registerClass_cases ⟨policy, extraction.module⟩
      (View.generatedClasses ⟨policy, extraction.module⟩) s
  rw [View.registerClasses, hrun]
  refine ⟨hs.kept, hs.whole, hs.indexed, fun name i hi ↦ ?_⟩
  change registry.interface? name = some i at hi
  rcases hregistry name with hold | ⟨-, hnew⟩
  · exact hs.registered name i (hold ▸ hi)
  · have hin : package.interfaceIn? s.files name policy = some i := by
      simp only [interfaceIn?, hextracted]
      exact hnew.symm.trans hi
    exact ⟨hindexed name (mem_generatedNames_of_interfaceIn? hpolicy hplain hin), policy, hpolicy,
      i, hin, .refl i⟩

theorem keeps_extract (hpolicy : policy ∈ package.policies) :
    (package.extract policy).Moves (Session.Keeps package.Traced) := by
  intro s hs
  obtain ⟨outcome, t, hextract⟩ := hs.run_extract hpolicy
  rw [hextract.run]
  exact hextract.traced

section Plain

variable (hplain : package.Plain)

include hplain

theorem admits_traced : package.Admits (Session.Keeps package.Traced) where
  extract _ hpolicy := keeps_extract hpolicy
  register policy hpolicy := (keeps_extract hpolicy).bind_of_ok fun _ _ _ hextract ht ↦
    ht.registerClasses hpolicy (hplain policy hpolicy) (find?_of_extract_eq_ok hextract)

/-! ### Calls -/

theorem keeps_analyze (module : String) :
    (package.analyze module).Moves (Session.Keeps package.Traced) :=
  (admits_traced hplain).analyze (fun _ found hs ↦ hs.settle found)
    (fun _ _ hs ↦ ⟨hs.kept, hs.whole, hs.indexed, hs.registered⟩) module

omit hplain in
theorem keeps_writeIfChanged {path : String} (hpath : HasOutputEnding path) (text : String) :
    (Run.writeIfChanged path text).Moves (Session.Keeps package.Traced) := by
  refine Run.moves_writeIfChanged_of_files fun s hs ↦ ?_
  have hgrown := (Files.Grown.refl [path] s.files).write hpath.isFileName
    (List.mem_singleton_self path) text
  exact hs.withFiles hgrown fun other hother ↦ List.mem_singleton.1 hother ▸ hpath

theorem keeps_perform (call : Call) :
    (package.perform call).Moves (Session.Keeps package.Traced) := by
  rw [perform_eq]
  exact (keeps_analyze hplain call.module).bind fun extraction ↦
    moves_emit package call extraction fun path hpath text ↦
      keeps_writeIfChanged (hasOutputEnding_of_mem_outputs hpath) text

/-- All sessions that calls lead to are traced. -/
theorem traced_after (files : Files) (calls : List Call) :
    package.Traced (package.after { files } calls) := by
  induction calls using List.reverseRecOn with
  | nil => exact traced_start package files
  | append_singleton calls call ih =>
    rw [after_concat]
    exact keeps_perform hplain call _ ih

end Plain

end Package

end Bindery
