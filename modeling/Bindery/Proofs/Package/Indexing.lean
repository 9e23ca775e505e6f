import Bindery.Proofs.Package.Reachability

/-!
What the index of classes says. One might expect that a class is indexed for a module only when the
module has been extracted and generates the class, and that a failed extraction leaves the index as
it was. But the classes of a module are indexed one after another until the base class of one is
ambiguous, and those in front of it stay in the index. So an indexed class is generated by its
module as the files declare it, but the module need not have been extracted
(`indexed_classes_accounted_for`).

Making the interface of a class known registers all classes of the module that the index names, each
under the name it is generated under. So the interface is registered under the name that was asked
for, unless the class is generated under another name (`interface_expected_once_ensured`).
-/

set_option autoImplicit false
set_option relaxedAutoImplicit false

namespace Bindery

/-! ### Ambiguous bases -/

/-- The error of a class that has several bases to choose from. -/
def Error.IsAmbiguous (className : String) (e : Error) : Prop :=
  ∃ bases, e = .ambiguousBase className bases

theorem chooseBase_eq_error {className : String} {folded : List String} {e : Error}
    {candidates : List (String × Except Error (Option String))}
    (hcandidates : ∀ candidate ∈ candidates, ∀ e, candidate.2 = .error e → e.IsAmbiguous className)
    (h : chooseBase className folded candidates = .error e) : e.IsAmbiguous className := by
  match candidates with
  | [] => cases h
  | [(name, beneath)] =>
    rw [chooseBase] at h
    split at h
    · exact hcandidates (name, beneath) List.mem_cons_self e h
    · cases h
  | first :: second :: rest =>
    cases h
    exact ⟨_, rfl⟩

mutual

theorem Base.beneath_eq_error {policy : Policy} {className : String} : (base : Base) → ∀ e,
    base.beneath policy className = .error e → e.IsAmbiguous className
  | ⟨name, bases⟩, e, h => by
    rw [Base.beneath] at h
    exact chooseBase_eq_error (Base.candidates_eq_error (policy.ignoredBasesOf name) bases) h

theorem Base.candidates_eq_error {policy : Policy} {className : String} (ignored : List String) :
    (bases : List Base) → ∀ candidate ∈ Base.candidates policy className ignored bases, ∀ e,
      candidate.2 = .error e → e.IsAmbiguous className
  | [], candidate, hcandidate, e, h => by
    rw [Base.candidates] at hcandidate
    cases hcandidate
  | base :: bases, candidate, hcandidate, e, h => by
    rw [Base.candidates] at hcandidate
    split at hcandidate
    · exact Base.candidates_eq_error ignored bases candidate hcandidate e h
    · rcases List.mem_cons.1 hcandidate with rfl | hrest
      · exact Base.beneath_eq_error base e h
      · exact Base.candidates_eq_error ignored bases candidate hrest e h

end

namespace View

/-- The base class of a class is unknown only when it is ambiguous. -/
theorem baseClass_eq_error {view : View} {c : Class} {e : Error}
    (h : view.baseClass c = .error e) : e.IsAmbiguous c.name := by
  unfold baseClass at h
  split at h
  · cases h
  · exact chooseBase_eq_error (Base.candidates_eq_error _ c.bases) h

/-- The base classes of some generated classes are known, and that of the next one is ambiguous. -/
structure StopsAt (view : View) (before : List Class) (c : Class) (e : Error) : Prop where
  split : ∃ after, view.generatedClasses = before ++ c :: after
  known : ∀ other ∈ before, ∃ base, view.baseClass other = .ok base
  stopped : view.baseClass c = .error e
  ambiguous : e.IsAmbiguous c.name

theorem StopsAt.mem_of_mem_before {view : View} {before : List Class} {c : Class} {e : Error}
    {name : String} (h : view.StopsAt before c e) (hname : name ∈ before.map Class.name) :
    name ∈ view.generatedClasses.map Class.name := by
  obtain ⟨after, hsplit⟩ := h.split
  rw [hsplit, List.map_append]
  exact List.mem_append_left _ hname

theorem stopsAt_of_checkBases {view : View} {e : Error}
    (h : view.checkBases view.generatedClasses = .error e) :
    ∃ c, view.StopsAt (view.indexable view.generatedClasses) c e := by
  obtain ⟨c, after, hsplit, hstopped⟩ := exists_of_checkBases_eq_error h
  exact ⟨c, ⟨after, hsplit⟩, fun _ hother ↦ baseClass_of_mem_indexable hother, hstopped,
    baseClass_eq_error hstopped⟩

end View

namespace Package

variable {package : Package} {s t : Session} {policy : Policy} {extraction : Extraction}
  {name module : String} {e : Error}

/-! ### Indexed classes -/

/-- The module generates a class of the name, as the files declare it. The module has been
extracted, or its extraction stops behind the class. -/
structure Accounts (package : Package) (s : Session) (policy : Policy) (extraction : Extraction)
    (name : String) : Prop where
  extracted : package.extraction s.files policy = .ok extraction
  generated : name ∈ (View.generatedClasses ⟨policy, extraction.module⟩).map Class.name
  kept_or_stopped : s.extractions.find? policy.moduleName = some extraction ∨
    ∃ before c e, View.StopsAt ⟨policy, extraction.module⟩ before c e ∧
      name ∈ before.map Class.name

theorem Accounts.mono (h : package.Accounts s policy extraction name)
    (hpolicy : policy ∈ package.policies) (hfiles : package.KeepsDeclarations s.files t.files)
    (hkept : ∀ module extraction, s.extractions.find? module = some extraction →
      t.extractions.find? module = some extraction) :
    package.Accounts t policy extraction name where
  extracted := hfiles policy hpolicy extraction h.extracted
  generated := h.generated
  kept_or_stopped := h.kept_or_stopped.imp_left (hkept _ _)

/-- What has been extracted is what the files declare, and every indexed class is accounted for. -/
structure Accounted (package : Package) (s : Session) : Prop where
  kept : ∀ policy ∈ package.policies, ∀ extraction,
    s.extractions.find? policy.moduleName = some extraction →
      package.extraction s.files policy = .ok extraction
  indexed : ∀ name module, s.classIndex.find? name = some module →
    ∃ policy ∈ package.policies, policy.moduleName = module ∧
      ∃ extraction, package.Accounts s policy extraction name

theorem accounted_start (package : Package) (files : Files) (registry : InterfaceRegistry) :
    package.Accounted { files, registry } where
  kept _ _ _ h := by cases h
  indexed _ _ h := by cases h

theorem Accounted.mono (hs : package.Accounted s) (hindex : t.classIndex = s.classIndex)
    (hextractions : t.extractions = s.extractions)
    (hfiles : package.KeepsDeclarations s.files t.files) : package.Accounted t where
  kept policy hpolicy extraction hkept := by
    rw [hextractions] at hkept
    exact hfiles policy hpolicy extraction (hs.kept policy hpolicy extraction hkept)
  indexed name module hmodule := by
    rw [hindex] at hmodule
    obtain ⟨policy, hpolicy, hname, extraction, haccounts⟩ := hs.indexed name module hmodule
    refine ⟨policy, hpolicy, hname, extraction, haccounts.mono hpolicy hfiles fun _ _ h ↦ ?_⟩
    rw [hextractions, h]

/-- An extraction accounts for the classes that it indexes. -/
theorem accounts_of_extract {outcome : Except Error Extraction}
    (hrun : (package.extract policy).run s = (outcome, t)) (name : String) :
    t.classIndex.find? name = s.classIndex.find? name ∨
      t.classIndex.find? name = some policy.moduleName ∧
        ∃ extraction, package.Accounts t policy extraction name := by
  cases hknown : s.extractions.find? policy.moduleName with
  | some known =>
    rw [run_extract_of_known hknown] at hrun
    cases hrun
    exact .inl rfl
  | none =>
    cases outcome with
    | error e =>
      obtain ⟨-, ⟨-, rfl⟩ | ⟨extraction, hextracted, hbases, rfl⟩⟩ := extract_eq_error hrun
      · exact .inl rfl
      · obtain ⟨c, hstops⟩ := View.stopsAt_of_checkBases hbases
        rw [View.indexed, View.find?_indexAll]
        split
        · rename_i hname
          exact .inr ⟨rfl, extraction, hextracted, hstops.mem_of_mem_before hname,
            .inr ⟨_, c, e, hstops, hname⟩⟩
        · exact .inl rfl
    | ok extraction =>
      have hkept := find?_of_extract_eq_ok hrun
      obtain ⟨hextracted, -, rfl⟩ := extract_new_eq_ok hknown hrun
      refine (View.find?_indexed_cases ⟨policy, extraction.module⟩ s name).imp id fun hnew ↦ ?_
      exact ⟨hnew.2, extraction, hextracted, hnew.1, .inl hkept⟩

theorem keeps_accounted_extract (hpolicy : policy ∈ package.policies) :
    (package.extract policy).Moves (Session.Keeps package.Accounted) := by
  intro s hs
  rcases hrun : (package.extract policy).run s with ⟨outcome, t⟩
  have hgrows : s.Grows t := (moves_extract Session.allows_grows package policy).of_eq hrun
  have hfiles : package.KeepsDeclarations s.files t.files :=
    hgrows.files ▸ keepsDeclarations_refl package s.files
  refine ⟨fun other hother extraction hkept ↦ ?_, fun name module hmodule ↦ ?_⟩
  · rcases find?_extractions_of_extract hrun hkept with hold | ⟨hsame, hextracted, -⟩
    · exact hfiles other hother extraction (hs.kept other hother extraction hold)
    · obtain rfl := eq_of_moduleName_eq hother hpolicy hsame
      exact hfiles other hother extraction hextracted
  · dsimp only at hmodule
    rcases accounts_of_extract hrun name with hold | ⟨hnew, haccounts⟩
    · rw [hold] at hmodule
      obtain ⟨other, hother, hname, extraction, haccounts⟩ := hs.indexed name module hmodule
      exact ⟨other, hother, hname, extraction, haccounts.mono hother hfiles hgrows.extractions⟩
    · exact ⟨policy, hpolicy, Option.some.inj (hnew.symm.trans hmodule), haccounts⟩

theorem Reachable.accounted (hs : package.Reachable package.KeepsDeclarations s) :
    package.Accounted s := by
  refine hs.of_upholds (accounted_start package)
    (upholds_keeps (fun policy hpolicy ↦ keeps_accounted_extract hpolicy) ?_)
  exact fun s t hindex hextractions hfiles hs ↦ hs.mono hindex hextractions (hfiles.elim id id)

/-- In every session that the package can get into while its declarations stay as they are: an
indexed class is generated by a module of the package, as the files declare it, and the module has
been extracted, or its extraction stops behind the class. A failed extraction leaves everything as
it was when the module cannot be read. Otherwise it stops at the first class whose base class is
ambiguous, and all that changes is that the classes in front of that one are indexed for the
module. -/
theorem indexed_classes_accounted_for (hs : package.Reachable package.KeepsDeclarations s) :
    (∀ name module, s.classIndex.find? name = some module →
      ∃ policy extraction, package.policy module = .ok policy ∧
        package.Accounts s policy extraction name) ∧
    ∀ policy e t, (package.extract policy).run s = (.error e, t) →
      (package.extraction s.files policy = .error e ∧ t = s) ∨
        ∃ extraction before c, package.extraction s.files policy = .ok extraction ∧
          View.StopsAt ⟨policy, extraction.module⟩ before c e ∧
          t = { s with
            classIndex := View.indexAll ⟨policy, extraction.module⟩ before s.classIndex } := by
  refine ⟨fun name module h ↦ ?_, fun policy e t hrun ↦ ?_⟩
  · obtain ⟨policy, hpolicy, rfl, extraction, haccounts⟩ := hs.accounted.indexed name module h
    exact ⟨policy, extraction, policy_of_mem hpolicy, haccounts⟩
  · obtain ⟨-, hread | ⟨extraction, hextracted, hbases, rfl⟩⟩ := extract_eq_error hrun
    · exact .inl hread
    · obtain ⟨c, hstops⟩ := View.stopsAt_of_checkBases hbases
      exact .inr ⟨extraction, _, c, hextracted, hstops, rfl⟩

namespace Drawing

/-- Shapes, and blobs with two bases to choose from. -/
def blots : Package where
  name := "Drawing"
  config := {}
  source := .memory [("Shapes", { items := [
    .ofClass { common := { name := "Shape" }, members := [methodEntry "Draw"] },
    .ofClass { common := { name := "Blob" }, bases := [⟨"Drop", []⟩, ⟨"Stain", []⟩] }] })]
  manifest := none
  policies := [Policy.empty "Shapes" "Drawing"]
  distinct := by decide

end Drawing

open Drawing in
/-- The shapes are indexed for a module that has not been extracted. -/
theorem shape_left_in_index :
    blots.Reachable blots.KeepsDeclarations (blots.operate (.extract "Shapes") {}) ∧
      ∃ policy extraction, blots.policy "Shapes" = .ok policy ∧
        blots.Accounts (blots.operate (.extract "Shapes") {}) policy extraction "Shape" := by
  have hstart : blots.Reachable blots.KeepsDeclarations {} := reachable_start blots .empty []
  have hs := hstart.operate (.extract "Shapes")
  exact ⟨hs, (indexed_classes_accounted_for hs).1 "Shape" "Shapes" (by decide +kernel)⟩

open Drawing in
/-- The extraction of the shapes fails and changes the index, in which they stand without being
extracted. -/
theorem index_changed_by_failure :
    blots.Reachable blots.KeepsDeclarations {} ∧
      ((blots.extract (Policy.empty "Shapes" "Drawing")).run {}).1.isOk = false ∧
      Table.find? ({} : Session).classIndex "Shape" = none ∧
      (blots.operate (.extract "Shapes") {}).classIndex.find? "Shape" = some "Shapes" ∧
      ((blots.operate (.extract "Shapes") {}).extractions.find? "Shapes").isNone = true :=
  ⟨reachable_start blots .empty [], by decide +kernel, by decide +kernel, by decide +kernel,
    by decide +kernel⟩

/-! ### Interfaces -/

/-- When the interface of a class has been made known, the class is registered, or all classes of
the module that it is indexed for are. -/
theorem ensureInterface_eq_ok (h : (package.ensureInterface name).run s = (.ok (), t)) :
    t.registry.hasClass name = true ∨ ∃ policy extraction, package.IndexedFor t name policy ∧
      package.IsPrepared t policy.moduleName policy extraction := by
  rw [ensureInterface, Run.run_get_bind] at h
  split at h
  · rename_i hclass
    cases h
    exact .inl hclass
  · obtain ⟨policy, u, howner, h⟩ := Run.run_bind_eq_ok.1 h
    obtain ⟨extraction, v, hextract, hregister⟩ := Run.run_bind_eq_ok.1 h
    obtain ⟨hpolicy, hindex⟩ := (indexedFor_of_owner howner).extract hextract
    have hkept := find?_of_extract_eq_ok hextract
    have hclasses : ∀ c ∈ View.generatedClasses ⟨policy, extraction.module⟩,
        t.registry.hasClass (View.className ⟨policy, extraction.module⟩ c) = true :=
      fun c hc ↦ View.hasClass_of_registerClasses hregister hc
    rw [View.eq_withRegistry_of_registerClasses hregister] at hclasses ⊢
    exact .inr ⟨policy, extraction, ⟨hpolicy, hindex⟩, policy_of_mem hpolicy, hkept, hclasses⟩

/-- In every session that the package can get into while its declarations stay as they are: when the
interface of a class has been made known, it can be had under the name of the class, unless the
module that the class is indexed for generates it under another name. Then it can be had under that
one. -/
theorem interface_expected_once_ensured (hs : package.Reachable package.KeepsDeclarations s)
    (h : (package.ensureInterface name).run s = (.ok (), t)) :
    (∃ interface, t.registry.expect name = .ok interface) ∨
      ∃ policy, package.IndexedFor t name policy ∧ policy.className name ≠ name ∧
        ∃ interface, t.registry.expect (policy.className name) = .ok interface := by
  rcases ensureInterface_eq_ok h with hclass | ⟨policy, extraction, hindexed, hprepared⟩
  · exact .inl (InterfaceRegistry.exists_expect_eq_ok hclass)
  · obtain ⟨-, hkept, hclasses⟩ := hprepared
    have ht : package.Accounted t := by
      have hlater := hs.operate (.ensure name)
      rw [operate, h] at hlater
      exact hlater.accounted
    -- The classes that have been registered are those that account for the index.
    obtain ⟨other, hother, hname, found, haccounts⟩ := ht.indexed name _ hindexed.2
    obtain rfl := eq_of_moduleName_eq hother hindexed.1 hname
    obtain rfl : found = extraction :=
      Except.ok.inj (haccounts.extracted.symm.trans (ht.kept other hother extraction hkept))
    obtain ⟨c, hc, rfl⟩ := List.mem_map.1 haccounts.generated
    have hinterface := InterfaceRegistry.exists_expect_eq_ok (hclasses c hc)
    rw [View.className] at hinterface
    by_cases hsame : other.className c.name = c.name
    · rw [hsame] at hinterface
      exact .inl hinterface
    · exact .inr ⟨other, hindexed, hsame, hinterface⟩

namespace Drawing

def lists : Policy := { Policy.empty "Lists" "Drawing" with
  templatesAsClass := [("List", "ShapeList")] }

/-- Shelves, which are lists. The lists are generated under a name of their own. -/
def shelves : Package where
  name := "Drawing"
  config := {}
  source := .memory [
    ("Lists", { items := [.ofClass {
      common := { name := "List" }, isTemplate := true, members := [methodEntry "Append"] }] }),
    ("Shelves", classFile "Shelf" [⟨"List", []⟩] [])]
  manifest := none
  policies := [lists, Policy.empty "Shelves" "Drawing"]
  distinct := by decide

theorem ensure_list : (shelves.ensureInterface "List").run {} =
    (.ok (), shelves.operate (.ensure "List") {}) := by
  have hok : ((shelves.ensureInterface "List").run {}).1.toOption = some () := by decide +kernel
  exact Prod.ext (eq_ok_of_toOption hok) rfl

end Drawing

open Drawing in
/-- The lists can be had under the name that their module gives them. -/
theorem list_expected_under_other_name :
    shelves.Reachable shelves.KeepsDeclarations {} ∧
      (shelves.ensureInterface "List").run {} = (.ok (), shelves.operate (.ensure "List") {}) ∧
      ∃ policy, shelves.IndexedFor (shelves.operate (.ensure "List") {}) "List" policy ∧
        policy.className "List" ≠ "List" ∧ ∃ interface,
          (shelves.operate (.ensure "List") {}).registry.expect (policy.className "List") =
            .ok interface := by
  have hs : shelves.Reachable shelves.KeepsDeclarations {} := reachable_start shelves .empty []
  have hunregistered :
      ((shelves.operate (.ensure "List") {}).registry.expect "List").isOk = false := by
    decide +kernel
  refine ⟨hs, ensure_list, (interface_expected_once_ensured hs ensure_list).resolve_left ?_⟩
  rintro ⟨interface, hinterface⟩
  rw [hinterface] at hunregistered
  cases hunregistered

open Drawing in
/-- The interface of the lists is made known, but not under their name. So shelves cannot be
analyzed. -/
theorem list_known_under_other_name :
    shelves.Reachable shelves.KeepsDeclarations {} ∧
      (shelves.ensureInterface "List").run {} = (.ok (), shelves.operate (.ensure "List") {}) ∧
      ((shelves.operate (.ensure "List") {}).registry.expect "List").isOk = false ∧
      ((shelves.operate (.ensure "List") {}).registry.expect "ShapeList").isOk = true ∧
      ((shelves.analyze "Shelves").run {}).1.isOk = false :=
  ⟨reachable_start shelves .empty [], ensure_list, by decide +kernel, by decide +kernel,
    by decide +kernel⟩

end Package

end Bindery
