import Bindery.Proofs.Package.Coherence
import Bindery.Proofs.Package.Indexing
import Mathlib.Data.List.Find

/-!
Where registered interfaces come from. The registry and the index are filled apart from each other:
a class is registered by the first module that generates it under its name, and indexed for the
last one that has been extracted. One might expect that the two never speak of different modules.
They do when two modules generate classes of one name, or when a module generates a template under
the name of another class (`registry_and_index_differ`). What holds in any case is that an interface
is given by some module that has been extracted (`Session.Gives`, `Originates`), and where neither
of the two happens to a name, this is the module that the name is indexed for
(`indexed_module_gives_interface`).
-/

set_option autoImplicit false
set_option relaxedAutoImplicit false

namespace Bindery

/-- The extraction that is kept of a module gives a name the interface, up to dropped methods. -/
def Session.Gives (s : Session) (policy : Policy) (name : String) (i : ClassInterface) : Prop :=
  ∃ extraction built, s.extractions.find? policy.moduleName = some extraction ∧
    View.interfaceAmong? ⟨policy, extraction.module⟩
      (View.generatedClasses ⟨policy, extraction.module⟩) name = some built ∧ built.Within i

/-- What gives an interface goes on to do so while extractions are kept and methods are dropped. -/
theorem Session.Gives.mono {s t : Session} {policy : Policy} {name : String} {i j : ClassInterface}
    (h : s.Gives policy name i)
    (hkept : ∀ module extraction, s.extractions.find? module = some extraction →
      t.extractions.find? module = some extraction) (hij : i.Within j) : t.Gives policy name j := by
  obtain ⟨extraction, built, hextraction, hbuilt, hwithin⟩ := h
  exact ⟨extraction, built, hkept _ _ hextraction, hbuilt, hwithin.trans hij⟩

namespace Package

variable {package : Package} {s t : Session} {policy : Policy} {name : String} {i : ClassInterface}

/-! ### Registered interfaces -/

/-- Every class that has been registered since is given by a module of the package. `shared` is the
registry at first. -/
def Originates (package : Package) (shared : InterfaceRegistry) (s : Session) : Prop :=
  ∀ name i, shared.hasClass name = false → s.registry.interface? name = some i →
    ∃ policy ∈ package.policies, s.Gives policy name i

variable {shared : InterfaceRegistry}

theorem originates_start (package : Package) (files : Files) (shared : InterfaceRegistry) :
    package.Originates shared { files, registry := shared } := by
  intro name i hname hi
  rw [InterfaceRegistry.hasClass_eq_isSome, show shared.interface? name = some i from hi] at hname
  cases hname

/-- Interfaces keep their origin when nothing is registered. -/
theorem Originates.mono (hs : package.Originates shared s)
    (hkept : ∀ module extraction, s.extractions.find? module = some extraction →
      t.extractions.find? module = some extraction)
    (hregistry : ∀ name i, t.registry.interface? name = some i →
      ∃ old, s.registry.interface? name = some old ∧ old.Within i) :
    package.Originates shared t := by
  intro name i hname hi
  obtain ⟨old, hold, hwithin⟩ := hregistry name i hi
  obtain ⟨policy, hpolicy, hgives⟩ := hs name old hname hold
  exact ⟨policy, hpolicy, hgives.mono hkept hwithin⟩

theorem originates_extract (policy : Policy) :
    (package.extract policy).Moves (Session.Keeps (package.Originates shared)) := by
  intro s hs
  have hgrows : s.Grows _ := moves_extract Session.allows_grows package policy s
  have hregistry : ((package.extract policy).run s).2.registry = s.registry :=
    registry_of_extract rfl
  exact hs.mono hgrows.extractions fun name i hi ↦ ⟨i, hregistry ▸ hi, .refl i⟩

/-- Registering a module that has been extracted gives each new class an origin. -/
theorem Originates.registerClasses (hs : package.Originates shared s)
    (hpolicy : policy ∈ package.policies) {extraction : Extraction}
    (hkept : s.extractions.find? policy.moduleName = some extraction) :
    package.Originates shared ((View.registerClasses ⟨policy, extraction.module⟩).run s).2 := by
  obtain ⟨outcome, registry, hrun, hregistry⟩ :=
    View.run_forM_registerClass_cases ⟨policy, extraction.module⟩
      (View.generatedClasses ⟨policy, extraction.module⟩) s
  rw [View.registerClasses, hrun]
  intro name i hname hi
  change registry.interface? name = some i at hi
  rcases hregistry name with hold | ⟨-, hnew⟩
  · exact hs name i hname (hold ▸ hi)
  · exact ⟨policy, hpolicy, extraction, i, hkept, hnew ▸ hi, .refl i⟩

theorem works_originates (package : Package) (shared : InterfaceRegistry) :
    package.Works (Session.Keeps (package.Originates shared)) where
  extract policy _ := originates_extract policy
  register policy hpolicy := (originates_extract policy).bind_of_ok fun _ _ _ hextract ht ↦
    ht.registerClasses hpolicy (find?_of_extract_eq_ok hextract)
  settle _ _ hs := hs.mono (fun _ _ h ↦ h) fun _ _ hi ↦
    InterfaceRegistry.exists_of_foldl_settle hi
  mark _ _ hs := hs
  write _ _ _ := Run.moves_writeIfChanged_of_files fun _ hs ↦ hs

/-! ### The indexed module -/

/-- A class that is given an interface under a name is the first of this name in its module, unless
the module generates another class under the name. -/
theorem find?_generatedClasses_of_interfaceAmong? {view : View}
    (hrenamed : ∀ c ∈ view.generatedClasses, view.className c = name → c.name = name)
    (h : view.interfaceAmong? view.generatedClasses name = some i) :
    ∃ c, view.generatedClasses.find? (·.name == name) = some c ∧ view.interfaceOf c = .ok i := by
  obtain ⟨c, hfind, hinterface⟩ := Option.bind_eq_some_iff.1 h
  have hc := List.mem_of_find?_eq_some hfind
  have hunder : view.className c = name := by simpa using List.find?_some hfind
  have hname := hrenamed c hc hunder
  refine ⟨c, ?_, eq_ok_of_toOption hinterface⟩
  rw [← hfind]
  -- The name that a class is generated under depends on its own name only.
  refine List.find?_congr fun d hd ↦ ?_
  rw [Bool.eq_iff_iff, beq_iff_eq, beq_iff_eq]
  refine ⟨fun hd ↦ ?_, hrenamed d hd⟩
  rw [View.className, hname] at hunder
  rw [View.className, hd, hunder]

/-- After any operations on a new package, whatever of them fails: a class that is registered, and
was not in the registry that the package started with, has the interface that a module of the
package gives it that has been extracted, up to dropped methods. If it is indexed for a module, and
no two modules generate classes of its name, and none generates another class under its name, then
this is the module that it is indexed for, and the interface is that of the class. -/
theorem indexed_module_gives_interface (package : Package) (files : Files)
    (shared : InterfaceRegistry) (operations : List Operation)
    (hs : s = package.afterOperations { files, registry := shared } operations)
    (hnew : shared.hasClass name = false) (hi : s.registry.interface? name = some i) :
    (∃ policy ∈ package.policies, s.Gives policy name i) ∧
    ∀ policy, package.IndexedFor s name policy →
      (∀ first ∈ package.policies, ∀ second ∈ package.policies,
        name ∈ package.generatedNames s.files first →
          name ∈ package.generatedNames s.files second → first.moduleName = second.moduleName) →
      (∀ other ∈ package.policies, ∀ declared ∈ package.generatedNames s.files other,
        other.className declared = name → declared = name) →
      ∃ extraction c built, s.extractions.find? policy.moduleName = some extraction ∧
        (View.generatedClasses ⟨policy, extraction.module⟩).find? (·.name == name) = some c ∧
        View.interfaceOf ⟨policy, extraction.module⟩ c = .ok built ∧ built.Within i := by
  have horiginates : package.Originates shared s := by
    rw [hs]
    exact (works_originates package shared).afterOperations _ operations
      (originates_start package files shared)
  have hgiven := horiginates name i hnew hi
  refine ⟨hgiven, fun policy hindexed honly hrenamed ↦ ?_⟩
  have haccounted : package.Accounted s := by
    rw [hs]
    exact ((reachable_start package files shared).afterOperations operations).accounted
  obtain ⟨giver, hgiver, extraction, built, hkept, hbuilt, hwithin⟩ := hgiven
  have hextracts : package.Extracts s.files giver extraction :=
    ⟨hgiver, haccounted.kept giver hgiver extraction hkept⟩
  obtain ⟨c, hfind, hinterface⟩ := find?_generatedClasses_of_interfaceAmong?
    (fun c hc ↦ hrenamed giver hgiver c.name (hextracts.mem_generatedNames hc)) hbuilt
  have hsame : giver = policy := by
    obtain ⟨other, hother, hname, found, haccounts⟩ :=
      haccounted.indexed name _ hindexed.2
    refine eq_of_moduleName_eq hgiver hindexed.1 (honly giver hgiver policy hindexed.1 ?_ ?_)
    · have hname : c.name = name := by simpa using List.find?_some hfind
      exact hname ▸ hextracts.mem_generatedNames (List.mem_of_find?_eq_some hfind)
    · obtain rfl := eq_of_moduleName_eq hother hindexed.1 hname
      have hfound : package.Extracts s.files other found := ⟨hother, haccounts.extracted⟩
      rw [hfound.generatedNames_eq]
      exact haccounts.generated
  subst hsame
  exact ⟨extraction, c, built, hkept, hfind, hinterface, hwithin⟩

open Drawing in
/-- The shapes are registered by the analysis of the circles, as their own module declares them. -/
theorem shape_given_by_shapes : ∃ i, (drawing.afterOperations {}
      [.extract "Shapes", .call ⟨.analyze, "Circles"⟩]).registry.interface? "Shape" = some i ∧
    ∃ extraction c built, (drawing.afterOperations {} [.extract "Shapes",
        .call ⟨.analyze, "Circles"⟩]).extractions.find? "Shapes" = some extraction ∧
      (View.generatedClasses ⟨Policy.empty "Shapes" "Drawing", extraction.module⟩).find?
        (·.name == "Shape") = some c ∧
      View.interfaceOf ⟨Policy.empty "Shapes" "Drawing", extraction.module⟩ c = .ok built ∧
      built.Within i := by
  have hregistered : ((drawing.afterOperations {} [.extract "Shapes",
      .call ⟨.analyze, "Circles"⟩]).registry.interface? "Shape").isSome = true := by
    decide +kernel
  obtain ⟨i, hi⟩ := Option.isSome_iff_exists.1 hregistered
  refine ⟨i, hi, ?_⟩
  exact (indexed_module_gives_interface drawing .empty [] _ rfl (by decide) hi).2
    (Policy.empty "Shapes" "Drawing") ⟨List.mem_cons_of_mem _ List.mem_cons_self, by decide +kernel⟩
    (by decide +kernel) (by decide +kernel)

namespace Drawing

/-- Two modules that declare shapes. -/
def forms : Package where
  name := "Drawing"
  config := {}
  source := .memory [
    ("Shapes", classFile "Shape" [] ["Draw"]),
    ("Forms", classFile "Shape" [] ["Fill"])]
  manifest := none
  policies := [Policy.empty "Shapes" "Drawing", Policy.empty "Forms" "Drawing"]
  distinct := by decide

def formed : Session := forms.afterOperations {} [.call ⟨.analyze, "Shapes"⟩, .extract "Forms"]

def boxed : Policy := { Policy.empty "Lists" "Drawing" with templatesAsClass := [("List", "Box")] }

/-- Lists, which are generated under the name of a class of their module. -/
def boxes : Package where
  name := "Drawing"
  config := {}
  source := .memory [("Lists", { items := [
    .ofClass {
      common := { name := "List" }, isTemplate := true, members := [methodEntry "Append"] },
    .ofClass { common := { name := "Box" }, members := [methodEntry "Open"] }] })]
  manifest := none
  policies := [boxed]
  distinct := by decide

def filled : Session := boxes.afterOperations {} [.call ⟨.analyze, "Lists"⟩]

/-- The signatures that a class is registered with. -/
def registeredSignatures? (s : Session) (name : String) : Option (List String) :=
  (s.registry.interface? name).map (·.methods.keys)

/-- The signatures that the extraction of a module gives a class. -/
def givenSignatures? (s : Session) (policy : Policy) (name : String) : Option (List String) := do
  let extraction ← s.extractions.find? policy.moduleName
  let view : View := ⟨policy, extraction.module⟩
  let c ← view.generatedClasses.find? (·.name == name)
  let built ← (view.interfaceOf c).toOption
  return built.methods.keys

end Drawing

open Drawing in
/-- Shapes are registered as one module declares them, and indexed for the other one, which has been
extracted later. Boxes are registered as lists, and indexed as boxes. -/
theorem registry_and_index_differ :
    formed.classIndex.find? "Shape" = some "Forms" ∧
      registeredSignatures? formed "Shape" = some ["Draw()"] ∧
      givenSignatures? formed (Policy.empty "Forms" "Drawing") "Shape" = some ["Fill()"] ∧
    filled.classIndex.find? "Box" = some "Lists" ∧
      registeredSignatures? filled "Box" = some ["Append()"] ∧
      givenSignatures? filled boxed "Box" = some ["Open()"] := by
  decide +kernel

end Package

end Bindery
