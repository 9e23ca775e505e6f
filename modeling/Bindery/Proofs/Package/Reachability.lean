import Bindery.Package.Operations
import Bindery.Proofs.Package.Outputs
import Bindery.Proofs.Package.Passed
import Mathlib.Data.List.Induction
import Mathlib.Logic.Relation

/-!
The sessions that a package can get into. Operations of the package are done in any order, some of
them fail, files are changed from outside, and the registry may be shared with other packages, which
register classes in it and drop methods. How files may be changed is a parameter: some results hold
for all changes, others for those that leave the declarations as they are
(`Package.KeepsDeclarations`), as the package itself does. A relation that the steps of an analysis
uphold, and such changes too (`Package.Upholds`), holds between a session and all that it leads to
(`Upholds.continues`). Invariants of all reachable sessions are a special case. Where nothing happens
to a session but what the package does, less has to be shown (`Package.Works`).
-/

set_option autoImplicit false
set_option relaxedAutoImplicit false

namespace Bindery

namespace Package

/-- What happens to a session at once, when files may be changed as told. -/
inductive Step (package : Package) (Changed : Files → Files → Prop) (s : Session) : Session → Prop
  | operate (operation : Operation) : Step package Changed s (package.operate operation s)
  | files (files : Files) (h : Changed s.files files) : Step package Changed s { s with files }
  | grow (registry : InterfaceRegistry) (h : s.registry.Grows registry) :
    Step package Changed s (s.withRegistry registry)

/-- The first session leads to the second. -/
def Continues (package : Package) (Changed : Files → Files → Prop) : Session → Session → Prop :=
  Relation.ReflTransGen (package.Step Changed)

/-- The package can be in the session: nothing has been worked out at first, but the registry may
hold classes already. -/
def Reachable (package : Package) (Changed : Files → Files → Prop) (s : Session) : Prop :=
  ∃ files registry, package.Continues Changed { files, registry } s

variable {package : Package} {Changed : Files → Files → Prop} {s t : Session}

theorem reachable_start (package : Package) (files : Files) (registry : InterfaceRegistry) :
    package.Reachable Changed { files, registry } := ⟨files, registry, .refl⟩

theorem Reachable.continues (hs : package.Reachable Changed s) (h : package.Continues Changed s t) :
    package.Reachable Changed t := by
  obtain ⟨files, registry, hstart⟩ := hs
  exact ⟨files, registry, hstart.trans h⟩

theorem Reachable.operate (hs : package.Reachable Changed s) (operation : Operation) :
    package.Reachable Changed (package.operate operation s) :=
  hs.continues (.single (.operate operation))

theorem Reachable.afterOperations (hs : package.Reachable Changed s)
    (operations : List Operation) :
    package.Reachable Changed (package.afterOperations s operations) := by
  induction operations using List.reverseRecOn with
  | nil => exact hs
  | append_singleton operations operation ih =>
    rw [afterOperations_concat]
    exact ih.operate operation

/-- A relation that holds between the two ends of everything that the package does: an analysis
settles findings and marks the module, and outputs are written. -/
structure Works (package : Package) (R : Session → Session → Prop) : Prop
    extends package.Admits R where
  settle : ∀ (s : Session) (found : List Finding), R s (s.settle found)
  mark : ∀ (s : Session) (module : String), R s { s with checked := s.checked ++ [module] }
  write : ∀ path, HasOutputEnding path → ∀ text, (Run.writeIfChanged path text).Moves R

section Works

variable {R : Session → Session → Prop} [IsPreorder Session R] (hR : package.Works R)

include hR

theorem Works.analyze (module : String) : (package.analyze module).Moves R :=
  hR.toAdmits.analyze hR.settle hR.mark module

theorem Works.perform (call : Call) : (package.perform call).Moves R := by
  rw [perform_eq]
  exact (hR.analyze call.module).bind fun extraction ↦
    moves_emit package call extraction fun path hpath text ↦
      hR.write path (hasOutputEnding_of_mem_outputs hpath) text

theorem Works.writeRule (module : String) : (package.writeRule module).Moves R :=
  (Run.moves_ofExcept _).bind fun _ ↦ Run.moves_get.bind fun _ ↦
    hR.write _ (hasOutputEnding_depsFile package.config module) _

theorem Works.generate (module : String) : (package.generate module).Moves R := by
  refine (hR.writeRule module).bind fun _ ↦ ?_
  refine ((hR.analyze module).bind fun extraction ↦ ?_).bind fun _ ↦
    ((hR.analyze module).bind fun extraction ↦ ?_).bind fun _ ↦ Run.moves_pure _
  · exact moves_emitCode (fun path hpath text ↦
      hR.write path (hasOutputEnding_of_mem_outputs hpath) text) extraction
  · exact moves_emitDoc (fun path hpath text ↦
      hR.write path (hasOutputEnding_of_mem_outputs hpath) text) extraction

theorem Works.generateModules (modules : List String) (s : Session) :
    R s ((package.generateModules modules).run s).2 := by
  change R s (((addAllNew [] modules).zipIdx.mapM package.generateAt).run s).2
  generalize (addAllNew [] modules).zipIdx = places
  induction places generalizing s with
  | nil => exact Std.Refl.refl s
  | cons place places ih =>
    rw [List.mapM_cons]
    exact IsTrans.trans _ _ _ (hR.generate place.1 s) (ih _)

theorem Works.operate (operation : Operation) (s : Session) :
    R s (package.operate operation s) := by
  cases operation with
  | extract module =>
    exact Run.moves_ofExcept_bind
      (fun policy hpolicy ↦ hR.extract policy (mem_of_policy hpolicy).1) s
  | owner className => exact moves_owner hR.extract className s
  | ensure className => exact hR.ensureInterface className s
  | check module => exact ((hR.prepare module).bind fun _ ↦ hR.toAdmits.check hR.settle _) s
  | call call => exact hR.perform call s
  | rule module => exact hR.writeRule module s
  | generate modules => exact hR.generateModules modules s
  | commonTypemaps =>
    exact ((Run.moves_ofExcept _).bind fun text ↦
      hR.write _ (hasOutputEnding_commonTypemapsFile package.config) text) s

theorem Works.afterOperations (start : Session) (operations : List Operation) :
    R start (package.afterOperations start operations) := by
  induction operations using List.reverseRecOn with
  | nil => exact Std.Refl.refl start
  | append_singleton operations operation ih =>
    rw [afterOperations_concat]
    exact IsTrans.trans _ _ _ ih (hR.operate operation _)

end Works

/-- A relation that holds between the two ends of everything that happens to a session. -/
structure Upholds (package : Package) (Changed : Files → Files → Prop)
    (R : Session → Session → Prop) : Prop extends package.Admits R where
  mark : ∀ (s : Session) (module : String), R s { s with checked := s.checked ++ [module] }
  files : ∀ (s : Session) (files : Files),
    Changed s.files files ∨ package.KeepsDeclarations s.files files → R s { s with files }
  grow : ∀ (s : Session) (registry : InterfaceRegistry), s.registry.Grows registry →
    R s (s.withRegistry registry)

section Upholds

variable {R : Session → Session → Prop} [IsPreorder Session R] (hR : package.Upholds Changed R)

include hR

/-- What the package writes leaves the declarations as they are, and settling findings only drops
methods of registered classes. -/
theorem Upholds.works : package.Works R where
  toAdmits := hR.toAdmits
  settle s found := hR.grow s _ (InterfaceRegistry.grows_foldl_settle s.registry found)
  mark := hR.mark
  write _ hpath text := Run.moves_writeIfChanged_of_files fun s ↦
    hR.files s _ (.inr (keepsDeclarations_write hpath s.files text))

theorem Upholds.step (h : package.Step Changed s t) : R s t := by
  cases h with
  | operate operation => exact hR.works.operate operation s
  | files files h => exact hR.files s files (.inl h)
  | grow registry h => exact hR.grow s registry h

/-- Whatever happens to a session, an upheld relation holds between its start and its end. -/
theorem Upholds.continues (h : package.Continues Changed s t) : R s t := by
  induction h with
  | refl => exact Std.Refl.refl s
  | tail _ hlast ih => exact IsTrans.trans _ _ _ ih (hR.step hlast)

end Upholds

/-- What holds at first, and is upheld, holds of every reachable session. -/
theorem Reachable.of_upholds {P : Session → Prop} (hs : package.Reachable Changed s)
    (hstart : ∀ files registry, P { files, registry })
    (hP : package.Upholds Changed (Session.Keeps P)) : P s := by
  obtain ⟨files, registry, h⟩ := hs
  exact hP.continues h (hstart files registry)

/-- What depends only on the index, on what has been extracted and on the declarations is upheld as
soon as extractions keep it. -/
theorem upholds_keeps {P : Session → Prop}
    (hextract : ∀ policy ∈ package.policies, (package.extract policy).Moves (Session.Keeps P))
    (hsame : ∀ s t : Session, t.classIndex = s.classIndex → t.extractions = s.extractions →
      Changed s.files t.files ∨ package.KeepsDeclarations s.files t.files → P s → P t) :
    package.Upholds Changed (Session.Keeps P) where
  extract := hextract
  register policy hpolicy := by
    refine (hextract policy hpolicy).bind fun extraction s hs ↦ ?_
    rcases hrun : (View.registerClasses ⟨policy, extraction.module⟩).run s with ⟨outcome, t⟩
    rw [View.eq_withRegistry_of_registerClasses hrun]
    exact hsame s _ rfl rfl (.inr (keepsDeclarations_refl package s.files)) hs
  mark s _ hs := hsame s _ rfl rfl (.inr (keepsDeclarations_refl package s.files)) hs
  files s _ h hs := hsame s _ rfl rfl h hs
  grow s _ _ hs := hsame s _ rfl rfl (.inr (keepsDeclarations_refl package s.files)) hs

/-- Registered classes keep their members and methods, whatever happens to the session. -/
theorem Continues.registry (h : package.Continues Changed s t) :
    s.registry.Grows t.registry := by
  have hadmits := admits_of_allows Session.allows_registryExtends package
  have hgrows : package.Upholds Changed Session.RegistryGrows :=
    { extract := fun policy hpolicy s ↦ (hadmits.extract policy hpolicy s).grows
      register := fun policy hpolicy s ↦ (hadmits.register policy hpolicy s).grows
      mark := fun s _ ↦ .refl s.registry
      files := fun s _ _ ↦ .refl s.registry
      grow := fun _ _ h ↦ h }
  exact hgrows.continues h

end Package

end Bindery
