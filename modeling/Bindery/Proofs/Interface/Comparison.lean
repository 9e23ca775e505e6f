import Bindery.Package.Analysis
import Bindery.Proofs.Interface.Growth
import Bindery.Proofs.Interface.Nearest
import Bindery.Proofs.Run

/-!
Runs of the check. Looking up the interface of a base can register further classes, so a class is
compared with a registry that grows on the way. What is found about it can still be read off the
registry at the end of the run (`findings_eq_ok`).

The resolver `ensure` is any run that keeps what is registered (`Session.RegistryGrows`), which is
all that a registry allows. When the resolver leaves dropped methods alone as well
(`Session.RegistryExtends`), the run drops just what its findings call needless
(`findings_settles`).
-/

set_option autoImplicit false
set_option relaxedAutoImplicit false

namespace Bindery

namespace Session

/-- Registered classes stay as they are, up to what findings drop of them. -/
def Settles (found : List Finding) (s t : Session) : Prop :=
  ∀ name i, s.registry.interface? name = some i →
    t.registry.interface? name = some (found.foldl (ClassInterface.settle name) i)

theorem RegistryExtends.settles {s t : Session} (h : s.RegistryExtends t) : Settles [] s t := h

theorem Settles.trans {found more : List Finding} {s t u : Session} (hst : Settles found s t)
    (htu : Settles more t u) : Settles (found ++ more) s u := by
  intro name i hi
  rw [List.foldl_append]
  exact htu name _ (hst name i hi)

theorem settles_settle (s : Session) (found : List Finding) : Settles found s (s.settle found) := by
  intro name i hi
  change (found.foldl Finding.settle s.registry).interface? name = _
  rw [InterfaceRegistry.interface?_foldl_settle, hi]
  rfl

end Session

/-! ### Sessions on the way -/

namespace View

section Moves

variable {R : Session → Session → Prop} [IsPreorder Session R] {ensure : String → Run Unit}
  {view : View}

theorem moves_compareBase (hensure : ∀ name, (ensure name).Moves R) {className : String}
    (hsettle : ∀ (s : Session) (found : List Finding),
      (∀ finding ∈ found, finding.className = className) → R s (s.settle found))
    (own : Table String RegisteredMethod) (progress : List String × List Finding) (base : String) :
    (view.compareBase ensure className own progress base).Moves R := by
  refine (hensure base).bind fun _ ↦ (Run.moves_expectInterface base).bind fun interface ↦ ?_
  refine (Run.moves_modify fun s ↦ hsettle s _ fun finding hmem ↦ ?_).bind fun _ ↦
    Run.moves_pure _
  exact (Finding.mem_ofMethods_iff.1 hmem).1

theorem moves_foldlM_compareBase (hensure : ∀ name, (ensure name).Moves R) {className : String}
    (hsettle : ∀ (s : Session) (found : List Finding),
      (∀ finding ∈ found, finding.className = className) → R s (s.settle found))
    (own : Table String RegisteredMethod) (bases : List String)
    (progress : List String × List Finding) :
    (bases.foldlM (view.compareBase ensure className own) progress).Moves R :=
  Run.moves_foldlM (fun base _ progress ↦
    moves_compareBase hensure hsettle own progress base) progress

theorem moves_checkClass (hensure : ∀ name, (ensure name).Moves R) {c : Class}
    (hsettle : ∀ (s : Session) (found : List Finding),
      (∀ finding ∈ found, finding.className = view.className c) → R s (s.settle found)) :
    (view.checkClass ensure c).Moves R := by
  refine (Run.moves_expectInterface _).bind fun own ↦ ?_
  refine Run.Moves.bind ?_ fun _ ↦ Run.moves_pure _
  exact moves_foldlM_compareBase hensure hsettle own.methods (view.baseList c) ([], [])

/-- A check does what its resolver does, and settles findings about classes of the module. -/
theorem moves_findings (hensure : ∀ name, (ensure name).Moves R)
    (hsettle : ∀ (s : Session) (found : List Finding), (∀ finding ∈ found,
      ∃ c ∈ view.generatedClasses, finding.className = view.className c) → R s (s.settle found)) :
    (view.findings ensure).Moves R := by
  refine (Run.moves_forM fun c _ ↦ hensure c.name).bind fun _ ↦ ?_
  refine (Run.moves_mapM fun c hc ↦ ?_).bind fun _ ↦ Run.moves_pure _
  exact moves_checkClass hensure fun s found hfound ↦
    hsettle s found fun finding hmem ↦ ⟨c, hc, hfound finding hmem⟩

theorem moves_check (hensure : ∀ name, (ensure name).Moves R)
    (hsettle : ∀ (s : Session) (found : List Finding), (∀ finding ∈ found,
      ∃ c ∈ view.generatedClasses, finding.className = view.className c) → R s (s.settle found)) :
    (view.check ensure).Moves R :=
  (moves_findings hensure hsettle).bind fun _ ↦ Run.moves_ofExcept _

end Moves

/-! ### What is found -/

/-- The findings about a class, from the methods that classes register. -/
def decided (view : View) (methodsOf : String → Table String RegisteredMethod) (c : Class) :
    List Finding :=
  Finding.decided view.policy (view.className c) (methodsOf (view.className c)) methodsOf []
    (view.baseList c)

/-- Only the methods of the class and of its bases matter. -/
theorem decided_congr {view : View} {c : Class}
    {methodsOf other : String → Table String RegisteredMethod}
    (hown : methodsOf (view.className c) = other (view.className c))
    (hbases : ∀ base ∈ view.baseList c, methodsOf base = other base) :
    view.decided methodsOf c = view.decided other c := by
  rw [decided, decided, hown]
  exact Finding.decided_congr hbases []

variable {ensure : String → Run Unit} {view : View} {s t : Session}

/-- A check whose comparisons come to an end reports their findings. -/
theorem run_check_of_findings {found : List Finding}
    (h : (view.findings ensure).run s = (.ok found, t)) :
    (view.check ensure).run s =
      (Report.toResult (found.map Finding.diagnostic) view.policy.moduleName view.policy.package,
        t) := by
  rw [check, Run.run_bind_of_ok h, Run.run_ofExcept]

theorem registryGrows_settle (s : Session) (found : List Finding) :
    s.RegistryGrows (s.settle found) :=
  InterfaceRegistry.grows_foldl_settle s.registry found

/-- A comparison that succeeds has looked up the base, and settles what it finds there. -/
theorem compareBase_eq_ok {className base : String} {own : Table String RegisteredMethod}
    {progress next : List String × List Finding}
    (h : (view.compareBase ensure className own progress base).run s = (.ok next, t)) :
    ∃ interface u, (ensure base).run s = (.ok (), u) ∧
      u.registry.interface? base = some interface ∧
      next = (progress.1 ++ (Finding.undecided progress.1 interface.methods).keys,
        progress.2 ++ Finding.ofMethods view.policy className own base
          (Finding.undecided progress.1 interface.methods)) ∧
      t = u.settle (Finding.ofMethods view.policy className own base
        (Finding.undecided progress.1 interface.methods)) := by
  obtain ⟨_, u, hensured, h⟩ := Run.run_bind_eq_ok.1 h
  obtain ⟨interface, v, hexpected, h⟩ := Run.run_bind_eq_ok.1 h
  rw [Run.run_expectInterface] at hexpected
  obtain ⟨hinterface, rfl⟩ := Prod.mk.inj hexpected
  cases h
  exact ⟨interface, u, hensured, InterfaceRegistry.expect_eq_ok_iff.1 hinterface, rfl, rfl⟩

/-- A comparison succeeds when the base can be looked up and is registered then. -/
theorem run_compareBase_of_registered {base : String} {interface : ClassInterface}
    (hensure : (ensure base).run s = (.ok (), t))
    (hinterface : t.registry.expect base = .ok interface) (className : String)
    (own : Table String RegisteredMethod) (progress : List String × List Finding) :
    (view.compareBase ensure className own progress base).run s =
      (.ok (progress.1 ++ (Finding.undecided progress.1 interface.methods).keys,
          progress.2 ++ Finding.ofMethods view.policy className own base
            (Finding.undecided progress.1 interface.methods)),
        t.settle (Finding.ofMethods view.policy className own base
          (Finding.undecided progress.1 interface.methods))) := by
  rw [compareBase, Run.run_bind_of_ok hensure,
    Run.run_bind_of_ok (Run.run_expectInterface_of_eq hinterface)]
  rfl

section Grows

variable (hensure : ∀ name, (ensure name).Moves Session.RegistryGrows)

include hensure

/-- What the comparisons with some bases add to the findings, read off any later registry. -/
theorem foldlM_compareBase_eq_ok {className : String} {own : Table String RegisteredMethod}
    {bases : List String} {progress next : List String × List Finding}
    (h : (bases.foldlM (view.compareBase ensure className own) progress).run s = (.ok next, t))
    {later : InterfaceRegistry} (hlater : t.registry.Grows later) :
    next.2 = progress.2 ++
      Finding.decided view.policy className own later.methodsOf progress.1 bases := by
  induction bases generalizing s progress with
  | nil =>
    cases h
    exact (List.append_nil _).symm
  | cons base bases ih =>
    rw [List.foldlM_cons] at h
    obtain ⟨middle, v, hfirst, hrest⟩ := Run.run_bind_eq_ok.1 h
    obtain ⟨interface, u, -, hinterface, rfl, rfl⟩ := compareBase_eq_ok hfirst
    have hmoves : Session.RegistryGrows _ t := (moves_foldlM_compareBase hensure
      (fun s found _ ↦ registryGrows_settle s found) own bases _).of_eq hrest
    have hgrows := ((registryGrows_settle u _).trans hmoves).trans hlater
    rw [ih hrest, Finding.decided, InterfaceRegistry.Grows.methodsOf_eq hgrows hinterface,
      List.append_assoc]

/-- The bases that a class has been compared with are registered. -/
theorem hasClass_of_foldlM_compareBase {className : String} {own : Table String RegisteredMethod}
    {bases : List String} {progress next : List String × List Finding}
    (h : (bases.foldlM (view.compareBase ensure className own) progress).run s = (.ok next, t)) :
    ∀ base ∈ bases, t.registry.hasClass base = true := by
  induction bases generalizing s progress with
  | nil => exact fun base hbase ↦ (List.not_mem_nil hbase).elim
  | cons base bases ih =>
    rw [List.foldlM_cons] at h
    obtain ⟨middle, v, hfirst, hrest⟩ := Run.run_bind_eq_ok.1 h
    obtain ⟨interface, u, -, hinterface, rfl, rfl⟩ := compareBase_eq_ok hfirst
    have hlater : Session.RegistryGrows _ t := (moves_foldlM_compareBase hensure
      (fun s found _ ↦ registryGrows_settle s found) own bases _).of_eq hrest
    have hbase : u.registry.hasClass base = true := by
      rw [InterfaceRegistry.hasClass_eq_isSome, hinterface]
      rfl
    rw [List.forall_mem_cons]
    exact ⟨((registryGrows_settle u _).trans hlater).hasClass hbase, ih hrest⟩

theorem hasClass_of_mapM_checkClass {classes : List Class} {found : List (List Finding)}
    (h : (classes.mapM (view.checkClass ensure)).run s = (.ok found, t)) :
    ∀ c ∈ classes, ∀ name ∈ view.className c :: view.baseList c,
      t.registry.hasClass name = true := by
  induction classes generalizing s found with
  | nil => exact fun c hc ↦ (List.not_mem_nil hc).elim
  | cons c classes ih =>
    rw [List.mapM_cons] at h
    obtain ⟨first, u, hfirst, h⟩ := Run.run_bind_eq_ok.1 h
    obtain ⟨rest, v, hrest, h⟩ := Run.run_bind_eq_ok.1 h
    cases h
    obtain ⟨own, w, hexpected, hfirst⟩ := Run.run_bind_eq_ok.1 hfirst
    rw [Run.run_expectInterface] at hexpected
    obtain ⟨hinterface, rfl⟩ := Prod.mk.inj hexpected
    obtain ⟨next, x, hbases, hfirst⟩ := Run.run_bind_eq_ok.1 hfirst
    cases hfirst
    have hown : s.RegistryGrows u := (moves_foldlM_compareBase hensure
      (fun s found _ ↦ registryGrows_settle s found) own.methods _ _).of_eq hbases
    have hlater : u.RegistryGrows t := (Run.moves_mapM fun d _ ↦ moves_checkClass hensure
      fun s found _ ↦ registryGrows_settle s found).of_eq hrest
    rw [List.forall_mem_cons, List.forall_mem_cons]
    refine ⟨⟨?_, fun base hbase ↦ ?_⟩, ih hrest⟩
    · exact (hown.trans hlater).hasClass (InterfaceRegistry.hasClass_of_expect hinterface)
    · exact hlater.hasClass (hasClass_of_foldlM_compareBase hensure hbases base hbase)

/-- After a check that comes to its end, the classes and all of their bases are registered. -/
theorem hasClass_of_checked {found : List Finding}
    (h : (view.findings ensure).run s = (.ok found, t)) {c : Class}
    (hc : c ∈ view.generatedClasses) {name : String}
    (hname : name ∈ view.className c :: view.baseList c) : t.registry.hasClass name = true := by
  obtain ⟨_, u, -, h⟩ := Run.run_bind_eq_ok.1 h
  obtain ⟨lists, v, hlists, h⟩ := Run.run_bind_eq_ok.1 h
  cases h
  exact hasClass_of_mapM_checkClass hensure hlists c hc name hname

theorem hasClass_of_findings {found : List Finding}
    (h : (view.findings ensure).run s = (.ok found, t)) {c : Class}
    (hc : c ∈ view.generatedClasses) {base : String} (hbase : base ∈ view.baseList c) :
    t.registry.hasClass base = true :=
  hasClass_of_checked hensure h hc (List.mem_cons_of_mem _ hbase)

/-- The check of one class finds what its nearest bases decide. -/
theorem checkClass_eq_ok {c : Class} {found : List Finding}
    (h : (view.checkClass ensure c).run s = (.ok found, t)) {later : InterfaceRegistry}
    (hlater : t.registry.Grows later) : found = view.decided later.methodsOf c := by
  obtain ⟨own, u, hexpected, h⟩ := Run.run_bind_eq_ok.1 h
  rw [Run.run_expectInterface] at hexpected
  obtain ⟨hinterface, rfl⟩ := Prod.mk.inj hexpected
  have hown := InterfaceRegistry.expect_eq_ok_iff.1 hinterface
  obtain ⟨next, v, hbases, h⟩ := Run.run_bind_eq_ok.1 h
  cases h
  have hgrows : s.RegistryGrows t := (moves_foldlM_compareBase hensure
    (fun s found _ ↦ registryGrows_settle s found) own.methods _ _).of_eq hbases
  rw [foldlM_compareBase_eq_ok hensure hbases hlater, decided,
    (hgrows.trans hlater).methodsOf_eq hown]
  rfl

/-- The check of some classes, read off the registry at its end. -/
theorem mapM_checkClass_eq_ok {classes : List Class} {found : List (List Finding)}
    (h : (classes.mapM (view.checkClass ensure)).run s = (.ok found, t))
    {later : InterfaceRegistry} (hlater : t.registry.Grows later) :
    found = classes.map (view.decided later.methodsOf) := by
  induction classes generalizing s found with
  | nil =>
    cases h
    rfl
  | cons c classes ih =>
    rw [List.mapM_cons] at h
    obtain ⟨first, u, hfirst, h⟩ := Run.run_bind_eq_ok.1 h
    obtain ⟨rest, v, hrest, h⟩ := Run.run_bind_eq_ok.1 h
    cases h
    have hgrows : u.RegistryGrows t := by
      refine Run.Moves.of_eq (Run.moves_mapM fun c _ ↦ ?_) hrest
      exact moves_checkClass hensure fun s found _ ↦ registryGrows_settle s found
    rw [checkClass_eq_ok hensure hfirst (hgrows.trans hlater), ih hrest, List.map_cons]

/-! ### What becomes of findings -/

/-- What settling a needless finding about a registered class makes true of it, and the rest of a
check keeps. -/
structure Leaves (ensure : String → Run Unit) (Q : Finding → Session → Prop) : Prop where
  ensure : ∀ finding name, (ensure name).Moves (Session.Keeps (Q finding))
  settle : ∀ finding (s : Session) found, Q finding s → Q finding (s.settle found)
  needless : ∀ finding (s : Session) found, finding ∈ found → finding.conflict = .needless →
    s.registry.hasClass finding.className = true → Q finding (s.settle found)

section Leaves

variable {Q : Finding → Session → Prop} (hleaves : Leaves ensure Q)

include hleaves

theorem foldlM_compareBase_leaves {className : String} {own : Table String RegisteredMethod}
    {bases : List String} {progress next : List String × List Finding}
    (h : (bases.foldlM (view.compareBase ensure className own) progress).run s = (.ok next, t))
    (hname : s.registry.hasClass className = true) {finding : Finding} (hmem : finding ∈ next.2)
    (hnew : finding ∉ progress.2) (hneedless : finding.conflict = .needless) : Q finding t := by
  induction bases generalizing s progress with
  | nil =>
    cases h
    exact (hnew hmem).elim
  | cons base bases ih =>
    rw [List.foldlM_cons] at h
    obtain ⟨middle, v, hfirst, hrest⟩ := Run.run_bind_eq_ok.1 h
    have hlater : v.Keeps (Q finding) t := (moves_foldlM_compareBase (hleaves.ensure finding)
      (fun s found _ ↦ hleaves.settle finding s found) own bases _).of_eq hrest
    obtain ⟨interface, u, hensured, -, rfl, rfl⟩ := compareBase_eq_ok hfirst
    have hclass := ((hensure base).of_eq hensured).hasClass hname
    by_cases hhere : finding ∈ Finding.ofMethods view.policy className own base
        (Finding.undecided progress.1 interface.methods)
    · refine hlater (hleaves.needless finding u _ hhere hneedless ?_)
      rw [(Finding.mem_ofMethods_iff.1 hhere).1]
      exact hclass
    · refine ih hrest ?_ ?_
      · exact (registryGrows_settle u _).hasClass hclass
      · rw [List.mem_append, not_or]
        exact ⟨hnew, hhere⟩

theorem checkClass_leaves {c : Class} {found : List Finding}
    (h : (view.checkClass ensure c).run s = (.ok found, t)) :
    ∀ finding ∈ found, finding.conflict = .needless → Q finding t := by
  obtain ⟨own, u, hexpected, h⟩ := Run.run_bind_eq_ok.1 h
  rw [Run.run_expectInterface] at hexpected
  obtain ⟨hinterface, rfl⟩ := Prod.mk.inj hexpected
  obtain ⟨next, v, hbases, h⟩ := Run.run_bind_eq_ok.1 h
  cases h
  intro finding hmem hneedless
  exact foldlM_compareBase_leaves hensure hleaves hbases
    (InterfaceRegistry.hasClass_of_expect hinterface) hmem List.not_mem_nil hneedless

theorem mapM_checkClass_leaves {classes : List Class} {found : List (List Finding)}
    (h : (classes.mapM (view.checkClass ensure)).run s = (.ok found, t)) :
    ∀ finding ∈ found.flatten, finding.conflict = .needless → Q finding t := by
  induction classes generalizing s found with
  | nil =>
    cases h
    exact fun finding hmem ↦ (List.not_mem_nil hmem).elim
  | cons c classes ih =>
    rw [List.mapM_cons] at h
    obtain ⟨first, u, hfirst, h⟩ := Run.run_bind_eq_ok.1 h
    obtain ⟨rest, v, hrest, h⟩ := Run.run_bind_eq_ok.1 h
    cases h
    intro finding hmem hneedless
    have hlater : u.Keeps (Q finding) t := by
      refine Run.Moves.of_eq (Run.moves_mapM fun c _ ↦ ?_) hrest
      exact moves_checkClass (hleaves.ensure finding) fun s found _ ↦
        hleaves.settle finding s found
    rw [List.flatten_cons, List.mem_append] at hmem
    exact hmem.elim
      (fun hhere ↦ hlater (checkClass_leaves hensure hleaves hfirst finding hhere hneedless))
      fun hrest' ↦ ih hrest finding hrest' hneedless

theorem findings_leaves {found : List Finding}
    (h : (view.findings ensure).run s = (.ok found, t)) :
    ∀ finding ∈ found, finding.conflict = .needless → Q finding t := by
  obtain ⟨_, u, -, h⟩ := Run.run_bind_eq_ok.1 h
  obtain ⟨lists, v, hlists, h⟩ := Run.run_bind_eq_ok.1 h
  cases h
  exact mapM_checkClass_leaves hensure hleaves hlists

end Leaves

/-- Each override that a finding calls needless is dropped. -/
theorem leaves_dropped : Leaves ensure fun finding s ↦
    ∃ i, s.registry.interface? finding.className = some i ∧ finding.signature ∈ i.dropped := by
  have hkeeps {finding : Finding} {s t : Session} (hgrows : s.RegistryGrows t) :
      (∃ i, s.registry.interface? finding.className = some i ∧ finding.signature ∈ i.dropped) →
        ∃ i, t.registry.interface? finding.className = some i ∧
          finding.signature ∈ i.dropped := by
    rintro ⟨i, hi, hdropped⟩
    obtain ⟨j, hj, hwithin⟩ := hgrows _ i hi
    exact ⟨j, hj, hwithin.dropped hdropped⟩
  refine ⟨fun finding name s ↦ hkeeps (hensure name s),
    fun finding s found ↦ hkeeps (registryGrows_settle s found),
    fun finding s found hmem hneedless hclass ↦ ?_⟩
  rw [InterfaceRegistry.hasClass_eq_isSome] at hclass
  obtain ⟨i, hi⟩ := Option.isSome_iff_exists.1 hclass
  have hsettled := InterfaceRegistry.interface?_foldl_settle s.registry found finding.className
  rw [hi] at hsettled
  exact ⟨_, hsettled, ClassInterface.mem_dropped_foldl_settle.2
    (.inr ⟨finding, hmem, hneedless, rfl, rfl⟩)⟩

/-- The findings about a module are those that the nearest bases decide, class by class. -/
theorem findings_eq_ok {found : List Finding}
    (h : (view.findings ensure).run s = (.ok found, t)) :
    found = view.generatedClasses.flatMap (view.decided t.registry.methodsOf) ∧
      ∀ finding ∈ found, finding.conflict = .needless →
        ∃ i, t.registry.interface? finding.className = some i ∧ finding.signature ∈ i.dropped := by
  refine ⟨?_, findings_leaves hensure (leaves_dropped hensure) h⟩
  obtain ⟨_, u, -, h⟩ := Run.run_bind_eq_ok.1 h
  obtain ⟨lists, v, hlists, h⟩ := Run.run_bind_eq_ok.1 h
  cases h
  rw [mapM_checkClass_eq_ok hensure hlists (.refl _), List.flatMap_def]

end Grows

/-! ### What is dropped -/

section Extends

variable (hensure : ∀ name, (ensure name).Moves Session.RegistryExtends)

include hensure

/-- Comparing with some bases drops just what is found on the way. -/
theorem foldlM_compareBase_settles {className : String} {own : Table String RegisteredMethod}
    {bases : List String} {progress next : List String × List Finding}
    (h : (bases.foldlM (view.compareBase ensure className own) progress).run s = (.ok next, t)) :
    ∃ added, next.2 = progress.2 ++ added ∧ Session.Settles added s t := by
  induction bases generalizing s progress with
  | nil =>
    cases h
    exact ⟨[], (List.append_nil _).symm, fun _ _ hi ↦ hi⟩
  | cons base bases ih =>
    rw [List.foldlM_cons] at h
    obtain ⟨middle, v, hfirst, hrest⟩ := Run.run_bind_eq_ok.1 h
    obtain ⟨interface, u, hensured, -, rfl, rfl⟩ := compareBase_eq_ok hfirst
    obtain ⟨added, hadded, hsettles⟩ := ih hrest
    refine ⟨_, hadded.trans (List.append_assoc _ _ _), ?_⟩
    have hextends : s.RegistryExtends u := (hensure base).of_eq hensured
    exact (hextends.settles.trans (u.settles_settle _)).trans hsettles

theorem checkClass_settles {c : Class} {found : List Finding}
    (h : (view.checkClass ensure c).run s = (.ok found, t)) : Session.Settles found s t := by
  obtain ⟨own, u, hexpected, h⟩ := Run.run_bind_eq_ok.1 h
  rw [Run.run_expectInterface] at hexpected
  obtain ⟨-, rfl⟩ := Prod.mk.inj hexpected
  obtain ⟨next, v, hbases, h⟩ := Run.run_bind_eq_ok.1 h
  cases h
  obtain ⟨added, hadded, hsettles⟩ := foldlM_compareBase_settles hensure hbases
  rw [hadded]
  exact hsettles

theorem mapM_checkClass_settles {classes : List Class} {found : List (List Finding)}
    (h : (classes.mapM (view.checkClass ensure)).run s = (.ok found, t)) :
    Session.Settles found.flatten s t := by
  induction classes generalizing s found with
  | nil =>
    cases h
    exact fun _ _ hi ↦ hi
  | cons c classes ih =>
    rw [List.mapM_cons] at h
    obtain ⟨first, u, hfirst, h⟩ := Run.run_bind_eq_ok.1 h
    obtain ⟨rest, v, hrest, h⟩ := Run.run_bind_eq_ok.1 h
    cases h
    rw [List.flatten_cons]
    exact (checkClass_settles hensure hfirst).trans (ih hrest)

/-- The check of a module drops just what it finds needless. -/
theorem findings_settles {found : List Finding}
    (h : (view.findings ensure).run s = (.ok found, t)) : Session.Settles found s t := by
  obtain ⟨_, u, hensured, h⟩ := Run.run_bind_eq_ok.1 h
  obtain ⟨lists, v, hlists, h⟩ := Run.run_bind_eq_ok.1 h
  cases h
  have hextends : s.RegistryExtends u :=
    (Run.moves_forM fun c _ ↦ hensure c.name).of_eq hensured
  exact hextends.settles.trans (mapM_checkClass_settles hensure hlists)

end Extends

end View

end Bindery
