import Bindery.Proofs.Interface.Entries
import Bindery.Proofs.Interface.Lookups

/-!
The check of a module. Each generated class and signature is decided by the nearest base that
registers the signature, and by no other base (`check_decided_by_nearest_base`). The check fails
with all errors that are found so, or returns the warnings.

The classes can be registered in any session, and the resolver can be anything that keeps what is
registered. All that the check asks for is that its lookups succeed (`Resolves`).
-/

set_option autoImplicit false
set_option relaxedAutoImplicit false

namespace Bindery

/-- A method is open in a class when proxies are generated, it is virtual, and its name is denied
neither in the class nor in the class that declares it. -/
theorem Policy.hasMethodProxy_eq_true_iff {policy : Policy} {className : String} {m : Method} :
    policy.hasMethodProxy className m = true ↔ policy.disabledProxies = false ∧
      m.isVirtual = true ∧ className ++ "::" ++ m.name ∉ policy.noProxies ∧
      ∀ owner, m.className = some owner →
        owner = className ∨ owner ++ "::" ++ m.name ∉ policy.noProxies := by
  unfold hasMethodProxy
  split
  · rename_i h
    simp only [Bool.or_eq_true, Bool.not_eq_eq_eq_not, Bool.not_true] at h
    constructor
    · intro hfalse
      cases hfalse
    · rintro ⟨henabled, hvirtual, -, -⟩
      rw [henabled, hvirtual] at h
      simp at h
  · rename_i h
    simp only [Bool.or_eq_true, Bool.not_eq_eq_eq_not, Bool.not_true, not_or,
      Bool.not_eq_true, Bool.not_eq_false] at h
    cases hclass : m.className with
    | none => simp [h.1, h.2]
    | some owner => simp [h.1, h.2]

/-! ### Reports of findings -/

/-- An error outweighs all warnings. -/
theorem Report.toResult_of_error {found : List Finding}
    (h : ∃ finding ∈ found, finding.conflict.severity = .error) (module package : String) :
    Report.toResult (found.map Finding.diagnostic) module package =
      .error (.inconsistent module package ((found.filter (·.conflict.severity == .error)).map
        (·.diagnostic.display))) := by
  obtain ⟨finding, hmem, herror⟩ := h
  have hany : Report.hasErrors (found.map Finding.diagnostic) = true := by
    rw [Report.hasErrors, List.any_map, List.any_eq_true]
    exact ⟨finding, hmem, beq_iff_eq.2 herror⟩
  rw [Report.toResult, if_pos hany, Report.ofSeverity, List.filter_map, List.map_map]
  rfl

theorem Report.toResult_of_warnings {found : List Finding}
    (h : ∀ finding ∈ found, finding.conflict.severity = .warning) (module package : String) :
    Report.toResult (found.map Finding.diagnostic) module package =
      .ok (found.map Finding.diagnostic) := by
  have hnone : ¬Report.hasErrors (found.map Finding.diagnostic) = true := by
    rw [Report.hasErrors, List.any_map, List.any_eq_true]
    rintro ⟨finding, hmem, herror⟩
    have hseverity : finding.conflict.severity = .error := beq_iff_eq.1 herror
    rw [h finding hmem] at hseverity
    cases hseverity
  rw [Report.toResult, if_neg hnone]

/-! ### A hierarchy -/

namespace Hierarchy

def declare (className : String) (bases : List Base) (methods : List Method) : Item :=
  .ofClass {
    info := { name := className }
    bases
    members := methods.map fun m ↦ .method ⟨m.inClass className, []⟩ }

def plain (name : String) : Method := Method.named name

def virtual (name : String) : Method := { Method.named name with isVirtual := true }

/-- A module that declares some classes, and keeps some methods closed. -/
def moduleOf (name : String) (noProxies : List String) (items : List Item) : View where
  policy := { Policy.empty name "wx" with noProxies }
  module := { name, items }

/-- Rings and discs are shapes. A ring hides how a shape is named. -/
def shapes : View := moduleOf "Shapes" ["Shape::Draw", "Shape::Fill"]
  [declare "Shape" [] [virtual "Draw", virtual "Fill", virtual "Move", virtual "Name"],
    declare "Ring" [⟨"Shape", []⟩] [plain "Name"],
    declare "Disc" [⟨"Shape", []⟩] [virtual "Move"]]

/-- A circle is a ring and a disc, and so a shape on two paths. -/
def circles : View := moduleOf "Circles" ["Circle::Fill", "Circle::Move", "Circle::Name"]
  [declare "Circle" [⟨"Ring", [⟨"Shape", []⟩]⟩, ⟨"Disc", [⟨"Shape", []⟩]⟩]
    [virtual "Fill", virtual "Move", virtual "Name"]]

/-- An oval moves as a shape does. -/
def ovals : View := moduleOf "Ovals" ["Shape::Draw", "Shape::Fill"]
  [declare "Oval" [⟨"Shape", []⟩] [virtual "Move"]]

/-- A dot is a circle, and keeps closed what the circle keeps closed. -/
def dots : View := moduleOf "Dots" ["Dot::Move", "Circle::Fill", "Circle::Name", "Shape::Draw"]
  [declare "Dot" [⟨"Circle", [⟨"Shape", []⟩]⟩] [virtual "Move"]]

/-- A blob folds a patch, and so moves as the patch does, which keeps that closed. -/
def blobs : View :=
  let blobs := moduleOf "Blobs" ["Shape::Draw", "Shape::Fill", "Patch::Move"]
    [declare "Patch" [⟨"Shape", []⟩] [virtual "Move"],
      declare "Blob" [⟨"Patch", [⟨"Shape", []⟩]⟩] []]
  { blobs with policy := { blobs.policy with foldedBases := [("Blob", ["Patch"])] } }

/-- All classes are registered. -/
def registered : Session :=
  ([shapes, circles, ovals, dots, blobs].forM View.registerClasses : Run Unit).run {} |>.2

/-- The resolver that has nothing left to register. -/
def known (_ : String) : Run Unit := pure ()

end Hierarchy

/-! ### How a check ends -/

theorem Conflict.severity_eq_warning_iff {conflict : Conflict} :
    conflict.severity = .warning ↔ conflict = .needless := by
  cases conflict <;> decide

namespace View

/-- All lookups of a check succeed. Nothing else can stop it (`findings_eq_error`). -/
def Resolves (view : View) (ensure : String → Run Unit) (session : Session) : Prop :=
  ((view.findings ensure).run session).1.isOk = true

instance (view : View) (ensure : String → Run Unit) (session : Session) :
    Decidable (view.Resolves ensure session) :=
  inferInstanceAs (Decidable (_ = true))

theorem resolves_iff {view : View} {ensure : String → Run Unit} {session : Session} :
    view.Resolves ensure session ↔
      ∃ found after, (view.findings ensure).run session = (.ok found, after) := by
  unfold Resolves
  rcases (view.findings ensure).run session with ⟨outcome, after⟩
  cases outcome with
  | ok found => exact ⟨fun _ ↦ ⟨found, after, rfl⟩, fun _ ↦ rfl⟩
  | error e =>
    constructor
    · intro h
      cases h
    · rintro ⟨_, _, h⟩
      cases h

/-- The findings about a class, when the classes register these methods. -/
structure Decides (view : View) (methodsOf : String → Table String RegisteredMethod) (c : Class)
    (found : List Finding) : Prop where
  /-- A finding is about the first base that registers its signature, and there is one for each
  signature on which this base differs from the class. -/
  mem_iff : ∀ finding, finding ∈ found ↔ finding.className = view.className c ∧
    ∃ entry, nearest? methodsOf finding.signature (view.baseList c) = some (finding.base, entry) ∧
      Conflict.Holds view.policy (view.className c)
        ((methodsOf (view.className c)).find? finding.signature) entry finding.conflict
  /-- There is at most one finding about a signature. -/
  distinct : (found.map Finding.signature).Nodup
  /-- The findings are in the order of the bases, and for each base in that of its methods. -/
  ordered : (found.map fun finding ↦ (finding.base, finding.signature)).Sublist
    ((view.baseList c).flatMap fun base ↦
      (methodsOf base).keys.map fun signature ↦ (base, signature))

theorem decides_decided (view : View) (registry : InterfaceRegistry) (c : Class) :
    view.Decides registry.methodsOf c (view.decided registry.methodsOf c) where
  mem_iff finding := by
    rw [decided, Finding.mem_decided_iff registry.nodup_keys_methodsOf]
    simp only [List.not_mem_nil, not_false_eq_true, true_and]
  distinct := Finding.nodup_decided registry.nodup_keys_methodsOf [] _
  ordered := Finding.sublist_decided [] _

/-- How a check ends that starts in `session`. The findings are listed class by class. -/
structure Concludes (view : View) (ensure : String → Run Unit) (session : Session)
    (found : List (Class × List Finding)) (after : Session) : Prop where
  /-- Every generated class is compared, in order. -/
  classes : found.map Prod.fst = view.generatedClasses
  /-- What is found about a class is decided by its nearest bases. -/
  decides : ∀ entry ∈ found, view.Decides after.registry.methodsOf entry.1 entry.2
  /-- Registered classes have kept their methods. -/
  grows : session.RegistryGrows after
  /-- An error fails the check, with all errors in order. -/
  fails : (∃ finding ∈ found.flatMap Prod.snd, finding.conflict.severity = .error) →
    (view.check ensure).run session =
      (.error (.inconsistent view.policy.moduleName view.policy.package
        (((found.flatMap Prod.snd).filter (·.conflict.severity == .error)).map
          (·.diagnostic.display))), after)
  /-- Without an error, the check returns the warnings. -/
  passes : (∀ finding ∈ found.flatMap Prod.snd, finding.conflict.severity = .warning) →
    (view.check ensure).run session =
      (.ok ((found.flatMap Prod.snd).map Finding.diagnostic), after)
  /-- Each override that a warning calls needless is dropped. -/
  dropped : ∀ finding ∈ found.flatMap Prod.snd, finding.conflict.severity = .warning →
    ∃ i, after.registry.interface? finding.className = some i ∧ finding.signature ∈ i.dropped
  /-- Nothing else is dropped of a registered class, unless the resolver does it. -/
  settles : (∀ name, (ensure name).Moves Session.RegistryExtends) →
    Session.Settles (found.flatMap Prod.snd) session after

variable {view : View} {ensure : String → Run Unit} {session : Session}

/-- A check whose lookups succeed decides every class and signature by the nearest base that
registers the signature. -/
theorem check_decided_by_nearest_base
    (hensure : ∀ name, (ensure name).Moves Session.RegistryGrows)
    (hresolves : view.Resolves ensure session) :
    ∃ found after, view.Concludes ensure session found after := by
  obtain ⟨all, after, hrun⟩ := resolves_iff.1 hresolves
  obtain ⟨hall, hdropped⟩ := findings_eq_ok hensure hrun
  let found := view.generatedClasses.map fun c ↦ (c, view.decided after.registry.methodsOf c)
  have hflat : found.flatMap Prod.snd = all := by
    rw [hall, List.flatMap_map]
  have hgrows : session.RegistryGrows after := Run.Moves.of_eq
    (moves_findings hensure fun s found _ ↦ registryGrows_settle s found) hrun
  refine ⟨found, after, ?_, ?_, hgrows, ?_, ?_, ?_, ?_⟩
  · rw [List.map_map]
    exact List.map_id _
  · intro entry hentry
    obtain ⟨c, -, rfl⟩ := List.mem_map.1 hentry
    exact view.decides_decided after.registry c
  · intro herror
    rw [hflat] at herror ⊢
    rw [run_check_of_findings hrun, Report.toResult_of_error herror]
  · intro hwarnings
    rw [hflat] at hwarnings ⊢
    rw [run_check_of_findings hrun, Report.toResult_of_warnings hwarnings]
  · intro finding hmem hwarning
    rw [hflat] at hmem
    exact hdropped finding hmem (Conflict.severity_eq_warning_iff.1 hwarning)
  · intro hextends
    rw [hflat]
    exact findings_settles hextends hrun

open Hierarchy in
/-- A circle differs from a shape in three ways, each of which is found once. The name of a shape is
not compared, since a ring hides it. -/
theorem check_circles :
    circles.Resolves known registered ∧
      ((circles.findings known).run registered).1.toOption = some [
        ⟨.opened, "Draw()", "Circle", "Shape"⟩, ⟨.needless, "Fill()", "Circle", "Shape"⟩,
        ⟨.closed, "Move()", "Circle", "Shape"⟩] ∧
      ∃ found after, circles.Concludes known registered found after :=
  ⟨by decide +kernel, by decide +kernel,
    check_decided_by_nearest_base (fun _ ↦ Run.moves_pure ()) (by decide +kernel)⟩

/-! ### Overrides of open methods -/

/-- The class is registered with the methods that its declaration gives. -/
def IsRegistered (view : View) (registry : InterfaceRegistry) (c : Class) : Prop :=
  registry.hasClass (view.className c) = true ∧
    (view.interfaceOf c).toOption.map ClassInterface.methods =
      some (registry.methodsOf (view.className c))

instance (view : View) (registry : InterfaceRegistry) (c : Class) :
    Decidable (view.IsRegistered registry c) := inferInstanceAs (Decidable (_ ∧ _))

/-- An entry of a registered class is as the policy sees its method. -/
theorem IsRegistered.entry {registry : InterfaceRegistry} {c : Class}
    (hc : view.IsRegistered registry c) {signature : String} {own : RegisteredMethod}
    (hown : (registry.methodsOf (view.className c)).find? signature = some own) :
    own = (view.target c).entry own.method own.extension := by
  obtain ⟨-, hmethods⟩ := hc
  cases hbuilt : view.interfaceOf c with
  | error e =>
    rw [hbuilt] at hmethods
    cases hmethods
  | ok built =>
    rw [hbuilt] at hmethods
    have heq : built.methods = registry.methodsOf (view.className c) := Option.some.inj hmethods
    rw [← heq] at hown
    exact ((builds_interfaceOf hbuilt).entries signature own hown).2

theorem IsRegistered.of_grows {registry later : InterfaceRegistry} {c : Class}
    (hc : view.IsRegistered registry c) (hgrows : registry.Grows later) :
    view.IsRegistered later c := by
  obtain ⟨hclass, hmethods⟩ := hc
  refine ⟨hgrows.hasClass hclass, ?_⟩
  rw [InterfaceRegistry.hasClass_eq_isSome] at hclass
  obtain ⟨i, hi⟩ := Option.isSome_iff_exists.1 hclass
  rw [hmethods, hgrows.methodsOf_eq hi, InterfaceRegistry.methodsOf_of_interface? hi]

theorem resolves_of_check_ok {report : Report} {after : Session}
    (h : (view.check ensure).run session = (.ok report, after)) :
    view.Resolves ensure session := by
  obtain ⟨found, u, hfound, -⟩ := Run.run_bind_eq_ok.1 h
  exact resolves_iff.2 ⟨found, u, hfound⟩

/-- A check that passes leaves no class closed on a method that its nearest base keeps open: the
policy opens the method of the base there. -/
theorem hasMethodProxy_of_check_ok (hensure : ∀ name, (ensure name).Moves Session.RegistryGrows)
    {report : Report} {after : Session}
    (h : (view.check ensure).run session = (.ok report, after)) {c : Class}
    (hc : c ∈ view.generatedClasses) {signature base : String} {entry own : RegisteredMethod}
    (hnearest :
      nearest? after.registry.methodsOf signature (view.baseList c) = some (base, entry))
    (hvirtual : entry.isVirtual = true) (hproxy : entry.proxy = true)
    (hown : (after.registry.methodsOf (view.className c)).find? signature = some own) :
    view.policy.hasMethodProxy (view.className c) entry.method = true := by
  obtain ⟨all, u, hrun⟩ := resolves_iff.1 (resolves_of_check_ok h)
  obtain ⟨hall, -⟩ := findings_eq_ok hensure hrun
  rw [run_check_of_findings hrun] at h
  obtain ⟨hreport, rfl⟩ := Prod.mk.inj h
  rw [← Bool.not_eq_false]
  intro hclosed
  let finding : Finding := ⟨.closed, signature, view.className c, base⟩
  have hmem : finding ∈ all := by
    rw [hall, List.mem_flatMap]
    refine ⟨c, hc, ((view.decides_decided u.registry c).mem_iff finding).2 ?_⟩
    refine ⟨rfl, entry, hnearest, ?_⟩
    rw [hown]
    exact .closed hvirtual hproxy hclosed
  rw [Report.toResult_of_error ⟨finding, hmem, rfl⟩] at hreport
  cases hreport

/-- Where the nearest base that registers a method keeps it open, an override is open too. The
override has to be virtual itself, and declared by the class or by one that does not deny it. -/
theorem override_open_of_check_ok
    (hensure : ∀ name, (ensure name).Moves Session.RegistryGrows)
    {report : Report} {after : Session}
    (h : (view.check ensure).run session = (.ok report, after)) {c : Class}
    (hc : c ∈ view.generatedClasses) (hregistered : view.IsRegistered session.registry c)
    {signature base : String} {entry own : RegisteredMethod}
    (hnearest :
      nearest? after.registry.methodsOf signature (view.baseList c) = some (base, entry))
    (hvirtual : entry.isVirtual = true) (hproxy : entry.proxy = true)
    (hown : (after.registry.methodsOf (view.className c)).find? signature = some own)
    (hownVirtual : own.isVirtual = true) (hname : own.method.name = entry.method.name)
    (howner : ∀ owner, own.method.className = some owner → owner = view.className c ∨
      owner ++ "::" ++ own.method.name ∉ view.policy.noProxies) :
    own.proxy = true := by
  have hopen := hasMethodProxy_of_check_ok hensure h hc hnearest hvirtual hproxy hown
  have hgrows : session.RegistryGrows after := Run.Moves.of_eq
    (moves_check hensure fun s found _ ↦ registryGrows_settle s found) h
  have hentry := (hregistered.of_grows hgrows).entry hown
  rw [hentry] at hownVirtual ⊢
  refine Policy.hasMethodProxy_eq_true_iff.2 ?_
  obtain ⟨henabled, -, hfree, -⟩ := Policy.hasMethodProxy_eq_true_iff.1 hopen
  rw [← hname] at hfree
  exact ⟨henabled, hownVirtual, hfree, howner⟩

open Hierarchy in
/-- An oval opens the method that its base keeps open. -/
theorem check_ovals :
    ∃ c ∈ ovals.generatedClasses, ovals.IsRegistered registered.registry c ∧
      ∃ report after entry own, (ovals.check known).run registered = (.ok report, after) ∧
        nearest? after.registry.methodsOf "Move()" (ovals.baseList c) = some ("Shape", entry) ∧
        entry.isVirtual = true ∧ entry.proxy = true ∧
        (after.registry.methodsOf (ovals.className c)).find? "Move()" = some own ∧
        own.proxy = true := by
  let run := (ovals.check known).run registered
  have hreport : run.1.toOption = some [] := by decide +kernel
  have hrun : run = (.ok [], run.2) := Prod.ext (eq_ok_of_toOption hreport) rfl
  have hclass : ∃ c ∈ ovals.generatedClasses, ovals.IsRegistered registered.registry c ∧
      ((nearest? run.2.registry.methodsOf "Move()" (ovals.baseList c)).any fun found ↦
        found.1 == "Shape" && found.2.isVirtual && found.2.proxy && found.2.method.name == "Move") =
          true ∧
      (((run.2.registry.methodsOf (ovals.className c)).find? "Move()").any fun own ↦
        own.isVirtual && own.method.name == "Move" &&
          own.method.className == some (ovals.className c)) = true := by decide +kernel
  obtain ⟨c, hc, hregistered, hbase, hown⟩ := hclass
  obtain ⟨⟨base, entry⟩, hnearest, hbase⟩ := (Option.any_eq_true _ _).1 hbase
  obtain ⟨own, hfind, hown⟩ := (Option.any_eq_true _ _).1 hown
  simp only [Bool.and_eq_true, beq_iff_eq] at hbase hown
  obtain ⟨⟨⟨rfl, hvirtual⟩, hproxy⟩, hname⟩ := hbase
  obtain ⟨⟨hownVirtual, hownName⟩, howner⟩ := hown
  refine ⟨c, hc, hregistered, [], run.2, entry, own, hrun, hnearest, hvirtual, hproxy, hfind, ?_⟩
  refine override_open_of_check_ok (fun _ ↦ Run.moves_pure ()) hrun hc hregistered hnearest
    hvirtual hproxy hfind hownVirtual (hownName.trans hname.symm) fun owner hdeclared ↦ .inl ?_
  exact Option.some.inj (hdeclared.symm.trans howner)

/-- A class registers a method as closed that a base keeps open. -/
def Closes (view : View) (registry : InterfaceRegistry) (base signature : String) : Prop :=
  ∃ c ∈ view.generatedClasses, view.IsRegistered registry c ∧ base ∈ view.baseList c ∧
    ((registry.methodsOf base).find? signature).any
      (fun entry ↦ entry.isVirtual && entry.proxy) = true ∧
    ((registry.methodsOf (view.className c)).find? signature).any (!·.proxy) = true

instance (view : View) (registry : InterfaceRegistry) (base signature : String) :
    Decidable (view.Closes registry base signature) :=
  inferInstanceAs (Decidable (∃ c ∈ view.generatedClasses, _))

open Hierarchy in
/-- The check passes, although a class closes what the shape keeps open, before and after it. -/
def PassesClosed (view : View) (signature : String) : Prop :=
  ((view.check known).run registered).1.isOk = true ∧
    view.Closes registered.registry "Shape" signature ∧
    view.Closes ((view.check known).run registered).2.registry "Shape" signature

instance (view : View) (signature : String) : Decidable (view.PassesClosed signature) :=
  inferInstanceAs (Decidable (_ ∧ _))

open Hierarchy in
/-- Closed methods that a check lets pass. The shape is too far away to hold for a dot, behind a
circle that closes the method. A ring hides the method by one that is not virtual, and a blob takes
it from a patch that closes it. -/
theorem check_of_closes :
    dots.PassesClosed "Move()" ∧ shapes.PassesClosed "Name()" ∧ blobs.PassesClosed "Move()" := by
  decide +kernel

end View

end Bindery
