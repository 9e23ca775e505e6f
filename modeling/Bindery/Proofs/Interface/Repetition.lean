import Bindery.Proofs.Interface.Comparison

/-!
A check that is done again. Settling findings drops methods, and the comparisons do not look at what
has been dropped. So a second check compares the same methods, with all classes registered by then,
and what it finds needless has been dropped already: a class has dropped a method when dropping it
once more changes nothing (`InterfaceRegistry.HasDropped`). When no class is generated under another
name, the second check finds the same and leaves the session as it is (`run_findings_again`).
-/

set_option autoImplicit false
set_option relaxedAutoImplicit false

namespace Bindery

/-! ### Dropping a method once more -/

namespace ClassInterface

theorem drop_drop_self (i : ClassInterface) (signature : String) :
    (i.drop signature).drop signature = i.drop signature := by
  simp only [drop, addSorted_addSorted]

theorem drop_stays {i : ClassInterface} {signature : String} (h : i.drop signature = i)
    (other : String) : (i.drop other).drop signature = i.drop other := by
  have hdropped : addSorted signature i.dropped = i.dropped := congrArg dropped h
  simp only [drop, addSorted_stays hdropped]

end ClassInterface

namespace InterfaceRegistry

/-- The class is registered, and dropping the method once more changes nothing. -/
structure HasDropped (registry : InterfaceRegistry) (name signature : String) : Prop where
  registered : registry.hasClass name = true
  stays : ∀ entry ∈ registry, entry.1 = name → entry.2.drop signature = entry.2

variable {registry : InterfaceRegistry} {name signature : String}

theorem HasDropped.drop_eq (h : registry.HasDropped name signature) :
    registry.drop name signature = registry := by
  rw [drop]
  refine (List.map_congr_left fun entry hentry ↦ ?_).trans (List.map_id registry)
  obtain ⟨other, interface⟩ := entry
  by_cases hname : other = name
  · simp [hname, h.stays _ hentry hname]
  · simp [hname]

theorem hasClass_drop (registry : InterfaceRegistry) (name signature other : String) :
    (registry.drop name signature).hasClass other = registry.hasClass other := by
  rw [hasClass_eq_isSome, hasClass_eq_isSome, interface?_drop, Option.isSome_map]

theorem hasDropped_drop_self (h : registry.hasClass name = true) (signature : String) :
    (registry.drop name signature).HasDropped name signature := by
  refine ⟨by rw [hasClass_drop, h], fun entry hentry hname ↦ ?_⟩
  obtain ⟨⟨other, interface⟩, -, rfl⟩ := List.mem_map.1 hentry
  have hname : other = name := hname
  simp only [hname, beq_self_eq_true, if_true, ClassInterface.drop_drop_self]

theorem HasDropped.drop (h : registry.HasDropped name signature) (other more : String) :
    (registry.drop other more).HasDropped name signature := by
  refine ⟨by rw [hasClass_drop, h.registered], fun entry hentry hname ↦ ?_⟩
  obtain ⟨⟨key, interface⟩, hmem, rfl⟩ := List.mem_map.1 hentry
  have hstays : interface.drop signature = interface := h.stays _ hmem hname
  dsimp only
  split
  · exact ClassInterface.drop_stays hstays more
  · exact hstays

theorem HasDropped.append (h : registry.HasDropped name signature) {other : String}
    (hnew : registry.hasClass other = false) (interface : ClassInterface) :
    HasDropped (registry ++ [(other, interface)]) name signature := by
  refine ⟨(extends_append registry other interface).grows.hasClass h.registered,
    fun entry hentry hname ↦ ?_⟩
  rcases List.mem_append.1 hentry with hold | hlast
  · exact h.stays entry hold hname
  · rw [List.mem_singleton.1 hlast] at hname
    have hregistered := h.registered
    rw [← hname, hnew] at hregistered
    cases hregistered

theorem HasDropped.settle (h : registry.HasDropped name signature) (finding : Finding) :
    (Finding.settle registry finding).HasDropped name signature := by
  unfold Finding.settle
  split
  · exact h.drop _ _
  · exact h

theorem HasDropped.foldl_settle (h : registry.HasDropped name signature) (found : List Finding) :
    (found.foldl Finding.settle registry).HasDropped name signature := by
  induction found generalizing registry with
  | nil => exact h
  | cons finding found ih => exact ih (h.settle finding)

/-- Settling findings drops those that are needless. -/
theorem hasDropped_foldl_settle {found : List Finding} {finding : Finding} (hmem : finding ∈ found)
    (hneedless : finding.conflict = .needless)
    (hclass : registry.hasClass finding.className = true) :
    (found.foldl Finding.settle registry).HasDropped finding.className finding.signature := by
  obtain ⟨before, after, rfl⟩ := List.append_of_mem hmem
  rw [List.foldl_append, List.foldl_cons]
  refine HasDropped.foldl_settle ?_ after
  have hbefore := (grows_foldl_settle registry before).hasClass hclass
  rw [Finding.settle, hneedless]
  exact hasDropped_drop_self hbefore _

end InterfaceRegistry

/-- Settling findings changes nothing when the needless ones have been dropped. -/
theorem Session.settle_of_hasDropped {s : Session} {found : List Finding}
    (h : ∀ finding ∈ found, finding.conflict = .needless →
      s.registry.HasDropped finding.className finding.signature) : s.settle found = s := by
  have hregistry : found.foldl Finding.settle s.registry = s.registry := by
    induction found with
    | nil => rfl
    | cons finding found ih =>
      obtain ⟨hfirst, hrest⟩ := List.forall_mem_cons.1 h
      have hsettle : Finding.settle s.registry finding = s.registry := by
        cases hconflict : finding.conflict with
        | needless => simp only [Finding.settle, hconflict, (hfirst hconflict).drop_eq]
        | opened => simp only [Finding.settle, hconflict]
        | closed => simp only [Finding.settle, hconflict]
      rw [List.foldl_cons, hsettle]
      exact ih hrest
  rw [settle, hregistry]
  rfl

/-! ### The second check -/

namespace View

variable {ensure : String → Run Unit} {view : View} {s t : Session}

/-- A needless override has been dropped when the check is at its end, and stays so. -/
theorem leaves_hasDropped (hensure : ∀ name signature other, (ensure other).Moves
      (Session.Keeps fun s ↦ s.registry.HasDropped name signature)) :
    Leaves ensure fun finding s ↦
      s.registry.HasDropped finding.className finding.signature where
  ensure _ name := hensure _ _ name
  settle _ _ found h := h.foldl_settle found
  needless _ _ _ hmem hneedless hclass :=
    InterfaceRegistry.hasDropped_foldl_settle hmem hneedless hclass

/-- Nothing is left to do for a check: its lookups change nothing, all classes and bases are
registered under their names, and what it would drop has been dropped. -/
structure Settled (ensure : String → Run Unit) (view : View) (t : Session) : Prop where
  known : ∀ name, t.registry.hasClass name = true → (ensure name).run t = (.ok (), t)
  plain : ∀ c ∈ view.generatedClasses, view.className c = c.name
  registered : ∀ c ∈ view.generatedClasses, ∀ name ∈ view.className c :: view.baseList c,
    t.registry.hasClass name = true
  dropped : ∀ c ∈ view.generatedClasses, ∀ finding ∈ view.decided t.registry.methodsOf c,
    finding.conflict = .needless →
      t.registry.HasDropped finding.className finding.signature

section Settled

variable (hknown : ∀ name, t.registry.hasClass name = true → (ensure name).run t = (.ok (), t))

include hknown

/-- The comparisons with registered bases only add to the findings, when what they would drop has
been dropped. -/
theorem run_foldlM_compareBase_again {className : String} {own : Table String RegisteredMethod}
    {bases : List String} (hbases : ∀ base ∈ bases, t.registry.hasClass base = true)
    (progress : List String × List Finding)
    (hdropped : ∀ finding ∈ Finding.decided view.policy className own t.registry.methodsOf
      progress.1 bases, finding.conflict = .needless →
        t.registry.HasDropped finding.className finding.signature) :
    ∃ handled, (bases.foldlM (view.compareBase ensure className own) progress).run t =
      (.ok (handled, progress.2 ++ Finding.decided view.policy className own t.registry.methodsOf
        progress.1 bases), t) := by
  induction bases generalizing progress with
  | nil => exact ⟨progress.1, by rw [Finding.decided, List.append_nil]; rfl⟩
  | cons base bases ih =>
    obtain ⟨hbase, hrest⟩ := List.forall_mem_cons.1 hbases
    obtain ⟨interface, hinterface⟩ := InterfaceRegistry.exists_expect_eq_ok hbase
    have hmethods : t.registry.methodsOf base = interface.methods :=
      InterfaceRegistry.methodsOf_of_interface? (InterfaceRegistry.expect_eq_ok_iff.1 hinterface)
    rw [Finding.decided, hmethods] at hdropped ⊢
    obtain ⟨hhere, hlater⟩ := List.forall_mem_append.1 hdropped
    let next := (progress.1 ++ (Finding.undecided progress.1 interface.methods).keys,
      progress.2 ++ Finding.ofMethods view.policy className own base
        (Finding.undecided progress.1 interface.methods))
    have hfirst : (view.compareBase ensure className own progress base).run t = (.ok next, t) := by
      rw [run_compareBase_of_registered (hknown base hbase) hinterface,
        Session.settle_of_hasDropped hhere]
    obtain ⟨handled, hrun⟩ := ih hrest next hlater
    refine ⟨handled, ?_⟩
    rw [List.foldlM_cons, Run.run_bind_of_ok hfirst, hrun, List.append_assoc]

theorem run_checkClass_again {c : Class}
    (hregistered : ∀ name ∈ view.className c :: view.baseList c,
      t.registry.hasClass name = true)
    (hdropped : ∀ finding ∈ view.decided t.registry.methodsOf c, finding.conflict = .needless →
      t.registry.HasDropped finding.className finding.signature) :
    (view.checkClass ensure c).run t = (.ok (view.decided t.registry.methodsOf c), t) := by
  obtain ⟨hclass, hbases⟩ := List.forall_mem_cons.1 hregistered
  obtain ⟨own, hown⟩ := InterfaceRegistry.exists_expect_eq_ok hclass
  have hmethods : t.registry.methodsOf (view.className c) = own.methods :=
    InterfaceRegistry.methodsOf_of_interface? (InterfaceRegistry.expect_eq_ok_iff.1 hown)
  rw [decided, hmethods] at hdropped ⊢
  obtain ⟨handled, hrun⟩ := run_foldlM_compareBase_again hknown hbases ([], []) hdropped
  rw [checkClass, Run.run_bind_of_ok (Run.run_expectInterface_of_eq hown),
    Run.run_bind_of_ok hrun]
  rfl

end Settled

theorem Settled.run_findings (h : Settled ensure view t) :
    (view.findings ensure).run t =
      (.ok (view.generatedClasses.flatMap (view.decided t.registry.methodsOf)), t) := by
  have hensured {classes : List Class} (hclasses : ∀ c ∈ classes, c ∈ view.generatedClasses) :
      (classes.forM fun c ↦ ensure c.name).run t = (.ok (), t) := by
    induction classes with
    | nil => rfl
    | cons c classes ih =>
      obtain ⟨hc, hrest⟩ := List.forall_mem_cons.1 hclasses
      have hclass := h.registered c hc _ List.mem_cons_self
      rw [h.plain c hc] at hclass
      rw [List.forM, Run.run_bind_of_ok (h.known _ hclass)]
      exact ih hrest
  have hchecked {classes : List Class} (hclasses : ∀ c ∈ classes, c ∈ view.generatedClasses) :
      (classes.mapM (view.checkClass ensure)).run t =
        (.ok (classes.map (view.decided t.registry.methodsOf)), t) := by
    induction classes with
    | nil => rfl
    | cons c classes ih =>
      obtain ⟨hc, hrest⟩ := List.forall_mem_cons.1 hclasses
      rw [List.mapM_cons, Run.run_bind_of_ok
        (run_checkClass_again h.known (h.registered c hc) (h.dropped c hc)),
        Run.run_bind_of_ok (ih hrest)]
      rfl
  rw [findings, Run.run_bind_of_ok (hensured fun _ hc ↦ hc),
    Run.run_bind_of_ok (hchecked fun _ hc ↦ hc), List.flatMap_def]
  rfl

/-- A check that has come to its end, whatever it has found, finds the same when it is done again,
and leaves the session as it is. -/
theorem run_findings_again (hgrows : ∀ name, (ensure name).Moves Session.RegistryGrows)
    (hkeeps : ∀ name signature other, (ensure other).Moves
      (Session.Keeps fun s ↦ s.registry.HasDropped name signature))
    (hknown : ∀ name s, s.registry.hasClass name = true → (ensure name).run s = (.ok (), s))
    (hplain : ∀ c ∈ view.generatedClasses, view.className c = c.name) {found : List Finding}
    (h : (view.findings ensure).run s = (.ok found, t)) :
    (view.findings ensure).run t = (.ok found, t) := by
  obtain ⟨hfound, -⟩ := findings_eq_ok hgrows h
  have hdropped := findings_leaves hgrows (leaves_hasDropped hkeeps) h
  have hsettled : Settled ensure view t :=
    { known := fun name ↦ hknown name t
      plain := hplain
      registered := fun c hc name ↦ hasClass_of_checked hgrows h hc
      dropped := fun c hc finding hmem ↦
        hdropped finding (hfound ▸ List.mem_flatMap.2 ⟨c, hc, hmem⟩) }
  rw [hfound]
  exact hsettled.run_findings

end View

end Bindery
