import Bindery.Proofs.Interface.Consistency
import Bindery.Proofs.Interface.Lookups
import Bindery.Proofs.Package.Traces

/-!
Which modules an analysis depends on. A module is sound (`Package.Sound`) when it can be prepared,
each base of its classes is generated by one module that can be prepared, and nothing is wrong with
its classes. One might expect that it can then be analyzed whatever is wrong with other modules. But
the module of a base is searched by extracting modules in order, and one that fails ends the search.
So a sound module that has not passed before is analyzed exactly when each base is in reach
(`analyze_succeeds_iff`): the base is indexed already, or the module itself generates it, or all
modules in front of its owner can be extracted.
-/

set_option autoImplicit false
set_option relaxedAutoImplicit false

namespace Bindery

namespace Package

variable {package : Package} {files : Files} {s t u : Session} {policy owner : Policy}
  {extraction : Extraction} {name base : String}

/-! ### Sound modules -/

/-- One module of the package generates the class, and it can be prepared. -/
structure OwnedBy (package : Package) (files : Files) (name : String) (owner : Policy) :
    Prop where
  prepares : package.Prepares files owner
  generates : name ∈ package.generatedNames files owner
  only : ∀ other ∈ package.policies, name ∈ package.generatedNames files other → other = owner

/-- The methods of a class as a check of a module sees them: those that the class is registered
with, or else those that the declarations of the module give it, or those of another module. -/
def methodsSeen (package : Package) (s : Session) (policy : Policy) (name : String) :
    Table String RegisteredMethod :=
  (((s.registry.interface? name).or ((package.interfaceIn? s.files name policy).or
    (package.interface? s.files name))).map ClassInterface.methods).getD []

/-- The bases that the classes of a module are compared with. -/
def bases (policy : Policy) (extraction : Extraction) : List String :=
  (View.generatedClasses ⟨policy, extraction.module⟩).flatMap
    (View.baseList ⟨policy, extraction.module⟩)

/-- A module with nothing wrong about itself, its bases, and its classes in comparison with them. -/
structure Sound (package : Package) (s : Session) (policy : Policy) (extraction : Extraction) :
    Prop where
  prepares : package.Prepares s.files policy
  extracts : package.Extracts s.files policy extraction
  owned : ∀ base ∈ bases policy extraction, ∃ owner, package.OwnedBy s.files base owner
  clean : ∀ finding ∈ (View.generatedClasses ⟨policy, extraction.module⟩).flatMap
      (View.decided ⟨policy, extraction.module⟩ (package.methodsSeen s policy)),
    finding.conflict.severity ≠ .error

/-- A search for the class ends at its owner, or there is none. -/
inductive Reaches (package : Package) (s : Session) (policy : Policy) (name : String) : Prop
  | indexed (h : (s.classIndex.find? name).isSome = true)
  | own (h : name ∈ package.generatedNames s.files policy)
  | searched (before : List Policy) (owner : Policy) (after : List Policy)
    (hpolicies : package.policies = before ++ owner :: after)
    (howner : name ∈ package.generatedNames s.files owner)
    (hbefore : ∀ other ∈ before, package.Extractable s.files other)

/-! ### Registering a module -/

/-- A module that can be prepared is registered in any traced session. -/
theorem Traced.run_register (hs : package.Traced s) (hprepares : package.Prepares s.files policy)
    (h : package.Extracts s.files policy extraction) :
    ∃ t registry, (package.extract policy).run s = (.ok extraction, t) ∧
      (View.registerClasses ⟨policy, extraction.module⟩).run t =
        (.ok (), t.withRegistry registry) ∧
      ∀ name, registry.interface? name = (s.registry.interface? name).or
        (package.interfaceIn? s.files name policy) := by
  obtain ⟨outcome, t, hextract⟩ := hs.run_extract h.mem
  have hok := hextract.isOk_iff.2 hprepares.extractable
  cases outcome with
  | error e => cases hok
  | ok found =>
    obtain rfl := (hextract.extracts found rfl).unique h
    obtain ⟨registry, hrun, hregistry⟩ := View.run_forM_registerClass (s := t)
      fun name _ c hc ↦ hprepares.interfaceOf_eq_ok h hc
    refine ⟨t, registry, hextract.run, hrun, fun name ↦ ?_⟩
    simp only [hregistry, hextract.registry, interfaceIn?, h.extracted]

/-! ### Finding an owner -/

/-- The index holds no other module for a class than its owner. -/
theorem Traced.run_indexedOwner? (hs : package.Traced s)
    (howned : package.OwnedBy s.files name owner) :
    (package.indexedOwner? name).run s =
      (.ok (if (s.classIndex.find? name).isSome then some owner else none), s) := by
  rw [Package.run_indexedOwner?]
  cases hindex : s.classIndex.find? name with
  | none => rfl
  | some module =>
    obtain ⟨other, hother, rfl, hmem⟩ := hs.indexed name module hindex
    obtain rfl := howned.only other hother hmem
    simp only [policy_of_mem hother]
    rfl

/-- A search ends at the owner when all modules in front of it can be extracted. -/
theorem Traced.run_searchOwner {before after : List Policy} (hs : package.Traced s)
    (howned : package.OwnedBy s.files name owner)
    (hpolicies : ∀ other ∈ before ++ owner :: after, other ∈ package.policies)
    (hbefore : ∀ other ∈ before, package.Extractable s.files other) :
    ∃ t, (package.searchOwner name (before ++ owner :: after)).run s = (.ok owner, t) ∧
      t.files = s.files := by
  induction before generalizing s with
  | nil =>
    obtain ⟨outcome, t, hextract⟩ := hs.run_extract howned.prepares.mem
    have hok := hextract.isOk_iff.2 howned.prepares.extractable
    cases outcome with
    | error e => cases hok
    | ok extraction =>
      have hknown := find?_of_extract_eq_ok hextract.run
      rw [← hextract.files] at howned
      obtain ⟨-, -, hindexed⟩ := hextract.traced.kept owner howned.prepares.mem extraction hknown
      have hlookup := hextract.traced.run_indexedOwner? howned
      rw [if_pos (hindexed name howned.generates)] at hlookup
      rw [List.nil_append, searchOwner, Run.run_bind_of_ok hextract.run,
        Run.run_bind_of_ok hlookup]
      exact ⟨t, rfl, hextract.files⟩
  | cons first before ih =>
    obtain ⟨hfirst, hrest⟩ := List.forall_mem_cons.1 hpolicies
    obtain ⟨hfirstOk, hbeforeOk⟩ := List.forall_mem_cons.1 hbefore
    obtain ⟨outcome, t, hextract⟩ := hs.run_extract hfirst
    have hok := hextract.isOk_iff.2 hfirstOk
    cases outcome with
    | error e => cases hok
    | ok extraction =>
      rw [← hextract.files] at howned hbeforeOk
      have hlookup := hextract.traced.run_indexedOwner? howned
      rw [List.cons_append, searchOwner, Run.run_bind_of_ok hextract.run,
        Run.run_bind_of_ok hlookup]
      by_cases hindexed : (t.classIndex.find? name).isSome = true
      · rw [if_pos hindexed]
        exact ⟨t, rfl, hextract.files⟩
      · rw [if_neg hindexed]
        obtain ⟨u, hrun, hfiles⟩ := ih hextract.traced howned hrest hbeforeOk
        exact ⟨u, hrun, hfiles.trans hextract.files⟩

/-- The owner of a class is found when the class is indexed, or a search ends at it. -/
theorem Traced.run_owner (hs : package.Traced s) (howned : package.OwnedBy s.files name owner)
    (hreaches : (s.classIndex.find? name).isSome = true ∨ ∃ before after,
      package.policies = before ++ owner :: after ∧
        ∀ other ∈ before, package.Extractable s.files other) :
    ∃ t, (package.owner name).run s = (.ok owner, t) ∧ t.files = s.files := by
  rw [Package.owner, Run.run_bind_of_ok (hs.run_indexedOwner? howned)]
  by_cases hindexed : (s.classIndex.find? name).isSome = true
  · rw [if_pos hindexed]
    exact ⟨s, rfl, rfl⟩
  · obtain ⟨before, after, hpolicies, hbefore⟩ := hreaches.resolve_left hindexed
    rw [if_neg hindexed, hpolicies]
    exact hs.run_searchOwner howned (fun other hother ↦ hpolicies ▸ hother) hbefore

/-- The interface of a class is made known when its owner is found. -/
theorem Traced.run_ensureInterface (hs : package.Traced s) (hplain : package.Plain)
    (howned : package.OwnedBy s.files name owner)
    (hreaches : (s.classIndex.find? name).isSome = true ∨ ∃ before after,
      package.policies = before ++ owner :: after ∧
        ∀ other ∈ before, package.Extractable s.files other) :
    ∃ t, (package.ensureInterface name).run s = (.ok (), t) ∧
      t.registry.hasClass name = true := by
  by_cases hclass : s.registry.hasClass name = true
  · exact ⟨s, run_ensureInterface_of_hasClass hclass, hclass⟩
  · obtain ⟨t, howner, hfiles⟩ := hs.run_owner howned hreaches
    have ht : package.Traced t := (moves_owner (fun _ h ↦ keeps_extract h) name).of_eq howner hs
    rw [← hfiles] at howned
    obtain ⟨extraction, hextracts⟩ := howned.prepares.exists_extracts
    obtain ⟨u, registry, hextract, hregister, -⟩ := ht.run_register howned.prepares hextracts
    rw [ensureInterface, Run.run_get_bind, if_neg hclass, Run.run_bind_of_ok howner,
      Run.run_bind_of_ok hextract]
    refine ⟨_, hregister, ?_⟩
    exact hextracts.hasClass (hplain owner hextracts.mem)
      (fun _ hc ↦ View.hasClass_of_registerClasses hregister hc) howned.generates

/-! ### Missing a class -/

/-- The class has not been indexed so far. -/
structure Misses (package : Package) (files : Files) (name : String) (s : Session) : Prop where
  traced : package.Traced s
  files : s.files = files
  unindexed : s.classIndex.find? name = none

section Misses

variable (howned : package.OwnedBy files name owner)

include howned

/-- Other modules than the owner do not index the class. -/
theorem misses_extract (hpolicy : policy ∈ package.policies) (hother : policy ≠ owner) :
    (package.extract policy).Moves (Session.Keeps (package.Misses files name)) := by
  rintro s ⟨hs, rfl, hnone⟩
  obtain ⟨outcome, t, hextract⟩ := hs.run_extract hpolicy
  rw [hextract.run]
  refine ⟨hextract.traced, hextract.files, ?_⟩
  rcases hextract.index name with hold | ⟨hmem, -⟩
  · exact hold.trans hnone
  · exact (hother (howned.only policy hpolicy hmem)).elim

/-- As long as the class is missed, its owner has indexed nothing. -/
theorem Misses.ne_owner (h : package.Misses files name s)
    (hindexed : package.IndexedFor s base policy) : policy ≠ owner := by
  rintro rfl
  obtain ⟨hs, rfl, hnone⟩ := h
  have hsome := hs.whole policy hindexed.1 howned.prepares.extractable base hindexed.2 name
    howned.generates
  rw [hnone] at hsome
  cases hsome

/-- A search that a module stops in front of the owner does not index the class. -/
theorem misses_searchOwner {policies : List Policy}
    (hpolicies : ∀ other ∈ policies, other ∈ package.policies)
    (hstops : ∀ before after, policies = before ++ owner :: after →
      ∃ other ∈ before, ¬package.Extractable files other) (base : String) :
    (package.searchOwner base policies).Moves (Session.Keeps (package.Misses files name)) := by
  induction policies with
  | nil => exact Run.moves_throw _
  | cons first rest ih =>
    obtain ⟨hfirst, hrest⟩ := List.forall_mem_cons.1 hpolicies
    have hother : first ≠ owner := by
      rintro rfl
      obtain ⟨_, hmem, -⟩ := hstops [] rest rfl
      exact List.not_mem_nil hmem
    by_cases hextractable : package.Extractable files first
    · refine (misses_extract howned hfirst hother).bind fun _ ↦
        (moves_indexedOwner? package base).bind fun found ↦ ?_
      cases found with
      | some found => exact Run.moves_pure found
      | none =>
        refine ih hrest fun before after hsplit ↦ ?_
        obtain ⟨other, hmem, hfails⟩ := hstops (first :: before) after (by rw [hsplit]; rfl)
        rcases List.mem_cons.1 hmem with rfl | hmem
        · exact (hfails hextractable).elim
        · exact ⟨other, hmem, hfails⟩
    · rintro s ⟨hs, rfl, hnone⟩
      obtain ⟨outcome, t, hextract⟩ := hs.run_extract hfirst
      have hkept := misses_extract howned hfirst hother s ⟨hs, rfl, hnone⟩
      rw [searchOwner]
      cases outcome with
      | ok extraction => exact (hextractable (hextract.isOk_iff.1 rfl)).elim
      | error e =>
        rw [Run.run_bind_of_error hextract.run]
        rwa [hextract.run] at hkept

variable (hplain : package.Plain)
    (hstops : ∀ before after, package.policies = before ++ owner :: after →
      ∃ other ∈ before, ¬package.Extractable files other)

include hplain

/-- Registering another module than the owner does not index the class. -/
theorem misses_extract_register (hpolicy : policy ∈ package.policies) (hother : policy ≠ owner) :
    (package.extract policy >>= fun extraction ↦
      View.registerClasses ⟨policy, extraction.module⟩).Moves
        (Session.Keeps (package.Misses files name)) := by
  refine (misses_extract howned hpolicy hother).bind_of_ok fun _ extraction t hextract ht ↦ ?_
  have htraced := ht.traced.registerClasses hpolicy (hplain policy hpolicy)
    (find?_of_extract_eq_ok hextract)
  rcases hrun : (View.registerClasses ⟨policy, extraction.module⟩).run t with ⟨outcome, u⟩
  rw [hrun, View.eq_withRegistry_of_registerClasses hrun] at htraced
  rw [View.eq_withRegistry_of_registerClasses hrun]
  exact ⟨htraced, ht.files, ht.unindexed⟩

include hstops

theorem misses_ensureInterface (base : String) :
    (package.ensureInterface base).Moves (Session.Keeps (package.Misses files name)) := by
  have howner : (package.owner base).Moves (Session.Keeps (package.Misses files name)) := by
    refine (moves_indexedOwner? package base).bind fun found ↦ ?_
    cases found with
    | some found => exact Run.moves_pure found
    | none => exact misses_searchOwner howned (fun _ h ↦ h) hstops base
  refine Run.moves_get.bind fun session ↦ ?_
  split
  · exact Run.moves_pure ()
  · refine howner.bind_of_ok fun s policy t hfound ht ↦ ?_
    have hindexed := indexedFor_of_owner hfound
    exact misses_extract_register howned hplain hindexed.1 (ht.ne_owner howned hindexed) t ht

/-- Nor does preparing a module that does not own the class, and checking it. -/
theorem misses_findings (view : View) {module : String}
    (hother : ∀ policy, package.policy module = .ok policy → policy ≠ owner) :
    (package.prepare module).Moves (Session.Keeps (package.Misses files name)) ∧
      (view.findings package.ensureInterface).Moves
        (Session.Keeps (package.Misses files name)) :=
  ⟨moves_prepare_of_register fun policy hpolicy ↦
    misses_extract_register howned hplain (mem_of_policy hpolicy).1 (hother policy hpolicy),
    View.moves_findings (misses_ensureInterface howned hplain hstops) fun _ found _ hs ↦
      ⟨hs.traced.settle found, hs.files, hs.unindexed⟩⟩

end Misses

/-! ### The analysis of a sound module -/

/-- Classes stay in the index. -/
def IndexGrows (s t : Session) : Prop :=
  ∀ name, (s.classIndex.find? name).isSome = true → (t.classIndex.find? name).isSome = true

instance : IsPreorder Session IndexGrows where
  refl _ _ h := h
  trans _ _ _ hst htu name h := htu name (hst name h)

theorem allows_indexGrows : Session.Allows IndexGrows where
  index s className module name h := by
    change ((s.classIndex.set className module).find? name).isSome = true
    by_cases hname : name = className
    · rw [hname, Table.set, Table.find?_alter_self]
      rfl
    · rwa [Table.set, Table.find?_alter_of_ne _ hname]
  keep _ _ _ _ _ h := h
  register _ _ _ _ _ h := h

section Sound

variable (hs : package.Traced s) (hplain : package.Plain)
  (hsound : package.Sound s policy extraction)

include hs hsound

theorem Sound.run_prepare :
    ∃ t, (package.prepare policy.moduleName).run s = (.ok (policy, extraction), t) ∧
      ∀ name, t.registry.interface? name = (s.registry.interface? name).or
        (package.interfaceIn? s.files name policy) := by
  obtain ⟨t, registry, hextract, hregister, hregistry⟩ :=
    hs.run_register hsound.prepares hsound.extracts
  rw [prepare, policy_of_mem hsound.prepares.mem, Run.run_ofExcept_bind_ok,
    Run.run_bind_of_ok hextract, Run.run_bind_of_ok hregister]
  exact ⟨_, rfl, hregistry⟩

include hplain

/-- A registered class has the methods that the check is expected to see. -/
theorem Sound.methodsOf_eq {prepared : Session}
    (hprepare : (package.prepare policy.moduleName).run s = (.ok (policy, extraction), prepared))
    (ht : package.Traced t) (hfiles : t.files = s.files) (hgrows : prepared.RegistryGrows t)
    (hclass : t.registry.hasClass name = true)
    (howned : name ∈ package.generatedNames s.files policy ∨
      ∃ owner, package.OwnedBy s.files name owner) :
    t.registry.methodsOf name = package.methodsSeen s policy name := by
  obtain ⟨_, hsame, hregistry⟩ := hsound.run_prepare hs
  rw [hprepare] at hsame
  cases hsame
  rw [methodsSeen, ← Option.or_assoc, ← hregistry]
  cases hknown : prepared.registry.interface? name with
  | some i =>
    obtain ⟨later, hlater, hwithin⟩ := hgrows name i hknown
    rw [InterfaceRegistry.methodsOf_of_interface? hlater, hwithin.methods]
    rfl
  | none =>
    have hforeign : name ∉ package.generatedNames s.files policy := by
      intro hmem
      have hregistered := hsound.extracts.hasClass (hplain policy hsound.prepares.mem)
        (isPrepared_of_prepare_eq_ok hprepare).2.2 hmem
      rw [InterfaceRegistry.hasClass_eq_isSome, hknown] at hregistered
      cases hregistered
    obtain ⟨owner, howned⟩ := howned.resolve_left hforeign
    have honly {other : Policy} {i : ClassInterface} (hother : other ∈ package.policies)
        (hi : package.interfaceIn? s.files name other = some i) : other = owner :=
      howned.only other hother (mem_generatedNames_of_interfaceIn? hother (hplain other hother) hi)
    rw [InterfaceRegistry.hasClass_eq_isSome] at hclass
    obtain ⟨i, hi⟩ := Option.isSome_iff_exists.1 hclass
    obtain ⟨-, other, hother, built, hbuilt, hwithin⟩ := ht.registered name i hi
    rw [hfiles] at hbuilt
    obtain rfl := honly hother hbuilt
    rw [InterfaceRegistry.methodsOf_of_interface? hi, hwithin.methods, Option.none_or]
    cases hfound : package.interface? s.files name with
    | none =>
      rw [List.findSome?_eq_none_iff.1 hfound other hother] at hbuilt
      cases hbuilt
    | some found =>
      obtain ⟨first, hfirst, hgiven⟩ := List.exists_of_findSome?_eq_some hfound
      obtain rfl := honly hfirst hgiven
      rw [hbuilt] at hgiven
      cases hgiven
      rfl

/-- The check of a sound module whose bases are in reach comes to its end. -/
theorem Sound.run_findings {prepared : Session}
    (hprepare : (package.prepare policy.moduleName).run s = (.ok (policy, extraction), prepared))
    (hreaches : ∀ base ∈ bases policy extraction, package.Reaches s policy base) :
    ∃ found t, (View.findings package.ensureInterface ⟨policy, extraction.module⟩).run prepared =
      (.ok found, t) ∧ package.Traced t ∧ prepared.Grows t := by
  let view : View := ⟨policy, extraction.module⟩
  let Inv (t : Session) : Prop := package.Traced t ∧ prepared.Grows t ∧ IndexGrows s t
  have hstart : Inv prepared := ⟨((admits_traced hplain).prepare _).of_eq hprepare hs,
    Std.Refl.refl _, (moves_prepare allows_indexGrows package _).of_eq hprepare⟩
  have hfiles : prepared.files = s.files :=
    ((moves_prepare Session.allows_grows package _).of_eq hprepare).files
  have hregisters := (isPrepared_of_prepare_eq_ok hprepare).2.2
  have hgenerated {name : String} (hname : name ∈ package.generatedNames s.files policy)
      {t : Session} (ht : prepared.Grows t) : t.registry.hasClass name = true :=
    hsound.extracts.hasClass (hplain policy hsound.prepares.mem)
      (fun c hc ↦ ht.registry.hasClass (hregisters c hc)) hname
  have hown {name : String} (hname : name ∈ view.generatedClasses.map Class.name) :
      name ∈ package.generatedNames s.files policy := hsound.extracts.generatedNames_eq ▸ hname
  have hensure : ∀ name, name ∈ view.generatedClasses.map Class.name ∨
      name ∈ view.generatedClasses.flatMap view.baseList → ∀ t, Inv t →
        ∃ u, (package.ensureInterface name).run t = (.ok (), u) ∧
          u.registry.hasClass name = true := by
    rintro name hname t ⟨ht, hgrows, hindex⟩
    rcases hname with hname | hname
    · have hclass := hgenerated (hown hname) hgrows
      exact ⟨t, run_ensureInterface_of_hasClass hclass, hclass⟩
    · obtain ⟨owner, howned⟩ := hsound.owned name hname
      have hsame : t.files = s.files := hgrows.files.trans hfiles
      have hlater := howned
      rw [← hsame] at hlater
      rcases hreaches name hname with hindexed | hmem | ⟨before, other, after, hsplit, hmem, hall⟩
      · exact ht.run_ensureInterface hplain hlater (.inl (hindex name hindexed))
      · have hclass := hgenerated hmem hgrows
        exact ⟨t, run_ensureInterface_of_hasClass hclass, hclass⟩
      · obtain rfl := howned.only other (hsplit ▸ List.mem_append_right _ List.mem_cons_self) hmem
        rw [← hsame] at hall
        exact ht.run_ensureInterface hplain hlater (.inr ⟨before, after, hsplit, hall⟩)
  obtain ⟨found, t, hrun, ht, hgrows, -⟩ : ∃ found t,
      (view.findings package.ensureInterface).run prepared = (.ok found, t) ∧ Inv t := by
    refine View.run_findings_of_finds (fun name hname u hu ↦ ?_) (fun u found hu ↦ ?_)
      (fun u hu c hc ↦ hu.2.1.registry.hasClass (hregisters c hc)) hstart
    · obtain ⟨v, hrun, hclass⟩ := hensure name hname u hu
      obtain ⟨hu, hgrows, hindex⟩ := hu
      exact ⟨v, hrun, ⟨((admits_traced hplain).ensureInterface name).of_eq hrun hu,
        IsTrans.trans _ _ _ hgrows
          ((moves_ensureInterface Session.allows_grows package name).of_eq hrun),
        IsTrans.trans _ _ _ hindex
          ((moves_ensureInterface allows_indexGrows package name).of_eq hrun)⟩, hclass⟩
    · exact ⟨hu.1.settle found, IsTrans.trans _ _ _ hu.2.1 (u.grows_settle found), hu.2.2⟩
  exact ⟨found, t, hrun, ht, hgrows⟩

/-- A sound module whose bases are in reach passes its check. -/
theorem Sound.run_check {prepared : Session}
    (hprepare : (package.prepare policy.moduleName).run s = (.ok (policy, extraction), prepared))
    (hreaches : ∀ base ∈ bases policy extraction, package.Reaches s policy base) :
    ∃ report t, (View.check package.ensureInterface ⟨policy, extraction.module⟩).run prepared =
      (.ok report, t) := by
  let view : View := ⟨policy, extraction.module⟩
  obtain ⟨found, t, hrun, ht, hgrows⟩ := hsound.run_findings hs hplain hprepare hreaches
  have hfiles : t.files = s.files := hgrows.files.trans
    ((moves_prepare Session.allows_grows package _).of_eq hprepare).files
  have hregisters := (isPrepared_of_prepare_eq_ok hprepare).2.2
  have hresolver (name : String) : (package.ensureInterface name).Moves Session.RegistryGrows :=
    fun u ↦ (moves_ensureInterface Session.allows_registryExtends package name u).grows
  have hseen {name : String} (hclass : t.registry.hasClass name = true) :=
    hsound.methodsOf_eq hs hplain hprepare ht hfiles hgrows.registry hclass
  obtain ⟨hfound, -⟩ := View.findings_eq_ok hresolver hrun
  have hsame : found = view.generatedClasses.flatMap
      (view.decided (package.methodsSeen s policy)) := by
    rw [hfound, List.flatMap_def, List.flatMap_def]
    congr 1
    refine List.map_congr_left fun c hc ↦ View.decided_congr ?_ fun base hbase ↦ ?_
    · refine hseen (hgrows.registry.hasClass (hregisters c hc)) (.inl ?_)
      rw [className_eq (hplain policy hsound.prepares.mem)]
      exact hsound.extracts.mem_generatedNames hc
    · exact hseen (View.hasClass_of_findings hresolver hrun hc hbase)
        (.inr (hsound.owned base (List.mem_flatMap.2 ⟨c, hc, hbase⟩)))
  have hwarnings : ∀ finding ∈ found, finding.conflict.severity = .warning := by
    intro finding hmem
    have hclean := hsound.clean finding (hsame ▸ hmem)
    cases hconflict : finding.conflict <;> rw [hconflict] at hclean <;>
      first | rfl | exact (hclean rfl).elim
  exact ⟨found.map Finding.diagnostic, t, by
    rw [View.run_check_of_findings hrun, Report.toResult_of_warnings hwarnings]⟩

/-- When a sound module passes its check, its bases have been in reach. -/
theorem Sound.reaches_of_passesIn (hpasses : package.PassesIn s policy.moduleName) :
    ∀ base ∈ bases policy extraction, package.Reaches s policy base := by
  intro base hbase
  obtain ⟨_, _, prepared, report, t, hprepare, -, hcheck⟩ := hpasses
  obtain ⟨_, hsame, -⟩ := hsound.run_prepare hs
  rw [hprepare] at hsame
  cases hsame
  obtain ⟨found, u, hrun, hcheck⟩ := Run.run_bind_eq_ok.1 hcheck
  obtain ⟨owner, howned⟩ := hsound.owned base hbase
  by_contra hmissed
  have hother : ∀ other, package.policy policy.moduleName = .ok other → other ≠ owner := by
    rintro other hother rfl
    rw [policy_of_mem hsound.prepares.mem] at hother
    cases hother
    exact hmissed (.own howned.generates)
  have hstops : ∀ before after, package.policies = before ++ owner :: after →
      ∃ other ∈ before, ¬package.Extractable s.files other := by
    intro before after hsplit
    by_contra hall
    refine hmissed (.searched before owner after hsplit howned.generates fun other hmem ↦ ?_)
    by_contra hfails
    exact hall ⟨other, hmem, hfails⟩
  have hstart : package.Misses s.files base s := by
    refine ⟨hs, rfl, ?_⟩
    cases hindex : s.classIndex.find? base with
    | none => rfl
    | some module => exact (hmissed (.indexed (by rw [hindex]; rfl))).elim
  obtain ⟨hmovesPrepare, hmovesFindings⟩ :=
    misses_findings howned hplain hstops ⟨policy, extraction.module⟩ hother
  have hmisses := hmovesFindings.of_eq hrun (hmovesPrepare.of_eq hprepare hstart)
  obtain ⟨c, hc, hmem⟩ := List.mem_flatMap.1 hbase
  have hclass := View.hasClass_of_findings
    (fun name v ↦ (moves_ensureInterface Session.allows_registryExtends package name v).grows)
    hrun hc hmem
  rw [InterfaceRegistry.hasClass_eq_isSome] at hclass
  obtain ⟨i, hi⟩ := Option.isSome_iff_exists.1 hclass
  have hindexed := (hmisses.traced.registered base i hi).1
  rw [hmisses.unindexed] at hindexed
  cases hindexed

end Sound

/-- In a package where no class is generated under another name, and after any calls: a sound module
that has not passed before is analyzed successfully exactly when all bases of its classes are in
reach. -/
theorem analyze_succeeds_iff (hplain : package.Plain) (files : Files) (calls : List Call)
    (hsound : package.Sound (package.after { files } calls) policy extraction) :
    ((package.analyze policy.moduleName).run (package.after { files } calls)).1.isOk = true ↔
      package.Passed { files } calls policy.moduleName ∨
        ∀ base ∈ bases policy extraction,
          package.Reaches (package.after { files } calls) policy base := by
  have hs := traced_after hplain files calls
  rw [← mem_checked_iff rfl]
  constructor
  · intro hok
    rcases package.analyze_cases policy.moduleName (package.after { files } calls) with
      ⟨e, t, hrun, -⟩ | ⟨_, _, t, -, -, -, hmarked, -⟩ | ⟨_, _, t, -, -, -, hpasses⟩
    · rw [hrun] at hok
      cases hok
    · exact .inl hmarked
    · exact .inr (hsound.reaches_of_passesIn hs hplain hpasses)
  · intro h
    by_cases hmarked : policy.moduleName ∈ (package.after { files } calls).checked
    · obtain ⟨_, _, hprepared⟩ := isPrepared_of_passed ((mem_checked_iff rfl).1 hmarked)
      rw [hprepared.run_analyze hmarked]
      rfl
    · obtain ⟨prepared, hprepare, -⟩ := hsound.run_prepare hs
      obtain ⟨report, t, hcheck⟩ := hsound.run_check hs hplain hprepare (h.resolve_left hmarked)
      have hnew : policy.moduleName ∉ prepared.checked := by
        rwa [((moves_prepare Session.allows_grows package _).of_eq hprepare).checked]
      have hcontains : prepared.checked.contains policy.moduleName = false := by simp [hnew]
      rw [analyze, Run.run_bind_of_ok hprepare]
      simp only [Run.run_get_bind, hcontains, Bool.not_false, if_true]
      rw [Run.run_bind_of_ok hcheck]
      rfl

/-! ### A module that cannot be read -/

namespace Drawing

/-- The drawing behind a module without declarations. -/
def sketch : Package where
  name := "Drawing"
  config := {}
  source
  manifest := none
  policies := [Policy.empty "Broken" "Drawing", Policy.empty "Shapes" "Drawing",
    Policy.empty "Circles" "Drawing"]
  distinct := by decide

theorem plain_sketch : sketch.Plain := by
  unfold Plain
  decide +kernel

def shapes : Policy := Policy.empty "Shapes" "Drawing"

def circles : Policy := Policy.empty "Circles" "Drawing"

theorem isSome_extraction_circles : (sketch.extraction .empty circles).toOption.isSome = true := by
  decide +kernel

def circlesExtraction : Extraction :=
  (sketch.extraction .empty circles).toOption.get isSome_extraction_circles

/-- Nothing is wrong with the circles themselves, whatever has been analyzed before. -/
theorem sound_circles {calls : List Call} (hcalls : calls = [] ∨ calls = [⟨.analyze, "Shapes"⟩]) :
    sketch.Sound (sketch.after {} calls) circles circlesExtraction := by
  have hfiles : (sketch.after {} calls).files = .empty := by
    rcases hcalls with rfl | rfl <;> rfl
  have hclean : ∀ finding ∈ (View.generatedClasses ⟨circles, circlesExtraction.module⟩).flatMap
      (View.decided ⟨circles, circlesExtraction.module⟩
        (sketch.methodsSeen (sketch.after {} calls) circles)),
      finding.conflict.severity ≠ .error := by
    rcases hcalls with rfl | rfl <;> decide +kernel
  have hbases : bases circles circlesExtraction = ["Shape"] := by decide +kernel
  refine ⟨?_, ?_, ?_, hclean⟩ <;> rw [hfiles]
  · exact ⟨List.mem_of_getElem? (i := 2) rfl, by decide +kernel⟩
  · exact ⟨List.mem_of_getElem? (i := 2) rfl, eq_ok_of_toOption (Option.some_get _).symm⟩
  · intro base hbase
    rw [hbases, List.mem_singleton] at hbase
    subst hbase
    have hmem : shapes ∈ sketch.policies := List.mem_of_getElem? (i := 1) rfl
    have honly : ∀ other ∈ sketch.policies, "Shape" ∈ sketch.generatedNames .empty other →
        other.moduleName = shapes.moduleName := by decide +kernel
    exact ⟨shapes, ⟨hmem, by decide +kernel⟩, by decide +kernel,
      fun other hother h ↦ eq_of_moduleName_eq hother hmem (honly other hother h)⟩

end Drawing

open Drawing in
/-- Once the shapes are indexed, the circles are analyzed. -/
theorem circles_analyzed_after_shapes :
    sketch.Sound (sketch.after {} [⟨.analyze, "Shapes"⟩]) circles circlesExtraction ∧
      ((sketch.analyze "Circles").run (sketch.after {} [⟨.analyze, "Shapes"⟩])).1.isOk = true := by
  have hsound := sound_circles (.inr rfl)
  refine ⟨hsound, (analyze_succeeds_iff plain_sketch .empty _ hsound).2 (.inr fun base hbase ↦ ?_)⟩
  have hbases : bases circles circlesExtraction = ["Shape"] := by decide +kernel
  rw [hbases, List.mem_singleton] at hbase
  subst hbase
  exact .indexed (by decide +kernel)

open Drawing in
/-- In a new session the search for the shapes is stopped by the module in front of them. -/
theorem circles_stopped_by_broken_module :
    sketch.Plain ∧ sketch.Sound (sketch.after {} []) circles circlesExtraction ∧
      ((sketch.analyze "Circles").run (sketch.after {} [])).1.isOk = false ∧
      ((sketch.extract (Policy.empty "Broken" "Drawing")).run {}).1.isOk = false :=
  ⟨plain_sketch, sound_circles (.inl rfl), by decide +kernel, by decide +kernel⟩

end Package

end Bindery
