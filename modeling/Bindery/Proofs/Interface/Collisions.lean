import Bindery.Proofs.Interface.Layers
import Mathlib.Data.List.Induction

/-!
Signatures that several members of a class share. The methods of an interface are entered one after
another, first those of the public section and then those of the protected one, and in each section
the declared methods stand in front of the declarations of the policy. A later method takes the
place of an earlier one of its signature (`View.method?_eq_last`). So a declared method keeps its
entry only as long as no declaration of the policy with its signature comes after it
(`View.extension_iff_of_declared`).
-/

set_option autoImplicit false
set_option relaxedAutoImplicit false

namespace Bindery

/-- Of entries that are set one after another under their keys, the last one of a key is found. -/
theorem Table.find?_foldl_set {κ α : Type} [BEq κ] [LawfulBEq κ] (key : α → κ) (l : List α)
    (table : Table κ α) (k : κ) :
    (l.foldl (fun table a ↦ table.set (key a) a) table).find? k =
      (l.reverse.find? (key · == k)).or (table.find? k) := by
  induction l using List.reverseRecOn with
  | nil => simp
  | append_singleton l a ih =>
    rw [List.foldl_append, List.foldl_cons, List.foldl_nil, List.reverse_append,
      List.reverse_singleton, List.singleton_append, List.find?_cons]
    by_cases h : key a = k
    · subst h
      rw [Table.set, Table.find?_alter_self]
      simp
    · rw [Table.set, Table.find?_alter_of_ne _ (Ne.symm h), ih, beq_false_of_ne h]

namespace ClassTarget

/-- The method that a declaration of the policy stands for, if it stands for one. -/
def customMethod? (target : ClassTarget) (decl : String) : Option Method :=
  let flat := String.ofList (decl.toList.filter (· != '\n'))
  if Prototype.isMethodText flat then
    (Prototype.parse target.className flat).toOption.map (·.toMethod target.className)
  else none

/-- What a member enters under its signature. -/
def entered? (target : ClassTarget) : InterfaceMember → Option RegisteredMethod
  | .method m => if isEntered m then some (target.entry m false) else none
  | .custom decl => (target.customMethod? decl).map (target.entry · true)
  | .variable _ | .enum _ | .inner _ => none

/-- Enters what some members enter, in their order. -/
def enterAll (target : ClassTarget) (members : List InterfaceMember)
    (methods : Table String RegisteredMethod) : Table String RegisteredMethod :=
  (members.filterMap target.entered?).foldl (fun table e ↦ table.set e.method.signature e) methods

variable {target : ClassTarget} {visibility : Protection} {i j k : ClassInterface}

theorem enterAll_append (members more : List InterfaceMember)
    (methods : Table String RegisteredMethod) :
    target.enterAll (members ++ more) methods =
      target.enterAll more (target.enterAll members methods) := by
  rw [enterAll, List.filterMap_append, List.foldl_append]
  rfl

/-! ### Filling a section -/

variable (target visibility) in
/-- An interface is another one to which members of a section have been added, each with what it
enters. -/
def Fills (i j : ClassInterface) : Prop :=
  ∃ added, (∀ other, j.members other = i.members other ++ if other = visibility then added else []) ∧
    j.methods = target.enterAll added i.methods

theorem Fills.refl (i : ClassInterface) : target.Fills visibility i i :=
  ⟨[], fun _ ↦ by simp, rfl⟩

theorem Fills.trans (h : target.Fills visibility i j) (h' : target.Fills visibility j k) :
    target.Fills visibility i k := by
  obtain ⟨added, hmembers, hmethods⟩ := h
  obtain ⟨more, hmembers', hmethods'⟩ := h'
  refine ⟨added ++ more, fun other ↦ ?_, ?_⟩
  · rw [hmembers', hmembers, List.append_assoc]
    split <;> rfl
  · rw [hmethods', hmethods, enterAll_append]

theorem fills_addMember (i : ClassInterface) {member : InterfaceMember}
    (h : target.entered? member = none) :
    target.Fills visibility i (i.addMember visibility member) := by
  refine ⟨[member], fun other ↦ i.members_addMember visibility other member, ?_⟩
  rw [ClassInterface.methods_addMember, enterAll, List.filterMap_cons_none h]
  rfl

theorem fills_enter (i : ClassInterface) {member : InterfaceMember} {e : RegisteredMethod}
    (h : target.entered? member = some e) :
    target.Fills visibility i ((i.addMember visibility member).enter e) := by
  refine ⟨[member], fun other ↦ ?_, ?_⟩
  · rw [← i.members_addMember visibility other member]
    cases other <;> rfl
  · rw [enterAll, List.filterMap_cons_some h, ← i.methods_addMember visibility member]
    rfl

theorem fills_addMethod (i : ClassInterface) {m : Method} (hm : m.info.protection = visibility) :
    target.Fills visibility i (target.addMethod i m) := by
  subst hm
  unfold addMethod
  split
  · rename_i hentered
    exact fills_enter i (if_pos hentered)
  · rename_i hentered
    exact fills_addMember i (if_neg hentered)

theorem Fills.foldl_addMethod {methods : List Method} (h : target.Fills visibility i j)
    (hmethods : ∀ m ∈ methods, m.info.protection = visibility) :
    target.Fills visibility i (methods.foldl target.addMethod j) :=
  List.foldlRecOn methods target.addMethod h fun _ hfills m hm ↦
    hfills.trans (fills_addMethod _ (hmethods m hm))

variable {builder built : ClassBuilder}

theorem fills_addOrdinary (builder : ClassBuilder) {m : Method}
    (hm : m.info.protection = visibility) :
    target.Fills visibility builder.interface (target.addOrdinary builder m).interface := by
  unfold addOrdinary
  split
  · exact .refl _
  · exact fills_addMethod _ hm

theorem fills_addShown (builder : ClassBuilder) (info : Info) {member : InterfaceMember}
    (h : target.entered? member = none) :
    target.Fills visibility builder.interface
      (addShown visibility builder info member).interface := by
  unfold addShown
  split
  · exact fills_addMember _ h
  · exact .refl _

theorem fills_addChain (builder : ClassBuilder) (chain : Overloads) :
    target.Fills visibility builder.interface
      (target.addChain visibility builder chain).interface := by
  unfold addChain
  split
  · exact (Fills.refl _).foldl_addMethod fun m hm ↦
      (isShown_iff.1 (isShown_of_mem_shownCtors hm)).1
  · split
    · refine (Fills.refl _).foldl_addMethod fun m hm ↦ ?_
      obtain ⟨⟨hprotection, -⟩, rfl⟩ := mem_shownDtors.1 hm
      exact hprotection
    · exact List.foldlRecOn
        (motive := fun b : ClassBuilder ↦ target.Fills visibility builder.interface b.interface)
        _ _ (Fills.refl _) fun _ hfills m hm ↦
          hfills.trans (fills_addOrdinary _ (isShown_iff.1 (isShown_of_mem_shownMethods hm)).1)

theorem fills_addClassMember (builder : ClassBuilder) (member : Member) :
    target.Fills visibility builder.interface
      (target.addMember visibility builder member).interface := by
  cases member with
  | method chain => exact fills_addChain builder chain
  | «variable» v => exact fills_addShown builder v.info rfl
  | enum e =>
    simp only [addMember]
    split
    · exact fills_addShown builder e.info rfl
    · exact .refl _
  | inner c => exact .refl _

theorem fills_addCustom {decl : String} (h : target.addCustom visibility i decl = .ok j) :
    target.Fills visibility i j := by
  simp only [addCustom] at h
  split at h
  · rename_i hmethod
    obtain ⟨prototype, hprototype, h⟩ := bind_eq_ok.1 h
    cases h
    refine fills_enter i ?_
    simp [entered?, customMethod?, hmethod, hprototype, Except.toOption]
  · rename_i hmethod
    cases h
    refine fills_addMember i ?_
    simp [entered?, customMethod?, hmethod]

theorem Fills.foldlM_addCustom {decls : List String} (hfills : target.Fills visibility i j)
    (h : decls.foldlM (target.addCustom visibility) j = .ok k) : target.Fills visibility i k := by
  induction decls generalizing j with
  | nil =>
    cases h
    exact hfills
  | cons decl decls ih =>
    rw [List.foldlM_cons] at h
    obtain ⟨next, hnext, h⟩ := bind_eq_ok.1 h
    exact ih (hfills.trans (fills_addCustom hnext)) h

theorem fills_addSection {classes : List Class} {decls : List String}
    (h : target.addSection visibility builder classes decls = .ok built) :
    target.Fills visibility builder.interface built.interface := by
  obtain ⟨interface, hdecls, hbuilt⟩ := bind_eq_ok.1 h
  cases hbuilt
  refine Fills.foldlM_addCustom ?_ hdecls
  refine List.foldlRecOn
    (motive := fun b : ClassBuilder ↦ target.Fills visibility builder.interface b.interface)
    _ _ (Fills.refl _) fun b hfills c _ ↦ hfills.trans ?_
  exact List.foldlRecOn
    (motive := fun b' : ClassBuilder ↦ target.Fills visibility b.interface b'.interface)
    _ _ (Fills.refl _) fun _ hfills' member _ ↦ hfills'.trans (fills_addClassMember _ member)

/-- The methods of an interface are what its members have entered, public ones first. -/
def IsEntered (target : ClassTarget) (i : ClassInterface) : Prop :=
  i.methods = target.enterAll (i.members .publicAccess ++ i.members .protectedAccess) []

theorem Fills.isEntered_public (h : target.Fills .publicAccess i j)
    (hnone : i.members .protectedAccess = []) (hi : target.IsEntered i) :
    j.members .protectedAccess = [] ∧ target.IsEntered j := by
  obtain ⟨added, hmembers, hmethods⟩ := h
  have hpublic := hmembers .publicAccess
  have hprotected := hmembers .protectedAccess
  rw [if_pos rfl] at hpublic
  rw [if_neg (by decide), List.append_nil, hnone] at hprotected
  rw [IsEntered, hnone, List.append_nil] at hi
  refine ⟨hprotected, ?_⟩
  rw [IsEntered, hprotected, List.append_nil, hpublic, enterAll_append, ← hi, hmethods]

theorem Fills.isEntered_protected (h : target.Fills .protectedAccess i j)
    (hi : target.IsEntered i) : target.IsEntered j := by
  obtain ⟨added, hmembers, hmethods⟩ := h
  have hpublic := hmembers .publicAccess
  have hprotected := hmembers .protectedAccess
  rw [if_neg (by decide), List.append_nil] at hpublic
  rw [if_pos rfl] at hprotected
  rw [IsEntered, hpublic, hprotected, ← List.append_assoc, enterAll_append, ← hi, hmethods]

/-- Members of the class stand in front of the declarations of the policy. -/
theorem custom_notMem_entries (seen : List Method) (members : List Member) (decl : String) :
    .custom decl ∉ target.entries visibility seen members := by
  induction members generalizing seen with
  | nil => exact List.not_mem_nil
  | cons member members ih =>
    rw [entries, List.mem_append, not_or]
    refine ⟨?_, ih _⟩
    cases member with
    | method chain => simp [memberEntries]
    | «variable» v => simp [memberEntries]
    | enum e => simp [memberEntries]
    | inner c => simp [memberEntries]

end ClassTarget

/-- A method with this signature is declared and stands in a section. -/
def ClassInterface.Declares (i : ClassInterface) (visibility : Protection) (signature : String) :
    Prop :=
  ∃ m, .method m ∈ i.members visibility ∧ ClassTarget.isEntered m = true ∧
    m.signature = signature

namespace View

variable {view : View} {c : Class} {interface : ClassInterface}

theorem isEntered_interfaceOf (h : view.interfaceOf c = .ok interface) :
    (view.target c).IsEntered interface := by
  obtain ⟨folded, -, h⟩ := bind_eq_ok.1 h
  obtain ⟨built, hpublic, h⟩ := bind_eq_ok.1 h
  have hinner : (view.target c).IsEntered
      { publicMembers := (c.innerClasses.filter showsInner).map .inner } := by
    have hentered : ((c.innerClasses.filter showsInner).map InterfaceMember.inner).filterMap
        (view.target c).entered? = [] := by
      simp [List.filterMap_map, Function.comp_def, ClassTarget.entered?]
    simp only [ClassTarget.IsEntered, ClassInterface.members, List.append_nil,
      ClassTarget.enterAll, hentered, List.foldl_nil]
  obtain ⟨-, hbuilt⟩ := (ClassTarget.fills_addSection hpublic).isEntered_public rfl hinner
  split at h
  · obtain ⟨last, hprotected, h⟩ := bind_eq_ok.1 h
    cases h
    exact (ClassTarget.fills_addSection hprotected).isEntered_protected hbuilt
  · cases h
    exact hbuilt

/-- The declarations that the policy adds to a section. A structure has no protected one. -/
def addedDecls (view : View) (c : Class) : Protection → List String
  | .publicAccess => view.policy.extensionsOf c.name .publicAccess
  | .protectedAccess =>
    if c.kind = .ofStruct then [] else view.policy.extensionsOf c.name .protectedAccess

/-- In each section, what the class declares stands in front of what the policy adds. -/
theorem exists_members_eq (h : view.interfaceOf c = .ok interface) (visibility : Protection) :
    ∃ declared, interface.members visibility =
        declared ++ (view.addedDecls c visibility).map .custom ∧
      ∀ decl, .custom decl ∉ declared := by
  cases visibility with
  | publicAccess =>
    obtain ⟨folded, -, hmembers, -⟩ := publicMembers_eq h
    refine ⟨_, hmembers, fun decl hmem ↦ ?_⟩
    rcases List.mem_append.1 hmem with hinner | hentries
    · simp at hinner
    · exact ClassTarget.custom_notMem_entries _ _ _ hentries
  | protectedAccess =>
    obtain ⟨folded, seen, -, hmembers⟩ := protectedMembers_eq h
    by_cases hstruct : c.kind = .ofStruct
    · rw [hasProtectedSection, hstruct, if_neg (by simp)] at hmembers
      exact ⟨[], by simpa [addedDecls, hstruct, ClassInterface.members] using hmembers, by simp⟩
    · split at hmembers
      · rw [addedDecls, if_neg hstruct]
        exact ⟨_, hmembers, ClassTarget.custom_notMem_entries _ _⟩
      · rename_i hnone
        have hdecls : view.policy.extensionsOf c.name .protectedAccess = [] := by
          simp only [hasProtectedSection, Bool.and_eq_true, Bool.or_eq_true, not_and, not_or,
            bne_iff_ne] at hnone
          simpa using (hnone hstruct).2
        exact ⟨[], by simpa [addedDecls, hstruct, hdecls, ClassInterface.members] using hmembers,
          by simp⟩

/-- The policy adds a method with this signature to a section. -/
def Supplies (view : View) (c : Class) (visibility : Protection) (signature : String) : Prop :=
  ∃ decl ∈ view.addedDecls c visibility, ∃ m, (view.target c).customMethod? decl = some m ∧
    m.signature = signature

/-! ### One signature -/

/-- What a section enters: the methods that are declared, and behind them those of the policy. -/
structure Section (view : View) (c : Class) (interface : ClassInterface) (visibility : Protection)
    (declared added : List RegisteredMethod) : Prop where
  entered_eq : (interface.members visibility).filterMap (view.target c).entered? = declared ++ added
  mem_declared : ∀ e, e ∈ declared ↔ ∃ m, .method m ∈ interface.members visibility ∧
    ClassTarget.isEntered m = true ∧ e = (view.target c).entry m false
  mem_added : ∀ e, e ∈ added ↔ ∃ decl ∈ view.addedDecls c visibility, ∃ m,
    (view.target c).customMethod? decl = some m ∧ e = (view.target c).entry m true

theorem exists_section (h : view.interfaceOf c = .ok interface) (visibility : Protection) :
    ∃ declared added, view.Section c interface visibility declared added := by
  obtain ⟨declared, hmembers, hplain⟩ := exists_members_eq h visibility
  refine ⟨declared.filterMap (view.target c).entered?,
    ((view.addedDecls c visibility).map .custom).filterMap (view.target c).entered?,
    by rw [hmembers, List.filterMap_append], fun e ↦ ?_, fun e ↦ ?_⟩
  · rw [List.mem_filterMap]
    constructor
    · rintro ⟨member, hmember, he⟩
      cases member with
      | method m =>
        simp only [ClassTarget.entered?] at he
        split at he
        · rename_i hentered
          refine ⟨m, ?_, hentered, (Option.some.inj he).symm⟩
          rw [hmembers]
          exact List.mem_append_left _ hmember
        · cases he
      | custom decl => exact (hplain decl hmember).elim
      | _ => cases he
    · rintro ⟨m, hm, hentered, rfl⟩
      refine ⟨.method m, ?_, if_pos hentered⟩
      rw [hmembers] at hm
      simpa using hm
  · simp only [List.mem_filterMap, List.mem_map, exists_exists_and_eq_and, ClassTarget.entered?,
      Option.map_eq_some_iff]
    exact ⟨fun ⟨decl, hdecl, m, hm, he⟩ ↦ ⟨decl, hdecl, m, hm, he.symm⟩,
      fun ⟨decl, hdecl, m, hm, he⟩ ↦ ⟨decl, hdecl, m, hm, he.symm⟩⟩

namespace Section

variable {visibility : Protection} {declared added : List RegisteredMethod}

theorem declares_iff (h : view.Section c interface visibility declared added)
    (signature : String) : interface.Declares visibility signature ↔
      ∃ e ∈ declared, e.method.signature = signature := by
  simp only [h.mem_declared]
  constructor
  · rintro ⟨m, hm, hentered, hsignature⟩
    exact ⟨_, ⟨m, hm, hentered, rfl⟩, hsignature⟩
  · rintro ⟨_, ⟨m, hm, hentered, rfl⟩, hsignature⟩
    exact ⟨m, hm, hentered, hsignature⟩

theorem supplies_iff (h : view.Section c interface visibility declared added)
    (signature : String) : view.Supplies c visibility signature ↔
      ∃ e ∈ added, e.method.signature = signature := by
  simp only [h.mem_added]
  constructor
  · rintro ⟨decl, hdecl, m, hm, hsignature⟩
    exact ⟨_, ⟨decl, hdecl, m, hm, rfl⟩, hsignature⟩
  · rintro ⟨_, ⟨decl, hdecl, m, hm, rfl⟩, hsignature⟩
    exact ⟨decl, hdecl, m, hm, hsignature⟩

theorem extension_of_mem_declared (h : view.Section c interface visibility declared added)
    {e : RegisteredMethod} (he : e ∈ declared) : e.extension = false ∧
      ∃ m, .method m ∈ interface.members visibility ∧ ClassTarget.isEntered m = true ∧
        m.signature = e.method.signature ∧ e = (view.target c).entry m false := by
  obtain ⟨m, hm, hentered, rfl⟩ := (h.mem_declared e).1 he
  exact ⟨rfl, m, hm, hentered, rfl, rfl⟩

theorem extension_of_mem_added (h : view.Section c interface visibility declared added)
    {e : RegisteredMethod} (he : e ∈ added) : e.extension = true ∧
      ∃ decl ∈ view.addedDecls c visibility, ∃ m, (view.target c).customMethod? decl = some m ∧
        m.signature = e.method.signature ∧ e = (view.target c).entry m true := by
  obtain ⟨decl, hdecl, m, hm, rfl⟩ := (h.mem_added e).1 he
  exact ⟨rfl, decl, hdecl, m, hm, rfl, rfl⟩

end Section

/-- The last entry of a list with a signature, if there is one. -/
theorem last_cases (l : List RegisteredMethod) (signature : String) :
    (l.reverse.find? (·.method.signature == signature) = none ∧
        ¬∃ e ∈ l, e.method.signature = signature) ∨
      ∃ e, l.reverse.find? (·.method.signature == signature) = some e ∧ e ∈ l ∧
        e.method.signature = signature := by
  cases hfound : l.reverse.find? (·.method.signature == signature) with
  | none => exact .inl ⟨rfl, by simpa using hfound⟩
  | some e =>
    exact .inr ⟨e, rfl, List.mem_reverse.1 (List.mem_of_find?_eq_some hfound),
      by simpa using List.find?_some hfound⟩

/-- The last member that enters a signature has it. -/
theorem method?_eq_last (h : view.interfaceOf c = .ok interface) (signature : String) :
    interface.method? signature =
      ((interface.publicMembers ++ interface.protectedMembers).filterMap
        (view.target c).entered?).reverse.find? (·.method.signature == signature) := by
  have hentered : interface.methods = _ := isEntered_interfaceOf h
  rw [ClassInterface.method?, hentered]
  exact (Table.find?_foldl_set _ _ _ _).trans (by simp [Table.find?, ClassInterface.members])

/-- An entry goes to the last member of its signature. So a declared instance method, of the class
or of a base that it folds, is found as it is declared unless the policy adds a method of its
signature to the protected section, or to the public one while no protected method is declared with
that signature. -/
theorem extension_iff_of_declared (h : view.interfaceOf c = .ok interface) :
    (∀ signature, interface.method? signature =
      ((interface.publicMembers ++ interface.protectedMembers).filterMap
        (view.target c).entered?).reverse.find? (·.method.signature == signature)) ∧
    ∀ visibility m, .method m ∈ interface.members visibility → ClassTarget.isEntered m = true →
      ∃ e, interface.method? m.signature = some e ∧
        (e.extension = true ↔ view.Supplies c .protectedAccess m.signature ∨
          view.Supplies c .publicAccess m.signature ∧
            ¬interface.Declares .protectedAccess m.signature) ∧
        (e.extension = false → ∃ visibility' m', .method m' ∈ interface.members visibility' ∧
          ClassTarget.isEntered m' = true ∧ m'.signature = m.signature ∧
          e = (view.target c).entry m' false) ∧
        (e.extension = true → ∃ visibility', ∃ decl ∈ view.addedDecls c visibility', ∃ m',
          (view.target c).customMethod? decl = some m' ∧ m'.signature = m.signature ∧
          e = (view.target c).entry m' true) := by
  refine ⟨method?_eq_last h, fun visibility m hm hentered ↦ ?_⟩
  obtain ⟨declared, added, hpublic⟩ := exists_section h .publicAccess
  obtain ⟨declared', added', hprotected⟩ := exists_section h .protectedAccess
  have hdeclares : interface.Declares visibility m.signature := ⟨m, hm, hentered, rfl⟩
  have hlast := method?_eq_last h m.signature
  change _ = (((interface.members .publicAccess ++ interface.members .protectedAccess).filterMap
    _).reverse.find? _) at hlast
  rw [List.filterMap_append, hpublic.entered_eq, hprotected.entered_eq] at hlast
  simp only [List.reverse_append, List.append_assoc, List.find?_append] at hlast
  rw [hpublic.supplies_iff, hprotected.supplies_iff, hprotected.declares_iff]
  -- the four lists are searched from the last one on
  rcases last_cases added' m.signature with ⟨hnone, hlate⟩ | ⟨e, hfound, he, hsignature⟩
  · rw [hnone, Option.none_or] at hlast
    rcases last_cases declared' m.signature with ⟨hnone, hown⟩ | ⟨e, hfound, he, hsignature⟩
    · rw [hnone, Option.none_or] at hlast
      rcases last_cases added m.signature with ⟨hnone, hearly⟩ | ⟨e, hfound, he, hsignature⟩
      · rw [hnone, Option.none_or] at hlast
        rcases last_cases declared m.signature with ⟨-, hfirst⟩ | ⟨e, hfound, he, hsignature⟩
        · cases visibility with
          | publicAccess => exact (hfirst ((hpublic.declares_iff _).1 hdeclares)).elim
          | protectedAccess => exact (hown ((hprotected.declares_iff _).1 hdeclares)).elim
        · obtain ⟨hextension, m', hfrom⟩ := hpublic.extension_of_mem_declared he
          rw [hsignature] at hfrom
          exact ⟨e, hlast.trans hfound,
            iff_of_false (by simp [hextension]) fun h ↦ h.elim hlate fun h ↦ hearly h.1,
            fun _ ↦ ⟨_, m', hfrom⟩, by simp [hextension]⟩
      · rw [hfound, Option.some_or] at hlast
        obtain ⟨hextension, decl, hdecl, m', hfrom⟩ := hpublic.extension_of_mem_added he
        rw [hsignature] at hfrom
        exact ⟨e, hlast, iff_of_true hextension (.inr ⟨⟨e, he, hsignature⟩, hown⟩),
          by simp [hextension], fun _ ↦ ⟨_, decl, hdecl, m', hfrom⟩⟩
    · rw [hfound, Option.some_or] at hlast
      obtain ⟨hextension, m', hfrom⟩ := hprotected.extension_of_mem_declared he
      rw [hsignature] at hfrom
      exact ⟨e, hlast, iff_of_false (by simp [hextension]) fun h ↦
          h.elim hlate fun h ↦ h.2 ⟨e, he, hsignature⟩,
        fun _ ↦ ⟨_, m', hfrom⟩, by simp [hextension]⟩
  · rw [hfound, Option.some_or] at hlast
    obtain ⟨hextension, decl, hdecl, m', hfrom⟩ := hprotected.extension_of_mem_added he
    rw [hsignature] at hfrom
    exact ⟨e, hlast, iff_of_true hextension (.inl ⟨e, he, hsignature⟩), by simp [hextension],
      fun _ ↦ ⟨_, decl, hdecl, m', hfrom⟩⟩

end View

theorem InterfaceMember.method_mem_of_any {members : List InterfaceMember} {m : Method}
    (h : members.any (·.method?.any (· == m)) = true) : .method m ∈ members := by
  obtain ⟨member, hmember, hany⟩ := List.any_eq_true.1 h
  obtain ⟨m', hm', heq⟩ := (Option.any_eq_true _ _).1 hany
  cases member with
  | method m'' =>
    cases hm'
    exact eq_of_beq heq ▸ hmember
  | _ => cases hm'

namespace Cartons

def draw : Method := { (Method.named "Draw").inClass "Carton" with isVirtual := true }

def hide : Method := (Method.named "Hide").inClass "Carton"

def carton : Class where
  info := { name := "Carton" }
  members := [.method ⟨draw, []⟩, .method ⟨hide, []⟩]

/-- The policy adds another declaration of how a carton is drawn. -/
def cartons : View where
  policy := { Policy.empty "Cartons" "Drawing" with
    interfaceExtensions := [("Carton", [(.publicAccess, "virtual void Draw()")])] }
  module := { name := "Cartons", items := [.ofClass carton] }

end Cartons

open Cartons in
/-- What hides a carton is found as it is declared, and what draws it as the policy adds it. -/
theorem carton_entries : ∃ interface, cartons.interfaceOf carton = .ok interface ∧
    .method draw ∈ interface.members .publicAccess ∧
    .method hide ∈ interface.members .publicAccess ∧
    ClassTarget.isEntered draw = true ∧ ClassTarget.isEntered hide = true ∧
    (∃ e, interface.method? draw.signature = some e ∧ e.extension = true) ∧
    ∃ e, interface.method? hide.signature = some e ∧ e.extension = false := by
  have hok : ((cartons.interfaceOf carton).toOption.any fun interface ↦
      interface.publicMembers.any (·.method?.any (· == draw)) &&
        interface.publicMembers.any (·.method?.any (· == hide)) &&
          interface.protectedMembers.isEmpty) = true := by decide +kernel
  obtain ⟨interface, hinterface, hmembers⟩ := (Option.any_eq_true _ _).1 hok
  rw [Bool.and_eq_true, Bool.and_eq_true, List.isEmpty_iff] at hmembers
  obtain ⟨⟨hdraw, hhide⟩, hnone⟩ := hmembers
  have hdraw := InterfaceMember.method_mem_of_any hdraw
  have hhide := InterfaceMember.method_mem_of_any hhide
  obtain ⟨-, hdeclared⟩ :=
    View.extension_iff_of_declared (eq_ok_of_toOption hinterface)
  obtain ⟨e, he, hextension, -⟩ := hdeclared .publicAccess draw hdraw (by decide)
  obtain ⟨e', he', hextension', -⟩ := hdeclared .publicAccess hide hhide (by decide)
  have hprotected (signature : String) : ¬cartons.Supplies carton .protectedAccess signature := by
    rintro ⟨decl, hdecl, -⟩
    exact List.not_mem_nil hdecl
  refine ⟨interface, eq_ok_of_toOption hinterface, hdraw, hhide, by decide, by decide,
    ⟨e, he, hextension.2 (.inr ⟨?_, ?_⟩)⟩, e', he', ?_⟩
  · have hadded : ((cartons.target carton).customMethod? "virtual void Draw()").any
        (·.signature == draw.signature) = true := by decide +kernel
    obtain ⟨m, hm, hsignature⟩ := (Option.any_eq_true _ _).1 hadded
    exact ⟨_, List.mem_singleton_self _, m, hm, eq_of_beq hsignature⟩
  · rintro ⟨m, hm, -⟩
    rw [ClassInterface.members, hnone] at hm
    exact List.not_mem_nil hm
  · have hother : ((cartons.target carton).customMethod? "virtual void Draw()").any
        (·.signature == hide.signature) = false := by decide +kernel
    rw [← Bool.not_eq_true, hextension']
    rintro (h | ⟨⟨decl, hdecl, m, hm, hsignature⟩, -⟩)
    · exact hprotected _ h
    · cases List.mem_singleton.1 hdecl
      rw [hm, Option.any_some, hsignature, beq_self_eq_true] at hother
      cases hother

open Cartons in
/-- A carton declares how it is drawn, and its interface has the declaration of the policy. -/
theorem carton_drawing_replaced :
    ((cartons.interfaceOf carton).toOption.any fun interface ↦
      interface.publicMembers.any (·.method?.any (· == draw)) && ClassTarget.isEntered draw &&
        (interface.method? draw.signature).any (·.extension)) = true := by
  decide +kernel

end Bindery
