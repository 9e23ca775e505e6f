import Bindery.Proofs.Decl.Revisions
import Bindery.Proofs.Source.Scopes

/-!
Reading the declarations of a module. The files of the items are turned into declarations, which are
added in order (`Module.extract_eq`), so reading fails exactly when some file cannot be loaded or
gives an unknown protection. The module that is read holds every function and every method that the
files declare once, in the chain of its key, and what is said of a declaration in its own fields
fits the place where it stands (`Module.extract_declares`).
-/

set_option autoImplicit false
set_option relaxedAutoImplicit false

namespace Bindery

/-! ### Loading the files -/

/-- The declarations of an item. -/
def itemsOf (load : String → Except Error DeclFile) (item : String) :
    Except Error (List Item) := load item >>= DeclFile.toItems

def ItemEntry.function? : ItemEntry → Option MethodEntry
  | .function m => some m
  | _ => none

section Reading

variable (load : String → Except Error DeclFile)

theorem Module.foldlM_addDeclarations (itemNames : List String) (m : Module) :
    itemNames.foldlM (Module.addDeclarations load) m =
      itemNames.mapM (itemsOf load) >>= fun groups ↦
        .ok (groups.flatten.foldl Module.addItem m) := by
  induction itemNames generalizing m with
  | nil => rfl
  | cons item itemNames ih =>
    have hstep : Module.addDeclarations load m item =
        itemsOf load item >>= fun items ↦ .ok (items.foldl Module.addItem m) := by
      rw [itemsOf, bind_assoc]
      rfl
    rw [List.foldlM_cons, List.mapM_cons, hstep]
    cases itemsOf load item with
    | error e => rfl
    | ok items =>
      refine (ih _).trans ?_
      cases itemNames.mapM (itemsOf load) with
      | error e => rfl
      | ok groups => exact congrArg Except.ok (List.foldl_append ..).symm

/-- The declarations of all items are added to an empty module. -/
theorem Module.extract_eq (name : String) (itemNames : List String) :
    Module.extract load name itemNames =
      itemNames.mapM (itemsOf load) >>= fun groups ↦
        .ok (groups.flatten.foldl Module.addItem { name, itemNames }) :=
  foldlM_addDeclarations load itemNames { name, itemNames }

theorem succeeds_itemsOf (item : String) : Succeeds (itemsOf load item) ↔
    ∃ file, load item = .ok file ∧ ∀ raw ∈ file.protections, IsProtection raw := by
  refine ⟨fun ⟨items, hitems⟩ ↦ ?_, fun ⟨file, hfile, hknown⟩ ↦ ?_⟩
  · obtain ⟨file, hfile, hitems⟩ := bind_eq_ok.1 hitems
    exact ⟨file, hfile, file.succeeds_toItems.1 ⟨items, hitems⟩⟩
  · obtain ⟨items, hitems⟩ := file.succeeds_toItems.2 hknown
    exact ⟨items, bind_eq_ok.2 ⟨file, hfile, hitems⟩⟩

theorem not_succeeds_itemsOf (item : String) : ¬Succeeds (itemsOf load item) ↔
    (∃ e, load item = .error e) ∨ ∃ file, load item = .ok file ∧
      ∃ raw ∈ file.protections, raw ≠ "public" ∧ raw ≠ "protected" := by
  rw [succeeds_itemsOf]
  cases hload : load item with
  | error e => simp
  | ok file => simp [IsProtection]

theorem Module.succeeds_extract (name : String) (itemNames : List String) :
    Succeeds (Module.extract load name itemNames) ↔
      ∀ item ∈ itemNames, Succeeds (itemsOf load item) := by
  rw [extract_eq]
  exact succeeds_bind_ok succeeds_mapM _

/-- Every entry of the files becomes one declaration, in order. -/
theorem forall₂_of_itemsOf {itemNames : List String} {groups : List (List Item)}
    (h : itemNames.mapM (itemsOf load) = .ok groups) : ∃ files,
      itemNames.mapM load = .ok files ∧
      List.Forall₂ (fun entry item ↦ entry.toItem = .ok item) (files.flatMap DeclFile.items)
        groups.flatten := by
  induction itemNames generalizing groups with
  | nil =>
    cases h
    exact ⟨[], rfl, .nil⟩
  | cons name itemNames ih =>
    rw [List.mapM_cons] at h
    obtain ⟨items, hitems, h⟩ := bind_eq_ok.1 h
    obtain ⟨rest, hrest, h⟩ := bind_eq_ok.1 h
    cases h
    obtain ⟨file, hfile, hitems⟩ := bind_eq_ok.1 hitems
    obtain ⟨files, hfiles, hall⟩ := ih hrest
    refine ⟨file :: files, ?_, List.rel_append (forall₂_of_mapM hitems) hall⟩
    rw [List.mapM_cons, hfile, hfiles]
    rfl

end Reading

/-! ### The module that is read -/

/-- Every entry is found in the module. The free functions are gathered as the methods of a class
are, and the classes stand in the order of their entries, each with what its entry declares. -/
structure Module.Declares (entries : List ItemEntry) (m : Module) : Prop where
  functions : ∃ declared,
    List.Forall₂ (fun entry o ↦ entry.toMethod none = .ok o)
      (entries.filterMap ItemEntry.function?) declared ∧
    Overloads.Gathers declared m.functions
  classes : List.Forall₂ GivesAt (entries.flatMap ItemEntry.nested) m.nestedClasses

section Declared

variable {entries : List ItemEntry} {items : List Item} {m : Module}

theorem ItemEntry.function_toItem {entry : ItemEntry} {chain : Overloads}
    (h : entry.toItem = .ok (.function chain)) : ∃ f : MethodEntry,
      entry = .function f ∧ f.toMethod none = .ok chain.first ∧ chain.rest = [] := by
  cases entry with
  | function f =>
    obtain ⟨o, ho, h⟩ := bind_eq_ok.1 h
    cases h
    exact ⟨f, rfl, ho, rfl⟩
  | _ =>
    obtain ⟨_, -, h⟩ := bind_eq_ok.1 h
    cases h

/-- Functions that are declared are added one by one. -/
theorem isFresh_of_toItem
    (h : List.Forall₂ (fun entry item ↦ entry.toItem = .ok item) entries items)
    (chain : Overloads) (hchain : .function chain ∈ items) :
    chain.rest = [] ∧ chain.first.isCtor = false := by
  obtain ⟨entry, -, hentry⟩ := exists_of_forall₂ h hchain
  obtain ⟨f, -, hf, hrest⟩ := ItemEntry.function_toItem hentry
  exact ⟨hrest, MethodEntry.isCtor_toMethod hf⟩

theorem Module.nestedClasses_foldl_addItem (hm : m.items = []) :
    (items.foldl Module.addItem m).nestedClasses = items.flatMap Item.nested := by
  rw [nestedClasses, classes, filterMap_foldl_addItem (fun _ ↦ rfl), hm, List.filterMap_nil,
    List.nil_append]
  induction items with
  | nil => rfl
  | cons item items ih =>
    rw [List.flatMap_cons, ← ih, List.filterMap_cons, Item.nested]
    cases item.class? <;> simp

theorem Module.declares_foldl_addItem (hm : m.items = [])
    (h : List.Forall₂ (fun entry item ↦ entry.toItem = .ok item) entries items) :
    (items.foldl Module.addItem m).Declares entries where
  functions := by
    have hstart : Overloads.Gathers [] m.functions := by
      rw [functions, hm]
      exact .nil
    refine ⟨_, ?_, gathers_foldl_addItem hstart (List.forall_mem_nil _) (isFresh_of_toItem h)⟩
    rw [List.nil_append, List.map_filterMap]
    refine forall₂_filterMap (fun entry item hitem ↦ ?_) h
    cases entry with
    | function f =>
      obtain ⟨o, ho, hitem⟩ := bind_eq_ok.1 hitem
      cases hitem
      exact .some ho
    | _ =>
      obtain ⟨_, -, hitem⟩ := bind_eq_ok.1 hitem
      cases hitem
      exact .none
  classes := by
    rw [nestedClasses_foldl_addItem hm]
    exact List.rel_flatMap h fun _ _ ↦ ItemEntry.nested_toItem

theorem Module.Declares.isDeclaredIn (h : m.Declares entries) {chain : Overloads}
    (hchain : chain ∈ m.functions) {o : Method} (ho : o ∈ chain.all) :
    o.IsDeclaredIn none ∧ o.isCtor = false := by
  obtain ⟨declared, hdeclared, hgathers⟩ := h.functions
  obtain ⟨f, -, hf⟩ := exists_of_forall₂ hdeclared (hgathers.mem_declared hchain ho)
  exact ⟨MethodEntry.isDeclaredIn_toMethod hf, MethodEntry.isCtor_toMethod hf⟩

theorem ClassEntry.Gives.isDeclaredIn {entry : ClassEntry} {c : Class} (h : entry.Gives c)
    {o : Method} (ho : o ∈ c.overloads) : o.IsDeclaredIn (some c.name) := by
  obtain ⟨declared, hdeclared, hgathers⟩ := h.methods
  obtain ⟨f, -, hf⟩ := exists_of_forall₂ hdeclared (hgathers.perm.mem_iff.1 ho)
  exact MethodEntry.isDeclaredIn_toMethod hf

theorem ClassEntry.Gives.definition {entry : ClassEntry} {c : Class} (h : entry.Gives c)
    {v : MemberVariable} (hv : v ∈ c.memberVariables) :
    v.definition = MemberVariable.definitionIn c.name v.info.name v.type := by
  obtain ⟨declared, -, hdeclared⟩ := exists_of_forall₂ h.memberVariables hv
  exact VariableEntry.definition_toMember hdeclared

theorem Module.isShielded_foldl_addItem (hm : m.items = [])
    (h : List.Forall₂ (fun entry item ↦ entry.toItem = .ok item) entries items) :
    ∀ item ∈ (items.foldl Module.addItem m).items, item.target.IsShielded := by
  refine forall_mem_foldl_addItem (fun _ _ ↦ Target.isShielded_append) ?_ fun item hitem ↦ ?_
  · rw [hm]
    exact List.forall_mem_nil _
  · obtain ⟨entry, -, hentry⟩ := exists_of_forall₂ h hitem
    exact ItemEntry.isShielded_toItem hentry

end Declared

/-- Reading fails exactly when a file cannot be loaded or gives, at any depth, a protection that is
neither `public` nor `protected`. A module that is read holds every function and every method that
its files declare once, in the chain of its key and in order. Whatever is protected is ignored.
Functions and methods name the class that they stand in, if any, and so do the variables in it; only
constructors and destructors have no return type; and what is purely virtual is virtual. -/
theorem Module.extract_declares (load : String → Except Error DeclFile) (name : String)
    (itemNames : List String) :
    ((∃ e, Module.extract load name itemNames = .error e) ↔ ∃ item ∈ itemNames,
      (∃ e, load item = .error e) ∨ ∃ file, load item = .ok file ∧
        ∃ raw ∈ file.protections, raw ≠ "public" ∧ raw ≠ "protected") ∧
    ∀ m, Module.extract load name itemNames = .ok m →
      (∃ files, itemNames.mapM load = .ok files ∧ m.Declares (files.flatMap DeclFile.items)) ∧
      (∀ d info, m.infoAt? d = some info →
        info.protection = .protectedAccess → info.ignored = true) ∧
      (∀ chain ∈ m.functions, ∀ o ∈ chain.all, o.IsDeclaredIn none ∧ o.isCtor = false) ∧
      ∀ path c, (path, c) ∈ m.nestedClasses →
        (∀ o ∈ c.overloads, o.IsDeclaredIn (some c.name)) ∧
        ∀ v ∈ c.memberVariables,
          v.definition = MemberVariable.definitionIn c.name v.info.name v.type := by
  refine ⟨?_, fun m hm ↦ ?_⟩
  · rw [← not_succeeds_iff, succeeds_extract]
    push Not
    exact exists_congr fun item ↦ and_congr_right fun _ ↦ not_succeeds_itemsOf load item
  · rw [extract_eq] at hm
    obtain ⟨groups, hgroups, hm⟩ := bind_eq_ok.1 hm
    cases hm
    obtain ⟨files, hfiles, hentries⟩ := forall₂_of_itemsOf load hgroups
    have hdeclares := declares_foldl_addItem (m := { name, itemNames }) rfl hentries
    refine ⟨⟨files, hfiles, hdeclares⟩, fun d info hinfo ↦ ?_,
      fun chain hchain o ho ↦ hdeclares.isDeclaredIn hchain ho, fun path c hc ↦ ?_⟩
    · obtain ⟨item, hitem, hinfo⟩ := Option.bind_eq_some_iff.1 hinfo
      exact isShielded_foldl_addItem rfl hentries item (List.mem_of_getElem? hitem) _ _ info hinfo
    · obtain ⟨entry, -, hgives⟩ := exists_of_forall₂ hdeclares.classes hc
      exact ⟨fun o ↦ hgives.2.isDeclaredIn, fun v ↦ hgives.2.definition⟩

/-! A lantern with a shade inside, which is dimmed for its own use only, and a bulb with a value
that is kept private. -/

namespace Lanterns

def shade : ClassEntry where
  common := { name := "Shade" }
  members := [
    .method { common := { name := "Shade" } },
    .method { common := { name := "dim", protection := some "protected" } }]

def bulb : EnumEntry where
  common := { name := "Bulb" }
  values := [{ common := { name := "SPARE", protection := some "private" } }]

def lantern : ClassEntry where
  common := { name := "Lantern" }
  members := [.inner shade]

def read (item : String) : Except Error DeclFile :=
  if item = "Lantern" then .ok ⟨[.ofClass lantern]⟩ else .ok ⟨[.enum bulb]⟩

/-- The place of what dims the shade. -/
def dimming : Location := ⟨0, .member 0 (.member 1 .here), some 0⟩

end Lanterns

open Lanterns in
/-- Lanterns can be read without bulbs only. What dims the shade is ignored, and it names the shade
as its class. -/
theorem lanterns_declared :
    (∃ e, Module.extract Lanterns.read "Lanterns" ["Lantern", "Bulb"] = .error e) ∧
    ∃ m info path c o, Module.extract Lanterns.read "Lanterns" ["Lantern"] = .ok m ∧
      m.infoAt? dimming = some info ∧ info.ignored = true ∧
      (path, c) ∈ m.nestedClasses ∧ o ∈ c.overloads ∧ o.info = info ∧
      o.className = some "Shade" ∧ o.returnType ≠ none := by
  refine ⟨?_, ?_⟩
  · refine (Module.extract_declares Lanterns.read "Lanterns" ["Lantern", "Bulb"]).1.2 ?_
    exact ⟨"Bulb", by decide, .inr ⟨_, rfl, "private", by decide, by decide, by decide⟩⟩
  · have hok : ((Module.extract Lanterns.read "Lanterns" ["Lantern"]).toOption.any fun m ↦
        (m.infoAt? dimming).any fun info ↦ decide (info.protection = .protectedAccess) &&
          m.nestedClasses.any fun nested ↦ decide (nested.2.name = "Shade") &&
            nested.2.overloads.any fun o ↦
              decide (o.info = info ∧ o.isCtor = false ∧ o.isDtor = false)) = true := by
      decide +kernel
    simp only [Option.any_eq_true, List.any_eq_true, Bool.and_eq_true, decide_eq_true_eq] at hok
    obtain ⟨m, hm, info, hinfo, hprotected, ⟨path, c⟩, hc, hname, o, ho, hsame, hctor, hdtor⟩ := hok
    obtain ⟨-, hreads⟩ := Module.extract_declares Lanterns.read "Lanterns" ["Lantern"]
    obtain ⟨-, hshielded, -, hclasses⟩ := hreads m (eq_ok_of_toOption hm)
    have hdeclared := (hclasses path c hc).1 o ho
    refine ⟨m, info, path, c, o, eq_ok_of_toOption hm, hinfo,
      hshielded dimming info hinfo hprotected, hc, ho, hsame, hname ▸ hdeclared.className,
      fun hreturn ↦ ?_⟩
    simpa [hctor, hdtor] using hdeclared.returnType.1 hreturn

end Bindery
