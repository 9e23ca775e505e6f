import Bindery.Emit.Documentation
import Bindery.Proofs.Emit.Outline
import Bindery.Proofs.Interface.Entries

/-!
What the lines of a documentation stub are written for. Like a header, a stub has an outline, where
its lines stand together with the declarations that they are written for (`Emit.stubOutline`). The
stub of a module is the text of its outline, and has no guards in it (`Emit.documentation_eq`).
-/

set_option autoImplicit false
set_option relaxedAutoImplicit false

namespace Bindery.Emit

open Bindery.Emit.Part

/-- No guard is heeded. -/
def heedsNone : Place → Target → Bool := fun _ _ ↦ false

theorem lines_heedsNone (place : Place) (declared : Target) (body : List Part) :
    (written place declared body).lines heedsNone = linesOf heedsNone body := by
  rw [lines]
  rfl

/-! ### Constants -/

def enumStubParts (place : Place) (indent : String) (e : Enumeration) : List Part :=
  ("" :: (if e.isAnonymous then []
      else [indent ++ "# " ++ Naming.className e.info.name ++ " values"])).map .line ++
    (e.values.filter fun v ↦ !v.info.ignored && !v.info.ignoreDoc).map fun v ↦
      .written place (.value v) [.line (indent ++ Naming.constantName v.info.name ++ " = nil")]

def constantStubParts : Item → List Part
  | .enum e =>
    if e.hasActiveValues then [.written .item (.enum e) (enumStubParts .item "  " e)] else []
  | .variable v => [.written .item (.variable v) ((constantStub (.variable v)).map .line)]
  | .define d =>
    if d.isConstant then
      [.written .item (.define d)
        [.line "", .line ("  " ++ Naming.constantName d.info.name ++ " = nil")]]
    else []
  | _ => []

def constantsParts (m : Module) : List Part :=
  (m.items.filter fun item ↦ !item.info.ignored && !item.info.ignoreDoc).flatMap constantStubParts

theorem linesOf_enumStubParts (place : Place) (indent : String) (e : Enumeration) :
    linesOf heedsNone (enumStubParts place indent e) = enumStub indent e := by
  have hvalue (v : EnumValue) (text : String) :
      (written place (.value v) [line text]).lines heedsNone = [text] := by
    rw [lines_heedsNone, linesOf_singleton, lines]
  rw [enumStubParts, enumStub, linesOf_append, linesOf_map_line, linesOf_map]
  simp only [hvalue, ← List.map_eq_flatMap, List.cons_append]

theorem linesOf_constantStubParts (item : Item) :
    linesOf heedsNone (constantStubParts item) = constantStub item := by
  cases item with
  | enum e =>
    rw [constantStubParts, constantStub, linesOf_ite, linesOf_singleton, lines_heedsNone,
      linesOf_enumStubParts]
  | «variable» v =>
    rw [constantStubParts, linesOf_singleton, lines_heedsNone, linesOf_map_line]
  | define d =>
    rw [constantStubParts, constantStub, linesOf_ite, linesOf_singleton, lines_heedsNone]
    rfl
  | _ => rfl

theorem linesOf_constantsParts (m : Module) :
    linesOf heedsNone (constantsParts m) = constantStubs m := by
  simp only [constantsParts, constantStubs, linesOf_flatMap, linesOf_constantStubParts]

/-! ### Classes -/

/-- One overload above the definition of its name. -/
def overloadPart (rules : TypemapRules) (name : String) (m : Method) : Part :=
  .written .member (.method ⟨m, []⟩)
    ((("    # @overload " ++ name ++ "(" ++ rubyParams m ++ ")") ::
      docLines "    #   " m.info ++ signatureTags rules "    #   " m).map .line)

def methodStubParts (rules : TypemapRules) (name : String) : List Method → List Part
  | [m] => [.written .member (.method ⟨m, []⟩) ((methodStub rules name [m]).map .line)]
  | methods =>
    .line "" :: methods.map (overloadPart rules name) ++
      [.line ("    def " ++ (if methods.all Method.isStatic then "self." else "") ++ name ++
        "(*args) end")]

def memberEnumStubParts (interface : ClassInterface) : List Part :=
  interface.publicMembers.flatMap fun
    | .enum e =>
      if e.info.ignoreDoc then [] else [.written .member (.enum e) (enumStubParts .member "    " e)]
    | _ => []

def classStubPart (view : View) (registry : InterfaceRegistry) (rules : TypemapRules) (c : Class) :
    Except Error Part := do
  let className := view.policy.className c.name
  let interface ← registry.expect className
  let base ← view.baseClass c
  let name := Naming.className className
  return .written .item (.ofClass c)
    (("" :: docLines "  # " c.info ++ [classOpening view.policy c name base]).map .line ++
      memberEnumStubParts interface ++
      (stubMethods view.policy c interface).flatMap (fun (method, overloads) ↦
        methodStubParts rules method overloads) ++
      ["", "  end # " ++ name].map .line)

theorem linesOf_methodStubParts (rules : TypemapRules) (name : String) (methods : List Method) :
    linesOf heedsNone (methodStubParts rules name methods) = methodStub rules name methods := by
  unfold methodStubParts
  split
  · rw [linesOf_singleton, lines_heedsNone, linesOf_map_line]
  · rename_i hmany
    have hoverload (m : Method) : (overloadPart rules name m).lines heedsNone =
        ("    # @overload " ++ name ++ "(" ++ rubyParams m ++ ")") ::
          docLines "    #   " m.info ++ signatureTags rules "    #   " m := by
      rw [overloadPart, lines_heedsNone, linesOf_map_line]
    rw [methodStub.eq_2 rules name methods hmany, linesOf_append, linesOf, linesOf_map,
      linesOf_singleton, lines, lines]
    simp only [hoverload]
    rfl

theorem linesOf_memberEnumStubParts (interface : ClassInterface) :
    linesOf heedsNone (memberEnumStubParts interface) = memberEnumStubs interface := by
  rw [memberEnumStubParts, memberEnumStubs, linesOf_flatMap]
  congr 1
  funext member
  cases member with
  | enum e =>
    cases hdoc : e.info.ignoreDoc with
    | true => simp [linesOf, hdoc]
    | false => simp [hdoc, lines_heedsNone, linesOf_enumStubParts]
  | _ => rfl

theorem classStub_eq (view : View) (registry : InterfaceRegistry) (rules : TypemapRules)
    (c : Class) : classStub view registry rules c =
      (classStubPart view registry rules c).map (lines heedsNone) := by
  rw [classStub, classStubPart]
  cases registry.expect (view.policy.className c.name) with
  | error e => rfl
  | ok interface =>
    cases view.baseClass c with
    | error e => rfl
    | ok base =>
      simp only [bind, Except.bind, pure, Except.pure, Except.map, lines_heedsNone, linesOf_append,
        linesOf_map_line, linesOf_flatMap, linesOf_methodStubParts, linesOf_memberEnumStubParts]

/-! ### The stub -/

def stubScopes (policy : Policy) : List String :=
  (Text.splitScope policy.package.toList).map String.ofList

/-- The lines around the declarations of a stub. -/
def stubOpening (policy : Policy) : List String :=
  stubNotice ++ (stubScopes policy).flatMap fun scope ↦ ["", "module " ++ scope]

def stubClosing (policy : Policy) : List String := (stubScopes policy).flatMap fun _ ↦ ["", "end"]

/-- The outline of a stub, from those of its classes. -/
def stubOutlineWith (view : View) (classes : List Part) : List Part :=
  (stubOpening view.policy).map .line ++ constantsParts view.module ++ classes ++
    (stubClosing view.policy).map .line

/-- The outline of the documentation stub of a module. -/
def stubOutline (view : View) (registry : InterfaceRegistry) (rules : TypemapRules) :
    Except Error (List Part) := do
  let documented := view.generatedClasses.filter (!·.info.ignoreDoc)
  let classes ← documented.mapM (classStubPart view registry rules)
  return stubOutlineWith view classes

theorem linesOf_stubOutlineWith (view : View) (classes : List Part) :
    linesOf heedsNone (stubOutlineWith view classes) =
      stubOpening view.policy ++ constantStubs view.module ++
        (classes.map (lines heedsNone)).flatten ++ stubClosing view.policy := by
  have hclasses : linesOf heedsNone classes = (classes.map (lines heedsNone)).flatten := by
    rw [← List.flatMap_def, ← linesOf_map, List.map_id']
  simp only [stubOutlineWith, linesOf_append, linesOf_map_line, linesOf_constantsParts, hclasses]

/-- A stub is the text of its outline. -/
theorem documentation_eq (view : View) (registry : InterfaceRegistry) (rules : TypemapRules) :
    documentation view registry rules = (stubOutline view registry rules).map fun parts ↦
      Text.unlines (linesOf heedsNone parts) := by
  have hclasses (documented : List Class) : documented.mapM (classStub view registry rules) =
      (documented.mapM (classStubPart view registry rules)).map (List.map (lines heedsNone)) := by
    rw [← mapM_map_eq]
    exact congrArg (documented.mapM ·) (funext (classStub_eq view registry rules))
  rw [documentation, stubOutline, hclasses]
  cases (view.generatedClasses.filter (!·.info.ignoreDoc)).mapM
      (classStubPart view registry rules) with
  | error e => rfl
  | ok classes =>
    exact congrArg (fun texts ↦ (.ok (Text.unlines texts) : Except Error String))
      (linesOf_stubOutlineWith view classes).symm

/-- The lines of a stub that are written for no declaration are its first and its last. -/
theorem line_mem_stubOutline {view : View} {registry : InterfaceRegistry} {rules : TypemapRules}
    {parts : List Part} (h : stubOutline view registry rules = .ok parts) {text : String}
    (htext : .line text ∈ parts) : text ∈ stubOpening view.policy ++ stubClosing view.policy := by
  obtain ⟨classes, hclasses, h⟩ := bind_eq_ok.1 h
  cases h
  simp only [stubOutlineWith, List.mem_append] at htext
  rw [List.mem_append]
  rcases htext with ((hopening | hconstant) | hclass) | hclosing
  · exact .inl (by simpa using hopening)
  · obtain ⟨item, -, hconstant⟩ := List.mem_flatMap.1 hconstant
    unfold constantStubParts at hconstant
    split at hconstant <;> simp at hconstant
  · obtain ⟨c, -, hclass⟩ := exists_of_mem_mapM hclasses hclass
    obtain ⟨i, -, hclass⟩ := bind_eq_ok.1 hclass
    obtain ⟨base, -, hclass⟩ := bind_eq_ok.1 hclass
    cases hclass
  · exact .inr (by simpa using hclosing)

end Bindery.Emit
