import Bindery.Emit.Header

/-!
What the lines of a header are written for. The outline of a header has its lines together with the
declarations that they are written for, one inside another, and without the lines of the guards
(`Emit.Part`). The header of a module is its outline, where each restricted declaration stands
between the lines of its guard; but the guard is passed over for the destructor of a class, and for
variables and classes inside of an inner class (`Emit.isGuarded`, `Emit.header_eq`).
-/

set_option autoImplicit false
set_option relaxedAutoImplicit false

namespace Bindery.Emit

/-- Where a header writes a declaration: as an item of the module, as a registered member of a
class, or inside of an inner class. -/
inductive Place
  | item
  | member
  | inside
  deriving DecidableEq

/-- A part of a header: a line, or all that is written for a declaration. -/
inductive Part
  | line (text : String)
  | written (place : Place) (declared : Target) (body : List Part)

/-- Whether a restricted declaration is put between the lines of its guard. -/
def isGuarded : Place → Target → Bool
  | .member, .method chain => chain.first.isCtor || !chain.first.isDtor
  | .inside, .member _ => false
  | .inside, .ofClass _ => false
  | _, _ => true

/-! ### The text of an outline -/

namespace Part

mutual

/-- The text of a part, if a restricted declaration is put between the lines of its guard wherever
`heeds` tells so. -/
def lines (heeds : Place → Target → Bool) : Part → List String
  | .line text => [text]
  | .written place declared body =>
    if heeds place declared then Guard.enclose declared.info.onlyFor (linesOf heeds body)
    else linesOf heeds body

def linesOf (heeds : Place → Target → Bool) : List Part → List String
  | [] => []
  | part :: parts => part.lines heeds ++ linesOf heeds parts

end

section Lines

variable {heeds : Place → Target → Bool}

@[simp]
theorem linesOf_append (parts more : List Part) :
    linesOf heeds (parts ++ more) = linesOf heeds parts ++ linesOf heeds more := by
  induction parts with
  | nil => rfl
  | cons part parts ih => rw [List.cons_append, linesOf, linesOf, ih, List.append_assoc]

@[simp]
theorem linesOf_map_line (texts : List String) : linesOf heeds (texts.map .line) = texts := by
  induction texts with
  | nil => rfl
  | cons text texts ih => rw [List.map_cons, linesOf, ih, lines, List.singleton_append]

@[simp]
theorem linesOf_singleton (part : Part) : linesOf heeds [part] = part.lines heeds := by
  rw [linesOf, linesOf, List.append_nil]

theorem linesOf_flatMap {α : Type} (f : α → List Part) (l : List α) :
    linesOf heeds (l.flatMap f) = l.flatMap fun a ↦ linesOf heeds (f a) := by
  induction l with
  | nil => rfl
  | cons a l ih => rw [List.flatMap_cons, List.flatMap_cons, linesOf_append, ih]

theorem linesOf_map {α : Type} (f : α → Part) (l : List α) :
    linesOf heeds (l.map f) = l.flatMap fun a ↦ (f a).lines heeds := by
  induction l with
  | nil => rfl
  | cons a l ih => rw [List.map_cons, linesOf, ih, List.flatMap_cons]

theorem linesOf_flatten (groups : List (List Part)) :
    linesOf heeds groups.flatten = (groups.map (linesOf heeds)).flatten := by
  induction groups with
  | nil => rfl
  | cons parts groups ih => rw [List.flatten_cons, linesOf_append, ih]; rfl

/-- The text of parts that are written only under a condition. -/
theorem linesOf_ite (shown : Bool) (parts : List Part) :
    linesOf heeds (if shown then parts else []) = if shown then linesOf heeds parts else [] := by
  cases shown <;> rfl

end Lines

end Part

open Bindery.Emit.Part

/-! ### Members of classes -/

def valueParts (place : Place) (indent : String) : List EnumValue → List Part
  | [] => []
  | [v] => [.written place (.value v) [.line (indent ++ v.info.name)]]
  | v :: rest =>
    .written place (.value v) [.line (indent ++ v.info.name ++ ",")] :: valueParts place indent rest

def memberEnumPart (place : Place) (indent className : String) (e : Enumeration) : Part :=
  let name := if e.isAnonymous then "" else e.info.name
  .written place (.enum e)
    ([.line (indent ++ "// from " ++ className ++ "::" ++ e.info.name),
      .line (indent ++ "enum " ++ name ++ " \x7b")] ++
      valueParts place (indent ++ "  ") (shownValues e) ++ [.line (indent ++ "\x7d;")])

def innerMethodParts (indent className : String) (chain : Overloads) : List Part :=
  (chain.all.filter fun m ↦ m.info.isActive && !m.isTemplate).map fun m ↦
    .written .inside (.method ⟨m, []⟩) [.line (innerMethod indent className m)]

mutual

def innerClassParts (indent : String) : Class → List Part
  | ⟨info, kind, _, members, _, _, _, _⟩ =>
    [.line (indent ++ kind.keyword ++ " " ++ info.name), .line (indent ++ "\x7b")] ++
      (if kind = .ofStruct then [] else [.line (indent ++ "public:")]) ++
      innerMembersParts (indent ++ "  ") info.name members ++ [.line (indent ++ "\x7d;")]

def innerMemberParts (indent className : String) : Member → List Part
  | .method chain =>
    if isShownInside chain.info then innerMethodParts indent className chain else []
  | .variable v =>
    if isShownInside v.info then
      [.written .inside (.member v) [.line (indent ++ v.type ++ " " ++ v.info.name ++ ";")]]
    else []
  | .enum e =>
    if isShownInside e.info && e.hasActiveValues then [memberEnumPart .inside indent className e]
    else []
  | .inner c =>
    if isShownInside c.info then [.written .inside (.ofClass c) (innerClassParts indent c)] else []

def innerMembersParts (indent className : String) : List Member → List Part
  | [] => []
  | m :: members =>
    innerMemberParts indent className m ++ innerMembersParts indent className members

end

theorem linesOf_valueParts (place : Place) (indent : String) (values : List EnumValue) :
    linesOf isGuarded (valueParts place indent values) = valueLines indent values := by
  induction values with
  | nil => rfl
  | cons v rest ih =>
    cases rest with
    | nil => simp [valueParts, valueLines, lines, isGuarded, Target.info]
    | cons next rest =>
      rw [valueParts, valueLines, linesOf, ih]
      · simp [lines, isGuarded, Target.info]
      · simp
      · simp

theorem lines_memberEnumPart (place : Place) (indent className : String) (e : Enumeration) :
    (memberEnumPart place indent className e).lines isGuarded = memberEnum indent className e := by
  have hguarded : isGuarded place (.enum e) = true := by cases place <;> rfl
  simp [memberEnumPart, memberEnum, lines, linesOf, hguarded, linesOf_valueParts, Target.info]

theorem linesOf_innerMethodParts (indent className : String) (chain : Overloads) :
    linesOf isGuarded (innerMethodParts indent className chain) =
      innerMethods indent className chain := by
  simp [innerMethodParts, innerMethods, linesOf_map, lines, isGuarded, Target.info,
    Overloads.info]

mutual

theorem linesOf_innerClassParts (indent : String) : ∀ c : Class,
    linesOf isGuarded (innerClassParts indent c) = innerClass indent c
  | ⟨info, kind, _, members, _, _, _, _⟩ => by
    have hmembers := linesOf_innerMembersParts (indent ++ "  ") info.name members
    cases kind <;> simp [innerClassParts, innerClass, linesOf, lines, hmembers]

theorem linesOf_innerMemberParts (indent className : String) : ∀ m : Member,
    linesOf isGuarded (innerMemberParts indent className m) = innerMember indent className m
  | .method chain => by
    rw [innerMemberParts, innerMember, linesOf_ite, linesOf_innerMethodParts]
  | .variable v => by
    rw [innerMemberParts, innerMember, linesOf_ite]
    simp [lines, isGuarded]
  | .enum e => by
    rw [innerMemberParts, innerMember, linesOf_ite, linesOf_singleton, lines_memberEnumPart]
  | .inner c => by
    have hclass := linesOf_innerClassParts indent c
    rw [innerMemberParts, innerMember, linesOf_ite]
    simp [lines, isGuarded, hclass]

theorem linesOf_innerMembersParts (indent className : String) : ∀ members : List Member,
    linesOf isGuarded (innerMembersParts indent className members) =
      innerMembers indent className members
  | [] => rfl
  | m :: members => by
    rw [innerMembersParts, innerMembers, linesOf_append,
      linesOf_innerMemberParts indent className m,
      linesOf_innerMembersParts indent className members]

end

namespace ClassScope

def memberParts (scope : ClassScope) : InterfaceMember → List Part
  | .inner c => [.written .member (.ofClass c) (innerClassParts "  " c)]
  | .method m =>
    if m.isCtor then
      if scope.isAbstract then []
      else [.written .member (.method ⟨m, []⟩)
        [.line ("  " ++ scope.className ++ scope.source.mapParams m ++ ";")]]
    else if m.isDtor then
      if scope.isAbstract then []
      else [.written .member (.method ⟨m, []⟩)
        [.line ("  " ++ (if m.isVirtual then "virtual " else "") ++ "~" ++ scope.className ++
          "();")]]
    else if scope.interface.isDropped m then []
    else [.written .member (.method ⟨m, []⟩) ((scope.methodLines m).map .line)]
  | .enum e => [memberEnumPart .member "  " scope.className e]
  | .variable v => [.written .member (.member v) ((variableLines v).map .line)]
  | .custom decl => ("  // custom wxRuby extension" :: customLines (Text.lines decl)).map .line

def bodyParts (scope : ClassScope) : List Part :=
  let isStruct := scope.source.kind == .ofStruct
  (if isStruct then [] else [.line "public:"]) ++
    (if scope.isAbstract then [.line ("  virtual ~" ++ scope.className ++ "() =0;")] else []) ++
    scope.interface.publicMembers.flatMap scope.memberParts ++
    (if isStruct || scope.interface.protectedMembers.isEmpty then []
      else [.line "", .line " protected:"] ++
        scope.interface.protectedMembers.flatMap scope.memberParts)

def declarationParts (scope : ClassScope) (base : Option String) : List Part :=
  let announced := match base with
    | some base => [.line ("class " ++ base ++ ";"), .line ""]
    | none => []
  let derived := match base with
    | some base => " : public " ++ base
    | none => ""
  announced ++
    [.line (scope.source.kind.keyword ++ " " ++ scope.className ++ derived), .line "\x7b"] ++
    scope.bodyParts ++ [.line "\x7d;"]

theorem linesOf_memberParts (scope : ClassScope) (member : InterfaceMember) :
    linesOf isGuarded (scope.memberParts member) = scope.memberLines member := by
  cases member with
  | inner c => simp [memberParts, memberLines, lines, isGuarded, Target.info,
      linesOf_innerClassParts]
  | method m =>
    simp only [memberParts, memberLines]
    by_cases hctor : m.isCtor = true
    · cases scope.isAbstract <;>
        simp [hctor, lines, linesOf, isGuarded, Target.info, Overloads.info]
    · by_cases hdtor : m.isDtor = true
      · cases scope.isAbstract <;> simp [hctor, hdtor, lines, linesOf, isGuarded]
      · cases scope.interface.isDropped m <;>
          simp [hctor, hdtor, lines, linesOf, isGuarded, Target.info, Overloads.info]
  | enum e => rw [memberParts, memberLines, linesOf_singleton, lines_memberEnumPart]
  | «variable» v => simp [memberParts, memberLines, lines, isGuarded, Target.info]
  | custom decl => rw [memberParts, memberLines, linesOf_map_line]

theorem linesOf_bodyParts (scope : ClassScope) :
    linesOf isGuarded scope.bodyParts = scope.body := by
  simp only [bodyParts, body, linesOf_append, linesOf_flatMap, linesOf_memberParts]
  cases scope.source.kind == .ofStruct <;> cases scope.isAbstract <;>
    cases scope.interface.protectedMembers.isEmpty <;>
    simp [linesOf, lines, linesOf_flatMap, linesOf_memberParts]

theorem linesOf_declarationParts (scope : ClassScope) (base : Option String) :
    linesOf isGuarded (scope.declarationParts base) = scope.declaration base := by
  cases base <;> simp [declarationParts, declaration, linesOf, lines, linesOf_bodyParts]

end ClassScope

/-! ### Sections of the header -/

def typedefParts (m : Module) : List Part :=
  m.items.flatMap fun
    | .typedef t =>
      if t.info.isActive then [.written .item (.typedef t) [.line (t.definition ++ ";")]] else []
    | _ => []

def classParts (view : View) (registry : InterfaceRegistry) (rules : TypemapRules) (c : Class) :
    Except Error (List Part) := do
  let className := view.policy.className c.name
  let interface ← registry.expect className
  let base ← view.baseClass c
  let scope : ClassScope :=
    { rules, source := c, className, interface, isAbstract := view.isAbstract c }
  return [.line "", .written .item (.ofClass c) (scope.declarationParts base)]

def variableParts (m : Module) : List Part :=
  m.items.flatMap fun
    | .variable v =>
      if v.info.isActive then
        [.written .item (.variable v)
          [.line ("%constant " ++ constantType v ++ " " ++ variableConstant v.info.name ++ " = " ++
            v.info.name ++ ";")]]
      else []
    | _ => []

def valueConstantPart (v : EnumValue) : Part :=
  .written .item (.value v)
    [.line ("%constant int " ++ v.info.name ++ " = " ++ v.info.name ++ ";")]

def enumParts (m : Module) : List Part :=
  m.items.flatMap fun
    | .enum e =>
      if e.info.isActive && e.hasActiveValues then
        [.written .item (.enum e)
          ([.line "", .line ("// from enum " ++ e.info.name)] ++
            (if e.isAnonymous then [] else [.line ("enum " ++ e.info.name ++ ";")]) ++
            (shownValues e).map valueConstantPart)]
      else []
    | _ => []

def constantParts (d : Define) : List Part :=
  match Constants.classify? d with
  | some (.header text) => [.written .item (.define d) [.line text]]
  | _ => []

def defineParts (m : Module) : List Part :=
  let parts := (Constants.activeDefines m).flatMap constantParts
  if parts.isEmpty then [] else .line "" :: parts

def functionParts (rules : TypemapRules) (m : Module) : List Part :=
  m.items.flatMap fun
    | .function chain =>
      (chain.all.filter fun f ↦ f.info.isActive && !f.isTemplate).map fun f ↦
        .written .item (.method ⟨f, []⟩)
          [.line (rules.declaredReturnType f ++ " " ++ f.name ++ f.argsString ++ ";")]
    | _ => []

/-- The lines around the declarations of a header, and those that switch warnings off. -/
def opening (policy : Policy) : List String :=
  let symbol := headerSymbol policy.moduleName
  notice ++ ["", "#ifndef " ++ symbol, "#define " ++ symbol] ++ warnLines policy

def closing (policy : Policy) : List String :=
  ["", "#endif /* " ++ headerSymbol policy.moduleName ++ " */"]

/-- The outline of a header, from those of its classes. -/
def outlineWith (view : View) (rules : TypemapRules) (classes : List (List Part)) : List Part :=
  let part (kind : GenKind) (parts : List Part) : List Part :=
    if view.policy.generates kind then parts else []
  (opening view.policy).map .line ++ part .typedefs (typedefParts view.module) ++
    classes.flatten ++ part .variables (variableParts view.module) ++
    part .enums (enumParts view.module) ++ part .defines (defineParts view.module) ++
    part .functions (functionParts rules view.module) ++ (closing view.policy).map .line

/-- The outline of the header of a module. -/
def outline (view : View) (registry : InterfaceRegistry) (rules : TypemapRules) :
    Except Error (List Part) := do
  let classes ← if view.policy.generates .classes
    then view.generatedClasses.mapM (classParts view registry rules) else pure []
  return outlineWith view rules classes

theorem linesOf_typedefParts (m : Module) :
    linesOf isGuarded (typedefParts m) = typedefLines m := by
  rw [typedefParts, typedefLines, linesOf_flatMap]
  congr 1
  funext item
  cases item <;> simp [linesOf_ite, lines, linesOf, isGuarded, Target.info]

theorem linesOf_variableParts (m : Module) :
    linesOf isGuarded (variableParts m) = variableLines m := by
  rw [variableParts, variableLines, linesOf_flatMap]
  congr 1
  funext item
  cases item <;> simp [linesOf_ite, lines, linesOf, isGuarded, Target.info]

theorem linesOf_enumParts (m : Module) : linesOf isGuarded (enumParts m) = enumLines m := by
  have hvalue (v : EnumValue) : (valueConstantPart v).lines isGuarded = valueConstant v := by
    simp [valueConstantPart, valueConstant, lines, isGuarded, Target.info]
  rw [enumParts, enumLines, linesOf_flatMap]
  congr 1
  funext item
  cases item with
  | enum e =>
    simp only [linesOf_ite, linesOf_singleton]
    cases e.isAnonymous <;> simp [lines, linesOf, linesOf_map, hvalue, isGuarded, Target.info]
  | _ => rfl

theorem linesOf_defineParts (m : Module) : linesOf isGuarded (defineParts m) = defineLines m := by
  unfold defineParts defineLines
  extract_lets parts texts
  have htexts : linesOf isGuarded parts = texts := by
    rw [linesOf_flatMap]
    congr 1
    funext d
    unfold constantParts
    cases Constants.classify? d with
    | none => rfl
    | some emission => cases emission <;> simp [linesOf, lines, isGuarded, Target.info]
  -- Each part has at least the line of its definition.
  have hempty : texts.isEmpty = parts.isEmpty := by
    rw [← htexts]
    cases hparts : parts with
    | nil => rfl
    | cons part rest =>
      obtain ⟨d, -, hd⟩ := List.mem_flatMap.1 (hparts ▸ List.mem_cons_self : part ∈ parts)
      unfold constantParts at hd
      split at hd
      · cases List.mem_singleton.1 hd
        cases honlyFor : d.info.onlyFor <;>
          simp [linesOf, lines, isGuarded, Target.info, honlyFor, Guard.enclose]
      · cases hd
  rw [hempty]
  split
  · rfl
  · rw [linesOf, htexts]
    rfl

theorem linesOf_functionParts (rules : TypemapRules) (m : Module) :
    linesOf isGuarded (functionParts rules m) = functionLines rules m := by
  rw [functionParts, functionLines, linesOf_flatMap]
  congr 1
  funext item
  cases item <;> simp [linesOf_map, lines, linesOf, isGuarded, Target.info, Overloads.info]

theorem classLines_eq (view : View) (registry : InterfaceRegistry) (rules : TypemapRules)
    (c : Class) : classLines view registry rules c =
      (classParts view registry rules c).map (linesOf isGuarded) := by
  rw [classLines, classParts]
  cases registry.expect (view.policy.className c.name) with
  | error e => rfl
  | ok interface =>
    cases view.baseClass c with
    | error e => rfl
    | ok base =>
      simp [bind, Except.bind, pure, Except.pure, Except.map, linesOf, lines, isGuarded,
        Target.info, ClassScope.linesOf_declarationParts]

theorem mapM_map_eq {ε α β γ : Type} (f : α → Except ε β) (g : β → γ) (l : List α) :
    l.mapM (fun a ↦ (f a).map g) = (l.mapM f).map (List.map g) := by
  induction l with
  | nil => rfl
  | cons a l ih =>
    rw [List.mapM_cons, List.mapM_cons, ih]
    cases f a with
    | error e => rfl
    | ok b => cases l.mapM f <;> rfl

theorem linesOf_outlineWith (view : View) (rules : TypemapRules) (classes : List (List Part)) :
    linesOf isGuarded (outlineWith view rules classes) =
      let part (kind : GenKind) (texts : List String) : List String :=
        if view.policy.generates kind then texts else []
      opening view.policy ++ part .typedefs (typedefLines view.module) ++
        (classes.map (linesOf isGuarded)).flatten ++ part .variables (variableLines view.module) ++
        part .enums (enumLines view.module) ++ part .defines (defineLines view.module) ++
        part .functions (functionLines rules view.module) ++ closing view.policy := by
  simp only [outlineWith, linesOf_append, linesOf_map_line, linesOf_ite, linesOf_flatten,
    linesOf_typedefParts, linesOf_variableParts, linesOf_enumParts, linesOf_defineParts,
    linesOf_functionParts]

/-- A header is the text of its outline. -/
theorem header_eq (view : View) (registry : InterfaceRegistry) (rules : TypemapRules) :
    header view registry rules =
      (outline view registry rules).map fun parts ↦ Text.unlines (linesOf isGuarded parts) := by
  have hclasses : view.generatedClasses.mapM (classLines view registry rules) =
      (view.generatedClasses.mapM (classParts view registry rules)).map
        (List.map (linesOf isGuarded)) := by
    rw [← mapM_map_eq]
    exact congrArg (view.generatedClasses.mapM ·) (funext (classLines_eq view registry rules))
  have htext (classes : List (List Part)) :=
    congrArg (fun texts ↦ (.ok (Text.unlines texts) : Except Error String))
      (linesOf_outlineWith view rules classes).symm
  rw [header, outline, hclasses]
  split
  · cases view.generatedClasses.mapM (classParts view registry rules) with
    | error e => rfl
    | ok classes => exact htext classes
  · exact htext []

end Bindery.Emit
