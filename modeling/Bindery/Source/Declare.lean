import Bindery.Decl.Module
import Bindery.Error
import Bindery.Json.Reader
import Bindery.Source.Entry

/-!
Turning the entries of a declaration file into declarations. Only `public` and `protected` are
accepted as protection. Protected declarations are left out until a policy regards them, and blank
documentation counts as none.
-/

set_option autoImplicit false
set_option relaxedAutoImplicit false

namespace Bindery

/-- A name qualified by the scope it is declared in. -/
def qualifiedName (scope : Option String) (name : String) : String :=
  match scope with
  | some scope => scope ++ "::" ++ name
  | none => name

def Protection.parse (item raw : String) : Except Error Protection :=
  match Protection.ofKeyword? raw with
  | some protection => .ok protection
  | none => .error (.extract item (.invalidProtection raw))

def CommonEntry.toInfo (entry : CommonEntry) (scope : Option String) : Except Error Info := do
  let protection ← match entry.protection with
    | some raw => Protection.parse (qualifiedName scope entry.name) raw
    | none => pure .publicAccess
  return {
    name := entry.name
    briefDoc := entry.brief.filter (!Text.isBlankText ·)
    detailedDoc := entry.detailed.filter (!Text.isBlankText ·)
    protection
    ignored := entry.ignored || protection == .protectedAccess
    deprecated := entry.deprecated
    onlyFor := entry.onlyFor }

/-- A method named like its class and declared without a type is a constructor, and a name that
starts with `~` is a destructor's. -/
def MethodEntry.toMethod (entry : MethodEntry) (scope : Option String) : Except Error Method := do
  let info ← entry.common.toInfo scope
  let isCtor := scope == some info.name && entry.type.isNone
  let isDtor := Text.startsWith "~" info.name
  return {
    info
    className := scope
    returnType := if isCtor || isDtor then none else some (entry.type.getD "void")
    params := entry.params
    definition := qualifiedName scope info.name
    isVirtual := entry.isVirtual || entry.isPureVirtual
    isPureVirtual := entry.isPureVirtual
    isOverride := entry.isOverride
    isStatic := entry.isStatic
    isConst := entry.isConst
    isCtor
    isDtor
    isOperator := Text.startsWith "operator" info.name
    isTemplate := entry.isTemplate }

def ValueEntry.toValue (entry : ValueEntry) (scope : Option String) : Except Error EnumValue := do
  return { info := ← entry.common.toInfo scope, value := entry.value }

/-- The values of an enumeration are declared in the scope of the enumeration. -/
def EnumEntry.toEnum (entry : EnumEntry) (scope : Option String) : Except Error Enumeration := do
  let info ← entry.common.toInfo scope
  let values ← entry.values.mapM (·.toValue scope)
  return { info, isAnonymous := Enumeration.isAnonymousName info.name, values }

def VariableEntry.toMember (entry : VariableEntry) (className : String) :
    Except Error MemberVariable := do
  let info ← entry.common.toInfo (some className)
  return {
    info
    type := entry.type
    definition := MemberVariable.definitionIn className info.name entry.type
    isStatic := entry.isStatic }

def VariableEntry.toGlobal (entry : VariableEntry) : Except Error GlobalVariable := do
  let info ← entry.common.toInfo none
  return { GlobalVariable.named info.name entry.type with
    info, argsString := entry.argsString, value := entry.value }

mutual

def ClassEntry.toClass (scope : Option String) : ClassEntry → Except Error Class
  | ⟨common, isStruct, bases, isAbstract, isTemplate, includes, members⟩ => do
    let info ← common.toInfo scope
    let members ← MemberEntry.toMembers info.name members
    let kind := if isStruct then ClassKind.ofStruct else ClassKind.ofClass
    let blank : Class := { info, kind, bases, isAbstract, isTemplate, includes }
    return members.foldl Class.addMember blank

def MemberEntry.toMembers (className : String) : List MemberEntry → Except Error (List Member)
  | [] => return []
  | entry :: entries => do
    let member ← MemberEntry.toMember className entry
    let members ← MemberEntry.toMembers className entries
    return member :: members

def MemberEntry.toMember (className : String) : MemberEntry → Except Error Member
  | .method m => do return .method ⟨← m.toMethod (some className), []⟩
  | .variable v => do return .variable (← v.toMember className)
  | .enum e => do return .enum (← e.toEnum (some className))
  | .inner c => do return .inner (← c.toClass (some className))

end

def ItemEntry.toItem : ItemEntry → Except Error Item
  | .ofClass c => do return .ofClass (← c.toClass none)
  | .function m => do return .function ⟨← m.toMethod none, []⟩
  | .enum e => do return .enum (← e.toEnum none)
  | .variable v => do return .variable (← v.toGlobal)
  | .typedef t => do
    let info ← t.common.toInfo none
    return .typedef { TypeDefinition.named info.name t.type with info }
  | .define d => do
    let info ← d.common.toInfo none
    return .define { info, value := d.value, isFunctionLike := d.isFunctionLike }

def DeclFile.toItems (file : DeclFile) : Except Error (List Item) :=
  file.items.mapM ItemEntry.toItem

/-- Reads a declaration file. Nothing looks at the fields of the file that it does not have. -/
def DeclFile.parse (text : String) : Except Error DeclFile :=
  match (Json.readKeeping? DeclFile.fields.contains text).bind DeclFile.ofJson? with
  | some file => .ok file
  | none => .error .malformedInput

end Bindery
