import Bindery.Decl.Class
import Bindery.Json.Shape

/-!
Declarations as a declaration file writes them, before they are checked. A file is a record with a
list `items`; each item, and each member of a class, says its `kind`.
-/

set_option autoImplicit false
set_option relaxedAutoImplicit false

namespace Bindery

/-- The fields that every declaration has. -/
structure CommonEntry where
  name : String
  brief : Option String := none
  detailed : Option String := none
  protection : Option String := none
  ignored : Bool := false
  deprecated : Bool := false
  onlyFor : Option Guard := none

structure MethodEntry where
  common : CommonEntry
  type : Option String := none
  params : List Param := []
  isVirtual : Bool := false
  isPureVirtual : Bool := false
  isOverride : Bool := false
  isStatic : Bool := false
  isConst : Bool := false
  isTemplate : Bool := false

structure ValueEntry where
  common : CommonEntry
  value : Option String := none

structure EnumEntry where
  common : CommonEntry
  values : List ValueEntry := []

structure VariableEntry where
  common : CommonEntry
  type : String
  value : Option String := none
  argsString : String := ""
  isStatic : Bool := false

structure TypedefEntry where
  common : CommonEntry
  type : String

structure DefineEntry where
  common : CommonEntry
  value : Option String := none
  isFunctionLike : Bool := false

mutual

structure ClassEntry where
  common : CommonEntry
  isStruct : Bool := false
  bases : List Base := []
  isAbstract : Bool := false
  isTemplate : Bool := false
  includes : List String := []
  members : List MemberEntry := []

inductive MemberEntry where
  | method (m : MethodEntry)
  | variable (v : VariableEntry)
  | enum (e : EnumEntry)
  | inner (c : ClassEntry)

end

inductive ItemEntry
  | ofClass (c : ClassEntry)
  | function (m : MethodEntry)
  | enum (e : EnumEntry)
  | variable (v : VariableEntry)
  | typedef (t : TypedefEntry)
  | define (d : DefineEntry)

structure DeclFile where
  items : List ItemEntry

/-- One platform as a text, or a list of platforms, which stays a list whatever its length. -/
def Guard.ofJson? : Json → Option Guard
  | .str platform => some (.single platform)
  | json => (Shape.list Shape.text json).map .anyOf

namespace CommonEntry

def fields : List String :=
  ["name", "brief", "detailed", "protection", "ignored", "deprecated", "only_for"]

def ofMembers? (members : Shape.Members) : Option CommonEntry := do
  return {
    name := ← Shape.needed members "name" Shape.text
    brief := ← Shape.optional members "brief" Shape.text
    detailed := ← Shape.optional members "detailed" Shape.text
    protection := ← Shape.optional members "protection" Shape.text
    ignored := ← Shape.given members "ignored" false Shape.flag
    deprecated := ← Shape.given members "deprecated" false Shape.flag
    onlyFor := ← Shape.optional members "only_for" Guard.ofJson? }

end CommonEntry

/-- The fields of a declaration, of which `own` belong to its kind. -/
def Shape.entry (own : List String) (json : Json) : Option Shape.Members :=
  Shape.named (CommonEntry.fields ++ own) json

def Param.ofJson? (json : Json) : Option Param := do
  let members ← Shape.record ["name", "type", "default", "array"] json
  return {
    name := ← Shape.given members "name" "" Shape.text
    type := ← Shape.needed members "type" Shape.text
    default := ← Shape.optional members "default" Shape.text
    array := ← Shape.given members "array" false Shape.flag }

def ParamMapping.ofJson? (json : Json) : Option ParamMapping := do
  let members ← Shape.record ["from", "to"] json
  return {
    source := ← Shape.needed members "from" Shape.text
    target := ← Shape.needed members "to" Shape.text }

def MethodEntry.ofJson? (json : Json) : Option MethodEntry := do
  let members ← Shape.entry
    ["type", "params", "virtual", "pure_virtual", "override", "static", "const", "template"] json
  return {
    common := ← CommonEntry.ofMembers? members
    type := ← Shape.optional members "type" Shape.text
    params := ← Shape.given members "params" [] (Shape.list Param.ofJson?)
    isVirtual := ← Shape.given members "virtual" false Shape.flag
    isPureVirtual := ← Shape.given members "pure_virtual" false Shape.flag
    isOverride := ← Shape.given members "override" false Shape.flag
    isStatic := ← Shape.given members "static" false Shape.flag
    isConst := ← Shape.given members "const" false Shape.flag
    isTemplate := ← Shape.given members "template" false Shape.flag }

def ValueEntry.ofJson? (json : Json) : Option ValueEntry := do
  let members ← Shape.entry ["value"] json
  return {
    common := ← CommonEntry.ofMembers? members
    value := ← Shape.optional members "value" Shape.text }

def EnumEntry.ofJson? (json : Json) : Option EnumEntry := do
  let members ← Shape.entry ["values"] json
  return {
    common := ← CommonEntry.ofMembers? members
    values := ← Shape.given members "values" [] (Shape.list ValueEntry.ofJson?) }

def VariableEntry.ofJson? (json : Json) : Option VariableEntry := do
  let members ← Shape.entry ["type", "value", "args_string", "static"] json
  return {
    common := ← CommonEntry.ofMembers? members
    type := ← Shape.needed members "type" Shape.text
    value := ← Shape.optional members "value" Shape.text
    argsString := ← Shape.given members "args_string" "" Shape.text
    isStatic := ← Shape.given members "static" false Shape.flag }

def TypedefEntry.ofJson? (json : Json) : Option TypedefEntry := do
  let members ← Shape.entry ["type"] json
  return {
    common := ← CommonEntry.ofMembers? members
    type := ← Shape.needed members "type" Shape.text }

def DefineEntry.ofJson? (json : Json) : Option DefineEntry := do
  let members ← Shape.entry ["value", "macro"] json
  return {
    common := ← CommonEntry.ofMembers? members
    value := ← Shape.optional members "value" Shape.text
    isFunctionLike := ← Shape.given members "macro" false Shape.flag }

mutual

/-- A base is a record of its name and, unless it is at the top, its own bases. -/
def Base.ofJson? : Json → Option Base
  | .obj members => do
    guard (Shape.isUnique ["name", "bases"] members)
    let name ← Shape.needed members "name" Shape.text
    let bases ← Base.inMembers? members
    return ⟨name, bases⟩
  | .arr [.str name] => some ⟨name, []⟩
  | .arr [.str name, bases] => (Base.listOfJson? bases).map fun bases ↦ ⟨name, bases⟩
  | _ => none

/-- The bases among the fields of a record. -/
def Base.inMembers? : List (String × Json) → Option (List Base)
  | [] => some []
  | (name, value) :: members =>
    if name == "bases" then Base.listOfJson? value else Base.inMembers? members

def Base.listOfJson? : Json → Option (List Base)
  | .arr elements => Base.eachOfJson? elements
  | _ => none

def Base.eachOfJson? : List Json → Option (List Base)
  | [] => some []
  | json :: rest => do
    let base ← Base.ofJson? json
    let bases ← Base.eachOfJson? rest
    return base :: bases

end

def MemberEntry.kinds : List String := ["method", "variable", "enum", "class"]

/-- A class from its fields, of which the members are read already. -/
def ClassEntry.ofFields? (fields : Shape.Members) (members : Option (List MemberEntry)) :
    Option ClassEntry := do
  let known := CommonEntry.fields ++
    ["struct", "bases", "abstract", "template", "includes", "members"]
  guard (Shape.isUnique known fields)
  return {
    common := ← CommonEntry.ofMembers? fields
    isStruct := ← Shape.given fields "struct" false Shape.flag
    bases := ← Shape.given fields "bases" [] Base.listOfJson?
    isAbstract := ← Shape.given fields "abstract" false Shape.flag
    isTemplate := ← Shape.given fields "template" false Shape.flag
    includes := ← Shape.given fields "includes" [] (Shape.list Shape.text)
    members := ← members }

mutual

/-- A member, whose kind is given as a text or by its position among the kinds. -/
def MemberEntry.ofJson? : Json → Option MemberEntry
  | .obj fields => do
    guard (Shape.isUnique ["kind"] fields)
    let kind ← Shape.needed fields "kind" (Shape.indexedChoice MemberEntry.kinds)
    match kind with
    | "method" => return .method (← MethodEntry.ofJson? (.obj fields))
    | "variable" => return .variable (← VariableEntry.ofJson? (.obj fields))
    | "enum" => return .enum (← EnumEntry.ofJson? (.obj fields))
    | _ => return .inner (← ClassEntry.ofFields? fields (MemberEntry.inFields? fields))
  | _ => none

/-- The members among the fields of a class. -/
def MemberEntry.inFields? : List (String × Json) → Option (List MemberEntry)
  | [] => some []
  | (name, value) :: fields =>
    if name == "members" then MemberEntry.listOfJson? value else MemberEntry.inFields? fields

def MemberEntry.listOfJson? : Json → Option (List MemberEntry)
  | .arr elements => MemberEntry.eachOfJson? elements
  | _ => none

def MemberEntry.eachOfJson? : List Json → Option (List MemberEntry)
  | [] => some []
  | json :: rest => do
    let member ← MemberEntry.ofJson? json
    let members ← MemberEntry.eachOfJson? rest
    return member :: members

end

def ClassEntry.ofJson? : Json → Option ClassEntry
  | .obj fields => ClassEntry.ofFields? fields (MemberEntry.inFields? fields)
  | _ => none

def ItemEntry.kinds : List String :=
  ["class", "function", "enum", "variable", "typedef", "define"]

def ItemEntry.ofJson? (json : Json) : Option ItemEntry := do
  let members ← Shape.named ["kind"] json
  let kind ← Shape.needed members "kind" (Shape.choice kinds)
  match kind with
  | "class" => return .ofClass (← ClassEntry.ofJson? json)
  | "function" => return .function (← MethodEntry.ofJson? json)
  | "enum" => return .enum (← EnumEntry.ofJson? json)
  | "variable" => return .variable (← VariableEntry.ofJson? json)
  | "typedef" => return .typedef (← TypedefEntry.ofJson? json)
  | _ => return .define (← DefineEntry.ofJson? json)

def DeclFile.fields : List String := ["items"]

def DeclFile.ofJson? (json : Json) : Option DeclFile := do
  let members ← Shape.record fields json
  return ⟨← Shape.given members "items" [] (Shape.list ItemEntry.ofJson?)⟩

end Bindery
