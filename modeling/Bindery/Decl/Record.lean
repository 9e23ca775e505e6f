import Bindery.Decl.Module
import Bindery.Json.Basic

/-!
Declarations as records of the data format. Every field is written, one without a value as `null`,
and an item or a member is tagged with its kind.
-/

set_option autoImplicit false
set_option relaxedAutoImplicit false

namespace Bindery

def Guard.toJson : Guard → Json
  | .single platform => .str platform
  | .anyOf platforms => .texts platforms

def Info.toJson (info : Info) : Json := .obj [
  ("name", .str info.name), ("brief_doc", .optText info.briefDoc),
  ("detailed_doc", .optText info.detailedDoc), ("protection", .str info.protection.keyword),
  ("ignored", .bool info.ignored), ("ignore_doc", .bool info.ignoreDoc),
  ("deprecated", .bool info.deprecated), ("only_for", (info.onlyFor.map Guard.toJson).getD .null)]

def Param.toJson (p : Param) : Json := .obj [
  ("name", .str p.name), ("ty", .str p.type), ("default", .optText p.default),
  ("array", .bool p.array)]

/-- A method that heads some overloads. -/
def Method.toJson (m : Method) (overloads : List Json) : Json := .obj [
  ("info", m.info.toJson), ("class_name", .optText m.className),
  ("return_type", .optText m.returnType), ("params", .arr (m.params.map Param.toJson)),
  ("definition", .str m.definition), ("is_virtual", .bool m.isVirtual),
  ("is_pure_virtual", .bool m.isPureVirtual), ("is_override", .bool m.isOverride),
  ("is_static", .bool m.isStatic), ("is_const", .bool m.isConst), ("is_ctor", .bool m.isCtor),
  ("is_dtor", .bool m.isDtor), ("is_operator", .bool m.isOperator),
  ("is_template", .bool m.isTemplate), ("overloads", .arr overloads)]

def Overloads.toJson (chain : Overloads) : Json :=
  chain.first.toJson (chain.rest.map fun m ↦ m.toJson [])

def EnumValue.toJson (v : EnumValue) : Json :=
  .obj [("info", v.info.toJson), ("value", .optText v.value)]

def Enumeration.toJson (e : Enumeration) : Json := .obj [
  ("info", e.info.toJson), ("is_anonymous", .bool e.isAnonymous),
  ("values", .arr (e.values.map EnumValue.toJson))]

def GlobalVariable.toJson (v : GlobalVariable) : Json := .obj [
  ("info", v.info.toJson), ("ty", .str v.type), ("definition", .str v.definition),
  ("args_string", .str v.argsString), ("value", .optText v.value)]

def MemberVariable.toJson (v : MemberVariable) : Json := .obj [
  ("info", v.info.toJson), ("ty", .str v.type), ("definition", .str v.definition),
  ("is_static", .bool v.isStatic)]

def TypeDefinition.toJson (t : TypeDefinition) : Json := .obj [
  ("info", t.info.toJson), ("ty", .str t.type), ("definition", .str t.definition)]

def Define.toJson (d : Define) : Json := .obj [
  ("info", d.info.toJson), ("value", .optText d.value), ("is_macro", .bool d.isFunctionLike)]

def ParamMapping.toJson (mapping : ParamMapping) : Json :=
  .obj [("from", .str mapping.source), ("to", .str mapping.target)]

mutual

def Base.toJson : Base → Json
  | ⟨name, bases⟩ => .obj [("name", .str name), ("bases", .arr (Base.listJson bases))]

def Base.listJson : List Base → List Json
  | [] => []
  | base :: bases => base.toJson :: Base.listJson bases

end

mutual

def Class.toJson : Class → Json
  | ⟨info, kind, bases, members, isAbstract, isTemplate, includes, mappings⟩ => .obj [
    ("info", info.toJson), ("kind", .str kind.keyword), ("bases", .arr (Base.listJson bases)),
    ("members", .arr (Member.listJson members)), ("is_abstract", .bool isAbstract),
    ("is_template", .bool isTemplate), ("includes", .texts includes),
    ("param_mappings", .arr (mappings.map ParamMapping.toJson))]

def Member.toJson : Member → Json
  | .method chain => .tag "Method" chain.toJson
  | .variable v => .tag "Variable" v.toJson
  | .enum e => .tag "Enum" e.toJson
  | .inner c => .tag "Class" c.toJson

def Member.listJson : List Member → List Json
  | [] => []
  | member :: members => member.toJson :: Member.listJson members

end

def Item.toJson : Item → Json
  | .ofClass c => .tag "Class" c.toJson
  | .function chain => .tag "Function" chain.toJson
  | .enum e => .tag "Enum" e.toJson
  | .variable v => .tag "Variable" v.toJson
  | .typedef t => .tag "Typedef" t.toJson
  | .define d => .tag "Define" d.toJson

def Module.toJson (m : Module) : Json := .obj [
  ("name", .str m.name), ("item_names", .texts m.itemNames),
  ("items", .arr (m.items.map Item.toJson))]

end Bindery
