import Bindery.Json.Shape
import Bindery.Policy.Edit
import Bindery.Source.Entry

/-!
Reading edits. An edit is a record whose field `op` names it, or a list of that name and the other
fields.
-/

set_option autoImplicit false
set_option relaxedAutoImplicit false

namespace Bindery

namespace Shape

/-- A member of an enumeration by its name, as a text or as the only name of a record that holds
nothing. -/
def member {α : Type} (all : List α) (name : α → String) : Json → Option α
  | .str s => all.find? fun a ↦ name a == s
  | .obj [(s, .null)] => all.find? fun a ↦ name a == s
  | _ => none

/-- Inside an edit, an empty record holds nothing too. -/
def innerMember {α : Type} (all : List α) (name : α → String) : Json → Option α
  | .obj [(s, .obj [])] => all.find? fun a ↦ name a == s
  | json => member all name json

/-- The name that a record gives itself in a field, and the record of the other fields. -/
def tagged (tag : String) : Json → Option (String × Json)
  | .obj members => do
    guard (isUnique [tag] members)
    let name ← needed members tag text
    return (name, .obj members)
  | .arr (.str name :: fields) => some (name, .arr fields)
  | _ => none

end Shape

def Protection.ofJson? : Json → Option Protection :=
  Shape.innerMember [.publicAccess, .protectedAccess] Protection.keyword

namespace Edit

def names : Json → Option (List String) := Shape.list Shape.text

/-- An edit of one text. -/
def ofText? (field : String) (make : String → Edit) (json : Json) : Option Edit := do
  let members ← Shape.record [field] json
  return make (← Shape.needed members field Shape.text)

/-- An edit of two texts. -/
def ofTexts? (first second : String) (make : String → String → Edit) (json : Json) :
    Option Edit := do
  let members ← Shape.record [first, second] json
  let a ← Shape.needed members first Shape.text
  let b ← Shape.needed members second Shape.text
  return make a b

/-- An edit of a list of names. -/
def ofNames? (field : String) (make : List String → Edit) (json : Json) : Option Edit := do
  let members ← Shape.record [field] json
  return make (← Shape.needed members field names)

/-- An edit of a text and a list of names. -/
def ofTextAndNames? (first second : String) (make : String → List String → Edit) (json : Json) :
    Option Edit := do
  let members ← Shape.record [first, second] json
  let a ← Shape.needed members first Shape.text
  let b ← Shape.needed members second names
  return make a b

/-- An edit of a list of names and a choice that is usually made. -/
def ofNamesAndFlag? (field flag : String) (make : List String → Bool → Edit) (json : Json) :
    Option Edit := do
  let members ← Shape.record [field, flag] json
  let a ← Shape.needed members field names
  let b ← Shape.given members flag true Shape.flag
  return make a b

def onlyFor? (json : Json) : Option Edit := do
  let members ← Shape.record ["platform", "names"] json
  let platform ← Shape.needed members "platform" Guard.ofJson?
  return .onlyFor platform (← Shape.needed members "names" names)

def disown? (json : Json) : Option Edit := do
  let members ← Shape.record ["decl", "disown"] json
  let decl ← Shape.needed members "decl" Shape.text
  return .disown decl (← Shape.given members "disown" true Shape.flag)

def extendInterface? (json : Json) : Option Edit := do
  let members ← Shape.record ["class", "visibility", "decls"] json
  let className ← Shape.needed members "class" Shape.text
  let visibility ← Shape.given members "visibility" .publicAccess Protection.ofJson?
  return .extendInterface className visibility (← Shape.needed members "decls" names)

def gc? (json : Json) : Option Edit := do
  let members ← Shape.record ["kind", "classes"] json
  let kind ← Shape.needed members "kind" (Shape.innerMember GcType.all GcType.name)
  return .gc kind (← Shape.given members "classes" [] names)

/-- The edit without fields. A record may hold others, a list may not. -/
def disableProxies? : Json → Option Edit
  | .arr (_ :: _) => none
  | _ => some .disableProxies

def map? (json : Json) : Option Edit := do
  let members ← Shape.record ["typemap"] json
  return .map (← Shape.needed members "typemap" Typemap.ofJson?)

def mapApply? (json : Json) : Option Edit := do
  return .mapApply (← MapApply.ofJson? json)

def paramMapping? (json : Json) : Option Edit := do
  let members ← Shape.record ["class", "from", "to"] json
  let className ← Shape.needed members "class" Shape.text
  let source ← Shape.needed members "from" Shape.text
  return .paramMapping className { source, target := ← Shape.needed members "to" Shape.text }

def swigImport? (json : Json) : Option Edit := do
  let members ← Shape.record ["file", "append"] json
  let file ← Shape.needed members "file" Shape.text
  return .swigImport file (← Shape.given members "append" false Shape.flag)

def code? (json : Json) : Option Edit := do
  let members ← Shape.record ["section", "code"] json
  let part ← Shape.needed members "section" (Shape.innerMember CodeSection.all CodeSection.name)
  return .code part (← Shape.needed members "code" Shape.text)

def warnFilter? (json : Json) : Option Edit := do
  let members ← Shape.record ["warning", "decls"] json
  let warning ← Shape.needed members "warning" Shape.word32
  return .warnFilter warning (← Shape.needed members "decls" names)

def doNotGenerate? (json : Json) : Option Edit := do
  let members ← Shape.record ["kinds"] json
  let kind := Shape.innerMember GenKind.all GenKind.name
  return .doNotGenerate (← Shape.needed members "kinds" (Shape.list kind))

/-- The edits by their names. -/
def readers : List (String × (Json → Option Edit)) :=
  [("ignore", ofNamesAndFlag? "names" "ignore_doc" ignore),
    ("regard", ofNamesAndFlag? "names" "regard_doc" regard),
    ("only_for", onlyFor?),
    ("rename", ofTextAndNames? "to" "from" rename),
    ("rename_for_ruby", ofTextAndNames? "to" "from" renameForRuby),
    ("fold_bases", ofTextAndNames? "class" "bases" foldBases),
    ("ignore_bases", ofTextAndNames? "class" "bases" ignoreBases),
    ("override_base", ofTexts? "class" "base" overrideBase),
    ("override_inheritance_chain", ofTextAndNames? "class" "chain" overrideInheritanceChain),
    ("disown", disown?),
    ("new_object", ofText? "decl" newObject),
    ("extend_code", ofTexts? "class" "code" extendCode),
    ("extend_interface", extendInterface?),
    ("make_abstract", ofText? "class" makeAbstract),
    ("make_mixin", ofText? "class" makeMixin),
    ("gc", gc?),
    ("no_proxy", ofNames? "names" noProxy),
    ("force_proxy", ofText? "class" forceProxy),
    ("disable_proxies", disableProxies?),
    ("map", map?),
    ("map_apply", mapApply?),
    ("param_mapping", paramMapping?),
    ("include", ofText? "header" includeHeader),
    ("swig_include", ofText? "file" swigInclude),
    ("swig_import", swigImport?),
    ("code", code?),
    ("warn_filter", warnFilter?),
    ("do_not_generate", doNotGenerate?),
    ("template_as_class", ofTexts? "template" "class" templateAsClass),
    ("items", ofNames? "items" setItems),
    ("add_items", ofNames? "items" addItems)]

def ofJson? (json : Json) : Option Edit := do
  let (name, fields) ← Shape.tagged "op" json
  let read ← readers.lookup name
  read fields

end Edit

end Bindery
