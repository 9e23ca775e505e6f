import Bindery.Decl.Module
import Bindery.Decl.Query

/-!
Finding declarations by address. Resolving an address gives a location, the way to the declaration
by positions; a location can then be read, or changed in place. The values of an enumeration are
also found in the scope that holds the enumeration.
-/

set_option autoImplicit false
set_option relaxedAutoImplicit false

namespace Bindery

/-- The way from a declaration down to one inside it. -/
inductive Way
  | here
  /-- To a member of a class. -/
  | member (index : Nat) (way : Way)
  /-- To a value of an enumeration. -/
  | value (index : Nat)
  deriving Repr, DecidableEq

/-- The place of a declaration in a module. -/
structure Location where
  item : Nat
  way : Way
  /-- The selected overload, counted from the first. -/
  overload : Option Nat := none
  deriving Repr, DecidableEq

def Location.isOverload (location : Location) : Bool := location.overload.isSome

/-- A declaration that an address resolves to. -/
inductive Target
  | ofClass (c : Class)
  | method (chain : Overloads)
  | enum (e : Enumeration)
  | value (v : EnumValue)
  | variable (v : GlobalVariable)
  | member (v : MemberVariable)
  | typedef (t : TypeDefinition)
  | define (d : Define)

namespace Target

def info : Target → Info
  | .ofClass c => c.info
  | .method chain => chain.info
  | .enum e => e.info
  | .value v => v.info
  | .variable v => v.info
  | .member v => v.info
  | .typedef t => t.info
  | .define d => d.info

def class? : Target → Option Class
  | .ofClass c => some c
  | _ => none

def method? : Target → Option Overloads
  | .method chain => some chain
  | _ => none

end Target

def Item.target : Item → Target
  | .ofClass c => .ofClass c
  | .function chain => .method chain
  | .enum e => .enum e
  | .variable v => .variable v
  | .typedef t => .typedef t
  | .define d => .define d

def Member.target : Member → Target
  | .method chain => .method chain
  | .variable v => .member v
  | .enum e => .enum e
  | .inner c => .ofClass c

def Enumeration.valuePosition? (e : Enumeration) (name : String) : Option Nat :=
  e.values.findIdx? (·.info.name == name)

/-- The first enumeration of a list that has a value of a name, with the positions of both. -/
def findValue? {α : Type} (enum? : α → Option Enumeration) (name : String) :
    List α → Option (Nat × Nat)
  | [] => none
  | x :: xs =>
    match (enum? x).bind (·.valuePosition? name) with
    | some value => some (0, value)
    | none => (findValue? enum? name xs).map fun found ↦ (found.1 + 1, found.2)

def Member.enum? : Member → Option Enumeration
  | .enum e => some e
  | _ => none

def Item.enum? : Item → Option Enumeration
  | .enum e => some e
  | _ => none

/-- The way from a declaration along the names of a path, with what is found there. -/
def Target.descend? (target : Target) : List String → Option (Way × Target)
  | [] => some (.here, target)
  | name :: names =>
    match target with
    | .ofClass c =>
      match c.members.findIdx? (·.name == name) with
      | some index => do
        let member ← c.members[index]?
        let (way, found) ← member.target.descend? names
        return (.member index way, found)
      | none =>
        if names.isEmpty then do
          let (index, slot) ← findValue? Member.enum? name c.members
          let e ← (c.members[index]?).bind Member.enum?
          let found ← e.values[slot]?
          return (.member index (.value slot), .value found)
        else none
    | .enum e =>
      if names.isEmpty then do
        let slot ← e.valuePosition? name
        let found ← e.values[slot]?
        return (.value slot, .value found)
      else none
    | _ => none

/-- The way to what an address names in the module scope. -/
def Module.locatePath? (m : Module) : List String → Option (Nat × Way × Target)
  | [] => none
  | first :: rest =>
    match m.items.findIdx? (·.name == first) with
    | some index => do
      let item ← m.items[index]?
      let (way, found) ← item.target.descend? rest
      return (index, way, found)
    | none =>
      if rest.isEmpty then do
        let (index, slot) ← findValue? Item.enum? first m.items
        let e ← (m.items[index]?).bind Item.enum?
        let found ← e.values[slot]?
        return (index, .value slot, .value found)
      else none

/-- Resolves a parsed address. Argument types select among the overloads of a method, and nothing
else can have them. A value in the module scope is found whatever argument types are given. -/
def Module.resolve? (m : Module) (query : Query) : Option Location := do
  let (item, way, found) ← m.locatePath? query.path
  match query.args, found with
  | none, _ => return { item, way }
  | some _, .method chain =>
    let overload ← chain.all.findIdx? query.selects
    return { item, way, overload := some overload }
  | some _, .value _ => if query.path.length == 1 then return { item, way } else none
  | some _, _ => none

def Module.locate? (m : Module) (fullName : String) : Option Location :=
  m.resolve? (Query.parse fullName)

/-- What stands at the end of a way. -/
def Target.follow? (target : Target) : Way → Option Target
  | .here => some target
  | .member index way =>
    match target with
    | .ofClass c => do
      let member ← c.members[index]?
      member.target.follow? way
    | _ => none
  | .value index =>
    match target with
    | .enum e => (e.values[index]?).map .value
    | _ => none

/-- The declaration at a location. A later overload stands alone, the first one has its overloads
with it. -/
def Module.get? (m : Module) (location : Location) : Option Target := do
  let item ← m.items[location.item]?
  let found ← item.target.follow? location.way
  match found, location.overload with
  | .method chain, some 0 => return .method chain
  | .method chain, some (n + 1) => (chain.rest[n]?).map fun m ↦ .method ⟨m, []⟩
  | found, _ => return found

def Module.find? (m : Module) (fullName : String) : Option Target :=
  (m.locate? fullName).bind m.get?

/-- The overloads of a method that a change is made to. -/
inductive Extent
  | wholeChain
  | overload (index : Nat)
  deriving Repr, DecidableEq

def Method.mapInfo (f : Info → Info) (m : Method) : Method := { m with info := f m.info }

def Overloads.mapInfo (f : Info → Info) (extent : Extent) (chain : Overloads) : Overloads :=
  match extent with
  | .wholeChain => chain.map (Method.mapInfo f)
  | .overload index => chain.modify index (Method.mapInfo f)

def Enumeration.mapInfo (f : Info → Info) (way : Way) (e : Enumeration) : Enumeration :=
  match way with
  | .here => { e with info := f e.info }
  | .value index =>
    { e with values := e.values.modify index fun v ↦ { v with info := f v.info } }
  | .member _ _ => e

mutual

/-- Changes the attributes at the end of a way. -/
def Member.mapInfo (f : Info → Info) (extent : Extent) (way : Way) : Member → Member
  | .method chain => .method (chain.mapInfo f extent)
  | .variable v => .variable { v with info := f v.info }
  | .enum e => .enum (e.mapInfo f way)
  | .inner c => .inner (c.mapInfo f extent way)

def Class.mapInfo (f : Info → Info) (extent : Extent) (way : Way) : Class → Class
  | ⟨info, kind, bases, members, isAbstract, isTemplate, includes, paramMappings⟩ =>
    match way with
    | .here => ⟨f info, kind, bases, members, isAbstract, isTemplate, includes, paramMappings⟩
    | .member index way =>
      ⟨info, kind, bases, Member.mapInfoAt f extent way index members, isAbstract, isTemplate,
        includes, paramMappings⟩
    | .value _ => ⟨info, kind, bases, members, isAbstract, isTemplate, includes, paramMappings⟩

def Member.mapInfoAt (f : Info → Info) (extent : Extent) (way : Way) (index : Nat) :
    List Member → List Member
  | [] => []
  | member :: members =>
    match index with
    | 0 => member.mapInfo f extent way :: members
    | n + 1 => member :: Member.mapInfoAt f extent way n members

end

def Item.mapInfo (f : Info → Info) (extent : Extent) (way : Way) : Item → Item
  | .ofClass c => .ofClass (c.mapInfo f extent way)
  | .function chain => .function (chain.mapInfo f extent)
  | .enum e => .enum (e.mapInfo f way)
  | .variable v => .variable { v with info := f v.info }
  | .typedef t => .typedef { t with info := f t.info }
  | .define d => .define { d with info := f d.info }

/-- Changes the attributes of the declaration at a location. -/
def Module.mapInfoAt (m : Module) (location : Location) (extent : Extent) (f : Info → Info) :
    Module :=
  { m with items := m.items.modify location.item (Item.mapInfo f extent location.way) }

/-- Changes the one declaration that an address names. -/
def Module.modify? (m : Module) (fullName : String) (f : Info → Info) : Option Module := do
  let location ← m.locate? fullName
  return m.mapInfoAt location (.overload (location.overload.getD 0)) f

/-- Changes the declaration that an address names, and all overloads of a method that is named
without argument types. -/
def Module.update? (m : Module) (fullName : String) (f : Info → Info) : Option Module := do
  let location ← m.locate? fullName
  let extent := match location.overload with
    | none => .wholeChain
    | some index => .overload index
  return m.mapInfoAt location extent f

end Bindery
