import Bindery.Decl.Class

/-!
The declarations of one module, in the order in which they were read.
-/

set_option autoImplicit false
set_option relaxedAutoImplicit false

namespace Bindery

inductive Item
  | ofClass (c : Class)
  | function (chain : Overloads)
  | enum (e : Enumeration)
  | variable (v : GlobalVariable)
  | typedef (t : TypeDefinition)
  | define (d : Define)
  deriving Repr, BEq

def Item.info : Item → Info
  | .ofClass c => c.info
  | .function chain => chain.info
  | .enum e => e.info
  | .variable v => v.info
  | .typedef t => t.info
  | .define d => d.info

def Item.name (item : Item) : String := item.info.name

def Item.class? : Item → Option Class
  | .ofClass c => some c
  | _ => none

/-- Joins a free function to the earlier functions of its name, or puts it last. -/
def Item.insertFunction : List Item → Overloads → List Item
  | [], more => [.function more]
  | .function chain :: items, more =>
    if chain.name == more.name then .function (chain.append more) :: items
    else .function chain :: insertFunction items more
  | item :: items, more => item :: insertFunction items more

structure Module where
  name : String
  /-- The declaration files that were read. -/
  itemNames : List String := []
  items : List Item := []
  deriving Repr, BEq

namespace Module

/-- Adds an item. Functions of one name become overloads. -/
def addItem (m : Module) : Item → Module
  | .function chain => { m with items := Item.insertFunction m.items chain }
  | item => { m with items := m.items ++ [item] }

def classes (m : Module) : List Class := m.items.filterMap Item.class?

def findClass? (m : Module) (name : String) : Option Class :=
  m.classes.find? (·.name == name)

def updateClassIn (name : String) (f : Class → Class) : List Item → List Item
  | [] => []
  | .ofClass c :: items =>
    if c.name == name then .ofClass (f c) :: items
    else .ofClass c :: updateClassIn name f items
  | item :: items => item :: updateClassIn name f items

/-- Changes the first class of a name, if there is one. -/
def updateClass? (m : Module) (name : String) (f : Class → Class) : Option Module :=
  if (m.findClass? name).isSome then some { m with items := updateClassIn name f m.items }
  else none

end Module

end Bindery
