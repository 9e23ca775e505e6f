import Bindery.Decl.Class
import Bindery.Error
import Bindery.Ordered

/-!
Interfaces of generated classes. An interface holds the members that are written out, and knows the
instance methods among them by their signatures. A registry holds the interfaces of all classes of a
package; each class is registered once.
-/

set_option autoImplicit false
set_option relaxedAutoImplicit false

namespace Bindery

/-- A member as it is written out. -/
inductive InterfaceMember
  | method (m : Method)
  | variable (v : MemberVariable)
  | enum (e : Enumeration)
  | inner (c : Class)
  /-- A declaration that the policy adds. -/
  | custom (decl : String)
  deriving Repr, BEq

structure RegisteredMethod where
  method : Method
  isVirtual : Bool
  /-- Written without an implementation. -/
  pureVirtual : Bool
  /-- Can be overridden in the target language. -/
  proxy : Bool
  /-- Comes from a declaration that the policy adds. -/
  extension : Bool
  deriving Repr, DecidableEq

structure ClassInterface where
  publicMembers : List InterfaceMember := []
  protectedMembers : List InterfaceMember := []
  /-- The instance methods by their signatures, in the order of registration. -/
  methods : Table String RegisteredMethod := []
  /-- Signatures of the methods that are not written out, in order. -/
  dropped : List String := []
  /-- No signature is registered twice. -/
  distinct : methods.keys.Nodup := by exact List.nodup_nil

namespace ClassInterface

def method? (interface : ClassInterface) (signature : String) : Option RegisteredMethod :=
  interface.methods.find? signature

def addMember (interface : ClassInterface) (visibility : Protection) (member : InterfaceMember) :
    ClassInterface :=
  match visibility with
  | .publicAccess => { interface with publicMembers := interface.publicMembers ++ [member] }
  | .protectedAccess =>
    { interface with protectedMembers := interface.protectedMembers ++ [member] }

/-- Enters a method. A later one of the same signature takes its place. -/
def enter (interface : ClassInterface) (entry : RegisteredMethod) : ClassInterface :=
  { interface with
    methods := interface.methods.set entry.method.signature entry
    distinct := Table.nodup_keys_set interface.distinct _ _ }

def drop (interface : ClassInterface) (signature : String) : ClassInterface :=
  { interface with dropped := addSorted signature interface.dropped }

def isDropped (interface : ClassInterface) (m : Method) : Bool :=
  interface.dropped.contains m.signature

end ClassInterface

/-- The interfaces of classes by the names that they are generated under. -/
abbrev InterfaceRegistry := Table String ClassInterface

namespace InterfaceRegistry

def hasClass (registry : InterfaceRegistry) (className : String) : Bool :=
  Table.contains registry className

def interface? (registry : InterfaceRegistry) (className : String) : Option ClassInterface :=
  Table.find? registry className

/-- The interface of a class that has to be registered. -/
def expect (registry : InterfaceRegistry) (className : String) : Except Error ClassInterface :=
  match registry.interface? className with
  | some interface => .ok interface
  | none => .error (.missingInterface className)

def register (registry : InterfaceRegistry) (className : String) (interface : ClassInterface) :
    Except Error InterfaceRegistry :=
  if registry.hasClass className then .error (.duplicateInterface className)
  else .ok (registry ++ [(className, interface)])

/-- Drops a method of a registered class. -/
def drop (registry : InterfaceRegistry) (className signature : String) : InterfaceRegistry :=
  registry.map fun (name, interface) ↦
    (name, if name == className then interface.drop signature else interface)

end InterfaceRegistry

end Bindery
