import Bindery.Decl.Locate
import Bindery.Error
import Bindery.Interface.Registry
import Bindery.Policy.View

/-!
The interface of one class, from its declaration. Its own members come first, then those of the
bases that it folds, then the declarations that the policy adds; the public section is filled before
the protected one. A method is left out when an earlier one hides it: a virtual method is hidden by
one of its signature, any other method by one of its name from another class.
-/

set_option autoImplicit false
set_option relaxedAutoImplicit false

namespace Bindery

/-- What a class is built for: its policy, the name it is generated under, and whether methods
without an implementation stay so. -/
structure ClassTarget where
  policy : Policy
  className : String
  keepsPure : Bool

/-- An interface under construction, with the ordinary methods that can hide later ones. -/
structure ClassBuilder where
  interface : ClassInterface := {}
  seen : List Method := []

namespace ClassTarget

def entry (target : ClassTarget) (m : Method) (extension : Bool) : RegisteredMethod where
  method := m
  isVirtual := m.isVirtual
  pureVirtual := target.keepsPure && m.isPureVirtual
  proxy := target.policy.hasMethodProxy target.className m
  extension := extension

/-- Whether a method can be overridden in another class. -/
def isEntered (m : Method) : Bool := m.isOrdinary && !m.isStatic

/-- Adds a method to the section of its protection. -/
def addMethod (target : ClassTarget) (interface : ClassInterface) (m : Method) : ClassInterface :=
  let interface := interface.addMember m.info.protection (.method m)
  if isEntered m then interface.enter (target.entry m false) else interface

def isHidden (seen : List Method) (m : Method) : Bool :=
  if m.isVirtual then seen.any (·.signature == m.signature)
  else seen.any fun other ↦ other.name == m.name && other.className != m.className

/-- Adds a method that no earlier one hides. -/
def addOrdinary (target : ClassTarget) (builder : ClassBuilder) (m : Method) : ClassBuilder :=
  if isHidden builder.seen m then builder
  else { interface := target.addMethod builder.interface m, seen := builder.seen ++ [m] }

/-- Whether a declaration belongs to a section of the interface. -/
def isShown (visibility : Protection) (info : Info) : Bool :=
  info.protection == visibility && info.isActive

/-- The constructors of a chain that are written out. Its first overload stands for the name and the
protection of all. -/
def shownCtors (target : ClassTarget) (visibility : Protection) (chain : Overloads) : List Method :=
  if chain.info.protection == visibility && chain.name == target.className then
    chain.all.filter fun ctor ↦ isShown visibility ctor.info
  else []

/-- The destructor, if it is the one of the class. It is never left out. -/
def shownDtors (target : ClassTarget) (visibility : Protection) (chain : Overloads) : List Method :=
  if chain.info.protection == visibility && chain.name == "~" ++ target.className then [chain.first]
  else []

def shownMethods (visibility : Protection) (chain : Overloads) : List Method :=
  chain.all.filter fun m ↦ isShown visibility m.info && !m.isTemplate

def addChain (target : ClassTarget) (visibility : Protection) (builder : ClassBuilder)
    (chain : Overloads) : ClassBuilder :=
  let addAll (methods : List Method) : ClassBuilder :=
    { builder with interface := methods.foldl target.addMethod builder.interface }
  if chain.first.isCtor then addAll (target.shownCtors visibility chain)
  else if chain.first.isDtor then addAll (target.shownDtors visibility chain)
  else (shownMethods visibility chain).foldl target.addOrdinary builder

def addShown (visibility : Protection) (builder : ClassBuilder) (info : Info)
    (member : InterfaceMember) : ClassBuilder :=
  if isShown visibility info then
    { builder with interface := builder.interface.addMember visibility member }
  else builder

def addMember (target : ClassTarget) (visibility : Protection) (builder : ClassBuilder) :
    Member → ClassBuilder
  | .method chain => target.addChain visibility builder chain
  | .enum e => if e.hasActiveValues then addShown visibility builder e.info (.enum e) else builder
  | .variable v => addShown visibility builder v.info (.variable v)
  | .inner _ => builder

def addMembers (target : ClassTarget) (visibility : Protection) (builder : ClassBuilder)
    (c : Class) : ClassBuilder :=
  c.members.foldl (target.addMember visibility) builder

/-- Adds a declaration of the policy. Only a method declaration has to be readable, and it is read
as one line. -/
def addCustom (target : ClassTarget) (visibility : Protection) (interface : ClassInterface)
    (decl : String) : Except Error ClassInterface := do
  let interface := interface.addMember visibility (.custom decl)
  let flat := String.ofList (decl.toList.filter (· != '\n'))
  if Prototype.isMethodText flat then
    let prototype ← Prototype.parse target.className flat
    return interface.enter (target.entry (prototype.toMethod target.className) true)
  else return interface

/-- Fills one section: the members of some classes, and the declarations of the policy. -/
def addSection (target : ClassTarget) (visibility : Protection) (builder : ClassBuilder)
    (classes : List Class) (decls : List String) : Except Error ClassBuilder := do
  let builder := classes.foldl (target.addMembers visibility) builder
  return { builder with
    interface := ← decls.foldlM (target.addCustom visibility) builder.interface }

end ClassTarget

namespace View

/-- The name that a class is generated under. -/
def className (view : View) (c : Class) : String := view.policy.className c.name

/-- The bases that a class folds, each once. The module has to declare all of them. -/
def foldedBases (view : View) (c : Class) : Except Error (List Class) :=
  (addAllNew [] (view.policy.foldedBasesOf c.name)).mapM fun name ↦
    match view.module.findClass? name with
    | some base => .ok base
    | none => .error (.unresolved view.policy.moduleName name (.foldInto c.name))

/-- Whether an inner class is written out. -/
def showsInner (inner : Class) : Bool := ClassTarget.isShown .publicAccess inner.info

/-- Whether some protected member is to be written out. A structure has no protected section. -/
def hasProtectedSection (view : View) (c : Class) (folded : List Class) : Bool :=
  c.kind != .ofStruct && ((c :: folded).any Class.regardsProtectedMembers ||
    !(view.policy.extensionsOf c.name .protectedAccess).isEmpty)

def target (view : View) (c : Class) : ClassTarget where
  policy := view.policy
  className := view.className c
  keepsPure := view.hasProxy c

/-- The interface of a class. -/
def interfaceOf (view : View) (c : Class) : Except Error ClassInterface := do
  let target := view.target c
  let inner := (c.innerClasses.filter showsInner).map InterfaceMember.inner
  let folded ← view.foldedBases c
  let extensions := view.policy.extensionsOf c.name
  let builder : ClassBuilder := { interface := { publicMembers := inner } }
  let builder ← target.addSection .publicAccess builder (c :: folded) (extensions .publicAccess)
  if view.hasProtectedSection c folded then
    let builder ←
      target.addSection .protectedAccess builder (c :: folded) (extensions .protectedAccess)
    return builder.interface
  else return builder.interface

end View

end Bindery
