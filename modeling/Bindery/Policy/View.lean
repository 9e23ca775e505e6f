import Bindery.Decl.Module
import Bindery.Error
import Bindery.Policy.Basic

/-!
A module as its policy shows it: which classes are generated, which class each of them derives from,
and how its objects are kept. Folded bases are passed over in a hierarchy, since their members
become members of the class that folds them, and ignored bases are dropped with everything above
them.
-/

set_option autoImplicit false
set_option relaxedAutoImplicit false

namespace Bindery

/-- The base class among candidates. It has to be the only one, and a folded one stands for what is
beneath it. -/
def chooseBase (className : String) (folded : List String) :
    List (String × Except Error (Option String)) → Except Error (Option String)
  | [] => .ok none
  | [(name, beneath)] => if folded.contains name then beneath else .ok (some name)
  | candidates => .error (.ambiguousBase className (candidates.map Prod.fst))

mutual

/-- The base class found in a hierarchy, if its top is folded. -/
def Base.beneath (policy : Policy) (className : String) : Base → Except Error (Option String)
  | ⟨name, bases⟩ =>
    chooseBase className (policy.foldedBasesOf name)
      (Base.candidates policy className (policy.ignoredBasesOf name) bases)

/-- The bases that are not ignored, each with what is found beneath it. -/
def Base.candidates (policy : Policy) (className : String) (ignored : List String) :
    List Base → List (String × Except Error (Option String))
  | [] => []
  | base :: bases =>
    if ignored.contains base.name then Base.candidates policy className ignored bases
    else (base.name, Base.beneath policy className base) ::
      Base.candidates policy className ignored bases

end

mutual

/-- The names in a hierarchy that are neither folded nor ignored by the class below them, a base in
front of its own bases. -/
def Base.ancestors (policy : Policy) (folded : List String) : Base → List String
  | ⟨name, bases⟩ =>
    (if folded.contains name then [] else [name]) ++
      Base.ancestorsOf policy (policy.foldedBasesOf name) (policy.ignoredBasesOf name) bases

def Base.ancestorsOf (policy : Policy) (folded ignored : List String) : List Base → List String
  | [] => []
  | base :: bases =>
    (if ignored.contains base.name then [] else Base.ancestors policy folded base) ++
      Base.ancestorsOf policy folded ignored bases

end

structure View where
  policy : Policy
  module : Module

namespace View

/-- Whether a class becomes an interface class of its own. -/
def isGenerated (view : View) (c : Class) : Bool :=
  !c.info.ignored && (!c.isTemplate || view.policy.templateAsClass c.name) &&
    !view.policy.isFoldedBase c.name

def generatedClasses (view : View) : List Class := view.module.classes.filter view.isGenerated

/-- The nearest base that is neither folded nor ignored. A policy can name the base instead. -/
def baseClass (view : View) (c : Class) : Except Error (Option String) :=
  match view.policy.overrideBases.find? c.name with
  | some base => .ok (some base)
  | none =>
    chooseBase c.name (view.policy.foldedBasesOf c.name)
      (Base.candidates view.policy c.name (view.policy.ignoredBasesOf c.name) c.bases)

/-- All bases that are neither folded nor ignored, nearest first, each once. -/
def baseList (view : View) (c : Class) : List String :=
  addAllNew [] (Base.ancestorsOf view.policy (view.policy.foldedBasesOf c.name)
    (view.policy.ignoredBasesOf c.name) c.bases)

theorem nodup_baseList (view : View) (c : Class) : (view.baseList c).Nodup :=
  nodup_addAllNew List.nodup_nil _

def isAbstract (view : View) (c : Class) : Bool :=
  view.policy.abstracts.contains c.name || c.isAbstract

/-- What the objects of a class are kept as, from the class that it derives from. -/
def derivedGcType (c : Class) : GcType :=
  if c.isDerivedFrom "wxEvent" then .event
  else if c.isDerivedFrom "wxFrame" then .frame
  else if c.isDerivedFrom "wxDialog" then .dialog
  else if c.isDerivedFrom "wxWindow" then .window
  else if c.isDerivedFrom "wxSizer" then .sizer
  else if c.isDerivedFrom "wxObject" || c.name == "wxObject" then .object
  else .temp

def gcType (view : View) (c : Class) : GcType :=
  ((view.policy.gcTypes.find? c.name).orElse fun _ ↦ view.policy.gcDefault).getD (derivedGcType c)

/-- The folded bases of a class that the module declares. -/
def foldedClasses (view : View) (c : Class) : List Class :=
  (view.policy.foldedBasesOf c.name).filterMap view.module.findClass?

/-- Whether a class can be derived from in the target language. -/
def hasProxy (view : View) (c : Class) : Bool :=
  !view.policy.disabledProxies &&
    (view.policy.forcedProxies.contains c.name || c.hasVirtuals ||
      (view.foldedClasses c).any Class.hasVirtuals)

end View

end Bindery
