import Bindery.Text.Case
import Bindery.Text.Pieces

/-!
What every declaration carries: its name and documentation, its protection, whether it is left out
of the interface or of the documentation, and the platforms it exists on.
-/

set_option autoImplicit false
set_option relaxedAutoImplicit false

namespace Bindery

inductive Protection
  | publicAccess
  | protectedAccess
  deriving Repr, DecidableEq, Inhabited

def Protection.keyword : Protection → String
  | .publicAccess => "public"
  | .protectedAccess => "protected"

def Protection.ofKeyword? : String → Option Protection
  | "public" => some .publicAccess
  | "protected" => some .protectedAccess
  | _ => none

/-- The platforms a declaration exists on: exactly one, or any of a list. -/
inductive Guard
  | single (platform : String)
  | anyOf (platforms : List String)
  deriving Repr, DecidableEq

/-- The preprocessor symbol that stands for a platform. A name that starts with two underscores is
such a symbol already. -/
def Guard.platformSymbol (platform : String) : String :=
  if Text.startsWith "__" platform then platform else "__" ++ Text.upper platform ++ "__"

/-- One platform is written alone, any other number of them as a list. -/
def Guard.ofList : List String → Guard
  | [platform] => .single platform
  | platforms => .anyOf platforms

/-- The preprocessor line that opens a guarded section. -/
def Guard.openLine : Guard → String
  | .single platform => "#ifdef " ++ platformSymbol platform
  | .anyOf platforms =>
    "#if " ++ " || ".intercalate (platforms.map fun p ↦ "defined(" ++ platformSymbol p ++ ")")

/-- The preprocessor line that closes a guarded section. -/
def Guard.closeLine : String := "#endif"

/-- Lines between those of a guard, if there is one. -/
def Guard.enclose (guard : Option Guard) (lines : List String) : List String :=
  match guard with
  | some guard => guard.openLine :: lines ++ [closeLine]
  | none => lines

def Guard.admits (guard : Guard) (platform : String) : Bool :=
  match guard with
  | .single id => platformSymbol id == platformSymbol platform
  | .anyOf ids => ids.any fun id ↦ platformSymbol id == platformSymbol platform

structure Info where
  name : String
  briefDoc : Option String := none
  detailedDoc : Option String := none
  protection : Protection := .publicAccess
  /-- Left out of the interface. -/
  ignored : Bool := false
  /-- Left out of the documentation. -/
  ignoreDoc : Bool := false
  deprecated : Bool := false
  onlyFor : Option Guard := none
  deriving Repr, DecidableEq

def Info.setIgnored (info : Info) (ignored ignoreDoc : Bool) : Info :=
  { info with ignored, ignoreDoc }

/-- An active declaration is part of the interface. -/
def Info.isActive (info : Info) : Bool := !info.ignored && !info.deprecated

end Bindery
