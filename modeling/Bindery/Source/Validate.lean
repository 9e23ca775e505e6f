import Bindery.Error
import Bindery.Source.Entry

/-!
Checking declaration files. Everything but an enumeration has a name, in classes too, and two
declarations of one kind have different names. Functions repeat their names for overloads, and
anonymous enumerations repeat freely.
-/

set_option autoImplicit false
set_option relaxedAutoImplicit false

namespace Bindery

mutual

def MemberEntry.validateAll (item className : String) : List MemberEntry → Except Error Unit
  | [] => return ()
  | entry :: entries => do
    entry.validate item className
    MemberEntry.validateAll item className entries

/-- The members of an inner class are checked before its own name. -/
def MemberEntry.validate (item className : String) : MemberEntry → Except Error Unit
  | .method m => checkName m.common.name
  | .variable v => checkName v.common.name
  | .enum _ => return ()
  | .inner ⟨common, _, _, _, _, _, members⟩ => do
    MemberEntry.validateAll item common.name members
    checkName common.name
where
  checkName (name : String) : Except Error Unit :=
    if Text.isBlankText name then .error (.extract item (.unnamedMember className))
    else .ok ()

end

def ItemEntry.kind : ItemEntry → String
  | .ofClass _ => "class"
  | .function _ => "function"
  | .enum _ => "enum"
  | .variable _ => "variable"
  | .typedef _ => "typedef"
  | .define _ => "define"

def ItemEntry.name : ItemEntry → String
  | .ofClass c => c.common.name
  | .function m => m.common.name
  | .enum e => e.common.name
  | .variable v => v.common.name
  | .typedef t => t.common.name
  | .define d => d.common.name

/-- Whether no second declaration of the kind may have the name. -/
def ItemEntry.ownsName (entry : ItemEntry) : Bool :=
  entry.kind != "function" && !entry.name.isEmpty

/-- Checks one entry after the entries whose kinds and names are `seen`. -/
def ItemEntry.validate (item : String) (seen : List (String × String)) (entry : ItemEntry) :
    Except Error Unit := do
  if let .ofClass c := entry then
    MemberEntry.validateAll item c.common.name c.members
  if Text.isBlankText entry.name && entry.kind != "enum" then
    throw (.extract item (.unnamed entry.kind))
  if entry.ownsName && seen.contains (entry.kind, entry.name) then
    throw (.extract item (.duplicate entry.kind entry.name))

def ItemEntry.validateAll (item : String) (seen : List (String × String)) :
    List ItemEntry → Except Error Unit
  | [] => return ()
  | entry :: entries => do
    entry.validate item seen
    ItemEntry.validateAll item
      (if entry.ownsName then (entry.kind, entry.name) :: seen else seen) entries

/-- Accepts a file whose declarations can be told apart by kind and name. -/
def DeclFile.validate (item : String) (file : DeclFile) : Except Error Unit :=
  ItemEntry.validateAll item [] file.items

end Bindery
