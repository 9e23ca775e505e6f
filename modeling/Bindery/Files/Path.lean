import Bindery.Text.Pieces

/-!
Path texts. Joining and taking the directory of a path keep the spelling; two paths are the same
entry when their components are equal, which passes over doubled slashes and dots inside a path but
not over a dot in front.
-/

set_option autoImplicit false
set_option relaxedAutoImplicit false

namespace Bindery.Path

def isAbsolute (path : String) : Bool := Text.startsWith "/" path

/-- A path below a directory. An absolute path stays as it is. -/
def join (dir path : String) : String :=
  if isAbsolute path then path
  else if dir.isEmpty || Text.endsWith "/" dir then dir ++ path
  else dir ++ "/" ++ path

/-- A first component of its own: the root, or a dot in front of everything else. -/
inductive Lead
  | none
  | root
  | dot
  deriving Repr, DecidableEq

/-- The lead of a path and the names and dots after it. -/
def split (path : String) : Lead × List (List Char) :=
  match path.toList with
  | '/' :: body => (.root, body.splitOn '/')
  | ['.'] => (.dot, [])
  | '.' :: '/' :: body => (.dot, [] :: body.splitOn '/')
  | body => (.none, body.splitOn '/')

def isTrivial (name : List Char) : Bool := name.isEmpty || name == ['.']

/-- What tells whether two paths are the same entry. -/
def components (path : String) : Lead × List (List Char) :=
  let (lead, names) := split path
  (lead, names.filter (!isTrivial ·))

def same (path other : String) : Bool := components path == components other

def Lead.text : Lead → List Char
  | .none => []
  | .root => ['/']
  | .dot => ['.']

def trimNames (names : List (List Char)) : List (List Char) :=
  (names.reverse.dropWhile isTrivial).reverse

/-- The directory that a path stands in, spelled as in the path. The root and the empty path stand
in none. -/
def parent? (path : String) : Option String :=
  let (lead, names) := split path
  match (trimNames names).reverse with
  | [] => if lead = .dot then some "" else none
  | _ :: before =>
    some (String.ofList (lead.text ++ ['/'].intercalate (trimNames before.reverse)))

/-- The name of a file without its extension, and the extension. A dot in front of a name starts
none. -/
def splitExtension (name : String) : String × Option String :=
  match Text.cutAtFirst (· == '.') name.toList.reverse with
  | some (extension, stem) =>
    if stem.isEmpty then (name, none)
    else (String.ofList stem.reverse, some (String.ofList extension.reverse))
  | none => (name, none)

end Bindery.Path
