import Bindery.Files.Path

/-!
A tree of text files. Paths are followed one name at a time from the working directory, through
directories that exist; above the working directory there are only directories. A file is its text:
a file that exists but cannot be read, or is no UTF-8 text, cannot be expressed. So looking for
includes in a file (`Dependencies.includesOfFile?`), and what is made from them up to the rule of a
module (`Dependencies.walk`, `Dependencies.rule`), have no counterpart of the error that such a file
gives, and a program that reads a tree in (`CommandLine.readTree`) passes such files over.
-/

set_option autoImplicit false
set_option relaxedAutoImplicit false

namespace Bindery

/-- The place of an entry, by the names from the working directory down. Places above it begin with
`..`, and places below the root with `/`. -/
abbrev Place := List String

def Place.isOutside (place : Place) : Bool := place.all (· == "..") || place == ["/"]

structure Files where
  files : List (Place × String) := []
  dirs : List Place := []
  /-- No place is a file and a directory. -/
  apart : ∀ place text, files.lookup place = some text →
    (place.isOutside || dirs.contains place) = false := by simp

namespace Files

/-- The tree without files. -/
def empty : Files := {}

/-- Longer paths cannot be opened. -/
def maxPathBytes : Nat := 4095

def maxNameBytes : Nat := 255

def isDir (fs : Files) (place : Place) : Bool := place.isOutside || fs.dirs.contains place

def content? (fs : Files) (place : Place) : Option String := fs.files.lookup place

/-- The directory above a directory. -/
def above (place : Place) : Place :=
  if place == ["/"] then place
  else if place.isOutside then ".." :: place
  else place.dropLast

/-- The names of a path, with empty ones at doubled slashes and at its ends. -/
def names (path : String) : List String := (path.toList.splitOn '/').map String.ofList

/-- Whether a path can be handed to the file system at all. -/
def isUsableText (path : String) : Bool :=
  !path.isEmpty && path.utf8ByteSize ≤ maxPathBytes && !path.toList.contains '\x00'

def isUsableName (name : String) : Bool := name.utf8ByteSize ≤ maxNameBytes

def isUsable (path : String) : Bool := isUsableText path && (names path).all isUsableName

/-- Whether a name leads back to the directory that it is followed from. -/
def stays (name : String) : Bool := name == "" || name == "."

def startPlace (path : String) : Place := if Path.isAbsolute path then ["/"] else []

/-- Follows names from an entry. Only a directory can be followed further, and an empty name or a
dot stays there. -/
def follow? (fs : Files) : Place → List String → Option Place
  | place, [] => some place
  | place, name :: rest =>
    if !fs.isDir place then none
    else if stays name then fs.follow? place rest
    else if name == ".." then fs.follow? (above place) rest
    else
      let next := place ++ [name]
      if fs.isDir next || (fs.content? next).isSome then fs.follow? next rest else none

/-- The place of an existing entry. -/
def locate? (fs : Files) (path : String) : Option Place :=
  if isUsable path then fs.follow? (startPlace path) (names path) else none

/-- The text of a file. -/
def read? (fs : Files) (path : String) : Option String :=
  (fs.locate? path).bind fs.content?

def isFile (fs : Files) (path : String) : Bool := (fs.read? path).isSome

def exists? (fs : Files) (path : String) : Bool := (fs.locate? path).isSome

/-- Adds a directory where no file is. -/
def addDir (fs : Files) (place : Place) (hfree : fs.content? place = none) : Files :=
  { fs with
    dirs := place :: fs.dirs
    apart := by
      intro other text hfile
      have hne : other ≠ place := by
        intro heq
        simp [heq ▸ hfile, content?] at hfree
      simpa [hne] using fs.apart other text hfile }

/-- Follows names from a directory, making the directories that are missing. A file in the way and a
name that is too long stop it. What was made until then stays. -/
def makeDirsFrom (fs : Files) : Place → List String → Bool × Files
  | _, [] => (true, fs)
  | place, name :: rest =>
    if stays name then fs.makeDirsFrom place rest
    else if name == ".." then fs.makeDirsFrom (above place) rest
    else
      let next := place ++ [name]
      if fs.isDir next then fs.makeDirsFrom next rest
      else if hfree : fs.content? next = none ∧ isUsableName name then
        (fs.addDir next hfree.1).makeDirsFrom next rest
      else (false, fs)

/-- Making directories leaves the files as they are. -/
theorem files_makeDirsFrom (fs : Files) (place : Place) (names : List String) :
    (fs.makeDirsFrom place names).2.files = fs.files := by
  fun_induction makeDirsFrom fs place names <;> simp_all [addDir]

def makeDirs (fs : Files) (path : String) : Bool × Files :=
  if path.isEmpty then (true, fs)
  else if isUsableText path then fs.makeDirsFrom (startPlace path) (names path)
  else (false, fs)

theorem lookup_filter (files : List (Place × String)) (stays : Place → Bool) (place : Place) :
    (files.filter fun file ↦ stays file.1).lookup place =
      if stays place then files.lookup place else none := by
  induction files with
  | nil => simp
  | cons file files ih =>
    obtain ⟨first, text⟩ := file
    by_cases hplace : place = first
    · subst hplace
      cases hstays : stays place <;> simp [hstays, ih]
    · have hkey : (place == first) = false := beq_false_of_ne hplace
      cases hfirst : stays first <;> simp [List.lookup_cons, hfirst, hkey, ih]

theorem lookup_filter_of_ne (files : List (Place × String)) {place other : Place}
    (hne : other ≠ place) : (files.filter (·.1 != place)).lookup other = files.lookup other := by
  rw [lookup_filter files (· != place), if_pos (bne_iff_ne.2 hne)]

/-- Puts a text at a place that is no directory, in front of everything that was written before. -/
def put (fs : Files) (place : Place) (text : String) (hplace : fs.isDir place = false) : Files :=
  { fs with
    files := (place, text) :: fs.files.filter (·.1 != place)
    apart := by
      intro other content hfile
      by_cases hne : other = place
      · subst hne
        exact hplace
      · have hkey : (other == place) = false := beq_false_of_ne hne
        rw [List.lookup_cons, hkey, lookup_filter_of_ne _ hne] at hfile
        exact fs.apart other content hfile }

theorem content?_put_self (fs : Files) (place : Place) (text : String)
    (hplace : fs.isDir place = false) : (fs.put place text hplace).content? place = some text := by
  simp [put, content?]

/-- Writing a file leaves all others as they are. -/
theorem content?_put_of_ne (fs : Files) {place other : Place} (hne : other ≠ place)
    (text : String) (hplace : fs.isDir place = false) :
    (fs.put place text hplace).content? other = fs.content? other := by
  have hkey : (other == place) = false := beq_false_of_ne hne
  simp only [put, content?, List.lookup_cons, hkey]
  exact lookup_filter_of_ne fs.files hne

/-- The last name of a path. -/
def fileName (path : String) : String := (names path).getLastD ""

/-- The directory that a path stands in, if it exists. -/
def locateParent? (fs : Files) (path : String) : Option Place :=
  if isUsable path then fs.follow? (startPlace path) (names path).dropLast else none

def isFileName (name : String) : Bool := !stays name && name != ".."

/-- Writes a file into a directory that exists. -/
def writeFile (fs : Files) (path text : String) : Option Files :=
  match fs.locateParent? path with
  | none => none
  | some dir =>
    let place := dir ++ [fileName path]
    if hplace : fs.isDir dir ∧ isFileName (fileName path) ∧ fs.isDir place = false then
      some (fs.put place text hplace.2.2)
    else none

/-- Makes the directories above a file. -/
def withParents (fs : Files) (path : String) : Bool × Files :=
  match Path.parent? path with
  | some dir => fs.makeDirs dir
  | none => (true, fs)

/-- Writes a file, making the directories above it. The directories stay when the file cannot be
written. -/
def write (fs : Files) (path text : String) : Bool × Files :=
  let (isMade, made) := fs.withParents path
  match if isMade then made.writeFile path text else none with
  | some later => (true, later)
  | none => (false, made)

/-- The names of the files that stand directly in a directory, in order. -/
def fileNames (fs : Files) (dir : String) : List String :=
  match fs.locate? dir with
  | none => []
  | some place =>
    if !fs.isDir place then []
    else
      let direct := fs.files.filterMap fun file ↦
        if file.1.dropLast == place && file.1 != place then file.1.getLast? else none
      direct.mergeSort fun a b ↦ decide (a ≤ b)

end Files

end Bindery
