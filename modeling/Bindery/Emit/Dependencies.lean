import Bindery.Config
import Bindery.Files.Tree
import Bindery.Policy.Basic

/-!
The files that an interface is made from. A file names the files it needs on lines of their own, as
`%include "name"`, from its own directory. `reachable` lists all files that are needed, each in
front of those it names. All files of a tree can be read, so that no file that is found gives an
error.
-/

set_option autoImplicit false
set_option relaxedAutoImplicit false

namespace Bindery.Dependencies

def isQuote (c : Char) : Bool := c == '"' || c == Char.ofNat 39

/-- The beginning of the next line after some blanks, if nothing but blanks is left on this one.
Blanks in front of the last line break are passed over, those after it belong to the next line. -/
def lineEnd? (cs : List Char) : Option (List Char) :=
  let blanks := cs.takeWhile Text.isBlank
  let rest := cs.dropWhile Text.isBlank
  if rest.isEmpty then some []
  else if blanks.contains '\n' then
    some ((blanks.reverse.takeWhile (· != '\n')).reverse ++ rest)
  else none

/-- A quoted name up to the first quote that ends its line, and the next line. -/
def quotedName? : List Char → Option (List Char × List Char)
  | [] => none
  | c :: cs =>
    if c == '\n' then none
    else
      let longer := (quotedName? cs).map fun read ↦ (c :: read.1, read.2)
      if isQuote c then
        match lineEnd? cs with
        | some next => some ([], next)
        | none => longer
      else longer

/-- What follows the quote that opens a name, if at least one blank stands in front of it. -/
def afterQuote? (cs : List Char) : Option (List Char) :=
  match cs.takeWhile Text.isBlank, cs.dropWhile Text.isBlank with
  | _ :: _, quote :: rest => if isQuote quote then some rest else none
  | _, _ => none

/-- The name on an include line that starts here, and the next line. -/
def includeLine? (cs : List Char) : Option (List Char × List Char) :=
  ((Text.afterStart? "%include".toList cs).bind afterQuote?).bind quotedName?

def nextLine (cs : List Char) : List Char := (cs.dropWhile (· != '\n')).drop 1

theorem length_le_of_lineEnd {cs next : List Char} (h : lineEnd? cs = some next) :
    next.length ≤ cs.length := by
  have hsplit := congrArg List.length
    (List.takeWhile_append_dropWhile (p := Text.isBlank) (l := cs))
  rw [List.length_append] at hsplit
  simp only [lineEnd?] at h
  split at h
  · cases h
    exact Nat.zero_le _
  · split at h
    · cases h
      have hle := (List.takeWhile_sublist (· != '\n')
        (l := (cs.takeWhile Text.isBlank).reverse)).length_le
      rw [List.length_append, List.length_reverse]
      rw [List.length_reverse] at hle
      omega
    · cases h

theorem length_lt_of_quotedName {cs name next : List Char}
    (h : quotedName? cs = some (name, next)) : next.length < cs.length := by
  induction cs generalizing name with
  | nil => cases h
  | cons c cs ih =>
    have longer (h : (quotedName? cs).map (fun read ↦ (c :: read.1, read.2)) = some (name, next)) :
        next.length < (c :: cs).length := by
      obtain ⟨⟨n, r⟩, hread, heq⟩ := Option.map_eq_some_iff.1 h
      cases heq
      exact Nat.lt_succ_of_lt (ih hread)
    simp only [quotedName?] at h
    split at h
    · cases h
    · split at h
      · split at h
        · rename_i hline
          cases h
          exact Nat.lt_succ_of_le (length_le_of_lineEnd hline)
        · exact longer h
      · exact longer h

theorem length_afterStart {start cs rest : List Char} (h : Text.afterStart? start cs = some rest) :
    rest.length ≤ cs.length := by
  induction start generalizing cs with
  | nil =>
    cases h
    exact Nat.le_refl _
  | cons p ps ih =>
    cases cs with
    | nil => cases h
    | cons c cs =>
      simp only [Text.afterStart?] at h
      split at h
      · exact Nat.le_succ_of_le (ih h)
      · cases h

theorem length_lt_of_afterQuote {cs rest : List Char} (h : afterQuote? cs = some rest) :
    rest.length < cs.length := by
  have hdrop := (List.dropWhile_sublist Text.isBlank (l := cs)).length_le
  unfold afterQuote? at h
  split at h
  · rename_i hcons
    rw [hcons, List.length_cons] at hdrop
    split at h
    · cases h
      exact hdrop
    · cases h
  · cases h

theorem length_lt_of_includeLine {cs name next : List Char}
    (h : includeLine? cs = some (name, next)) : next.length < cs.length := by
  obtain ⟨rest, hrest, hname⟩ := Option.bind_eq_some_iff.1 h
  obtain ⟨start, hstart, hquote⟩ := Option.bind_eq_some_iff.1 hrest
  have h1 := length_afterStart hstart
  have h2 := length_lt_of_afterQuote hquote
  have h3 := length_lt_of_quotedName hname
  omega

theorem length_nextLine (c : Char) (cs : List Char) :
    (nextLine (c :: cs)).length < (c :: cs).length := by
  have hle := (List.dropWhile_sublist (· != '\n') (l := c :: cs)).length_le
  unfold nextLine
  rw [List.length_drop]
  cases hdrop : (c :: cs).dropWhile (· != '\n') with
  | nil => exact Nat.succ_pos _
  | cons d ds =>
    rw [hdrop] at hle
    simp only [List.length_cons] at hle ⊢
    omega

/-- The names on the include lines of a text, which starts with a line. -/
def includeNames : List Char → List (List Char)
  | [] => []
  | c :: rest =>
    match hline : includeLine? (c :: rest) with
    | some (name, next) =>
      have := length_lt_of_includeLine hline
      name :: includeNames next
    | none => includeNames (nextLine (c :: rest))
termination_by cs => cs.length
decreasing_by
  · assumption
  · exact length_nextLine c rest

/-- The file that the interface tool brings with it. -/
def standardFile : String := "typemaps.i"

/-- The files that a text names. The standard file is left out in every directory. -/
def includesOf (dir text : String) : List String :=
  (((includeNames text.toList).map String.ofList).filter
    fun name ↦ !Text.endsWith standardFile name).map (Path.join dir)

/-- The files that a file names, from its directory. -/
def includesOfFile? (fs : Files) (path : String) : Option (List String) :=
  (fs.read? path).map fun text ↦ includesOf ((Path.parent? path).getD "") text

def listed (seen : List String) (path : String) : Bool := seen.any (Path.same path)

/-- Lists the pending files, and in front of what is still pending the files that each of them
names. At most `fuel` files are read. -/
def walk (fs : Files) (fuel : Nat) (seen : List String) : List String → List String
  | [] => seen
  | path :: pending =>
    if listed seen path then walk fs fuel seen pending
    else
      match fuel, includesOfFile? fs path with
      | fuel + 1, some named => walk fs fuel (seen ++ [path]) (named ++ pending)
      | fuel, _ => walk fs fuel (seen ++ [path]) pending
termination_by pending => (fuel, pending.length)

/-- No more than this many different files can be read, since a path that can be opened has at most
`Files.maxPathBytes` bytes. -/
def readLimit : Nat := Nat.pow 256 (Files.maxPathBytes + 1)

/-- Every file that is needed by some files, and these themselves first. A file that does not exist
is listed too. -/
def reachable (fs : Files) (roots : List String) : List String := walk fs readLimit [] roots

/-- Adds a path, unless it is listed. -/
def addPath (paths : List String) (path : String) : List String :=
  if listed paths path then paths else paths ++ [path]

/-- The files that the interface file of a module is made from: the manifest, the declaration files,
and the files that it includes. -/
def inputs (fs : Files) (config : Config) (manifest : Option String) (policy : Policy) :
    List String :=
  let decls := policy.items.map fun item ↦ Path.join config.declsDir (item ++ ".json")
  let included := policy.swigIncludes.map (Path.join config.swigDir)
  (manifest.toList ++ decls ++ reachable fs (config.commonIncludes ++ included)).foldl addPath []

/-- The rule that makes the interface file of a module from its inputs. -/
def rule (fs : Files) (config : Config) (manifest : Option String) (policy : Policy) : String :=
  "# dependencies of module " ++ policy.moduleName ++ "\n" ++
    config.interfaceFile policy.moduleName ++ ":" ++
    String.join ((inputs fs config manifest policy).map fun path ↦ " \\\n  " ++ path) ++ "\n"

end Bindery.Dependencies
