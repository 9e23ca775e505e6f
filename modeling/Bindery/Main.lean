import Bindery.CommandLine.Command

/-!
The program. The files of the working directory, and those beside a manifest that lies elsewhere,
are read in; the command is run on them, and the files that it changed are written back.
-/

set_option autoImplicit false
set_option relaxedAutoImplicit false

namespace Bindery.CommandLine

/-- Adds the text files below a directory. Other files are passed over. -/
partial def readTree (dir : String) (files : Files) : IO Files := do
  let place := (← IO.currentDir) / dir
  if !(← place.isDir) then return files
  let mut files := files
  for entry in ← place.readDir do
    let path := Path.join dir entry.fileName
    if ← entry.path.isDir then files ← readTree path files
    else
      match ← (IO.FS.readFile path).toBaseIO with
      | .ok text => files := (files.write path text).2
      | .error _ => pure ()
  return files

/-- The directories whose files a command can ask for. -/
def roots (args : List String) : List String :=
  match Command.parse args with
  | .ok (.generate options) =>
    match Path.parent? options.manifest with
    | some dir =>
      if Path.isAbsolute dir || Text.startsWith ".." dir then ["", dir] else [""]
    | none => [""]
  | _ => []

def placePath (place : Place) : String :=
  match place with
  | "/" :: names => "/" ++ "/".intercalate names
  | names => "/".intercalate names

def writeBack (before after : Files) : IO Unit :=
  after.files.forM fun (place, text) ↦ do
    if before.content? place != some text then
      let path := placePath place
      IO.FS.createDirAll ((Path.parent? path).getD "")
      IO.FS.writeFile path text

end Bindery.CommandLine

open Bindery CommandLine in
def main (args : List String) : IO UInt32 := do
  let before ← (roots args).foldlM (fun files dir ↦ readTree dir files) .empty
  let (result, after) := run 1 args before
  writeBack before after
  (← IO.getStdout).putStr (Text.unlines result.output)
  (← IO.getStderr).putStr (Text.unlines result.errors)
  return if result.success then 0 else 1
