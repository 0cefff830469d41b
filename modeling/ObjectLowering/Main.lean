/-
  The program: the files below the working directory and the environment go
  in, and what the command changed goes out.  Databases and repositories of
  tables are out of reach from here.
-/
import ObjectLowering.Command.Console

namespace ObjectLowering

open Files Config Command

/-- Adds a directory entry, with all below it, to a workspace; what is no text is left out. -/
partial def readEntry (above : Location) (w : Workspace) (entry : IO.FS.DirEntry) :
    IO Workspace := do
  let place := above ++ [entry.fileName]
  if ← entry.path.isDir then
    (← entry.path.readDir).foldlM (readEntry place) (w.set place .directory)
  else
    try
      return w.set place (.file (.text (← IO.FS.readFile entry.path)))
    catch _ => return w

/-- The files below the working directory. -/
def readWorkspace : IO Workspace := do
  (← (← IO.currentDir).readDir).foldlM (readEntry []) {}

/-- The variables of the environment that settings come from. -/
def readEnvironment : IO Environment := do
  let sections := defaultSettings.flatMap fun d => sectionsOf d.1
  let names := ((defaultSettings.map (·.1)) ++ sections).eraseDups.map variableName
  names.filterMapM fun name => return (← IO.getEnv name).map (name, ·)

/-- The text of a file of a workspace. -/
def textAt (w : Workspace) (p : Location) : Option String :=
  match w.node? p with
  | some (.file c) => c.text?
  | _ => none

/-- Writes what a command changed. -/
def writeWorkspace (old new : Workspace) : IO Unit := do
  for (place, node) in new.nodes do
    let path := String.intercalate "/" place
    match node with
    | .directory => IO.FS.createDirAll path
    | .file c =>
      match c.text? with
      | some text =>
        if textAt old place != some text then
          IO.FS.createDirAll (String.intercalate "/" ("." :: place.dropLast))
          IO.FS.writeFile path text
      | none => pure ()

/-- Runs a command line. -/
def runProgram (arguments : List String) : IO UInt32 := do
  let files ← readWorkspace
  let database : Schema.Database := { openFault := some "no driver" }
  let reply := execute (← readEnvironment) { files, database } arguments
  writeWorkspace files reply.files
  IO.print reply.output
  IO.eprint reply.log.lines
  match reply.failure with
  | some e => IO.eprintln ("Error: " ++ e.message)
  | none => pure ()
  return reply.code.toUInt32

end ObjectLowering

/-- The entry point. -/
def main (arguments : List String) : IO UInt32 := ObjectLowering.runProgram arguments
