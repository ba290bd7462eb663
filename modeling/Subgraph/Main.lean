import Subgraph.CommandLine.Run

/-!
# The program

Reads the configuration file that the command line asks for, runs the command line over it, and shows
and writes what the run leaves.
-/

namespace Subgraph.CommandLine

/-- The configuration file that a command line may read. -/
def configPath (words : List String) : String :=
  match Request.ofWords words with
  | .ok (.print r) => r.config.getD defaultConfigName
  | .ok (.directives _ config) => config.getD defaultConfigName
  | .error _ => defaultConfigName

/-- The tree with what a path leads to, as far as a run may read it, filed where the run looks for it. -/
def readAt (tree : FileTree) (path : Path) : IO FileTree := do
  try
    let bytes ← IO.FS.readBinFile path.text
    return tree.addFileAt path (.ofBytes bytes)
  catch
    | .inappropriateType .. => return tree.addDirectoryAt path
    | _ => return tree

/-- Writes a text to a file, with the directories around it. -/
def writeText (path : Path) (text : String) : IO Unit := do
  IO.FS.createDirAll path.parent.text
  IO.FS.writeFile path.text text

/-- Runs a command line; what is left of it is its exit code. -/
def perform (words : List String) : IO UInt32 := do
  let directory := (← IO.currentDir).toString
  let home := (Path.ofText directory).parts
  let files ← readAt { home } (Path.ofText (configPath words))
  let outcome := run { directory, files } words
  match outcome.ending with
  | .exit code =>
    if let some (path, text) := outcome.written then writeText path text
    (← IO.getStdout).putStr outcome.output
    (← IO.getStderr).putStr outcome.errors
    return code.toUInt32
  | .failure f =>
    (← IO.getStderr).putStrLn (f.label ++ ": " ++ f.message)
    return 1

end Subgraph.CommandLine

/-- The program. -/
def main (words : List String) : IO UInt32 := Subgraph.CommandLine.perform words
