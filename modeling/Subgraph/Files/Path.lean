import Subgraph.Failure

/-!
# Paths

A path is a list of names, read from the working directory or from the root. Empty names and single
dots are dropped when a path is read; a double dot stays, since what it leads to depends on the files.

Contents

* `Path`, `Path.ofText`, `Path.text` — paths and their texts;
* `Path.parent` — the directory that a path lies in;
* `Path.checkNames` — whether there can be a file of these names.
-/

namespace Subgraph

/-- A path. The root it starts from is empty for a path from the working directory. -/
structure Path where
  root : String := ""
  parts : List String := []
  deriving DecidableEq, Repr, Inhabited

namespace Path

/-- The name of the directory above. -/
def up : String := ".."

/-- The root that a text starts from: two slashes are a root of their own, more are the same as one. -/
def rootOf (cs : List Char) : String :=
  match (cs.takeWhile (· == '/')).length with
  | 0 => ""
  | 2 => "//"
  | _ => "/"

/-- The path that a text writes. -/
def ofText (s : String) : Path :=
  let names := (s.toList.splitOn '/').map String.ofList
  ⟨rootOf s.toList, names.filter fun name => name != "" && name != "."⟩

/-- A path from the working directory. -/
def ofParts (parts : List String) : Path := ⟨"", parts⟩

/-- The text of a path; the working directory itself is a dot. -/
def text (p : Path) : String :=
  if p.root.isEmpty && p.parts.isEmpty then "." else p.root ++ "/".intercalate p.parts

/-- The directory that a path lies in. -/
def parent (p : Path) : Path := { p with parts := p.parts.dropLast }

/-- How many bytes a name may have. -/
def nameLimit : Nat := 255

/-- How many bytes the text of a path may have. -/
def textLimit : Nat := 4095

/-- Whether there can be a file of these names, as far as the whole path decides it. -/
def checkNames (p : Path) : Except FileFault Unit :=
  if p.text.toList.contains '\x00' then .error .unnameable
  else if textLimit < p.text.utf8ByteSize then .error .nameTooLong
  else .ok ()

end Path

end Subgraph
