import Subgraph.Files.Path

/-!
# Files

Files and directories, by the names that lead to them from the root. The working directory is one of the
places of the tree. A path is walked name by name, from the working directory or from the root: every name
but the last must be that of a directory, and a double dot leads to the directory above, if there is one.

Contents

* `FileContent`, `FileTree` — files and directories by the names that lead to them;
* `FileTree.files` — the files below the working directory;
* `Spot`, `FileTree.resolve` — where a path leads;
* `FileTree.contentAt` — the content of the file that a path leads to;
* `FileTree.makeDirectories`, `FileTree.writeFile`, `FileTree.deliver` — changes.
-/

namespace Subgraph

/-- What a file holds: a text, or bytes that are no text. -/
inductive FileContent where
  | text (s : String)
  | undecodable
  deriving DecidableEq, Repr, Inhabited

/-- The content that bytes make up. -/
def FileContent.ofBytes (bytes : ByteArray) : FileContent :=
  match String.fromUTF8? bytes with
  | some s => .text s
  | none => .undecodable

/-- Files and directories by the names that lead to them from the root. The working directory and what it
lies in are directories without being listed. -/
structure FileTree where
  /-- The names that lead to the working directory. -/
  home : List String := ["work"]
  contents : List (List String × FileContent) := []
  directories : List (List String) := []
  deriving Inhabited

namespace FileTree

/-- The names lead to a directory. -/
def isDirectory (t : FileTree) (names : List String) : Bool :=
  names.isPrefixOf t.home || t.directories.contains names

/-- The content of the file that the names lead to. -/
def content? (t : FileTree) (names : List String) : Option FileContent := t.contents.lookup names

/-- The files below the working directory, by the names that lead to them from there. -/
def files (t : FileTree) : List (List String × FileContent) :=
  t.contents.filterMap fun f =>
    if t.home.isPrefixOf f.1 then some (f.1.drop t.home.length, f.2) else none

/-! ## Changes at a place -/

/-- The tree with a directory. -/
def addDirectory (t : FileTree) (names : List String) : FileTree :=
  if t.isDirectory names then t else { t with directories := t.directories ++ [names] }

/-- The tree with a file in place of what was there. -/
def setFile (t : FileTree) (names : List String) (content : FileContent) : FileTree :=
  { t with contents := (t.contents.filter fun f => f.1 != names) ++ [(names, content)] }

/-! ## Walking paths -/

/-- The names of the directory that a path starts from. -/
def start (t : FileTree) (p : Path) : List String := if p.root.isEmpty then t.home else []

/-- Where a name leads from a place: to the directory above, which the root has none of, or further
down. -/
def next (here : List String) (part : String) : List String :=
  if part == Path.up then here.dropLast else here ++ [part]

/-- Where a path leads: to a directory, to a file, or to nothing yet in a directory. -/
inductive Spot where
  | directory (names : List String)
  | file (names : List String) (content : FileContent)
  | vacant (names : List String)
  deriving DecidableEq, Repr

/-- Where names lead from a directory. -/
def walk (t : FileTree) : (here : List String) → (parts : List String) → Except FileFault Spot
  | here, [] => .ok (.directory here)
  | here, part :: parts =>
    let there := next here part
    if Path.nameLimit < part.utf8ByteSize then .error .nameTooLong
    else if part == Path.up || t.isDirectory there then walk t there parts
    else
      match t.content? there with
      | some content => if parts.isEmpty then .ok (.file there content) else .error .notDirectory
      | none => if parts.isEmpty then .ok (.vacant there) else .error .notFound

/-- Where a path leads. -/
def resolve (t : FileTree) (p : Path) : Except FileFault Spot :=
  match p.checkNames with
  | .error f => .error f
  | .ok () => t.walk (t.start p) p.parts

/-- Whether a path leads to a file or a directory. -/
def hasAt (t : FileTree) (p : Path) : Bool :=
  match t.resolve p with
  | .ok (.directory _) | .ok (.file _ _) => true
  | _ => false

/-! ## Trees of given files -/

/-- The places that a path leads through, its end being the last of them. -/
def route (t : FileTree) (p : Path) : List (List String) :=
  p.parts.scanl next (t.start p)

/-- The tree with a directory where a path leads, and with those that it leads through. -/
def addDirectoryAt (t : FileTree) (p : Path) : FileTree := (t.route p).foldl addDirectory t

/-- The tree with a file where a path leads, and with the directories that it leads through. -/
def addFileAt (t : FileTree) (p : Path) (content : FileContent) : FileTree :=
  ((t.route p).dropLast.foldl addDirectory t).setFile ((t.route p).getLastD []) content

/-- The tree with a directory where names lead from the working directory. -/
def placeDirectory (t : FileTree) (names : List String) : FileTree :=
  t.addDirectoryAt (.ofParts names)

/-- The tree with a file where names lead from the working directory. -/
def placeFile (t : FileTree) (names : List String) (content : FileContent) : FileTree :=
  t.addFileAt (.ofParts names) content

/-! ## Reading -/

/-- A text in which every line ends with the same character, whichever way its lines end. -/
def plainLines : List Char → List Char
  | '\r' :: '\n' :: cs => '\n' :: plainLines cs
  | '\r' :: cs => '\n' :: plainLines cs
  | c :: cs => c :: plainLines cs
  | [] => []

/-- The content of the file that a path leads to. -/
def contentAt (t : FileTree) (p : Path) : Except FileFault FileContent :=
  match t.resolve p with
  | .ok (.file _ content) => .ok content
  | .ok (.vacant _) => .error .notFound
  | .ok (.directory _) => .error .isDirectory
  | .error f => .error f

/-! ## Writing -/

/-- The tree with a directory where a path leads. One that is there already is left as it is. -/
def makeDirectory (t : FileTree) (p : Path) : Except FileFault FileTree :=
  match t.resolve p with
  | .ok (.directory _) => .ok t
  | .ok (.vacant names) => .ok (t.addDirectory names)
  | .ok (.file _ _) => .error .alreadyThere
  | .error f => .error f

/-- The tree with a directory where names lead, and with those that the names lead through. -/
def makeDirectories (t : FileTree) (root : String) (parts : List String) :
    Except FileFault FileTree :=
  match t.makeDirectory ⟨root, parts⟩ with
  | .error .notFound =>
    if _h : parts = [] then .error .notFound
    else do
      let t ← makeDirectories t root parts.dropLast
      t.makeDirectory ⟨root, parts⟩
  | r => r
termination_by parts.length
decreasing_by
  have := List.length_pos_iff.2 _h
  simp only [List.length_dropLast]
  omega

/-- The tree with a text in the file that a path leads to, which is made if it is not there. -/
def writeFile (t : FileTree) (p : Path) (s : String) : Except FileFault FileTree :=
  match t.resolve p with
  | .ok (.file names _) | .ok (.vacant names) => .ok (t.setFile names (.text s))
  | .ok (.directory _) => .error .isDirectory
  | .error f => .error f

/-- The tree with a text in a file, and with the directories around it. -/
def deliver (t : FileTree) (p : Path) (s : String) : Except FileFault FileTree := do
  let t ← t.makeDirectories p.root p.parent.parts
  t.writeFile p s

end FileTree

end Subgraph
