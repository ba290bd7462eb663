import Subgraph.Config.Reader
import Subgraph.Files.Tree

/-!
# Configuration files

A configuration is read from a file in UTF-8, whichever way its lines end. A file that is not there
and one that cannot be read are problems of the configuration; bytes that are no text are a failure
of their own.
-/

namespace Subgraph.Config

/-- The failure of reading a file. -/
def unreadable (shown : String) : FileFault → Failure
  | .notFound => .configuration (.missingFile shown)
  | .unnameable => .file .unnameable shown
  | f => .configuration (.unreadableFile (f.message shown))

/-- The configuration in the file that a path leads to; messages show the path as a given text. -/
def ofFile (files : FileTree) (p : Path) (shown : String) : Except Failure Config :=
  match files.contentAt p with
  | .error f => .error (unreadable shown f)
  | .ok .undecodable => .error .undecodable
  | .ok (.text s) => ofText shown (String.ofList (FileTree.plainLines s.toList))

/-- The configuration in the file of a path. -/
def load (files : FileTree) (p : Path) : Except Failure Config := ofFile files p p.text

end Subgraph.Config
