/-!
# Tokens

The smallest meaningful pieces of a YAML text. Indentation shows up as tokens of its own, which open
and close block collections.
-/

namespace Subgraph.Yaml

/-- A line of instructions before a document. -/
inductive Instruction where
  /-- The version of the language, of which only the first number matters. -/
  | version (major : Nat)
  /-- A short form for tags: the handle and what it stands for. -/
  | handle (handle : String) (expansion : String)
  | other
  deriving DecidableEq, Repr

/-- A token. -/
inductive Token where
  | instruction (i : Instruction)
  | documentStart
  | documentEnd
  | streamEnd
  | blockSequenceStart
  | blockMappingStart
  | blockEnd
  | flowSequenceStart
  | flowSequenceEnd
  | flowMappingStart
  | flowMappingEnd
  | blockEntry
  | flowEntry
  | key
  | value
  | alias (name : String)
  | anchor (name : String)
  /-- A tag: its handle, if it has one, and the rest. -/
  | tag (handle : Option String) (suffix : String)
  /-- A scalar; a plain one has neither quotes nor a block mark. -/
  | scalar (plain : Bool) (text : String)
  deriving DecidableEq, Repr

end Subgraph.Yaml
