import Subgraph.CommandLine.Words

/-!
# Requests

What a command line asks for: to print a schema, or to list the directives of a version.

Contents

* `PrintRequest`, `Request` — what can be asked for;
* `Request.ofCommand` — the request of a command and the words behind it;
* `Request.ofWords` — the request of a command line.
-/

namespace Subgraph.CommandLine

/-- A schema to be printed: where it is, and the settings. -/
structure PrintRequest where
  location : String
  config : Option String := none
  version : Option String := none
  output : Option String := none
  deriving DecidableEq, Repr

/-- What a command line asks for. -/
inductive Request where
  | print (r : PrintRequest)
  | directives (version : String) (config : Option String)
  deriving DecidableEq, Repr

namespace Request

/-- The request of a command and the words behind it, and the words that are left over. -/
def ofCommand (command : String) (words : List String) : Except Stop (Request × List String) := do
  match command with
  | "print" =>
    let (location, g) ← gatherAll .print words
    .ok (.print ⟨location, g.get? .config, g.get? .version, g.get? .output⟩, g.leftovers)
  | "directives" =>
    let (version, g) ← gatherAll .directives words
    .ok (.directives version (g.get? .config), g.leftovers)
  | other => .error (.usage .program (.unknownCommand other))

/-- The request of a command line, and the words that are left over; no request without a command.
Options before the command belong to the program. -/
def scan : (leftovers : List String) → List String → Except Stop (Option Request × List String)
  | leftovers, [] => .ok (none, leftovers)
  | leftovers, word :: words =>
    if word == "--" then
      if words.isEmpty then .ok (none, leftovers ++ [word])
      else .error (.usage .program (.unknownCommand word))
    else
      match classify Page.program.options word with
      | .error f => .error (.usage .program f)
      | .ok (.option _ use) =>
        match use.option with
        | some o => .error (askHelp .program o use false)
        | none => scan (leftovers ++ [word]) words
      | .ok _ => do
        let (r, rest) ← ofCommand word words
        .ok (some r, leftovers ++ rest)

/-- The request of a command line. No word may be left over; without a command, help is shown. -/
def ofWords (words : List String) : Except Stop Request := do
  let (r, leftovers) ← scan [] words
  if leftovers.isEmpty then
    match r with
    | some r => .ok r
    | none => .error (.help .program)
  else .error (.usage .program (.leftovers leftovers))

end Request

end Subgraph.CommandLine
