/-!
# Pages

The texts that the command line shows about itself: one page of usage and help for the program and
one for each of its commands.

Contents

* `Page` — the program, and its commands;
* `Page.program`, `Page.usage`, `Page.help` — their texts.
-/

namespace Subgraph.CommandLine

/-- What a text of usage or help is about. -/
inductive Page where
  | program
  | print
  | directives
  deriving DecidableEq, Repr

namespace Page

/-- The name of the program. -/
def programName : String := "fedsdl"

/-- The words that call for what the page is about. -/
def title : Page → String
  | program => programName
  | print => programName ++ " print"
  | directives => programName ++ " directives"

/-- Lines, each with its end. -/
def lines (ls : List String) : String := String.join (ls.map (· ++ "\n"))

/-- How the words of a command are ordered. -/
def usage : Page → String
  | program => lines ["usage: fedsdl [-h] COMMAND ..."]
  | print =>
    lines
      ["usage: fedsdl print [-h] [--config CONFIG]",
        "                    [--federation-version FEDERATION_VERSION]",
        "                    [--output OUTPUT]",
        "                    schema"]
  | directives => lines ["usage: fedsdl directives [-h] [--config CONFIG] version"]

/-- What a command does and what its words mean. -/
def details : Page → List String
  | program =>
    ["fedsdl - print federated GraphQL schemas as SDL",
      "",
      "positional arguments:",
      "  COMMAND",
      "    print     Print a schema as federation SDL",
      "    directives",
      "              List the directives imported at a federation version",
      "",
      "options:",
      "  -h, --help  show this help message and exit"]
  | print =>
    ["Import a schema object and print it as federation SDL.",
      "",
      "positional arguments:",
      "  schema                Schema location as MODULE:ATTRIBUTE, e.g.",
      "                        'myapp.schema:schema'",
      "",
      "options:",
      "  -h, --help            show this help message and exit",
      "  --config CONFIG       Configuration file (default: ./federation.yaml if",
      "                        present)",
      "  --federation-version FEDERATION_VERSION",
      "                        Override the federation version declared by the schema",
      "                        or configuration",
      "  --output OUTPUT, -o OUTPUT",
      "                        Write the SDL to this file instead of stdout"]
  | directives =>
    ["Print the @link import list for a federation version, one directive per line.",
      "",
      "positional arguments:",
      "  version          Federation version, e.g. 2.3",
      "",
      "options:",
      "  -h, --help       show this help message and exit",
      "  --config CONFIG  Configuration file (default: ./federation.yaml if present)"]

/-- The help of a command: its usage, an empty line, and the details. -/
def help (p : Page) : String := p.usage ++ lines ("" :: p.details)

end Page

end Subgraph.CommandLine
