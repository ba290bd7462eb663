import Subgraph.Main
import Subgraph.Schema.Declaration
import Subgraph.Proofs.Catalog.Lookup
import Subgraph.Proofs.Workspace.Attachment
import Subgraph.Proofs.Sdl.Decoration
import Subgraph.Proofs.Sdl.Applied
import Subgraph.Proofs.Sdl.Body
import Subgraph.Proofs.Sdl.Imports
import Subgraph.Proofs.Sdl.Mark
import Subgraph.Proofs.Sdl.Refusal
import Subgraph.Proofs.Sdl.Outcome
import Subgraph.Proofs.Schema.Contents
import Subgraph.Proofs.Workspace.Growth
import Subgraph.Proofs.Session.Runs
import Subgraph.Proofs.Sdl.Stability
import Subgraph.Proofs.Session.Documents
import Subgraph.Proofs.Sdl.Mentions
import Subgraph.Proofs.Session.References
import Subgraph.Proofs.Catalog.Eligible
import Subgraph.Proofs.Sdl.Activity
import Subgraph.Proofs.Sdl.Additions
import Subgraph.Proofs.Binary64.Rounding
import Subgraph.Proofs.Text.Numeral
import Subgraph.Proofs.Binary64.Text
import Subgraph.Proofs.Sdl.Quoting
import Subgraph.Proofs.Sdl.Reading
import Subgraph.Proofs.Sdl.ReadBack
import Subgraph.Proofs.Catalog.Repetition
import Subgraph.Proofs.Workspace.Catalogs
import Subgraph.Proofs.Schema.Resolution
import Subgraph.Proofs.Binary64.Length
import Subgraph.Proofs.Version.Reading
import Subgraph.Proofs.Config.Outcome
import Subgraph.Proofs.CommandLine.Reports
import Subgraph.Proofs.Yaml.Faults
import Subgraph.Proofs.CommandLine.Listing
import Subgraph.Proofs.Session.Versions
import Subgraph.Proofs.Sdl.Decoding
import Subgraph.Proofs.Workspace.Construction
import Subgraph.Proofs.Version.Padding
import Subgraph.Proofs.Catalog.ImportOrder
import Subgraph.Proofs.Session.Addition
import Subgraph.Proofs.Workspace.Effects
import Subgraph.Proofs.TypeGraph.Reached
import Subgraph.Proofs.Session.Freezing
import Subgraph.Proofs.Version.Grammar
import Subgraph.Proofs.Version.Numbers
import Subgraph.Proofs.Config.Shape
import Subgraph.Proofs.Value.Inside
import Subgraph.Proofs.Sdl.Rendering
import Subgraph.Proofs.Sdl.Lexeme
import Subgraph.Proofs.Sdl.Grammar
import Subgraph.Proofs.Files.Delivery
import Subgraph.Proofs.CommandLine.Printing
