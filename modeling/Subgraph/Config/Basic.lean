import Subgraph.Catalog.Basic

/-!
# Configurations

A configuration fixes the version that schemas are printed at and adds directives to a catalog.

Contents

* `Config` — the version, if one is fixed, and the directives that are added;
* `Config.catalog` — a catalog with the directives that are added.
-/

namespace Subgraph

/-- A version, if one is fixed, and definitions that are added to a catalog. -/
structure Config where
  version : Option Version := none
  directives : List Definition := []
  deriving DecidableEq, Repr, Inhabited

namespace Config

/-- A catalog followed by the definitions that are added, none of which it may have already. -/
def catalog (c : Config) (base : Catalog) : Except Failure Catalog :=
  match base.extended c.directives with
  | .ok extended => .ok extended
  | .error (.alreadyRegistered name) => .error (.configuration (.alreadyRegistered name))
  | .error f => .error f

end Config

end Subgraph
