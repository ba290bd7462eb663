/-!
# Upper case

Names of directive locations are compared in upper case, under the full Unicode rules, by which one
character may become several. Only those characters are mapped here that become letters of ASCII;
any other one stays or becomes a character outside ASCII, and neither can occur in such a name.
-/

namespace Subgraph.Text

/-- The characters outside ASCII whose upper case lies in ASCII. -/
def asciiCapitals : List (Char × List Char) :=
  [('\u00DF', ['S', 'S']), ('\u0131', ['I']), ('\u017F', ['S']), ('\uFB00', ['F', 'F']),
   ('\uFB01', ['F', 'I']), ('\uFB02', ['F', 'L']), ('\uFB03', ['F', 'F', 'I']),
   ('\uFB04', ['F', 'F', 'L']), ('\uFB05', ['S', 'T']), ('\uFB06', ['S', 'T'])]

/-- The upper case of one character, as far as it lies in ASCII. -/
def capital (c : Char) : List Char :=
  match asciiCapitals.lookup c with
  | some cs => cs
  | none => [c.toUpper]

/-- The upper case of a text, as far as it lies in ASCII. -/
def capitals (s : String) : String := String.ofList (s.toList.flatMap capital)

end Subgraph.Text
