import Subgraph.CommandLine.Page
import Subgraph.Failure

/-!
# Words of a command line

The words behind a command are one operand and options, in any order. An option has a value in the
same word or in the next one, and a long name may be cut short as long as no other starts alike. A
word that looks like a negative number is no option, and behind `--` no word is one.

Contents

* `Setting`, `OptionForm` — the options that a command has;
* `UsageFault`, `Stop` — why a command line is not carried out;
* `OptionUse`, `Word`, `classify` — what a single word is;
* `Gathered`, `gather` — what the words of a command say.
-/

namespace Subgraph.CommandLine

/-! ## Options -/

/-- What an option sets, or asks for. -/
inductive Setting where
  | help
  | config
  | version
  | output
  deriving DecidableEq, Repr

/-- The form of an option: what it sets, and its names. All options but the one for help have a
value. -/
structure OptionForm where
  setting : Setting
  names : List String
  deriving DecidableEq, Repr

/-- Whether an option has a value. -/
def OptionForm.hasValue (o : OptionForm) : Bool := o.setting != .help

/-- An option in messages. -/
def OptionForm.label (o : OptionForm) : String := "/".intercalate o.names

/-- The option for help. -/
def helpOption : OptionForm := ⟨.help, ["-h", "--help"]⟩

/-- The option for a configuration file. -/
def configOption : OptionForm := ⟨.config, ["--config"]⟩

/-- The option for a version. -/
def versionOption : OptionForm := ⟨.version, ["--federation-version"]⟩

/-- The option for an output file. -/
def outputOption : OptionForm := ⟨.output, ["--output", "-o"]⟩

/-- The options of a page. -/
def Page.options : Page → List OptionForm
  | .program => [helpOption]
  | .print => [helpOption, configOption, versionOption, outputOption]
  | .directives => [helpOption, configOption]

/-- What the operand of a command is called. -/
def Page.operand : Page → String
  | .program => "COMMAND"
  | .print => "schema"
  | .directives => "version"

/-! ## Faults -/

/-- Why words do not make up a command. -/
inductive UsageFault where
  /-- A short form stands for several names. -/
  | ambiguous (word : String) (names : List String)
  /-- An option without a value is given one. -/
  | unwantedValue (option : OptionForm) (value : String)
  /-- An option that has a value is given none. -/
  | missingValue (option : OptionForm)
  /-- The operand is absent. -/
  | missingOperand (name : String)
  /-- There is no such command. -/
  | unknownCommand (word : String)
  /-- Words are left over. -/
  | leftovers (words : List String)
  deriving Repr

/-- The names of the commands. -/
def commandNames : List String := ["print", "directives"]

/-- The fault in words. -/
def UsageFault.message : UsageFault → String
  | ambiguous word names =>
    "ambiguous option: " ++ word ++ " could match " ++ ", ".intercalate names
  | unwantedValue o value =>
    "argument " ++ o.label ++ ": ignored explicit argument " ++ Text.quoted value
  | missingValue o => "argument " ++ o.label ++ ": expected one argument"
  | missingOperand name => "the following arguments are required: " ++ name
  | unknownCommand word =>
    "argument COMMAND: invalid choice: " ++ Text.quoted word ++ " (choose from " ++
      ", ".intercalate (commandNames.map Text.quoted) ++ ")"
  | leftovers words => "unrecognized arguments: " ++ " ".intercalate words

/-- Why a command line is not carried out: it asks for help, it is faulty, or it cannot be read. -/
inductive Stop where
  | help (page : Page)
  | usage (page : Page) (fault : UsageFault)
  | failure (f : Failure)

/-! ## Single words -/

/-- The use of an option in a word: the option if there is such a one, the name that is used, and the
value in the same word. -/
structure OptionUse where
  option : Option OptionForm
  name : String
  value : Option String
  deriving Repr

/-- What a word is. -/
inductive Word where
  | operand (text : String)
  | option (text : String) (use : OptionUse)
  /-- The mark behind which no word is an option. -/
  | mark
  deriving Repr

/-- The text of a word. -/
def Word.text : Word → String
  | operand text | option text _ => text
  | mark => "--"

/-- The option of a name. -/
def optionNamed? (options : List OptionForm) (name : String) : Option OptionForm :=
  options.find? fun o => o.names.contains name

/-- All names of options, each with its option. -/
def namesOf (options : List OptionForm) : List (String × OptionForm) :=
  options.flatMap fun o => o.names.map (·, o)

/-- A text cut at its first equals sign. -/
def cutAtEquals? (s : String) : Option (String × String) :=
  let cs := s.toList
  match cs.dropWhile (· != '=') with
  | _ :: value => some (String.ofList (cs.takeWhile (· != '=')), String.ofList value)
  | [] => none

/-- Whether a text looks like a negative number; one line break at its end is disregarded. -/
def isNegativeNumber (s : String) : Bool :=
  let cs := if s.toList.getLast? == some '\n' then s.toList.dropLast else s.toList
  match cs with
  | '-' :: r =>
    let digits := r.takeWhile Text.isDigit
    match r.dropWhile Text.isDigit with
    | [] => !digits.isEmpty
    | '.' :: fraction => !fraction.isEmpty && fraction.all Text.isDigit
    | _ => false
  | _ => false

/-- The options that a word with a hyphen may stand for by the start of their names: a long name cut
short, or a short name followed by its value. -/
def candidates (options : List OptionForm) (s : String) : List OptionUse :=
  match s.toList with
  | '-' :: '-' :: _ =>
    let (start, value) :=
      match cutAtEquals? s with
      | some (name, value) => (name, some value)
      | none => (s, none)
    (namesOf options).filterMap fun (name, o) =>
      if start.toList.isPrefixOf name.toList then some ⟨some o, name, value⟩ else none
  | '-' :: c :: value =>
    (namesOf options).filterMap fun (name, o) =>
      if name.toList == ['-', c] then some ⟨some o, name, some (String.ofList value)⟩ else none
  | _ => []

/-- The use of an option by its full name, perhaps with a value behind an equals sign. -/
def exactUse? (options : List OptionForm) (s : String) : Option OptionUse :=
  match optionNamed? options s with
  | some o => some ⟨some o, s, none⟩
  | none =>
    match cutAtEquals? s with
    | some (name, value) => (optionNamed? options name).map fun o => ⟨some o, name, some value⟩
    | none => none

/-- What a word is by itself. -/
def classify (options : List OptionForm) (s : String) : Except UsageFault Word :=
  if !(s.toList.head? == some '-') || s.length == 1 then .ok (.operand s)
  else
    match exactUse? options s with
    | some use => .ok (.option s use)
    | none =>
      match candidates options s with
      | [use] => .ok (.option s use)
      | [] =>
        if isNegativeNumber s || s.toList.contains ' ' then .ok (.operand s)
        else .ok (.option s ⟨none, s, none⟩)
      | uses => .error (.ambiguous s (uses.map (·.name)))

/-- What the words of a command are. Behind the mark all words are operands. -/
def classifyAll (options : List OptionForm) : List String → Except UsageFault (List Word)
  | [] => .ok []
  | s :: ss =>
    if s == "--" then .ok (.mark :: ss.map .operand)
    else do
      let word ← classify options s
      let words ← classifyAll options ss
      .ok (word :: words)

/-! ## All words -/

/-- What the words of a command say: the operand, the settings, the last one first, and what is left
over. -/
structure Gathered where
  operand : Option String := none
  settings : List (Setting × String) := []
  leftovers : List String := []
  deriving Repr

/-- The value of a setting: the last one that is given. -/
def Gathered.get? (g : Gathered) (s : Setting) : Option String := g.settings.lookup s

/-- A word more is left over. -/
def Gathered.leave (g : Gathered) (word : String) : Gathered :=
  { g with leftovers := g.leftovers ++ [word] }

/-- A value for a setting. The mark is no value: it is dropped, and then none is there. -/
def Gathered.assign (g : Gathered) (s : Setting) (value : String) : Except Stop Gathered :=
  if value == "--" then .error (.failure (.misuse (.tooFewItems 0)))
  else .ok { g with settings := (s, value) :: g.settings }

/-- What a run of short names in one word leads to, behind one without a value. The last one may take
the next word for its value, if that is one. -/
def shortRun (page : Page) (valueFollows : Bool) (o : OptionForm) : List Char → Stop
  | [] => .help page
  | c :: cs =>
    match optionNamed? page.options (String.ofList ['-', c]) with
    | none => .usage page (.unwantedValue o (String.ofList (c :: cs)))
    | some next =>
      if next.hasValue then
        if cs.isEmpty && !valueFollows then .usage page (.missingValue next) else .help page
      else shortRun page valueFollows next cs

/-- What an option for help leads to, with the value that the word gives it. -/
def askHelp (page : Page) (o : OptionForm) (use : OptionUse) (valueFollows : Bool) : Stop :=
  match use.value with
  | none => .help page
  | some value =>
    if value.isEmpty || "--".toList.isPrefixOf use.name.toList then
      .usage page (.unwantedValue o value)
    else shortRun page valueFollows o value.toList

/-- Whether the next word can be the value of an option. -/
def valueFollows : List Word → Bool
  | .operand _ :: _ => true
  | _ => false

/-- What the words of a command say, from left to right. -/
def gather (page : Page) : Gathered → List Word → Except Stop Gathered
  | g, [] => .ok g
  | g, .mark :: .operand s :: ws =>
    if g.operand.isNone then gather page { g with operand := some s } ws
    else gather page ((g.leave "--").leave s) ws
  | g, .mark :: ws => gather page (g.leave "--") ws
  | g, .operand s :: .mark :: ws =>
    if g.operand.isNone then gather page { g with operand := some s } ws
    else gather page ((g.leave s).leave "--") ws
  | g, .operand s :: ws =>
    if g.operand.isNone then gather page { g with operand := some s } ws
    else gather page (g.leave s) ws
  | g, .option s use :: ws =>
    match use.option with
    | none => gather page (g.leave s) ws
    | some o =>
      if o.hasValue then
        match use.value, ws with
        | some value, ws => do gather page (← g.assign o.setting value) ws
        | none, .operand value :: ws => do gather page (← g.assign o.setting value) ws
        | none, _ => .error (.usage page (.missingValue o))
      else .error (askHelp page o use (valueFollows ws))

/-- What the words behind a command say. The operand must be there. -/
def gatherAll (page : Page) (words : List String) : Except Stop (String × Gathered) :=
  match classifyAll page.options words with
  | .error f => .error (.usage page f)
  | .ok words => do
    let g ← gather page {} words
    match g.operand with
    | some operand => .ok (operand, g)
    | none => .error (.usage page (.missingOperand page.operand))

end Subgraph.CommandLine
