import Subgraph.Config.Problem
import Subgraph.Location
import Subgraph.TypeGraph.Fault

/-!
# Failures

Everything that can go wrong, by cause. A failure belongs to a class, which the command line shows
and by which it decides whether to report the failure or to let it pass; `Failure.message` words it.

Contents

* `Misuse` — a value that cannot be used the way it is;
* `FileFault` — what a file system refuses;
* `RecordFault` — why a field of a record is refused;
* `Failure` — all causes, with `Failure.label`, `Failure.message`, `Failure.isReported`.
-/

namespace Subgraph

/-- A value that cannot be used the way it is. -/
inductive Misuse where
  /-- A value of this kind has no items. -/
  | notIterable (kind : String)
  /-- A value of this kind is no pair. -/
  | notPair (kind : String)
  /-- Fewer than the two items of a pair. -/
  | tooFewItems (count : Nat)
  /-- More than the two items of a pair. -/
  | tooManyItems
  /-- A value of this kind has no named parts. -/
  | notSubscriptable (kind : String)
  /-- A sequence of this kind has parts under numbers, not under names. -/
  | numberedParts (kind : String)
  /-- An integer is too long to be written. -/
  | longInteger
  /-- A run of digits is too long to be read. -/
  | longNumeral (digits : Nat)
  /-- A text is no number. -/
  | notNumber
  /-- There is no such year. -/
  | noSuchYear
  /-- The month has no such day. -/
  | noSuchDay
  /-- A part of a moment other than these is out of its range. -/
  | noSuchMoment
  /-- A number beyond the finite values of floating point. -/
  | tooLarge
  /-- A text without a first character. -/
  | emptyNumber
  /-- A text is no moment in time. -/
  | notMoment
  /-- A value of this kind is looked through for a moment in time, and has no text. -/
  | notSearchable (kind : String)
  /-- There is no character of this number. -/
  | noSuchCharacter
  /-- A number too large for the number of a character. -/
  | longCharacter
  /-- The number of half a character. A text that holds one can never be written, so the texts that this
  library speaks of have none, and what would come of such a text is left open. -/
  | halfCharacter
  /-- Collections inside one another, deeper than the call stack has room for. -/
  | deepNesting

/-- The class of a misuse. -/
def Misuse.label : Misuse → String
  | notIterable _ | notPair _ | notSubscriptable _ | numberedParts _ | notSearchable _ => "TypeError"
  | tooFewItems _ | tooManyItems | longInteger | longNumeral _ | notNumber | noSuchYear | noSuchDay
  | noSuchMoment | noSuchCharacter => "ValueError"
  | tooLarge | longCharacter => "OverflowError"
  | emptyNumber => "IndexError"
  | notMoment => "AttributeError"
  | halfCharacter => "UnicodeEncodeError"
  | deepNesting => "RecursionError"

/-- The misuse in words. -/
def Misuse.message : Misuse → String
  | notIterable kind => "'" ++ kind ++ "' object is not iterable"
  | notPair kind => "cannot unpack non-iterable " ++ kind ++ " object"
  | tooFewItems count => "not enough values to unpack (expected 2, got " ++ toString count ++ ")"
  | tooManyItems => "too many values to unpack (expected 2)"
  | notSubscriptable kind => "'" ++ kind ++ "' object is not subscriptable"
  | numberedParts kind =>
    if kind = "bytes" then "byte indices must be integers or slices, not str"
    else kind ++ " indices must be integers or slices, not str"
  | longInteger =>
    "Exceeds the limit (4300 digits) for integer string conversion; " ++
      "use sys.set_int_max_str_digits() to increase the limit"
  | longNumeral digits =>
    "Exceeds the limit (4300 digits) for integer string conversion: value has " ++
      toString digits ++ " digits; use sys.set_int_max_str_digits() to increase the limit"
  | notNumber => "invalid number"
  | noSuchYear => "year 0 is out of range"
  | noSuchDay => "day is out of range for month"
  | noSuchMoment => "part of a moment is out of range"
  | tooLarge => "int too large to convert to float"
  | emptyNumber => "string index out of range"
  | notMoment => "'NoneType' object has no attribute 'groupdict'"
  | notSearchable kind => "expected string or bytes-like object, got '" ++ kind ++ "'"
  | noSuchCharacter => "chr() arg not in range(0x110000)"
  | longCharacter => "Python int too large to convert to C int"
  | halfCharacter => "half a character"
  | deepNesting => "maximum recursion depth exceeded"

/-- Whether the wording belongs to the failure; the wording of the common misuses is left open. -/
def Misuse.isWorded : Misuse → Bool
  | noSuchYear | noSuchDay | tooLarge | emptyNumber | notMoment | longCharacter | deepNesting => true
  | _ => false

/-- How many calls may be open inside one another while a value is gone through. The call stack has room
for a thousand; the others are left for the calls around these and for those at the bottom. -/
def stackRoom : Nat := 960

/-- What a file system refuses. -/
inductive FileFault where
  | notFound
  | isDirectory
  | notDirectory
  | alreadyThere
  /-- A name in the path is longer than names may be. -/
  | nameTooLong
  /-- The path holds a character that paths cannot have. -/
  | unnameable
  deriving DecidableEq, Repr

/-- The class of a refusal. -/
def FileFault.label : FileFault → String
  | notFound => "FileNotFoundError"
  | isDirectory => "IsADirectoryError"
  | notDirectory => "NotADirectoryError"
  | alreadyThere => "FileExistsError"
  | nameTooLong => "OSError"
  | unnameable => "ValueError"

/-- The refusal of a path in words, with its number. -/
def FileFault.message (path : String) : FileFault → String
  | notFound => "[Errno 2] No such file or directory: " ++ Text.quoted path
  | isDirectory => "[Errno 21] Is a directory: " ++ Text.quoted path
  | notDirectory => "[Errno 20] Not a directory: " ++ Text.quoted path
  | alreadyThere => "[Errno 17] File exists: " ++ Text.quoted path
  | nameTooLong => "[Errno 36] File name too long: " ++ Text.quoted path
  | unnameable => "embedded null byte"

/-- Why a field of a record is refused. -/
inductive RecordFault where
  | notText (field : String)
  /-- Bytes that encode no text. -/
  | notEncoded (field : String)
  | missing (field : String)
  /-- A value of the right kind that is refused for a reason of its own. -/
  | refused (field : String) (reason : String)
  /-- A value that might stand for true or false and does not. -/
  | notTruth (field : String)
  /-- A value of a kind that never stands for true or false. -/
  | notTruthKind (field : String)
  /-- The text of a value cannot be written. -/
  | unwritable (misuse : Misuse)

/-- The refusal of a field in words. -/
def RecordFault.message : RecordFault → String
  | notText field => field ++ ": Input should be a valid string"
  | notEncoded field =>
    field ++ ": Input should be a valid string, unable to parse raw data as a unicode string"
  | missing field => field ++ ": Field required"
  | refused field reason => field ++ ": Value error, " ++ reason
  | notTruth field => field ++ ": Input should be a valid boolean, unable to interpret input"
  | notTruthKind field => field ++ ": Input should be a valid boolean"
  | unwritable misuse => misuse.message

/-- Why a schema cannot be found under its location. -/
inductive LocatingFault where
  | badLocation (location : String)
  | notImportable (module : String) (reason : String)
  | importFailed (module : String) (reason : String)
  | noAttribute (module name : String)
  | factoryFailed (location : String) (reason : String)
  | notSchema (location : String)

/-- Why a schema cannot be found, in words. -/
def LocatingFault.message : LocatingFault → String
  | badLocation location =>
    "Invalid schema location '" ++ location ++ "': expected MODULE:ATTRIBUTE"
  | notImportable module reason => "Cannot import module '" ++ module ++ "': " ++ reason
  | importFailed module reason => "Error while importing module '" ++ module ++ "': " ++ reason
  | noAttribute module name =>
    "Module '" ++ module ++ "' has no attribute '" ++ name ++ "'"
  | factoryFailed location reason => "Schema factory '" ++ location ++ "' failed: " ++ reason
  | notSchema location => "'" ++ location ++ "' is not a GraphQL schema"

/-- A failure of a module of the user, of a class of its own. -/
inductive ForeignClass where
  | runtime
  | value
  | type
  | key
  | importing
  | moduleMissing
  | missingAttribute
  | federation
  | invalidVersion
  | unknownDirective
  | unresolvedType
  | duplicateDirective
  | configuration
  deriving DecidableEq, Repr

/-- The name of a class. -/
def ForeignClass.label : ForeignClass → String
  | runtime => "RuntimeError"
  | value => "ValueError"
  | type => "TypeError"
  | key => "KeyError"
  | importing => "ImportError"
  | moduleMissing => "ModuleNotFoundError"
  | missingAttribute => "AttributeError"
  | federation => "FederationError"
  | invalidVersion => "InvalidVersionError"
  | unknownDirective => "UnknownDirectiveError"
  | unresolvedType => "UnresolvedTypeError"
  | duplicateDirective => "DuplicateDirectiveError"
  | configuration => "FederationConfigError"

/-- A cause of failure. -/
inductive Failure where
  /-- A value is no federation version. -/
  | invalidVersion (value : Value)
  /-- A directive is not in the catalog. -/
  | unknownDirective (name : String)
  /-- A directive stands where the catalog does not allow it. -/
  | misplacedDirective (name : String) (location : Location)
  /-- A name is registered a second time. -/
  | alreadyRegistered (name : String)
  /-- A directive is applied a second time that is not repeatable. -/
  | notRepeatable (name : String)
  /-- The element belongs to a schema that has been built. -/
  | frozen (name : String)
  /-- A type is not in the schema. -/
  | unresolvedType (name : String)
  | configuration (problem : Config.Problem)
  | record (faults : List RecordFault)
  | locating (fault : LocatingFault)
  | typeGraph (fault : TypeGraph.Fault)
  /-- A value has no literal. -/
  | notLiteral (value : Value)
  /-- A floating-point value has no literal. -/
  | notFiniteLiteral (x : Binary64)
  /-- A mapping lacks a key. -/
  | missingKey (key : String)
  | misuse (misuse : Misuse)
  | file (fault : FileFault) (path : String)
  /-- The bytes of a file are no text. -/
  | undecodable
  /-- A failure raised by a module of the user. -/
  | foreign (kind : ForeignClass) (text : String)

namespace Failure

/-- The class of a failure. -/
def label : Failure → String
  | invalidVersion _ => "InvalidVersionError"
  | unknownDirective _ => "UnknownDirectiveError"
  | misplacedDirective _ _ => "InvalidDirectiveLocationError"
  | alreadyRegistered _ | notRepeatable _ => "DuplicateDirectiveError"
  | frozen _ | locating _ => "FederationError"
  | unresolvedType _ => "UnresolvedTypeError"
  | configuration _ => "FederationConfigError"
  | record _ => "ValidationError"
  | typeGraph fault => if fault.breaksRule then "GraphQLError" else "TypeError"
  | notLiteral _ | notFiniteLiteral _ => "TypeError"
  | missingKey _ => "KeyError"
  | misuse m => m.label
  | file fault _ => fault.label
  | undecodable => "UnicodeDecodeError"
  | foreign kind _ => kind.label

/-- The failure in words. -/
def message : Failure → String
  | invalidVersion value => "Invalid federation version: " ++ value.render
  | unknownDirective name => "Unknown directive '@" ++ name ++ "'"
  | misplacedDirective name location =>
    "Directive '@" ++ name ++ "' may not be applied at location " ++ location.name
  | alreadyRegistered name => "Directive '@" ++ name ++ "' is already registered"
  | notRepeatable name => "Directive '@" ++ name ++ "' is not repeatable"
  | frozen name =>
    "Cannot add '@" ++ name ++ "': directives are frozen once the schema is built"
  | unresolvedType name => "Type '" ++ name ++ "' is not registered in the schema"
  | configuration problem => problem.message
  | record faults => "; ".intercalate (faults.map RecordFault.message)
  | locating fault => fault.message
  | typeGraph fault => fault.message
  | notLiteral value => "Cannot print " ++ value.render ++ " as a GraphQL literal"
  | notFiniteLiteral x => "Cannot print non-finite float " ++ x.text ++ " as a GraphQL literal"
  | missingKey key => Text.quoted key
  | misuse m => m.message
  | file fault path => fault.message path
  | undecodable => "invalid bytes"
  | foreign kind text =>
    match kind with
    | .key => Text.quoted text
    | .invalidVersion => "Invalid federation version: " ++ Text.quoted text
    | .unknownDirective => "Unknown directive '@" ++ text ++ "'"
    | .unresolvedType => "Type '" ++ text ++ "' is not registered in the schema"
    | _ => text

/-- Whether the wording belongs to the failure. The file system and the reader of plain values word
their refusals as they like. -/
def isWorded : Failure → Bool
  | misuse m => m.isWorded
  | file _ _ | undecodable => false
  | _ => true

/-- The failures that are reported to the user of the command line. -/
def isReported : Failure → Bool
  | invalidVersion _ | unknownDirective _ | misplacedDirective _ _ | alreadyRegistered _
  | notRepeatable _ | frozen _ | unresolvedType _ | configuration _ | locating _ => true
  | foreign kind _ =>
    match kind with
    | .federation | .invalidVersion | .unknownDirective | .unresolvedType | .duplicateDirective
    | .configuration => true
    | _ => false
  | _ => false

/-- Whether the failure is one of finding a module. -/
def isImport : Failure → Bool
  | foreign .importing _ | foreign .moduleMissing _ => true
  | _ => false

/-- The failure as a record in messages: its class and its quoted text. -/
def render (f : Failure) : String :=
  let text :=
    match f with
    | foreign _ text => text
    | missingKey key => key
    | f => f.message
  f.label ++ "(" ++ Text.quoted text ++ ")"

/-- The failure of a record with these faults. A text that cannot be written ends the reading of the
record. -/
def refusedRecord : List RecordFault → Failure
  | .unwritable m :: _ => misuse m
  | faults => record faults

/-- The failure that a value is no version. Where the value itself cannot be written, that is the
failure. -/
def notVersion (value : Value) : Failure :=
  if value.withinDigitLimit then invalidVersion value else misuse .longInteger

end Failure

end Subgraph
