import CatalogSearch.Text.DecimalDigit

/-!
# Command line options

A command line consists of options only.  An option may be shortened as long as it stays
unambiguous, and its value follows as the next argument or after an equals sign.  An argument with a
dash in front is no value, unless it is a number or contains a blank.  Options of one letter may
share a dash.
-/

set_option autoImplicit false

namespace CatalogSearch.CommandLine

inductive OptionKind where
  | flag
  | value
  | help
  deriving DecidableEq, Repr

structure OptionSpec where
  names : List String
  kind : OptionKind
  deriving DecidableEq, Repr

def helpOption : OptionSpec := ⟨["-h", "--help"], .help⟩

inductive UsageError where
  | ambiguous (argument : String)
  | missingValue (option : String)
  | unexpectedValue (option : String)
  | unrecognized (arguments : List String)
  deriving DecidableEq, Repr

/-- What is given to an option; two dashes after the equals sign give it nothing. -/
inductive OptionValue where
  | text (s : String)
  | nothing
  deriving DecidableEq, Repr

def OptionValue.ofChars (s : List Char) : OptionValue :=
  if s = ['-', '-'] then .nothing else .text (String.ofList s)

structure Occurrence where
  option : OptionSpec
  value : Option OptionValue
  deriving DecidableEq, Repr

inductive Parsed where
  | help
  | options (occurrences : List Occurrence)
  deriving DecidableEq, Repr

/-- `refused` is an option with a value that it does not take. -/
inductive Argument where
  | option (o : OptionSpec) (value : Option OptionValue)
  | refused (name : String)
  | dashed (text : String)
  | plain (text : String)
  | separator

def splitEquals (s : List Char) : List Char × Option (List Char) :=
  match s.dropWhile (· ≠ '=') with
  | [] => (s, none)
  | _ :: value => (s.takeWhile (· ≠ '='), some value)

def startingWith (start : List Char) (specs : List OptionSpec) : List OptionSpec :=
  specs.flatMap fun o => (o.names.filter fun name => start.isPrefixOf name.toList).map fun _ => o

def named? (specs : List OptionSpec) (name : List Char) : Option OptionSpec :=
  specs.find? fun o => o.names.contains (String.ofList name)

def isDigit (c : Char) : Bool := (Text.decimalDigit? c).isSome

/-- Digits, or digits with a point before the last of them. -/
def isUnsigned (s : List Char) : Bool :=
  match s.dropWhile isDigit with
  | [] => !s.isEmpty
  | '.' :: fraction => !fraction.isEmpty && fraction.all isDigit
  | _ => false

/-- A negative number, which may end in a line feed. -/
def isNegativeNumber : List Char → Bool
  | '-' :: rest => isUnsigned rest || (rest.getLast? = some '\n' && isUnsigned rest.dropLast)
  | _ => false

def nameOf (o : OptionSpec) : String := o.names.headD ""

/-- The options of a dash and several letters, given the first and the letters after it, which are
its value if it takes one; `none` if a letter is no option. -/
def cluster? (specs : List OptionSpec) (o : OptionSpec) : List Char → Option (List Argument)
  | [] => some [.option o none]
  | c :: rest =>
      if o.kind = .value then some [.option o (some (.ofChars (c :: rest)))]
      else
        match named? specs ['-', c] with
        | some next => (cluster? specs next rest).map (.option o none :: ·)
        | none => none

def isLetterOption (name : List Char) : Bool := name.length = 2

def withJoined (specs : List OptionSpec) (o : OptionSpec) (name : List Char) :
    Option (List Char) → List Argument
  | none => [.option o none]
  | some value =>
      if o.kind = .value then [.option o (some (.ofChars value))]
      else if isLetterOption name && !value.isEmpty then
        (cluster? specs o value).getD [.refused (nameOf o)]
      else [.refused (nameOf o)]

/-- What an argument with a dash in front may be short for. -/
def candidates (specs : List OptionSpec) (s : List Char) : List (List Argument) :=
  match s with
  | '-' :: '-' :: _ =>
      (startingWith (splitEquals s).1 specs).map fun o => withJoined specs o s (splitEquals s).2
  | '-' :: c :: rest =>
      (named? specs ['-', c]).toList.map fun o => withJoined specs o ['-', c] (some rest)
  | _ => []

def exactOption? (specs : List OptionSpec) (s : List Char) : Option (List Argument) :=
  match named? specs s with
  | some o => some [.option o none]
  | none =>
      match splitEquals s with
      | (name, some value) => (named? specs name).map fun o => withJoined specs o name (some value)
      | _ => none

def classifyDashed (specs : List OptionSpec) (text : String) :
    Except UsageError (List Argument) :=
  let s := text.toList
  match exactOption? specs s with
  | some found => .ok found
  | none =>
      match candidates specs s with
      | [found] => .ok found
      | _ :: _ :: _ => .error (.ambiguous text)
      | [] =>
          if isNegativeNumber s || s.contains ' ' || s = ['-'] then .ok [.plain text]
          else .ok [.dashed text]

/-- After two dashes every argument is plain. -/
def classify (specs : List OptionSpec) : List String → Except UsageError (List Argument)
  | [] => .ok []
  | text :: rest =>
      if text = "--" then .ok (.separator :: rest.map .plain)
      else if text.toList.head? ≠ some '-' then (classify specs rest).map (.plain text :: ·)
      else do
        let found ← classifyDashed specs text
        let others ← classify specs rest
        return found ++ others

def collect (occurrences : List Occurrence) (extras : List String) :
    List Argument → Except UsageError Parsed
  | [] => if extras.isEmpty then .ok (.options occurrences) else .error (.unrecognized extras)
  | .plain text :: rest => collect occurrences (extras ++ [text]) rest
  | .dashed text :: rest => collect occurrences (extras ++ [text]) rest
  | .separator :: rest => collect occurrences (extras ++ ["--"]) rest
  | .refused name :: _ => .error (.unexpectedValue name)
  | .option o given :: rest =>
      match o.kind, given, rest with
      | .value, some value, rest => collect (occurrences ++ [⟨o, some value⟩]) extras rest
      | .value, none, .plain value :: rest =>
          collect (occurrences ++ [⟨o, some (.text value)⟩]) extras rest
      | .value, none, _ => .error (.missingValue (nameOf o))
      | _, some _, _ => .error (.unexpectedValue (nameOf o))
      | .flag, none, rest => collect (occurrences ++ [⟨o, none⟩]) extras rest
      | .help, none, _ => .ok .help

def parse (specs : List OptionSpec) (arguments : List String) : Except UsageError Parsed := do
  let arguments ← classify specs arguments
  collect [] [] arguments

def lastValue? (o : OptionSpec) (occurrences : List Occurrence) : Option OptionValue :=
  (occurrences.reverse.find? (·.option = o)).bind (·.value)

def isGiven (o : OptionSpec) (occurrences : List Occurrence) : Bool :=
  occurrences.any (·.option = o)

end CatalogSearch.CommandLine
