import CatalogSearch.Keyed
import CatalogSearch.Text.Blank

/-!
# Environment files

A file of lines `NAME=value`, with comments, an optional `export` in front of the name and quotes
around name or value.  A quoted value may span lines and hold escapes; an unquoted one ends before a
comment.  A name without `=` has no value.  A line that cannot be read is skipped, but its number is
kept.  A value may refer to variables by `$` and braces, which `resolve` replaces.
-/

set_option autoImplicit false

namespace CatalogSearch.Config

open Text

def unixLines : List Char → List Char
  | '\r' :: '\n' :: rest => '\n' :: unixLines rest
  | '\r' :: rest => '\n' :: unixLines rest
  | c :: rest => c :: unixLines rest
  | [] => []

namespace DotEnv

def isInlineBlank (c : Char) : Bool := isBlankChar c && c ≠ '\n' && c ≠ '\r'

def skipInline (s : List Char) : List Char := s.dropWhile isInlineBlank

/-- A step of reading: what was read, or nothing, and in either case the rest of the text. -/
abbrev Read (α : Type) : Type := Option α × List Char

def skipExport (s : List Char) : List Char :=
  match s with
  | 'e' :: 'x' :: 'p' :: 'o' :: 'r' :: 't' :: c :: rest =>
      if isInlineBlank c then skipInline rest else s
  | _ => s

/-- The text up to the closing quote.  A backslash and the character after it belong together. -/
def closeQuote? (quote : Char) : List Char → Option (List Char × List Char)
  | [] => none
  | ['\\'] => none
  | '\\' :: d :: rest =>
      (closeQuote? quote rest).map fun (inside, after) => ('\\' :: d :: inside, after)
  | c :: rest =>
      if c = quote then some ([], rest)
      else (closeQuote? quote rest).map fun (inside, after) => (c :: inside, after)

def escaped? (c : Char) : Option Char :=
  match c with
  | '\\' => some '\\'
  | '\x27' => some '\x27'
  | '"' => some '"'
  | 'a' => some '\x07'
  | 'b' => some '\x08'
  | 'f' => some '\x0c'
  | 'n' => some '\n'
  | 'r' => some '\r'
  | 't' => some '\t'
  | 'v' => some '\x0b'
  | _ => none

/-- Within single quotes only the backslash and the quote are escaped. -/
def singleEscaped? (c : Char) : Option Char := if c = '\\' ∨ c = '\x27' then some c else none

def unescape (escape : Char → Option Char) : List Char → List Char
  | '\\' :: c :: rest =>
      match escape c with
      | some e => e :: unescape escape rest
      | none => '\\' :: unescape escape (c :: rest)
  | c :: rest => c :: unescape escape rest
  | [] => []

/-- The text before a comment, which is a number sign that a blank precedes. -/
def beforeComment : List Char → List Char
  | [] => []
  | c :: rest =>
      if isBlankChar c && (rest.dropWhile isBlankChar).head? = some '#' then []
      else c :: beforeComment rest

def restOfLine (s : List Char) : List Char × List Char :=
  (s.takeWhile (· ≠ '\n'), s.dropWhile (· ≠ '\n'))

def readQuoted (quote : Char) (escape : Char → Option Char) (s : List Char) : Read (List Char) :=
  match closeQuote? quote s with
  | some (inside, rest) => (some (unescape escape inside), rest)
  | none => (none, s)

/-- The value that follows an equals sign.  A comment may follow at once after a blank. -/
def readValue (s : List Char) : Read (List Char) :=
  match skipInline s with
  | '\x27' :: rest => readQuoted '\x27' singleEscaped? rest
  | '"' :: rest => readQuoted '"' escaped? rest
  | _ =>
      let (line, rest) := restOfLine s
      (some (trimmed isBlankChar (beforeComment line)), rest)

def isNameChar (c : Char) : Bool := c ≠ '=' && c ≠ '#' && !isBlankChar c

def readName (s : List Char) : Read (Option (List Char)) :=
  match s.head? with
  | some '#' => (some none, s)
  | some '\x27' =>
      let inside := (s.drop 1).takeWhile (· ≠ '\x27')
      match inside, (s.drop 1).dropWhile (· ≠ '\x27') with
      | _ :: _, _ :: rest => (some (some inside), rest)
      | _, _ => (none, s)
  | _ =>
      let name := s.takeWhile isNameChar
      if name.isEmpty then (none, s) else (some (some name), s.dropWhile isNameChar)

def readAssigned (s : List Char) : Read (Option (List Char)) :=
  match skipInline s with
  | '=' :: rest =>
      match readValue rest with
      | (some value, rest) => (some (some value), rest)
      | (none, rest) => (none, rest)
  | s => (some none, s)

def skipComment (s : List Char) : List Char :=
  match skipInline s with
  | '#' :: rest => (restOfLine rest).2
  | _ => s

def readLineEnd (s : List Char) : Read Unit :=
  match skipInline s with
  | [] => (some (), [])
  | '\n' :: rest => (some (), rest)
  | _ => (none, s)

abbrev Binding : Type := Option (List Char) × Option (List Char)

def readBinding (s : List Char) : Read Binding :=
  match readName (skipExport s) with
  | (none, rest) => (none, rest)
  | (some name, rest) =>
      match readAssigned rest with
      | (none, rest) => (none, rest)
      | (some value, rest) =>
          match readLineEnd (skipComment rest) with
          | (none, rest) => (none, rest)
          | (some _, rest) => (some (name, value), rest)

/-- What a file holds: names with their values, and lines that cannot be read, by the number of the
line where reading started. -/
inductive Item where
  | binding (name : String) (value : Option String)
  | unreadable (line : Nat)
  deriving DecidableEq, Repr

def lineFeeds (s : List Char) : Nat := s.count '\n'

/-- The items of a text of fewer than `fuel` characters that starts at the given line. -/
def readItems : Nat → Nat → List Char → List Item
  | 0, _, _ => []
  | fuel + 1, line, text =>
      match text.dropWhile isBlankChar with
      | [] => []
      | s =>
          match readBinding s with
          | (some (some name, value), rest) =>
              .binding (String.ofList name) (value.map String.ofList) ::
                readItems fuel (line + (lineFeeds text - lineFeeds rest)) rest
          | (some (none, _), rest) =>
              readItems fuel (line + (lineFeeds text - lineFeeds rest)) rest
          | (none, rest) =>
              let rest := (restOfLine rest).2.drop 1
              .unreadable line :: readItems fuel (line + (lineFeeds text - lineFeeds rest)) rest

/-- A byte order mark at the start of a file does not belong to its text. -/
def withoutMark : List Char → List Char
  | '\ufeff' :: rest => rest
  | s => s

def ofText (text : String) : List Item :=
  let chars := unixLines (withoutMark text.toList)
  readItems (chars.length + 1) 1 chars

def Item.binding? : Item → Option (String × Option String)
  | binding name value => some (name, value)
  | unreadable _ => none

def Item.unreadableLine? : Item → Option Nat
  | binding _ _ => none
  | unreadable line => some line

/-- The variable that a text refers to, given what follows the opening brace: its name, the text
that stands for it if it is not set, and what follows the closing brace. -/
def readVariable? (s : List Char) : Option (List Char × List Char × List Char) :=
  let name := s.takeWhile fun c => c ≠ '\x7d' && c ≠ ':'
  match s.dropWhile fun c => c ≠ '\x7d' && c ≠ ':' with
  | '\x7d' :: rest => some (name, [], rest)
  | ':' :: '-' :: rest =>
      match rest.dropWhile (· ≠ '\x7d') with
      | _ :: after => some (name, rest.takeWhile (· ≠ '\x7d'), after)
      | [] => none
  | _ => none

/-- A text of fewer than `fuel` characters with its variables replaced; a variable without value is
replaced by nothing. -/
def expand (find : String → Option (Option String)) : Nat → List Char → List Char
  | 0, _ => []
  | _ + 1, [] => []
  | fuel + 1, '$' :: '\x7b' :: rest =>
      match readVariable? rest with
      | some (name, usual, after) =>
          (match find (String.ofList name) with
            | some value => (value.getD "").toList
            | none => usual) ++ expand find fuel after
      | none => '$' :: expand find fuel ('\x7b' :: rest)
  | fuel + 1, c :: rest => c :: expand find fuel rest

def expandText (find : String → Option (Option String)) (text : String) : String :=
  String.ofList (expand find (text.length + 1) text.toList)

/-- The names of a file with their values; of lines with one name the last one counts.  `find` looks
a variable up, given the names before it. -/
def resolve (find : List (String × Option String) → String → Option (Option String))
    (bindings : List (String × Option String)) : List (String × Option String) :=
  bindings.foldl
    (fun known (name, value) => put name (value.map (expandText (find known))) known) []

end DotEnv

end CatalogSearch.Config
