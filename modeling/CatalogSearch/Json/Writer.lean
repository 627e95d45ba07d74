import CatalogSearch.Json.Basic
import CatalogSearch.Text.Quoted
import CatalogSearch.Value.Text

/-!
# Writing JSON

Characters outside ASCII are escaped by their UTF-16 units, and numbers that are not finite are
written as bare words.  `compact` has no spaces; `indented` puts every item and member on a line of
its own, two spaces deeper than its container.
-/

set_option autoImplicit false

namespace CatalogSearch.Json

open Number

def unitEscape (unit : Nat) : List Char := '\\' :: 'u' :: Text.hex 4 unit

def escapeChar (c : Char) : List Char :=
  if c = '"' then ['\\', '"']
  else if c = '\\' then ['\\', '\\']
  else if c = '\n' then ['\\', 'n']
  else if c = '\r' then ['\\', 'r']
  else if c = '\t' then ['\\', 't']
  else if c = '\x08' then ['\\', 'b']
  else if c = '\x0c' then ['\\', 'f']
  else if 32 ≤ c.toNat ∧ c.toNat < 127 then [c]
  else if c.toNat < 0x10000 then unitEscape c.toNat
  else
    let n := c.toNat - 0x10000
    unitEscape (0xD800 + n / 0x400) ++ unitEscape (0xDC00 + n % 0x400)

def quotedText (s : String) : String :=
  String.ofList ('"' :: s.toList.flatMap escapeChar ++ ['"'])

def floatText : Binary64 → String
  | .nan => "NaN"
  | .infinite false => "Infinity"
  | .infinite true => "-Infinity"
  | x => x.text

mutual

def compact : Json → String
  | null => "null"
  | bool b => if b then "true" else "false"
  | int n => toString n
  | float x => floatText x
  | text s => quotedText s
  | array items => "[" ++ joined "," (compactItems items) ++ "]"
  | object members => "\x7b" ++ joined "," (compactMembers members) ++ "\x7d"

def compactItems : List Json → List String
  | [] => []
  | j :: rest => j.compact :: compactItems rest

def compactMembers : List (String × Json) → List String
  | [] => []
  | (name, j) :: rest => (quotedText name ++ ":" ++ j.compact) :: compactMembers rest

end

def newLine (indent : Nat) : String := String.ofList ('\n' :: List.replicate (2 * indent) ' ')

def block (indent : Nat) (left right : String) (lines : List String) : String :=
  if lines.isEmpty then left ++ right
  else
    left ++ newLine (indent + 1) ++ joined ("," ++ newLine (indent + 1)) lines ++
      newLine indent ++ right

mutual

def indented (indent : Nat) : Json → String
  | array items => block indent "[" "]" (indentedItems (indent + 1) items)
  | object members => block indent "\x7b" "\x7d" (indentedMembers (indent + 1) members)
  | j => j.compact

def indentedItems (indent : Nat) : List Json → List String
  | [] => []
  | j :: rest => j.indented indent :: indentedItems indent rest

def indentedMembers (indent : Nat) : List (String × Json) → List String
  | [] => []
  | (name, j) :: rest =>
      (quotedText name ++ ": " ++ j.indented indent) :: indentedMembers indent rest

end

end CatalogSearch.Json
