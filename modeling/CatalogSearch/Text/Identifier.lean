/-!
# Identifiers

The names that may stand in a statement: a lowercase ASCII letter or an underscore, followed by
such characters and ASCII digits.  A schema name may in addition end in one line feed.
-/

set_option autoImplicit false

namespace CatalogSearch.Text

def isIdentifierStart (c : Char) : Bool := c = '_' || ('a' ≤ c && c ≤ 'z')

def isIdentifierChar (c : Char) : Bool := isIdentifierStart c || ('0' ≤ c && c ≤ '9')

def isIdentifierList : List Char → Bool
  | [] => false
  | c :: rest => isIdentifierStart c && rest.all isIdentifierChar

def isIdentifier (s : String) : Bool := isIdentifierList s.toList

def isSchemaName (s : String) : Bool :=
  isIdentifierList s.toList ||
    (s.toList.getLast? = some '\n' && isIdentifierList s.toList.dropLast)

end CatalogSearch.Text
