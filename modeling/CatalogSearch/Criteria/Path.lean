/-!
# Dotted paths

A path such as `category.department.name` names an attribute through relationships: every segment
but the last is a relationship, the last one is the attribute.
-/

set_option autoImplicit false

namespace CatalogSearch.Criteria

def splitDots : List Char → List (List Char)
  | [] => [[]]
  | c :: rest =>
      if c = '.' then [] :: splitDots rest
      else
        match splitDots rest with
        | [] => [[c]]
        | segment :: others => (c :: segment) :: others

def segments (path : String) : List String := (splitDots path.toList).map String.ofList

def relationshipsOf (path : String) : List String := (segments path).dropLast

def attributeOf (path : String) : String := (segments path).getLast?.getD ""

/-- The relationship of the root that a path starts with: what stands before its first dot. -/
def rootRelationship (path : String) : Option String :=
  if path.toList.contains '.' then some (String.ofList (path.toList.takeWhile (· ≠ '.'))) else none

end CatalogSearch.Criteria
