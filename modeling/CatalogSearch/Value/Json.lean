import CatalogSearch.Json.Writer
import CatalogSearch.Value.Text

/-!
# Values as JSON

Values with a JSON form keep it; all others are written as their text.  `ofJson` reads a JSON value
back as the value of the same form, so that `json` returns it unchanged.
-/

set_option autoImplicit false

namespace CatalogSearch.Value

mutual

def json : Value → Json
  | .null => .null
  | .bool b => .bool b
  | .int n => .int n
  | .float x => .float x
  | .text s => .text s
  | .list items => .array (jsonItems items)
  | .tuple items => .array (jsonItems items)
  | .dict entries => .object (jsonEntries entries)
  | v => .text v.display

def jsonItems : List Value → List Json
  | [] => []
  | v :: rest => v.json :: jsonItems rest

def jsonEntries : List (String × Value) → List (String × Json)
  | [] => []
  | (key, v) :: rest => (key, v.json) :: jsonEntries rest

end

mutual

def ofJson : Json → Value
  | .null => .null
  | .bool b => .bool b
  | .int n => .int n
  | .float x => .float x
  | .text s => .text s
  | .array items => .list (ofJsonItems items)
  | .object members => .dict (ofJsonMembers members)

def ofJsonItems : List Json → List Value
  | [] => []
  | j :: rest => ofJson j :: ofJsonItems rest

def ofJsonMembers : List (String × Json) → List (String × Value)
  | [] => []
  | (key, j) :: rest => (key, ofJson j) :: ofJsonMembers rest

end

mutual

theorem json_ofJson : ∀ j : Json, (ofJson j).json = j
  | .null | .bool _ | .int _ | .float _ | .text _ => rfl
  | .array items => by rw [ofJson, json, jsonItems_ofJsonItems]
  | .object members => by rw [ofJson, json, jsonEntries_ofJsonMembers]

theorem jsonItems_ofJsonItems : ∀ items : List Json, jsonItems (ofJsonItems items) = items
  | [] => rfl
  | j :: rest => by rw [ofJsonItems, jsonItems, json_ofJson, jsonItems_ofJsonItems]

theorem jsonEntries_ofJsonMembers :
    ∀ members : List (String × Json), jsonEntries (ofJsonMembers members) = members
  | [] => rfl
  | (key, j) :: rest => by
      rw [ofJsonMembers, jsonEntries, json_ofJson, jsonEntries_ofJsonMembers]

end

end CatalogSearch.Value
