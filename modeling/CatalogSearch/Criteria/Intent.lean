import CatalogSearch.Criteria.Descriptor
import CatalogSearch.Criteria.Log

/-!
# Field intents

The intent of a field: its kind, its paths and its operation, read from the one marker among the
field's annotations.  A field without a marker matches its own name by equality, a field with two
is an error.  `IntentCache` keeps the intents of every type that was read once, so that the record
of a type's extraction is written at its first reading only.
-/

set_option autoImplicit false

namespace CatalogSearch.Criteria

inductive IntentKind where
  | term
  | range
  | single
  | none
  deriving DecidableEq, Repr

def IntentKind.name : IntentKind → String
  | term => "multi_path_term"
  | range => "range"
  | single => "single_path"
  | none => "none"

def IntentKind.named? (name : String) : Option IntentKind :=
  if name = "multi_path_term" then some .term
  else if name = "range" then some .range
  else if name = "single_path" then some .single
  else if name = "none" then some .none
  else Option.none

structure FieldIntent where
  name : String
  kind : IntentKind
  paths : List String
  operation : Operation
  deriving DecidableEq, Repr

inductive DescriptorError where
  | severalIntents (field : String) (markers : List String)
  | unreadableDeclarations (type : String)
  | unsupportedType (shown : String)
  | unhashableType (kind : String)
  deriving DecidableEq, Repr

def DescriptorError.message : DescriptorError → String
  | severalIntents field markers =>
      "field " ++ Text.quoted field ++ " declares more than one intent: " ++ joined ", " markers
  | unreadableDeclarations type => "cannot read field declarations of " ++ type
  | unsupportedType shown =>
      "unsupported descriptor type " ++ shown ++ "; expected a pydantic model or a dataclass"
  | unhashableType kind => "unhashable type: '" ++ kind ++ "'"

def Field.markers (f : Field) : List Marker :=
  f.annotations.filterMap fun
    | .marker m => some m
    | .other => none

def Marker.intent (field : String) : Marker → FieldIntent
  | .term paths operation => ⟨field, .term, paths, operation⟩
  | .range path => ⟨field, .range, [path], .equal⟩
  | .direct path operation => ⟨field, .single, [path], operation⟩

def Field.intent? (f : Field) : Except DescriptorError FieldIntent :=
  match f.markers with
  | [] => .ok ⟨f.name, .single, [f.name], .equal⟩
  | [m] => .ok (m.intent f.name)
  | several => .error (.severalIntents f.name (several.map Marker.kindName))

def intentsOf? : List Field → Except DescriptorError (List FieldIntent)
  | [] => .ok []
  | f :: rest => do
      let intent ← f.intent?
      let intents ← intentsOf? rest
      return intent :: intents

def Declaration.intents? (d : Declaration) : Except DescriptorError (List FieldIntent) :=
  if d.resolvable then intentsOf? d.fields else .error (.unreadableDeclarations d.name)

/-- What a fresh reading of a type gives. -/
def DescriptorType.intents? : DescriptorType → Except DescriptorError (List FieldIntent)
  | .declared d => d.intents?
  | .foreign shown => .error (.unsupportedType shown)
  | .unhashable kind => .error (.unhashableType kind)

/-- The intents read so far, by the key of their type. -/
structure IntentCache where
  entries : List (Nat × List FieldIntent)

def IntentCache.empty : IntentCache := ⟨[]⟩

structure IntentReading where
  result : Except DescriptorError (List FieldIntent)
  cache : IntentCache
  log : List LogRecord

def IntentCache.readDeclared (cache : IntentCache) (d : Declaration) : IntentReading :=
  match cache.entries.lookup d.key with
  | some intents => ⟨.ok intents, cache, []⟩
  | none =>
      match d.intents? with
      | .ok intents =>
          ⟨.ok intents, ⟨cache.entries ++ [(d.key, intents)]⟩, [.extracted d.name intents.length]⟩
      | .error e => ⟨.error e, cache, []⟩

def IntentCache.read (cache : IntentCache) : DescriptorType → IntentReading
  | .declared d => cache.readDeclared d
  | type => ⟨type.intents?, cache, []⟩

end CatalogSearch.Criteria
