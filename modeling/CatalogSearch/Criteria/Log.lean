import CatalogSearch.Logging.Level

/-!
# Log records of the criteria

What the criteria report: the first extraction of a type's intents, an eager fetch that was
skipped, and a field whose value does not suit its intent.  Values themselves are never logged.
-/

set_option autoImplicit false

namespace CatalogSearch.Criteria

open Logging

inductive LogRecord where
  | extracted (type : String) (fields : Nat)
  | fetchSkipped (relationship reason : String)
  | termIgnored (field kind : String)
  | rangeIgnored (field kind : String)
  | likeOnNonText (field kind : String)
  deriving DecidableEq, Repr

def LogRecord.level : LogRecord → Level
  | extracted _ _ => .debug
  | fetchSkipped _ _ => .debug
  | termIgnored _ _ => .warning
  | rangeIgnored _ _ => .warning
  | likeOnNonText _ _ => .warning

def LogRecord.logger : LogRecord → String
  | extracted _ _ => "src.criteria.metadata"
  | fetchSkipped _ _ => "src.criteria.builder"
  | termIgnored _ _ => "src.criteria.compiler"
  | rangeIgnored _ _ => "src.criteria.compiler"
  | likeOnNonText _ _ => "src.criteria.compiler"

def LogRecord.message : LogRecord → String
  | extracted type fields =>
      "extracted field intents type=" ++ type ++ " fields=" ++ toString fields
  | fetchSkipped relationship reason =>
      "fetch skipped relationship=" ++ relationship ++ " reason=" ++ reason
  | termIgnored field kind =>
      "term field=" ++ field ++ " expects text, got " ++ kind ++ "; field ignored"
  | rangeIgnored field kind =>
      "range field=" ++ field ++ " expects Range, got " ++ kind ++ "; field ignored"
  | likeOnNonText field kind =>
      "like on non-text field=" ++ field ++ " type=" ++ kind ++ "; using equality"

def LogRecord.line (r : LogRecord) : Line := ⟨r.level, r.logger, r.message⟩

end CatalogSearch.Criteria
