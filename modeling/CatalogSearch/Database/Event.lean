import CatalogSearch.Value.Basic

/-!
# Database events

What is done to a database, as one would see it from outside: connections and pools, statements
with their parameters, and transactions.
-/

set_option autoImplicit false

namespace CatalogSearch.Database

structure PoolSettings where
  url : String
  minSize : Value
  maxSize : Value
  timeout : Value

inductive Event where
  | connected (url : String)
  | executed (text : String)
  | executedWith (text : String) (parameters : List Value)
  | began
  | committed
  | rolledBack
  | ended (ok : Bool)
  | poolCreated (settings : PoolSettings)
  | poolOpened (wait : Bool)
  | poolClosed
  | acquired
  | used
  | released
  | cursorOpened
  | queried (text : String) (parameters : List Value)

def Event.statement? : Event → Option String
  | executed text => some text
  | executedWith text _ => some text
  | queried text _ => some text
  | began => some "BEGIN"
  | committed => some "COMMIT"
  | rolledBack => some "ROLLBACK"
  | _ => none

end CatalogSearch.Database
