/-!
# Calls

A call is an operation on a state that may fail.  The state that it leaves is there in either case,
so that what happened before a failure is not lost.
-/

set_option autoImplicit false

namespace CatalogSearch

abbrev Call (σ ε α : Type) : Type := σ → Except ε α × σ

namespace Call

variable {σ ε ε' α β : Type}

def pure (a : α) : Call σ ε α := fun s => (.ok a, s)

def fail (e : ε) : Call σ ε α := fun s => (.error e, s)

def bind (c : Call σ ε α) (f : α → Call σ ε β) : Call σ ε β := fun s =>
  match c s with
  | (.ok a, s) => f a s
  | (.error e, s) => (.error e, s)

def mapError (f : ε → ε') (c : Call σ ε α) : Call σ ε' α := fun s =>
  match c s with
  | (.ok a, s) => (.ok a, s)
  | (.error e, s) => (.error (f e), s)

end Call

end CatalogSearch
