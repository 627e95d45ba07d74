import CatalogSearch.Proofs.Criteria.Traversal
import CatalogSearch.Proofs.Criteria.Walk

/-!
# Invariants of translations

An `Invariant` of an engine holds after every call of a translation that succeeded, whatever the
predicate, and leaves its mark where a call fails.  Only the operations of the engine and one step of
a traversal have to be looked at: what they keep, every translation keeps
(`Invariant.toExpression_keeps`).

Nothing is asked of the paths and of the positions.  A `Walk` tells more, but of clean paths and of
engines without null positions only.
-/

set_option autoImplicit false

namespace CatalogSearch.Criteria

section Keeps

variable {σ ε α : Type}

abbrev Keeps (Holds Stopped : σ → Prop) : Except ε α × σ → Prop :=
  Ends (fun _ => Holds) fun _ => Stopped

end Keeps

variable {σ ε Pos Attr Expr : Type}

/-- What holds of the traversals of a translation, and of those that a failure stopped.  `At` tells
which positions may stand at the trail of a text. -/
structure Invariant (e : QueryEngine σ ε Pos Attr Expr) where
  Holds : Traversal σ Pos → Prop
  Stopped : Traversal σ Pos → Prop
  At : Traversal σ Pos → String → Pos → Prop
  stops : ∀ {t}, Holds t → Stopped t
  root : ∀ {t}, Holds t → At t "" e.root
  getOrJoin : ∀ {t trail p} (name : String), Holds t → At t trail p →
    Ends (fun q t' => Holds t' ∧ At t' (extendTrail trail name) q) (fun _ => Stopped)
      (getOrJoin e p (extendTrail trail name) name t)
  get : ∀ {t trail p} (name : String), Holds t → At t trail p →
    Keeps Holds Stopped (onEngine (e.get p name) t)
  compare : ∀ {t} (a : Attr) (c : Comparison), Holds t →
    Keeps Holds Stopped (onEngine (e.compare a c) t)
  all : ∀ {t} (xs : List Expr), Holds t → Keeps Holds Stopped (onEngine (e.all xs) t)
  any : ∀ {t} (xs : List Expr), Holds t → Keeps Holds Stopped (onEngine (e.any xs) t)
  truth : ∀ {t}, Holds t → Keeps Holds Stopped (onEngine e.truth t)

namespace Invariant

variable {e : QueryEngine σ ε Pos Attr Expr} (inv : Invariant e)

theorem follow_keeps : ∀ (names : List String) {trail : String} {p : Pos} {t : Traversal σ Pos},
    inv.Holds t → inv.At t trail p →
      Ends (fun q t' => inv.Holds t' ∧ inv.At t' (names.foldl extendTrail trail) q)
        (fun _ => inv.Stopped) (follow e p trail names t) := by
  intro names
  induction names with
  | nil => intro trail p t h at_; exact ⟨h, at_⟩
  | cons name rest ih =>
      intro trail p t h at_
      refine (inv.getOrJoin name h at_).bind ?_
      rintro q t' ⟨h', at_'⟩
      exact ih h' at_'

theorem resolve_keeps (path : String) {t : Traversal σ Pos} (h : inv.Holds t) :
    Keeps inv.Holds inv.Stopped (resolve e path t) := by
  refine (inv.follow_keeps (relationshipsOf path) h (inv.root h)).bind ?_
  rintro p t' ⟨h', at_⟩
  exact inv.get (attributeOf path) h' at_

mutual

theorem express_keeps (p : Predicate) {t : Traversal σ Pos} (h : inv.Holds t) :
    Keeps inv.Holds inv.Stopped (express e p t) := by
  match p with
  | .leaf path c =>
      refine ((inv.resolve_keeps path h).bind ?_).mapError
      intro a t' h'
      exact inv.compare a c h'
  | .unsupported path c =>
      refine (inv.resolve_keeps path h).mapError.bind ?_
      intro _ t' h'
      exact inv.stops h'
  | .anyOf operands =>
      refine (expressAll_keeps operands h).bind ?_
      intro xs t' h'
      exact (inv.any xs h').mapError
  | .allOf [] => exact (inv.truth h).mapError
  | .allOf (p :: rest) =>
      refine (express_keeps p h).bind ?_
      intro x t' h'
      refine (expressAll_keeps rest h').bind ?_
      intro xs t'' h''
      exact (inv.all (x :: xs) h'').mapError

theorem expressAll_keeps (ps : List Predicate) {t : Traversal σ Pos} (h : inv.Holds t) :
    Keeps inv.Holds inv.Stopped (expressAll e ps t) := by
  match ps with
  | [] => exact h
  | p :: rest =>
      refine (express_keeps p h).bind ?_
      intro x t' h'
      refine (expressAll_keeps rest h').bind ?_
      intro xs t'' h''
      exact h''

end

/-- A translation leaves the engine as a traversal does that the invariant holds of, or that a
failure stopped. -/
theorem toExpression_keeps (p : Predicate) {s : σ} (h : inv.Holds ⟨s, .empty⟩) :
    Keeps (fun s' => ∃ t, inv.Holds t ∧ t.engine = s') (fun s' => ∃ t, inv.Stopped t ∧ t.engine = s')
      (toExpression e p s) := by
  have kept := inv.express_keeps p h
  revert kept
  simp only [toExpression]
  rcases express e p ⟨s, .empty⟩ with ⟨x | a, t⟩
  · intro stopped
    exact ⟨t, stopped, rfl⟩
  · intro holds
    exact ⟨t, holds, rfl⟩

theorem toExpression_stopped (p : Predicate) {s : σ} (h : inv.Holds ⟨s, .empty⟩) :
    ∃ t, inv.Stopped t ∧ t.engine = (toExpression e p s).2 := by
  have kept := inv.toExpression_keeps p h
  revert kept
  rcases toExpression e p s with ⟨x | a, s'⟩
  · exact id
  · rintro ⟨t, holds, rfl⟩
    exact ⟨t, inv.stops holds, rfl⟩

end Invariant

end CatalogSearch.Criteria
