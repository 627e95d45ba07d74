import CatalogSearch.Proofs.Criteria.Independence
import CatalogSearch.Proofs.Criteria.Invariant

/-!
# Where positions come from

A build hands an engine only positions that it got from it: the root, or the answer of a join that
the same build made before.  Main statement: `sourced_build`.  It holds of any engine and any
predicate, also where a call fails, paths share texts or a join gives no position.  The join cache
keeps it true, since it starts empty and takes in answers only.
-/

set_option autoImplicit false

namespace CatalogSearch.Criteria

variable {σ ε Pos Attr Expr α : Type}

def EngineCall.parent? : EngineCall ε Pos Attr Expr → Option Pos
  | join parent _ _ => some parent
  | get parent _ _ => some parent
  | _ => none

/-- The root, or the answer of one of the joins. -/
def Given (root : Pos) (calls : List (EngineCall ε Pos Attr Expr)) (p : Pos) : Prop :=
  p = root ∨ ∃ parent name, EngineCall.join parent name (.ok p) ∈ calls

/-- Each call is made on the root, or on the answer of a join before it. -/
inductive Sourced (root : Pos) : List (EngineCall ε Pos Attr Expr) → Prop
  | nil : Sourced root []
  | call {calls : List (EngineCall ε Pos Attr Expr)} {call : EngineCall ε Pos Attr Expr}
      (before : Sourced root calls) (given : ∀ p, call.parent? = some p → Given root calls p) :
      Sourced root (calls ++ [call])

theorem Given.append {root p : Pos} {calls : List (EngineCall ε Pos Attr Expr)}
    (given : Given root calls p) (more : List (EngineCall ε Pos Attr Expr)) :
    Given root (calls ++ more) p := by
  rcases given with rfl | ⟨parent, name, hcall⟩
  · exact Or.inl rfl
  · exact Or.inr ⟨parent, name, List.mem_append_left _ hcall⟩

structure Supplied (root : Pos) (t : Traversal (σ × List (EngineCall ε Pos Attr Expr)) Pos) :
    Prop where
  calls : Sourced root t.engine.2
  entries : ∀ entry ∈ t.joined.entries, Given root t.engine.2 entry.2

section Traversals

variable {root : Pos} {t : Traversal (σ × List (EngineCall ε Pos Attr Expr)) Pos}

theorem Supplied.call (h : Supplied root t) {call : EngineCall ε Pos Attr Expr}
    (given : ∀ p, call.parent? = some p → Given root t.engine.2 p) (s : σ) :
    Supplied root ⟨(s, t.engine.2 ++ [call]), t.joined⟩ where
  calls := .call h.calls given
  entries := fun entry hentry => (h.entries entry hentry).append _

theorem Supplied.onEngine (h : Supplied root t) {call : Except ε α → EngineCall ε Pos Attr Expr}
    (given : ∀ answer p, (call answer).parent? = some p → Given root t.engine.2 p)
    (c : Call σ ε α) :
    Keeps (Supplied root) (Supplied root) (onEngine (watching call c) t) := by
  simp only [Criteria.onEngine, watching]
  rcases c t.engine.1 with ⟨x | a, s⟩
  · exact h.call (given _) s
  · exact h.call (given _) s

theorem Supplied.onEngine_free (h : Supplied root t)
    {call : Except ε α → EngineCall ε Pos Attr Expr} (free : ∀ answer, (call answer).parent? = none)
    (c : Call σ ε α) :
    Keeps (Supplied root) (Supplied root) (Criteria.onEngine (watching call c) t) := by
  refine h.onEngine ?_ c
  intro answer p hp
  rw [free] at hp
  cases hp

theorem Supplied.getOrJoin {e : QueryEngine σ ε Pos Attr Expr} (h : Supplied e.root t) {p : Pos}
    (given : Given e.root t.engine.2 p) (trail name : String) :
    Ends (fun q t' => Supplied e.root t' ∧ Given e.root t'.engine.2 q)
      (fun _ => Supplied e.root) (getOrJoin e.watched p trail name t) := by
  cases hknown : knownPosition? e.watched t.joined trail with
  | some known =>
      obtain ⟨hget, _⟩ := knownPosition?_eq_some.mp hknown
      simp only [Criteria.getOrJoin, hknown]
      exact ⟨h, h.entries _ (mem_of_lookup hget)⟩
  | none =>
      have called : ∀ (answer : Except ε Pos) (s : σ),
          Supplied e.root ⟨(s, t.engine.2 ++ [.join p name answer]), t.joined⟩ := by
        intro answer s
        refine h.call ?_ s
        intro parent hparent
        obtain rfl := Option.some.inj hparent
        exact given
      rw [getOrJoin_of_unknown hknown]
      simp only [joinNew]
      rcases e.join p name t.engine.1 with ⟨x | q, s⟩
      · exact called _ s
      · have answered : Given e.root (t.engine.2 ++ [EngineCall.join p name (.ok q)]) q :=
          Or.inr ⟨p, name, by simp⟩
        refine ⟨⟨(called _ s).calls, ?_⟩, answered⟩
        intro entry hentry
        rcases mem_of_mem_put hentry with rfl | hentry
        · exact answered
        · exact (called _ s).entries entry hentry

end Traversals

def suppliedInvariant (e : QueryEngine σ ε Pos Attr Expr) : Invariant e.watched where
  Holds := Supplied e.root
  Stopped := Supplied e.root
  At t _ p := Given e.root t.engine.2 p
  stops := id
  root _ := Or.inl rfl
  getOrJoin name h given := h.getOrJoin given _ name
  get name h given := by
    refine h.onEngine ?_ _
    intro answer parent hparent
    obtain rfl := Option.some.inj hparent
    exact given
  compare _ _ h := h.onEngine_free (fun _ => rfl) _
  all _ h := h.onEngine_free (fun _ => rfl) _
  any _ h := h.onEngine_free (fun _ => rfl) _
  truth h := h.onEngine_free (fun _ => rfl) _

/-! ## Builds -/

section Builds

variable {e : QueryEngine σ ε Pos Attr Expr}

theorem sourced_toExpression (p : Predicate) {a : σ × List (EngineCall ε Pos Attr Expr)}
    (h : Sourced e.root a.2) : Sourced e.root (toExpression e.watched p a).2.2 := by
  have start : Supplied e.root ⟨a, .empty⟩ := ⟨h, by simp [JoinCache.empty]⟩
  obtain ⟨t, supplied, ht⟩ := (suppliedInvariant e).toExpression_stopped p start
  rw [← ht]
  exact supplied.calls

theorem sourced_applyHints : ∀ (hints : List String)
    {a : σ × List (EngineCall ε Pos Attr Expr)}, Sourced e.root a.2 →
      Sourced e.root (applyHints e.watched hints a).engine.2 := by
  intro hints
  induction hints with
  | nil => intro a h; exact h
  | cons name rest ih =>
      intro a h
      have fetched : Sourced e.root (e.watched.fetch name a).2.2 := by
        refine .call h ?_
        intro p hp
        cases hp
      simp only [applyHints]
      rcases hrun : e.watched.fetch name a with ⟨x | _, a'⟩
      · rw [hrun] at fetched
        exact ih fetched
      · rw [hrun] at fetched
        exact ih fetched

theorem sourced_markDistinct (applied : Bool) {a : σ × List (EngineCall ε Pos Attr Expr)}
    (h : Sourced e.root a.2) : Sourced e.root (markDistinct e.watched applied a).2.2 := by
  cases applied with
  | false => exact h
  | true =>
      have marked : Sourced e.root (e.watched.distinct a).2.2 := by
        refine .call h ?_
        intro p hp
        cases hp
      simp only [markDistinct, if_true, Call.mapError]
      rcases hrun : e.watched.distinct a with ⟨x | _, a'⟩
      · rw [hrun] at marked
        exact marked
      · rw [hrun] at marked
        exact marked

/-- A build joins and gets on the root and on the answers of its own earlier joins only. -/
theorem sourced_build (e : QueryEngine σ ε Pos Attr Expr) (cache : IntentCache) (i : Instance)
    (eager : Bool) (s : σ) : Sourced e.root (e.callsOf cache i eager s) := by
  rw [QueryEngine.callsOf]
  rcases hcriteria : (compile cache i).result with x | criteria
  · rw [build_of_compile_error hcriteria]
    exact .nil
  · rw [build_of_compile_ok hcriteria]
    have start : Sourced e.root (s, ([] : List (EngineCall ε Pos Attr Expr))).2 := .nil
    have fetched := sourced_applyHints (if eager then criteria.hints else []) start
    simp only [buildCompiled]
    have marked := sourced_markDistinct
      (applyHints e.watched (if eager then criteria.hints else []) (s, [])).applied fetched
    simp only [Call.bind]
    rcases hrun : markDistinct e.watched
        (applyHints e.watched (if eager then criteria.hints else []) (s, [])).applied
        (applyHints e.watched (if eager then criteria.hints else []) (s, [])).engine with
      ⟨x | _, a⟩
    · rw [hrun] at marked
      exact marked
    · rw [hrun] at marked
      exact sourced_toExpression criteria.predicate marked

end Builds

end CatalogSearch.Criteria
