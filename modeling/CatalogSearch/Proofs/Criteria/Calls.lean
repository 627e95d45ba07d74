import CatalogSearch.Proofs.Criteria.Translation

/-!
# Corresponding calls

Corresponding engines are called alike: the same operations in the same order, with corresponding
arguments and answers (`Correspondence.translate_alike`).

A position does not tell how it was reached, since an engine may give one position twice.  In
`e.labelled` each position also shows the trail that was joined to reach it, which tells what prefix
of a path a join is for; without the labels, its calls are those of `e`
(`unlabelled_translationCalls`).
-/

set_option autoImplicit false

namespace CatalogSearch.Criteria

/-! ## Answers and calls -/

section Answers

variable {ε σ₁ σ₂ α₁ α₂ : Type}

def AnswersAlike (R : α₁ → α₂ → Prop) : Except ε α₁ → Except ε α₂ → Prop
  | .ok a, .ok b => R a b
  | .error x, .error y => x = y
  | _, _ => False

theorem alike_iff {S : σ₁ → σ₂ → Prop} {R : α₁ → α₂ → Prop} {r₁ : Except ε α₁ × σ₁}
    {r₂ : Except ε α₂ × σ₂} : Alike S R r₁ r₂ ↔ AnswersAlike R r₁.1 r₂.1 ∧ S r₁.2 r₂.2 := by
  rcases r₁ with ⟨x | a, s⟩ <;> rcases r₂ with ⟨y | b, t⟩
  · exact Iff.rfl
  · exact ⟨False.elim, fun h => h.1⟩
  · exact ⟨False.elim, fun h => h.1⟩
  · exact Iff.rfl

theorem answersAlike_eq {r₁ r₂ : Except ε α₁} : AnswersAlike Eq r₁ r₂ ↔ r₁ = r₂ := by
  rcases r₁ with x | a <;> rcases r₂ with y | b <;> simp [AnswersAlike]

end Answers

variable {ε Pos₁ Pos₂ Attr₁ Attr₂ Expr₁ Expr₂ : Type}

/-- Two calls of one operation of a translation, with arguments and answers in the given relations;
fetches and `distinct` are no such operations. -/
inductive CallAlike (Place : Pos₁ → Pos₂ → Prop) (Name : Attr₁ → Attr₂ → Prop)
    (Term : Expr₁ → Expr₂ → Prop) :
    EngineCall ε Pos₁ Attr₁ Expr₁ → EngineCall ε Pos₂ Attr₂ Expr₂ → Prop
  | join {p q r₁ r₂} (name : String) (parents : Place p q) (answers : AnswersAlike Place r₁ r₂) :
      CallAlike Place Name Term (.join p name r₁) (.join q name r₂)
  | get {p q r₁ r₂} (name : String) (parents : Place p q) (answers : AnswersAlike Name r₁ r₂) :
      CallAlike Place Name Term (.get p name r₁) (.get q name r₂)
  | compare {a b r₁ r₂} (c : Comparison) (attrs : Name a b) (answers : AnswersAlike Term r₁ r₂) :
      CallAlike Place Name Term (.compare a c r₁) (.compare b c r₂)
  | all {xs ys r₁ r₂} (operands : List.Forall₂ Term xs ys) (answers : AnswersAlike Term r₁ r₂) :
      CallAlike Place Name Term (.all xs r₁) (.all ys r₂)
  | any {xs ys r₁ r₂} (operands : List.Forall₂ Term xs ys) (answers : AnswersAlike Term r₁ r₂) :
      CallAlike Place Name Term (.any xs r₁) (.any ys r₂)
  | truth {r₁ r₂} (answers : AnswersAlike Term r₁ r₂) :
      CallAlike Place Name Term (.truth r₁) (.truth r₂)

/-! ## Watching both engines -/

section Watched

variable {σ σ₁ σ₂ Pos Attr Expr α₁ α₂ : Type}

def QueryEngine.translationCalls (e : QueryEngine σ ε Pos Attr Expr) (p : Predicate) (s : σ) :
    List (EngineCall ε Pos Attr Expr) := (toExpression e.watched p (s, [])).2.2

variable {e₁ : QueryEngine σ₁ ε Pos₁ Attr₁ Expr₁} {e₂ : QueryEngine σ₂ ε Pos₂ Attr₂ Expr₂}

namespace Correspondence

variable (m : Correspondence e₁ e₂)

abbrev Calls : List (EngineCall ε Pos₁ Attr₁ Expr₁) → List (EngineCall ε Pos₂ Attr₂ Expr₂) → Prop :=
  List.Forall₂ (CallAlike m.Place m.Name m.Term)

def Watched (a : σ₁ × List (EngineCall ε Pos₁ Attr₁ Expr₁))
    (b : σ₂ × List (EngineCall ε Pos₂ Attr₂ Expr₂)) : Prop :=
  m.State a.1 b.1 ∧ m.Calls a.2 b.2

theorem watching_watched {R : α₁ → α₂ → Prop}
    {call₁ : Except ε α₁ → EngineCall ε Pos₁ Attr₁ Expr₁}
    {call₂ : Except ε α₂ → EngineCall ε Pos₂ Attr₂ Expr₂} {c₁ : Call σ₁ ε α₁} {c₂ : Call σ₂ ε α₂}
    {a : σ₁ × List (EngineCall ε Pos₁ Attr₁ Expr₁)} {b : σ₂ × List (EngineCall ε Pos₂ Attr₂ Expr₂)}
    (calls : m.Calls a.2 b.2)
    (written : ∀ r₁ r₂, AnswersAlike R r₁ r₂ →
      CallAlike m.Place m.Name m.Term (call₁ r₁) (call₂ r₂))
    (h : Alike m.State R (c₁ a.1) (c₂ b.1)) :
    Alike m.Watched R (watching call₁ c₁ a) (watching call₂ c₂ b) := by
  obtain ⟨hanswers, hstate⟩ := alike_iff.mp h
  exact alike_iff.mpr
    ⟨hanswers, hstate, List.rel_append calls (.cons (written _ _ hanswers) .nil)⟩

def watched : Correspondence e₁.watched e₂.watched where
  State := m.Watched
  Place := m.Place
  Name := m.Name
  Term := m.Term
  root := m.root
  isNull := m.isNull
  join name h hpq := m.watching_watched h.2 (fun _ _ => .join name hpq) (m.join name h.1 hpq)
  get name h hpq := m.watching_watched h.2 (fun _ _ => .get name hpq) (m.get name h.1 hpq)
  compare c h hab := m.watching_watched h.2 (fun _ _ => .compare c hab) (m.compare c h.1 hab)
  all h hxs := m.watching_watched h.2 (fun _ _ => .all hxs) (m.all h.1 hxs)
  any h hxs := m.watching_watched h.2 (fun _ _ => .any hxs) (m.any h.1 hxs)
  truth h := m.watching_watched h.2 (fun _ _ => .truth) (m.truth h.1)

theorem translate_alike (p : Predicate) {s : σ₁} {t : σ₂} (h : m.State s t) :
    Alike m.State m.Term (toExpression e₁ p s) (toExpression e₂ p t) ∧
      m.Calls (e₁.translationCalls p s) (e₂.translationCalls p t) := by
  have alike := m.watched.toExpression_alike p (s := (s, [])) (t := (t, [])) ⟨h, .nil⟩
  exact ⟨m.toExpression_alike p h, (alike_iff.mp alike).2.2⟩

end Correspondence

end Watched

/-! ## Labels -/

section Labelled

variable {σ Pos Attr Expr : Type}

/-- The engine, each of whose positions shows the trail that was joined to reach it. -/
def QueryEngine.labelled (e : QueryEngine σ ε Pos Attr Expr) :
    QueryEngine σ ε (String × Pos) Attr Expr where
  root := ("", e.root)
  isNull p := e.isNull p.2
  join p name := Call.bind (e.join p.2 name) fun q => Call.pure (extendTrail p.1 name, q)
  get p name := e.get p.2 name
  fetch := e.fetch
  distinct := e.distinct
  compare := e.compare
  all := e.all
  any := e.any
  truth := e.truth
  describe := e.describe

def labelledCorrespondence (e : QueryEngine σ ε Pos Attr Expr) : Correspondence e.labelled e where
  State := Eq
  Place p q := p.2 = q
  Name := Eq
  Term := Eq
  root := rfl
  isNull := by rintro p _ rfl; rfl
  join := by
    rintro s _ p _ name rfl rfl
    simp only [QueryEngine.labelled, Call.bind, Call.pure]
    rcases e.join p.2 name s with ⟨x | q, s'⟩ <;> exact ⟨rfl, rfl⟩
  get := by rintro s _ p _ name rfl rfl; exact Alike.refl _
  compare := by rintro s _ a _ c rfl rfl; exact Alike.refl _
  all := by
    rintro s _ xs ys rfl h
    obtain rfl := List.forall₂_eq_eq_eq ▸ h
    exact Alike.refl _
  any := by
    rintro s _ xs ys rfl h
    obtain rfl := List.forall₂_eq_eq_eq ▸ h
    exact Alike.refl _
  truth := by rintro s _ rfl; exact Alike.refl _

namespace EngineCall

def unlabelled : EngineCall ε (String × Pos) Attr Expr → EngineCall ε Pos Attr Expr
  | join parent name answer => .join parent.2 name (answer.map Prod.snd)
  | get parent name answer => .get parent.2 name answer
  | fetch name answer => .fetch name answer
  | distinct answer => .distinct answer
  | compare attr comparison answer => .compare attr comparison answer
  | all operands answer => .all operands answer
  | any operands answer => .any operands answer
  | truth answer => .truth answer

def trail? : EngineCall ε (String × Pos) Attr Expr → Option String
  | join parent name _ => some (extendTrail parent.1 name)
  | _ => none

end EngineCall

theorem unlabelled_of_alike {e : QueryEngine σ ε Pos Attr Expr}
    {call : EngineCall ε (String × Pos) Attr Expr} {call' : EngineCall ε Pos Attr Expr}
    (h : CallAlike (labelledCorrespondence e).Place Eq Eq call call') :
    call.unlabelled = call' := by
  cases h with
  | @join p q r₁ r₂ name parents answers =>
      have hanswer : r₁.map Prod.snd = r₂ := by
        rcases r₁ with x | a <;> rcases r₂ with y | b
        · exact congrArg Except.error answers
        · exact answers.elim
        · exact answers.elim
        · exact congrArg Except.ok answers
      rw [← hanswer, ← (parents : p.2 = q)]
      rfl
  | @get p q r₁ r₂ name parents answers =>
      rw [← answersAlike_eq.mp answers, ← (parents : p.2 = q)]
      rfl
  | compare c attrs answers => rw [attrs, answersAlike_eq.mp answers]; rfl
  | all operands answers =>
      obtain rfl := List.forall₂_eq_eq_eq ▸ operands
      rw [answersAlike_eq.mp answers]
      rfl
  | any operands answers =>
      obtain rfl := List.forall₂_eq_eq_eq ▸ operands
      rw [answersAlike_eq.mp answers]
      rfl
  | truth answers => rw [answersAlike_eq.mp answers]; rfl

theorem unlabelled_translationCalls (e : QueryEngine σ ε Pos Attr Expr) (p : Predicate) (s : σ) :
    (e.labelled.translationCalls p s).map EngineCall.unlabelled = e.translationCalls p s := by
  have calls := ((labelledCorrespondence e).translate_alike p (s := s) (t := s) rfl).2
  rw [← List.forall₂_eq_eq_eq, List.forall₂_map_left_iff]
  exact calls.imp fun _ _ => unlabelled_of_alike

end Labelled

end CatalogSearch.Criteria
