import CatalogSearch.Criteria.Build
import Mathlib.Data.List.Forall2

/-!
# Corresponding engines

Two engines correspond when their roots do and every operation but a fetch or `distinct`, given
corresponding arguments in corresponding states, ends alike: with corresponding answers, or with
the same error.  Main statement: they then translate every predicate alike
(`Correspondence.toExpression_alike`), because the join caches of the two translations hold
corresponding positions under the same trails.  Engines that correspond in fetches and `distinct`
too also build alike, with the same log (`BuildCorrespondence.buildCompiled_alike`).
-/

set_option autoImplicit false

namespace CatalogSearch.Criteria

section Runs

variable {σ₁ σ₂ ε ε' α₁ α₂ β₁ β₂ : Type}

/-- The runs answer in relation `R` or fail with one error, and leave states in relation `S`. -/
def Alike (S : σ₁ → σ₂ → Prop) (R : α₁ → α₂ → Prop) :
    Except ε α₁ × σ₁ → Except ε α₂ × σ₂ → Prop
  | (.ok a, s), (.ok b, t) => R a b ∧ S s t
  | (.error x, s), (.error y, t) => x = y ∧ S s t
  | (.ok _, _), (.error _, _) => False
  | (.error _, _), (.ok _, _) => False

theorem Alike.bind {S : σ₁ → σ₂ → Prop} {R : α₁ → α₂ → Prop} {Q : β₁ → β₂ → Prop}
    {c₁ : Call σ₁ ε α₁} {c₂ : Call σ₂ ε α₂} {f₁ : α₁ → Call σ₁ ε β₁} {f₂ : α₂ → Call σ₂ ε β₂}
    {s : σ₁} {t : σ₂} (first : Alike S R (c₁ s) (c₂ t))
    (next : ∀ a b s t, R a b → S s t → Alike S Q (f₁ a s) (f₂ b t)) :
    Alike S Q (Call.bind c₁ f₁ s) (Call.bind c₂ f₂ t) := by
  revert first
  simp only [Call.bind]
  rcases c₁ s with ⟨_ | a, s'⟩ <;> rcases c₂ t with ⟨_ | b, t'⟩ <;> intro first
  · exact first
  · exact first.elim
  · exact first.elim
  · exact next a b s' t' first.1 first.2

theorem Alike.mapError {S : σ₁ → σ₂ → Prop} {R : α₁ → α₂ → Prop} (f : ε → ε')
    {c₁ : Call σ₁ ε α₁} {c₂ : Call σ₂ ε α₂} {s : σ₁} {t : σ₂} (h : Alike S R (c₁ s) (c₂ t)) :
    Alike S R (Call.mapError f c₁ s) (Call.mapError f c₂ t) := by
  revert h
  simp only [Call.mapError]
  rcases c₁ s with ⟨_ | a, s'⟩ <;> rcases c₂ t with ⟨_ | b, t'⟩ <;> intro h
  · exact ⟨congrArg f h.1, h.2⟩
  · exact h.elim
  · exact h.elim
  · exact h

theorem Alike.refl {σ α : Type} (run : Except ε α × σ) : Alike Eq Eq run run := by
  rcases run with ⟨x | a, s⟩ <;> exact ⟨rfl, rfl⟩

theorem Alike.eq {S : σ₁ → σ₂ → Prop} {r₁ : Except ε α₁ × σ₁} {r₂ : Except ε α₁ × σ₂}
    (h : Alike S Eq r₁ r₂) : r₁.1 = r₂.1 ∧ S r₁.2 r₂.2 := by
  rcases r₁ with ⟨x | a, s⟩ <;> rcases r₂ with ⟨y | b, t⟩
  · exact ⟨congrArg Except.error h.1, h.2⟩
  · exact h.elim
  · exact h.elim
  · exact ⟨congrArg Except.ok h.1, h.2⟩

theorem Alike.join {γ : Type} {σ : Type} {R₁ : α₁ → γ → Prop} {R₂ : α₂ → γ → Prop}
    {R : α₁ → α₂ → Prop} {r₁ : Except ε α₁ × σ} {r₂ : Except ε α₂ × σ} {r : Except ε γ × σ}
    (first : Alike Eq R₁ r₁ r) (second : Alike Eq R₂ r₂ r)
    (answers : ∀ a b c, R₁ a c → R₂ b c → R a b) : Alike Eq R r₁ r₂ := by
  rcases r with ⟨x | c, s⟩
  · rcases r₁ with ⟨y | a, s₁⟩
    · rcases r₂ with ⟨z | b, s₂⟩
      · exact ⟨first.1.trans second.1.symm, first.2.trans second.2.symm⟩
      · exact second.elim
    · exact first.elim
  · rcases r₁ with ⟨y | a, s₁⟩
    · exact first.elim
    · rcases r₂ with ⟨z | b, s₂⟩
      · exact second.elim
      · exact ⟨answers a b c first.1 second.1, first.2.trans second.2.symm⟩

end Runs

variable {σ₁ σ₂ ε Pos₁ Pos₂ Attr₁ Attr₂ Expr₁ Expr₂ : Type}

structure Correspondence (e₁ : QueryEngine σ₁ ε Pos₁ Attr₁ Expr₁)
    (e₂ : QueryEngine σ₂ ε Pos₂ Attr₂ Expr₂) where
  State : σ₁ → σ₂ → Prop
  Place : Pos₁ → Pos₂ → Prop
  Name : Attr₁ → Attr₂ → Prop
  Term : Expr₁ → Expr₂ → Prop
  root : Place e₁.root e₂.root
  isNull : ∀ {p q}, Place p q → e₁.isNull p = e₂.isNull q
  join : ∀ {s t p q} (name : String), State s t → Place p q →
    Alike State Place (e₁.join p name s) (e₂.join q name t)
  get : ∀ {s t p q} (name : String), State s t → Place p q →
    Alike State Name (e₁.get p name s) (e₂.get q name t)
  compare : ∀ {s t a b} (c : Comparison), State s t → Name a b →
    Alike State Term (e₁.compare a c s) (e₂.compare b c t)
  all : ∀ {s t xs ys}, State s t → List.Forall₂ Term xs ys →
    Alike State Term (e₁.all xs s) (e₂.all ys t)
  any : ∀ {s t xs ys}, State s t → List.Forall₂ Term xs ys →
    Alike State Term (e₁.any xs s) (e₂.any ys t)
  truth : ∀ {s t}, State s t → Alike State Term (e₁.truth s) (e₂.truth t)

namespace Correspondence

def refl (e : QueryEngine σ₁ ε Pos₁ Attr₁ Expr₁) : Correspondence e e where
  State := Eq
  Place := Eq
  Name := Eq
  Term := Eq
  root := rfl
  isNull := by rintro p _ rfl; rfl
  join := by rintro s _ p _ name rfl rfl; exact Alike.refl _
  get := by rintro s _ p _ name rfl rfl; exact Alike.refl _
  compare := by rintro s _ a _ c rfl rfl; exact Alike.refl _
  all := by
    rintro s _ xs ys rfl h
    obtain rfl := List.forall₂_eq_eq_eq ▸ h
    exact Alike.refl _
  any := by
    rintro s _ xs ys rfl h
    obtain rfl := List.forall₂_eq_eq_eq ▸ h
    exact Alike.refl _
  truth := by rintro s _ rfl; exact Alike.refl _

variable {e₁ : QueryEngine σ₁ ε Pos₁ Attr₁ Expr₁} {e₂ : QueryEngine σ₂ ε Pos₂ Attr₂ Expr₂}
variable (m : Correspondence e₁ e₂)

def Entries : List (String × Pos₁) → List (String × Pos₂) → Prop :=
  List.Forall₂ fun a b => a.1 = b.1 ∧ m.Place a.2 b.2

def Running (t₁ : Traversal σ₁ Pos₁) (t₂ : Traversal σ₂ Pos₂) : Prop :=
  m.State t₁.engine t₂.engine ∧ m.Entries t₁.joined.entries t₂.joined.entries

theorem lookup_alike (trail : String) {l₁ : List (String × Pos₁)} {l₂ : List (String × Pos₂)}
    (h : m.Entries l₁ l₂) :
    (l₁.lookup trail = none ∧ l₂.lookup trail = none) ∨
      ∃ p q, l₁.lookup trail = some p ∧ l₂.lookup trail = some q ∧ m.Place p q := by
  induction h with
  | nil => exact Or.inl ⟨rfl, rfl⟩
  | @cons a b rest₁ rest₂ hab _ ih =>
      obtain ⟨key, p⟩ := a
      obtain ⟨_, q⟩ := b
      obtain ⟨rfl, hpq⟩ := hab
      by_cases hk : trail = key
      · subst hk
        exact Or.inr ⟨p, q, by simp, by simp, hpq⟩
      · have hk' : (trail == key) = false := by simpa using hk
        simpa only [List.lookup_cons, hk'] using ih

theorem put_alike (trail : String) {p : Pos₁} {q : Pos₂} (hpq : m.Place p q)
    {l₁ : List (String × Pos₁)} {l₂ : List (String × Pos₂)} (h : m.Entries l₁ l₂) :
    m.Entries (put trail p l₁) (put trail q l₂) := by
  induction h with
  | nil => exact .cons ⟨rfl, hpq⟩ .nil
  | @cons a b rest₁ rest₂ hab hrest ih =>
      obtain ⟨key, _⟩ := a
      obtain ⟨_, _⟩ := b
      obtain ⟨rfl, hold⟩ := hab
      simp only [put]
      by_cases hk : key = trail
      · rw [if_pos hk, if_pos hk]
        exact .cons ⟨rfl, hpq⟩ hrest
      · rw [if_neg hk, if_neg hk]
        exact .cons ⟨rfl, hold⟩ ih

theorem knownPosition_alike (trail : String) {c₁ : JoinCache Pos₁} {c₂ : JoinCache Pos₂}
    (h : m.Entries c₁.entries c₂.entries) :
    (knownPosition? e₁ c₁ trail = none ∧ knownPosition? e₂ c₂ trail = none) ∨
      ∃ p q, knownPosition? e₁ c₁ trail = some p ∧ knownPosition? e₂ c₂ trail = some q ∧
        m.Place p q := by
  simp only [knownPosition?, JoinCache.get?]
  rcases m.lookup_alike trail h with ⟨h₁, h₂⟩ | ⟨p, q, h₁, h₂, hpq⟩
  · exact Or.inl ⟨by rw [h₁], by rw [h₂]⟩
  · simp only [h₁, h₂, m.isNull hpq]
    cases e₂.isNull q
    · exact Or.inr ⟨p, q, rfl, rfl, hpq⟩
    · exact Or.inl ⟨rfl, rfl⟩

theorem onEngine_alike {α₁ α₂ : Type} {R : α₁ → α₂ → Prop} {c₁ : Call σ₁ ε α₁}
    {c₂ : Call σ₂ ε α₂} {t₁ : Traversal σ₁ Pos₁} {t₂ : Traversal σ₂ Pos₂} (h : m.Running t₁ t₂)
    (hc : Alike m.State R (c₁ t₁.engine) (c₂ t₂.engine)) :
    Alike m.Running R (onEngine c₁ t₁) (onEngine c₂ t₂) := by
  revert hc
  simp only [onEngine]
  rcases c₁ t₁.engine with ⟨_ | a, s'⟩ <;> rcases c₂ t₂.engine with ⟨_ | b, t'⟩ <;> intro hc
  · exact ⟨hc.1, hc.2, h.2⟩
  · exact hc.elim
  · exact hc.elim
  · exact ⟨hc.1, hc.2, h.2⟩

theorem getOrJoin_alike {p : Pos₁} {q : Pos₂} (hpq : m.Place p q) (trail name : String)
    {t₁ : Traversal σ₁ Pos₁} {t₂ : Traversal σ₂ Pos₂} (h : m.Running t₁ t₂) :
    Alike m.Running m.Place (getOrJoin e₁ p trail name t₁) (getOrJoin e₂ q trail name t₂) := by
  simp only [getOrJoin]
  rcases m.knownPosition_alike trail h.2 with ⟨h₁, h₂⟩ | ⟨p', q', h₁, h₂, hpq'⟩
  · simp only [h₁, h₂]
    refine Alike.bind (m.onEngine_alike h (m.join name h.1 hpq)) ?_
    intro p' q' t₁' t₂' hp' ht'
    exact ⟨hp', ht'.1, m.put_alike trail hp' ht'.2⟩
  · simp only [h₁, h₂]
    exact ⟨hpq', h⟩

theorem follow_alike : ∀ (names : List String) (trail : String) {p : Pos₁} {q : Pos₂}
    {t₁ : Traversal σ₁ Pos₁} {t₂ : Traversal σ₂ Pos₂}, m.Place p q → m.Running t₁ t₂ →
    Alike m.Running m.Place (follow e₁ p trail names t₁) (follow e₂ q trail names t₂) := by
  intro names
  induction names with
  | nil => intro trail p q t₁ t₂ hpq h; exact ⟨hpq, h⟩
  | cons name rest ih =>
      intro trail p q t₁ t₂ hpq h
      refine Alike.bind (m.getOrJoin_alike hpq (extendTrail trail name) name h) ?_
      intro p' q' t₁' t₂' hpq' h'
      exact ih (extendTrail trail name) hpq' h'

theorem resolve_alike (path : String) {t₁ : Traversal σ₁ Pos₁} {t₂ : Traversal σ₂ Pos₂}
    (h : m.Running t₁ t₂) :
    Alike m.Running m.Name (resolve e₁ path t₁) (resolve e₂ path t₂) := by
  refine Alike.bind (m.follow_alike (relationshipsOf path) "" m.root h) ?_
  intro p q t₁' t₂' hpq h'
  exact m.onEngine_alike h' (m.get (attributeOf path) h'.1 hpq)

mutual

theorem express_alike (p : Predicate) {t₁ : Traversal σ₁ Pos₁} {t₂ : Traversal σ₂ Pos₂}
    (h : m.Running t₁ t₂) : Alike m.Running m.Term (express e₁ p t₁) (express e₂ p t₂) := by
  match p with
  | .leaf path c =>
      simp only [express]
      refine Alike.mapError _ (Alike.bind (m.resolve_alike path h) ?_)
      intro a b t₁' t₂' hab h'
      exact m.onEngine_alike h' (m.compare c h'.1 hab)
  | .unsupported path c =>
      simp only [express]
      refine Alike.bind (Alike.mapError _ (m.resolve_alike path h)) ?_
      intro a b t₁' t₂' _ h'
      exact ⟨rfl, h'⟩
  | .anyOf operands =>
      simp only [express]
      refine Alike.bind (expressAll_alike operands h) ?_
      intro xs ys t₁' t₂' hxs h'
      exact Alike.mapError _ (m.onEngine_alike h' (m.any h'.1 hxs))
  | .allOf [] =>
      simp only [express]
      exact Alike.mapError _ (m.onEngine_alike h (m.truth h.1))
  | .allOf (p :: rest) =>
      simp only [express]
      refine Alike.bind (express_alike p h) ?_
      intro x y t₁' t₂' hxy h'
      refine Alike.bind (expressAll_alike rest h') ?_
      intro xs ys t₁'' t₂'' hxs h''
      exact Alike.mapError _ (m.onEngine_alike h'' (m.all h''.1 (.cons hxy hxs)))

theorem expressAll_alike (ps : List Predicate) {t₁ : Traversal σ₁ Pos₁}
    {t₂ : Traversal σ₂ Pos₂} (h : m.Running t₁ t₂) :
    Alike m.Running (List.Forall₂ m.Term) (expressAll e₁ ps t₁) (expressAll e₂ ps t₂) := by
  match ps with
  | [] => exact ⟨.nil, h⟩
  | p :: rest =>
      simp only [expressAll]
      refine Alike.bind (express_alike p h) ?_
      intro x y t₁' t₂' hxy h'
      refine Alike.bind (expressAll_alike rest h') ?_
      intro xs ys t₁'' t₂'' hxs h''
      exact ⟨.cons hxy hxs, h''⟩

end

theorem toExpression_alike (p : Predicate) {s : σ₁} {t : σ₂} (h : m.State s t) :
    Alike m.State m.Term (toExpression e₁ p s) (toExpression e₂ p t) := by
  have alike : Alike m.Running m.Term (express e₁ p ⟨s, .empty⟩) (express e₂ p ⟨t, .empty⟩) :=
    m.express_alike p ⟨h, .nil⟩
  revert alike
  simp only [toExpression]
  rcases express e₁ p ⟨s, .empty⟩ with ⟨_ | a, s'⟩ <;>
    rcases express e₂ p ⟨t, .empty⟩ with ⟨_ | b, t'⟩ <;> intro alike
  · exact ⟨alike.1, alike.2.1⟩
  · exact alike.elim
  · exact alike.elim
  · exact ⟨alike.1, alike.2.1⟩

end Correspondence

/-! ## Builds -/

/-- Engines that correspond in fetches and in `distinct` too. -/
structure BuildCorrespondence (e₁ : QueryEngine σ₁ ε Pos₁ Attr₁ Expr₁)
    (e₂ : QueryEngine σ₂ ε Pos₂ Attr₂ Expr₂) extends Correspondence e₁ e₂ where
  fetch : ∀ {s t} (name : String), State s t →
    Alike State Eq (e₁.fetch name s) (e₂.fetch name t)
  distinct : ∀ {s t}, State s t → Alike State Eq (e₁.distinct s) (e₂.distinct t)
  describe : e₁.describe = e₂.describe

namespace BuildCorrespondence

variable {e₁ : QueryEngine σ₁ ε Pos₁ Attr₁ Expr₁} {e₂ : QueryEngine σ₂ ε Pos₂ Attr₂ Expr₂}
variable (m : BuildCorrespondence e₁ e₂)

/-- The two runs fetch alike: fetches fail for the same hints and the same reasons. -/
theorem applyHints_alike : ∀ (hints : List String) {s : σ₁} {t : σ₂}, m.State s t →
    (applyHints e₁ hints s).applied = (applyHints e₂ hints t).applied ∧
      (applyHints e₁ hints s).log = (applyHints e₂ hints t).log ∧
      m.State (applyHints e₁ hints s).engine (applyHints e₂ hints t).engine := by
  intro hints
  induction hints with
  | nil => intro s t h; exact ⟨rfl, rfl, h⟩
  | cons name rest ih =>
      intro s t h
      have alike := m.fetch name h
      revert alike
      simp only [applyHints]
      rcases e₁.fetch name s with ⟨x | _, s'⟩ <;> rcases e₂.fetch name t with ⟨y | _, t'⟩ <;>
        intro alike
      · obtain ⟨rfl, h'⟩ := alike
        obtain ⟨happlied, hlog, hstate⟩ := ih h'
        simp only [hlog, m.describe]
        exact ⟨happlied, trivial, hstate⟩
      · exact alike.elim
      · exact alike.elim
      · obtain ⟨_, hlog, hstate⟩ := ih alike.2
        exact ⟨rfl, hlog, hstate⟩

theorem markDistinct_alike (applied : Bool) {s : σ₁} {t : σ₂} (h : m.State s t) :
    Alike m.State Eq (markDistinct e₁ applied s) (markDistinct e₂ applied t) := by
  cases applied with
  | false => exact ⟨rfl, h⟩
  | true => exact Alike.mapError _ (m.distinct h)

theorem buildCompiled_alike (eager : Bool) (c : CompiledCriteria) {s : σ₁} {t : σ₂}
    (h : m.State s t) :
    Alike m.State m.Term (buildCompiled e₁ eager c s).1 (buildCompiled e₂ eager c t).1 ∧
      (buildCompiled e₁ eager c s).2 = (buildCompiled e₂ eager c t).2 := by
  obtain ⟨happlied, hlog, hstate⟩ := m.applyHints_alike (if eager then c.hints else []) h
  simp only [buildCompiled, happlied]
  refine ⟨Alike.bind (m.markDistinct_alike _ hstate) ?_, hlog⟩
  intro _ _ s' t' _ h'
  exact m.toExpression_alike c.predicate h'

end BuildCorrespondence

end CatalogSearch.Criteria
