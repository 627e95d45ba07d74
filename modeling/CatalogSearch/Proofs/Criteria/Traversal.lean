import CatalogSearch.Criteria.Traversal
import CatalogSearch.Proofs.Call
import CatalogSearch.Proofs.Keyed
import CatalogSearch.Proofs.Criteria.Trails

/-!
# What a traversal remembers

Where no position is null, a cache never drops or replaces what it holds, and the position that a
path leads to is what the cache then holds under the text of the path's trail.  Main statement:
`resolve_remembers`.  Nothing is asked of the paths: two trails that share a text share a position.
-/

set_option autoImplicit false

namespace CatalogSearch.Criteria

variable {σ ε Pos Attr Expr α : Type}

theorem onEngine_eq_ok {c : Call σ ε α} {t t' : Traversal σ Pos} {a : α} :
    onEngine c t = (.ok a, t') ↔ ∃ s, c t.engine = (.ok a, s) ∧ t' = { t with engine := s } := by
  simp only [onEngine]
  rcases c t.engine with ⟨_ | b, s⟩ <;> simp [eq_comm]

theorem knownPosition?_eq_some {e : QueryEngine σ ε Pos Attr Expr} {c : JoinCache Pos} {trail : String}
    {p : Pos} : knownPosition? e c trail = some p ↔ c.get? trail = some p ∧ e.isNull p = false := by
  simp only [knownPosition?]
  rcases c.get? trail with _ | q
  · simp
  · by_cases hnull : e.isNull q = true
    · simp only [hnull, if_true, reduceCtorEq, Option.some.injEq, false_iff]
      rintro ⟨rfl, h⟩
      exact absurd (hnull.symm.trans h) (by decide)
    · simp only [if_neg hnull, Option.some.injEq]
      exact ⟨fun h => ⟨h, h ▸ eq_false_of_ne_true hnull⟩, fun h => h.1⟩

def JoinCache.Within (c c' : JoinCache Pos) : Prop :=
  ∀ trail p, c.get? trail = some p → c'.get? trail = some p

theorem within_refl (c : JoinCache Pos) : c.Within c := fun _ _ h => h

theorem JoinCache.Within.trans {c c' c'' : JoinCache Pos} (first : c.Within c')
    (second : c'.Within c'') : c.Within c'' :=
  fun trail p h => second trail p (first trail p h)

theorem insert_of_get?_eq_none {c : JoinCache Pos} {trail : String} (h : c.get? trail = none)
    (p : Pos) : c.Within (c.insert trail p) ∧ (c.insert trail p).get? trail = some p := by
  have hentries : (c.insert trail p).entries = c.entries ++ [(trail, p)] :=
    put_of_lookup_eq_none trail p c.entries h
  have hget : ∀ other, (c.insert trail p).get? other =
      (c.get? other).or ([(trail, p)].lookup other) := by
    intro other
    rw [JoinCache.get?, hentries, List.lookup_append]
    rfl
  refine ⟨?_, ?_⟩
  · intro other q hq
    rw [hget, hq, Option.some_or]
  · rw [hget, h, Option.none_or]
    simp

def placeIn (root : Pos) (c : JoinCache Pos) (path : String) : Pos :=
  if relationshipsOf path = [] then root else (c.get? (trailText (relationshipsOf path))).getD root

section Remembers

variable {e : QueryEngine σ ε Pos Attr Expr} (notNull : ∀ p, e.isNull p = false)
include notNull

theorem getOrJoin_remembers {p q : Pos} {trail name : String} {t t' : Traversal σ Pos}
    (h : getOrJoin e p trail name t = (.ok q, t')) :
    t.joined.Within t'.joined ∧ t'.joined.get? trail = some q := by
  have hknown : knownPosition? e t.joined trail = t.joined.get? trail := by
    simp only [knownPosition?]
    rcases t.joined.get? trail with _ | known <;> simp [notNull]
  simp only [getOrJoin, hknown] at h
  rcases hget : t.joined.get? trail with _ | known
  · simp only [hget] at h
    obtain ⟨q', t₁, hjoin, hrest⟩ := Call.bind_eq_ok.mp h
    obtain ⟨s, _, rfl⟩ := onEngine_eq_ok.mp hjoin
    obtain ⟨_, t₂, hremember, hpure⟩ := Call.bind_eq_ok.mp hrest
    obtain ⟨_, rfl⟩ := Prod.mk.inj hremember
    obtain ⟨hq, rfl⟩ := Prod.mk.inj hpure
    obtain rfl := Except.ok.inj hq
    exact insert_of_get?_eq_none hget q'
  · simp only [hget, Prod.mk.injEq, Except.ok.injEq] at h
    obtain ⟨rfl, rfl⟩ := h
    exact ⟨within_refl _, hget⟩

theorem follow_remembers : ∀ (names : List String) {p q : Pos} {trail : String}
    {t t' : Traversal σ Pos}, follow e p trail names t = (.ok q, t') →
      t.joined.Within t'.joined ∧
        if names = [] then q = p
        else t'.joined.get? (names.foldl extendTrail trail) = some q := by
  intro names
  induction names with
  | nil =>
      intro p q trail t t' h
      obtain ⟨hq, rfl⟩ := Prod.mk.inj h
      exact ⟨within_refl _, (Except.ok.inj hq).symm⟩
  | cons name rest ih =>
      intro p q trail t t' h
      obtain ⟨p', t₁, hjoin, hrest⟩ := Call.bind_eq_ok.mp h
      obtain ⟨hfirst, hget⟩ := getOrJoin_remembers notNull hjoin
      obtain ⟨hlater, hq⟩ := ih hrest
      refine ⟨hfirst.trans hlater, ?_⟩
      rw [if_neg (by simp), List.foldl_cons]
      by_cases hnil : rest = []
      · subst hnil
        rw [if_pos rfl] at hq
        exact hlater _ _ (hq ▸ hget)
      · rwa [if_neg hnil] at hq

/-- The attribute of a path is read at the position that the cache has for the path from then on. -/
theorem resolve_remembers {path : String} {a : Attr} {t t' : Traversal σ Pos}
    (h : resolve e path t = (.ok a, t')) :
    t.joined.Within t'.joined ∧ ∀ c, t'.joined.Within c →
      ∃ s s', e.get (placeIn e.root c path) (attributeOf path) s = (.ok a, s') := by
  obtain ⟨p, t₁, hfollow, hget⟩ := Call.bind_eq_ok.mp h
  obtain ⟨hwithin, hp⟩ := follow_remembers notNull _ hfollow
  obtain ⟨s, hs, rfl⟩ := onEngine_eq_ok.mp hget
  refine ⟨hwithin, fun c hc => ⟨t₁.engine, s, ?_⟩⟩
  have hplace : placeIn e.root c path = p := by
    rw [placeIn]
    by_cases hnil : relationshipsOf path = []
    · rw [if_pos hnil] at hp ⊢
      exact hp.symm
    · rw [if_neg hnil] at hp ⊢
      rw [trailText, hc _ _ hp, Option.getD_some]
  rw [hplace]
  exact hs

end Remembers

end CatalogSearch.Criteria
