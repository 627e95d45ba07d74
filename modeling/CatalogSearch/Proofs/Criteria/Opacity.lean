import CatalogSearch.Proofs.Criteria.Calls
import CatalogSearch.Proofs.Criteria.Invariant

/-!
# What a translation looks at in a position

Of a position a translation asks only whether it is null.  Main statement: `opaque_positions`.  On
engines that correspond but for that, translations end alike after corresponding calls if neither
joins a trail twice, or if corresponding positions are null together; and a trail is joined again only
after every earlier join of it gave a null position.

So a null position is where positions are not opaque: its trail is joined again for every path that
goes on from it (`null_position_joined_again`).
-/

set_option autoImplicit false

namespace CatalogSearch.Criteria

variable {σ ε ε' Pos Attr Expr α β : Type}

abbrev Labelled (σ ε Pos Attr Expr : Type) : Type :=
  Traversal (σ × List (EngineCall ε (String × Pos) Attr Expr)) (String × Pos)

/-- The engine, none of whose positions counts as null. -/
def QueryEngine.unmarked (e : QueryEngine σ ε Pos Attr Expr) : QueryEngine σ ε Pos Attr Expr :=
  { e with isNull := fun _ => false }

/-- A join that was given a null position. -/
def EngineCall.gaveNull (isNull : Pos → Bool) : EngineCall ε (String × Pos) Attr Expr → Prop
  | join _ _ (.ok q) => isNull q.2 = true
  | _ => False

/-- If both calls join one trail, the earlier one was given a null position. -/
def AgainAfterNull (isNull : Pos → Bool)
    (earlier later : EngineCall ε (String × Pos) Attr Expr) : Prop :=
  ∀ trail, earlier.trail? = some trail → later.trail? = some trail → earlier.gaveNull isNull

def Once (calls : List (EngineCall ε (String × Pos) Attr Expr)) : Prop :=
  (calls.filterMap EngineCall.trail?).Nodup

def QueryEngine.JoinsOnce (e : QueryEngine σ ε Pos Attr Expr) (p : Predicate) (s : σ) : Prop :=
  Once (e.labelled.translationCalls p s)

instance (e : QueryEngine σ ε Pos Attr Expr) (p : Predicate) (s : σ) : Decidable (e.JoinsOnce p s) :=
  inferInstanceAs (Decidable (List.Nodup _))

theorem once_of_extends {first second : List (EngineCall ε (String × Pos) Attr Expr)}
    (h : first <+: second) (once : Once second) : Once first :=
  once.sublist (h.sublist.filterMap _)

/-! ## A trail is joined again only after null positions -/

section Settled

variable (e : QueryEngine σ ε Pos Attr Expr)

/-- Whichever way a run ended, it joined trails again after null positions only. -/
abbrev AfterNulls (t : Labelled σ ε Pos Attr Expr) : Prop :=
  t.engine.2.Pairwise (AgainAfterNull e.isNull)

/-- Each trail that was joined has a position in the cache, unless it was given null ones only, and
the cache holds positions of trails that were joined, under these trails. -/
structure Settled (t : Labelled σ ε Pos Attr Expr) : Prop where
  again : AfterNulls e t
  settled : ∀ call ∈ t.engine.2, ∀ trail, call.trail? = some trail → call.gaveNull e.isNull ∨
    ∃ q, t.joined.get? trail = some q ∧ e.isNull q.2 = false
  entries : ∀ entry ∈ t.joined.entries, entry.2.1 = entry.1 ∧
    entry.1 ∈ t.engine.2.filterMap EngineCall.trail?

variable {e} {t : Labelled σ ε Pos Attr Expr}

theorem settled_empty (s : σ) : Settled e ⟨(s, []), .empty⟩ :=
  ⟨.nil, by simp, by simp [JoinCache.empty]⟩

theorem Settled.again_append (h : Settled e t) {call : EngineCall ε (String × Pos) Attr Expr}
    (unknown : ∀ trail, call.trail? = some trail →
      knownPosition? e.labelled.watched t.joined trail = none) :
    (t.engine.2 ++ [call]).Pairwise (AgainAfterNull e.isNull) := by
  refine List.pairwise_append.mpr ⟨h.again, List.pairwise_singleton _ _, ?_⟩
  intro earlier hearlier later hlater trail htrail hagain
  obtain rfl := List.mem_singleton.mp hlater
  refine (h.settled earlier hearlier trail htrail).resolve_right ?_
  rintro ⟨q, hq, hnull⟩
  have hknown : knownPosition? e.labelled.watched t.joined trail = some q :=
    knownPosition?_eq_some.mpr ⟨hq, hnull⟩
  rw [unknown trail hagain] at hknown
  cases hknown

theorem Settled.onEngine {call : Except ε α → EngineCall ε (String × Pos) Attr Expr}
    (free : ∀ answer, (call answer).trail? = none) (c : Call σ ε α) (h : Settled e t) :
    Keeps (Settled e) (AfterNulls e) (onEngine (watching call c) t) := by
  have next : ∀ answer s, Settled e ⟨(s, t.engine.2 ++ [call answer]), t.joined⟩ := by
    intro answer s
    refine ⟨h.again_append ?_, List.forall_mem_append.mpr ⟨h.settled, ?_⟩, ?_⟩
    · intro trail htrail
      rw [free] at htrail
      cases htrail
    · intro other hother trail htrail
      rw [List.mem_singleton.mp hother, free] at htrail
      cases htrail
    · intro entry hentry
      rw [List.filterMap_append]
      obtain ⟨hlabel, hmem⟩ := h.entries entry hentry
      exact ⟨hlabel, List.mem_append_left _ hmem⟩
  simp only [Criteria.onEngine, watching]
  rcases c t.engine.1 with ⟨x | a, s⟩
  · exact (next _ s).again
  · exact next _ s

theorem Settled.joinNew {p : String × Pos} {name : String} (h : Settled e t)
    (unknown : knownPosition? e.labelled.watched t.joined (extendTrail p.1 name) = none) :
    Ends (fun q t' => Settled e t' ∧ q.1 = extendTrail p.1 name)
      (fun _ => AfterNulls e) (joinNew e.labelled p (extendTrail p.1 name) name t) := by
  have again : ∀ answer : Except ε (String × Pos),
      (t.engine.2 ++ [EngineCall.join p name answer]).Pairwise (AgainAfterNull e.isNull) := by
    intro answer
    refine h.again_append ?_
    intro trail htrail
    rwa [← Option.some.inj htrail]
  simp only [Criteria.joinNew, QueryEngine.labelled, Call.bind, Call.pure]
  rcases e.join p.2 name t.engine.1 with ⟨x | q, s⟩
  · exact again _
  · refine ⟨⟨again _, ?_, ?_⟩, rfl⟩
    · intro call hcall trail htrail
      have hget : (t.joined.insert (extendTrail p.1 name) (extendTrail p.1 name, q)).get? trail =
          if trail = extendTrail p.1 name then some (extendTrail p.1 name, q)
          else t.joined.get? trail := lookup_put _ trail _ t.joined.entries
      rw [hget]
      rcases List.mem_append.mp hcall with hcall | hcall
      · refine (h.settled call hcall trail htrail).imp_right ?_
        rintro ⟨q', hq', hnull⟩
        -- The trail is not the new one, for which the cache had no position.
        have hne : trail ≠ extendTrail p.1 name := by
          rintro rfl
          have hsome := (knownPosition?_eq_some (e := e.labelled.watched)).mpr ⟨hq', hnull⟩
          rw [unknown] at hsome
          cases hsome
        rw [if_neg hne]
        exact ⟨q', hq', hnull⟩
      · obtain rfl := List.mem_singleton.mp hcall
        obtain rfl := Option.some.inj htrail
        rw [if_pos rfl]
        rcases hnull : e.isNull q with _ | _
        · exact Or.inr ⟨_, rfl, hnull⟩
        · exact Or.inl hnull
    · intro entry hentry
      rw [List.filterMap_append]
      rcases mem_of_mem_put hentry with rfl | hentry
      · exact ⟨rfl, List.mem_append_right _ (by simp [EngineCall.trail?])⟩
      · obtain ⟨hlabel, hmem⟩ := h.entries entry hentry
        exact ⟨hlabel, List.mem_append_left _ hmem⟩

theorem Settled.getOrJoin {trail : String} {p : String × Pos} (name : String) (h : Settled e t)
    (at_ : p.1 = trail) :
    Ends (fun q t' => Settled e t' ∧ q.1 = extendTrail trail name)
      (fun _ => AfterNulls e)
      (getOrJoin e.labelled.watched p (extendTrail trail name) name t) := by
  subst at_
  rcases hknown : knownPosition? e.labelled.watched t.joined (extendTrail p.1 name) with _ | q
  · rw [getOrJoin_of_unknown hknown]
    exact h.joinNew hknown
  · obtain ⟨hget, _⟩ := knownPosition?_eq_some.mp hknown
    simp only [Criteria.getOrJoin, hknown]
    exact ⟨h, (h.entries _ (mem_of_lookup hget)).1⟩

def settledInvariant (e : QueryEngine σ ε Pos Attr Expr) : Invariant e.labelled.watched where
  Holds := Settled e
  Stopped := AfterNulls e
  At _ trail p := p.1 = trail
  stops := Settled.again
  root _ := rfl
  getOrJoin name h at_ := h.getOrJoin name at_
  get _ h _ := h.onEngine (fun _ => rfl) _
  compare _ _ h := h.onEngine (fun _ => rfl) _
  all _ h := h.onEngine (fun _ => rfl) _
  any _ h := h.onEngine (fun _ => rfl) _
  truth h := h.onEngine (fun _ => rfl) _

theorem again_translationCalls (e : QueryEngine σ ε Pos Attr Expr) (p : Predicate) (s : σ) :
    (e.labelled.translationCalls p s).Pairwise (AgainAfterNull e.isNull) := by
  obtain ⟨t, again, ht⟩ := (settledInvariant e).toExpression_stopped p (settled_empty s)
  rw [QueryEngine.translationCalls, ← ht]
  exact again

end Settled

/-! ## Where no trail is joined twice, null positions make no difference -/

section Agrees

/-- From `t` the first run goes on, and unless it joins a trail twice, the second one is the same. -/
structure Agrees (t : Labelled σ ε Pos Attr Expr)
    (r r' : Except ε' α × Labelled σ ε Pos Attr Expr) : Prop where
  grows : t.engine.2 <+: r.2.engine.2
  same : Once r.2.engine.2 → r = r'

variable {t : Labelled σ ε Pos Attr Expr}

theorem Agrees.bind {c c' : Call (Labelled σ ε Pos Attr Expr) ε' α}
    {f f' : α → Call (Labelled σ ε Pos Attr Expr) ε' β} (first : Agrees t (c t) (c' t))
    (next : ∀ a t', c t = (.ok a, t') → Agrees t' (f a t') (f' a t')) :
    Agrees t (Call.bind c f t) (Call.bind c' f' t) := by
  rcases hc : c t with ⟨x | a, t'⟩
  · rw [hc] at first
    have hrun : Call.bind c f t = (.error x, t') := by simp [Call.bind, hc]
    rw [hrun]
    refine ⟨first.grows, fun once => ?_⟩
    simp [Call.bind, ← first.same once]
  · rw [hc] at first
    have after := next a t' hc
    have hrun : Call.bind c f t = f a t' := by simp [Call.bind, hc]
    rw [hrun]
    refine ⟨first.grows.trans after.grows, fun once => ?_⟩
    have hc' := first.same (once_of_extends after.grows once)
    simpa [Call.bind, ← hc'] using after.same once

theorem Agrees.mapError {ε₀ : Type} {c c' : Call (Labelled σ ε Pos Attr Expr) ε₀ α}
    {wrap : ε₀ → ε'} (h : Agrees t (c t) (c' t)) :
    Agrees t (Call.mapError wrap c t) (Call.mapError wrap c' t) := by
  rcases hc : c t with ⟨x | a, t'⟩ <;> rw [hc] at h
  · have hrun : Call.mapError wrap c t = (.error (wrap x), t') := by simp [Call.mapError, hc]
    rw [hrun]
    refine ⟨h.grows, fun once => ?_⟩
    simp [Call.mapError, ← h.same once]
  · have hrun : Call.mapError wrap c t = (.ok a, t') := by simp [Call.mapError, hc]
    rw [hrun]
    refine ⟨h.grows, fun once => ?_⟩
    simp [Call.mapError, ← h.same once]

theorem agrees_self (call : Except ε α → EngineCall ε (String × Pos) Attr Expr) (c : Call σ ε α)
    (t : Labelled σ ε Pos Attr Expr) :
    Agrees t (onEngine (watching call c) t) (onEngine (watching call c) t) :=
  ⟨List.prefix_append _ _, fun _ => rfl⟩

theorem grows_joinNew (e : QueryEngine σ ε (String × Pos) Attr Expr) (p : String × Pos)
    (trail name : String) (t : Labelled σ ε Pos Attr Expr) :
    t.engine.2 <+: (joinNew e p trail name t).2.engine.2 := by
  simp only [joinNew]
  rcases e.join p name t.engine.1 with ⟨x | q, s⟩
  · exact List.prefix_append _ _
  · exact List.prefix_append _ _

variable {e : QueryEngine σ ε Pos Attr Expr}

/-- A trail is joined once more exactly where its position in the cache is null. -/
theorem getOrJoin_agrees {trail : String} {p : String × Pos} (name : String) (h : Settled e t)
    (at_ : p.1 = trail) :
    Agrees t (getOrJoin e.labelled.watched p (extendTrail trail name) name t)
      (getOrJoin e.unmarked.labelled.watched p (extendTrail trail name) name t) := by
  subst at_
  rcases hknown : knownPosition? e.labelled.watched t.joined (extendTrail p.1 name) with _ | q
  · rw [getOrJoin_of_unknown hknown]
    refine ⟨grows_joinNew _ _ _ _ t, fun once => ?_⟩
    rcases hget : t.joined.get? (extendTrail p.1 name) with _ | q
    · have hunknown : knownPosition? e.unmarked.labelled.watched t.joined (extendTrail p.1 name) =
          none := by simp [knownPosition?, hget]
      rw [getOrJoin_of_unknown hunknown]
      rfl
    · -- The cache has a null position for the trail, so this join is not its first one.
      have hmem := (h.entries _ (mem_of_lookup hget)).2
      refine absurd once ?_
      simp only [joinNew, QueryEngine.labelled, Call.bind, Call.pure, Once]
      rcases e.join p.2 name t.engine.1 with ⟨x | q, s⟩ <;>
        simpa [List.filterMap_append, EngineCall.trail?, List.nodup_append] using
          fun _ => List.mem_filterMap.mp hmem
  · obtain ⟨hget, _⟩ := knownPosition?_eq_some.mp hknown
    have hunmarked : knownPosition? e.unmarked.labelled.watched t.joined (extendTrail p.1 name) =
        some q := knownPosition?_eq_some.mpr ⟨hget, rfl⟩
    simp only [getOrJoin, hknown, hunmarked]
    exact ⟨List.prefix_rfl, fun _ => rfl⟩

theorem follow_agrees : ∀ (names : List String) {trail : String} {p : String × Pos}
    {t : Labelled σ ε Pos Attr Expr}, Settled e t → p.1 = trail →
      Agrees t (follow e.labelled.watched p trail names t)
        (follow e.unmarked.labelled.watched p trail names t) := by
  intro names
  induction names with
  | nil => intro trail p t _ _; exact ⟨List.prefix_rfl, fun _ => rfl⟩
  | cons name rest ih =>
      intro trail p t h at_
      refine (getOrJoin_agrees name h at_).bind ?_
      intro q t' hrun
      have settled := h.getOrJoin name at_
      rw [hrun] at settled
      exact ih settled.1 settled.2

theorem resolve_agrees (path : String) (h : Settled e t) :
    Agrees t (resolve e.labelled.watched path t) (resolve e.unmarked.labelled.watched path t) := by
  refine (follow_agrees (relationshipsOf path) h rfl).bind ?_
  intro p t' _
  exact agrees_self _ _ t'

mutual

theorem express_agrees (p : Predicate) {t : Labelled σ ε Pos Attr Expr} (h : Settled e t) :
    Agrees t (express e.labelled.watched p t) (express e.unmarked.labelled.watched p t) := by
  match p with
  | .leaf path c =>
      refine ((resolve_agrees path h).bind ?_).mapError
      intro a t' _
      exact agrees_self _ _ t'
  | .unsupported path c =>
      refine (resolve_agrees path h).mapError.bind ?_
      intro a t' _
      exact ⟨List.prefix_rfl, fun _ => rfl⟩
  | .anyOf operands =>
      refine (expressAll_agrees operands h).bind ?_
      intro xs t' _
      exact (agrees_self _ _ t').mapError
  | .allOf [] => exact (agrees_self _ _ t).mapError
  | .allOf (p :: rest) =>
      refine (express_agrees p h).bind ?_
      intro x t' hrun
      have settled := (settledInvariant e).express_keeps p h
      rw [hrun] at settled
      refine (expressAll_agrees rest settled).bind ?_
      intro xs t'' _
      exact (agrees_self _ _ t'').mapError

theorem expressAll_agrees (ps : List Predicate) {t : Labelled σ ε Pos Attr Expr}
    (h : Settled e t) :
    Agrees t (expressAll e.labelled.watched ps t) (expressAll e.unmarked.labelled.watched ps t) := by
  match ps with
  | [] => exact ⟨List.prefix_rfl, fun _ => rfl⟩
  | p :: rest =>
      refine (express_agrees p h).bind ?_
      intro x t' hrun
      have settled := (settledInvariant e).express_keeps p h
      rw [hrun] at settled
      refine (expressAll_agrees rest settled).bind ?_
      intro xs t'' _
      exact ⟨List.prefix_rfl, fun _ => rfl⟩

end

theorem toExpression_labelled (e : QueryEngine σ ε Pos Attr Expr) (p : Predicate) (s : σ) :
    toExpression e p s = ((toExpression e.labelled.watched p (s, [])).1,
      (toExpression e.labelled.watched p (s, [])).2.1) := by
  obtain ⟨hresult, hstate⟩ := toExpression_watched e.labelled p s []
  obtain ⟨hresult', hstate'⟩ := ((labelledCorrespondence e).toExpression_alike p (Eq.refl s)).eq
  exact Prod.ext (hresult.trans hresult').symm (hstate.trans hstate').symm

/-- A translation that joins no trail twice is the same where no position counts as null. -/
theorem translation_unmarked {p : Predicate} {s : σ} (once : e.JoinsOnce p s) :
    toExpression e.unmarked p s = toExpression e p s ∧
      e.unmarked.translationCalls p s = e.translationCalls p s := by
  have hsame : toExpression e.unmarked.labelled.watched p (s, []) =
      toExpression e.labelled.watched p (s, []) := by
    simp only [toExpression]
    rw [(express_agrees p (settled_empty s)).same once]
  constructor
  · rw [toExpression_labelled, hsame, ← toExpression_labelled]
  · rw [← unlabelled_translationCalls, ← unlabelled_translationCalls e,
      QueryEngine.translationCalls, hsame]
    rfl

end Agrees

/-! ## Corresponding engines -/

section Corresponding

variable {σ₁ σ₂ Pos₁ Pos₂ Attr₁ Attr₂ Expr₁ Expr₂ : Type}
  {e₁ : QueryEngine σ₁ ε Pos₁ Attr₁ Expr₁} {e₂ : QueryEngine σ₂ ε Pos₂ Attr₂ Expr₂}

def Correspondence.TranslatesAlike (m : Correspondence e₁.unmarked e₂.unmarked) (p : Predicate)
    (s : σ₁) (t : σ₂) : Prop :=
  Alike m.State m.Term (toExpression e₁ p s) (toExpression e₂ p t) ∧
    m.Calls (e₁.translationCalls p s) (e₂.translationCalls p t)

def Correspondence.marked (m : Correspondence e₁.unmarked e₂.unmarked)
    (nulls : ∀ a b, m.Place a b → e₁.isNull a = e₂.isNull b) : Correspondence e₁ e₂ where
  State := m.State
  Place := m.Place
  Name := m.Name
  Term := m.Term
  root := m.root
  isNull h := nulls _ _ h
  join := m.join
  get := m.get
  compare := m.compare
  all := m.all
  any := m.any
  truth := m.truth

/-- How a translation joins: `again` is about its calls with labels. -/
structure QueryEngine.JoinsAgainAfterNull (e : QueryEngine σ ε Pos Attr Expr) (p : Predicate)
    (s : σ) : Prop where
  unlabelled : (e.labelled.translationCalls p s).map EngineCall.unlabelled = e.translationCalls p s
  again : (e.labelled.translationCalls p s).Pairwise (AgainAfterNull e.isNull)
  once : (∀ call ∈ e.labelled.translationCalls p s, ¬ call.gaveNull e.isNull) → e.JoinsOnce p s

theorem joinsAgainAfterNull (e : QueryEngine σ ε Pos Attr Expr) (p : Predicate) (s : σ) :
    e.JoinsAgainAfterNull p s where
  unlabelled := unlabelled_translationCalls e p s
  again := again_translationCalls e p s
  once notNull := by
    refine List.pairwise_filterMap.mpr ((again_translationCalls e p s).imp_of_mem ?_)
    rintro earlier later hearlier _ again trail htrail _ hagain rfl
    exact notNull earlier hearlier (again trail htrail hagain)

/-- Translations on engines that correspond but for their null positions: they correspond where
neither joins a trail twice, and also where corresponding positions are null together; a trail is
joined again only after null positions. -/
theorem opaque_positions (m : Correspondence e₁.unmarked e₂.unmarked) (p : Predicate) {s : σ₁}
    {t : σ₂} (h : m.State s t) :
    (e₁.JoinsOnce p s → e₂.JoinsOnce p t → m.TranslatesAlike p s t) ∧
      ((∀ a b, m.Place a b → e₁.isNull a = e₂.isNull b) → m.TranslatesAlike p s t) ∧
      e₁.JoinsAgainAfterNull p s ∧ e₂.JoinsAgainAfterNull p t := by
  refine ⟨?_, ?_, joinsAgainAfterNull e₁ p s, joinsAgainAfterNull e₂ p t⟩
  · intro once₁ once₂
    obtain ⟨hruns, hcalls⟩ := m.translate_alike p h
    obtain ⟨hrun₁, hcalls₁⟩ := translation_unmarked once₁
    obtain ⟨hrun₂, hcalls₂⟩ := translation_unmarked once₂
    rw [hrun₁, hrun₂] at hruns
    rw [hcalls₁, hcalls₂] at hcalls
    exact ⟨hruns, hcalls⟩
  · intro nulls
    exact (m.marked nulls).translate_alike p h

end Corresponding

/-! ## A null position -/

def nullCategories :
    QueryEngine (List RecordedEvent) RecordingError (Option String) String RecordedExpr :=
  recordingEngine ⟨[], [], [], ["category"]⟩

def suppliesOfCategory : Predicate :=
  .allOf [.leaf "category.name" (.equal .null), .leaf "supplier.name" (.equal .null),
    .leaf "supplier.city" (.equal .null)]

theorem opaque_positions_suppliesOfCategory :
    ∃ m : Correspondence nullCategories.labelled.unmarked nullCategories.unmarked,
      m.State [] [] ∧ nullCategories.labelled.JoinsOnce suppliesOfCategory [] ∧
        nullCategories.JoinsOnce suppliesOfCategory [] ∧
        m.TranslatesAlike suppliesOfCategory [] [] := by
  have once : nullCategories.labelled.JoinsOnce suppliesOfCategory [] := by decide +kernel
  have once' : nullCategories.JoinsOnce suppliesOfCategory [] := by decide +kernel
  exact ⟨labelledCorrespondence nullCategories.unmarked, rfl, once, once',
    (opaque_positions _ suppliesOfCategory rfl).1 once once'⟩

def nameAndCity : Predicate :=
  .allOf [.leaf "category.name" (.equal .null), .leaf "category.code" (.equal .null)]

/-- Beside the engine none of whose positions counts as null, one that gives a null position is
called once more. -/
theorem null_position_joined_again :
    ∃ m : Correspondence nullCategories.unmarked nullCategories.unmarked.unmarked,
      Relator.BiUnique m.Place ∧ m.State [] [] ∧ (∀ path ∈ nameAndCity.paths, CleanPath path) ∧
        ¬ m.TranslatesAlike nameAndCity [] [] ∧ ¬ nullCategories.JoinsOnce nameAndCity [] := by
  refine ⟨Correspondence.refl _, ⟨?_, ?_⟩, rfl, by decide, ?_, by decide +kernel⟩
  · rintro p q _ rfl rfl
    rfl
  · rintro p q _ rfl rfl
    rfl
  · rintro ⟨_, calls⟩
    have again : (nullCategories.translationCalls nameAndCity []).length = 7 := by decide +kernel
    have once : (nullCategories.unmarked.translationCalls nameAndCity []).length = 6 := by
      decide +kernel
    have same := calls.length_eq
    rw [again, once] at same
    exact absurd same (by decide)

end CatalogSearch.Criteria
