import CatalogSearch.Criteria.Build
import CatalogSearch.Proofs.Call
import CatalogSearch.Proofs.Keyed
import CatalogSearch.Proofs.Criteria.Compilation
import Mathlib.Data.List.Forall2

/-!
# The walk of a translation

`itinerary seen paths` lists the traversal calls that paths ask for, one path after the other, when
the trails `seen` are joined already: each new trail of a path is joined, shortest first, and then
the attribute is read.  A `Walk` is an invariant of an engine along such calls.  Main statement:
`Walk.express_kept`, that a translation makes exactly the calls of the itinerary, as far as no call
fails, and keeps every walk that its engine has.

The join cache stands behind this as `Stored`: it holds the position of each trail reached, under
the trail's text and nothing else.
-/

set_option autoImplicit false

namespace CatalogSearch.Criteria

/-! ## Itineraries -/

/-- A traversal call: the join of a trail's last relationship, or the reading of an attribute at the
end of a trail. -/
inductive Visit where
  | join (trail : List String)
  | get (trail : List String) (name : String)
  deriving DecidableEq, Repr

def visitsOf (seen : List (List String)) (path : String) : List Visit :=
  (newTrails seen (trailsOf path)).map Visit.join ++
    [.get (relationshipsOf path) (attributeOf path)]

def itinerary (seen : List (List String)) : List String → List Visit
  | [] => []
  | path :: rest => visitsOf seen path ++ itinerary (seen ++ newTrails seen (trailsOf path)) rest

theorem itinerary_append : ∀ (first second : List String) (seen : List (List String)),
    itinerary seen (first ++ second) =
      itinerary seen first ++
        itinerary (seen ++ newTrails seen (first.flatMap trailsOf)) second := by
  intro first second
  induction first with
  | nil => intro seen; simp [itinerary, newTrails]
  | cons path rest ih =>
      intro seen
      simp only [List.cons_append, itinerary, ih, List.flatMap_cons, newTrails_append,
        List.append_assoc]

def joinedTrails (visits : List Visit) : List (List String) :=
  visits.filterMap fun
    | .join trail => some trail
    | .get _ _ => none

theorem mem_joinedTrails {visits : List Visit} {trail : List String} :
    trail ∈ joinedTrails visits ↔ Visit.join trail ∈ visits := by
  simp only [joinedTrails, List.mem_filterMap]
  constructor
  · rintro ⟨visit, hvisit, htrail⟩
    cases visit with
    | join other =>
        obtain rfl := Option.some.inj htrail
        exact hvisit
    | get other name => cases htrail
  · intro h
    exact ⟨_, h, rfl⟩

theorem joinedTrails_itinerary : ∀ (paths : List String) (seen : List (List String)),
    joinedTrails (itinerary seen paths) = newTrails seen (paths.flatMap trailsOf) := by
  intro paths
  induction paths with
  | nil => intro seen; rfl
  | cons path rest ih =>
      intro seen
      have hvisits : joinedTrails (visitsOf seen path) = newTrails seen (trailsOf path) := by
        simp only [joinedTrails, visitsOf, List.filterMap_append, List.filterMap_map]
        simp
      have happend : ∀ first second : List Visit,
          joinedTrails (first ++ second) = joinedTrails first ++ joinedTrails second := by
        intro first second
        simp [joinedTrails]
      rw [List.flatMap_cons, newTrails_append, itinerary, happend, hvisits, ih]

theorem joinedTrails_itinerary_nodup (paths : List String) :
    (joinedTrails (itinerary [] paths)).Nodup := by
  rw [joinedTrails_itinerary]
  exact newTrails_nodup _ _

theorem mem_joinedTrails_itinerary (paths : List String) (trail : List String) :
    trail ∈ joinedTrails (itinerary [] paths) ↔
      trail ≠ [] ∧ ∃ path ∈ paths, trail <+: relationshipsOf path := by
  rw [joinedTrails_itinerary]
  exact mem_newTrails_of_paths paths trail

example : itinerary [] ["category.name", "category.department.name", "name"] =
    [.join ["category"], .get ["category"] "name", .join ["category", "department"],
      .get ["category", "department"] "name", .get [] "name"] := by decide

/-! ## Positions reached -/

/-- The positions of the trails joined so far, in the order of their joins. -/
abbrev Reached (Pos : Type) : Type := List (List String × Pos)

section Reached

variable {Pos : Type}

def reachedAt? (root : Pos) (reached : Reached Pos) (trail : List String) : Option Pos :=
  if trail = [] then some root else reached.lookup trail

theorem reachedAt?_append_singleton (root q : Pos) {reached : Reached Pos} {trail : List String}
    (hne : trail ≠ []) (h : trail ∉ reached.map Prod.fst) :
    reachedAt? root (reached ++ [(trail, q)]) trail = some q := by
  rw [reachedAt?, if_neg hne, List.lookup_append, lookup_eq_none_of_not_mem h]
  simp

theorem reachedAt?_append {root p : Pos} {reached : Reached Pos} {trail : List String}
    (h : reachedAt? root reached trail = some p) (more : Reached Pos) :
    reachedAt? root (reached ++ more) trail = some p := by
  by_cases hnil : trail = []
  · rwa [reachedAt?, if_pos hnil] at h ⊢
  · rw [reachedAt?, if_neg hnil] at h ⊢
    rw [List.lookup_append, h, Option.some_or]

theorem reachedAt?_append_singleton_cases {root p q : Pos} {reached : Reached Pos}
    {trail last : List String}
    (h : reachedAt? root (reached ++ [(last, q)]) trail = some p) :
    reachedAt? root reached trail = some p ∨ (trail = last ∧ p = q) := by
  by_cases ht : trail = []
  · simpa [reachedAt?, ht] using Or.inl h
  · simp only [reachedAt?, if_neg ht, List.lookup_append] at h ⊢
    rcases hl : reached.lookup trail with _ | found
    · rw [hl, Option.none_or] at h
      obtain ⟨rfl, rfl⟩ := by simpa using mem_of_lookup h
      exact Or.inr ⟨rfl, rfl⟩
    · rw [hl, Option.some_or] at h
      exact Or.inl h

theorem lookup_trailText {trail : List String} (clean : CleanTrail trail) (hne : trail ≠ []) :
    ∀ reached : Reached Pos, (∀ r ∈ reached, CleanTrail r.1 ∧ r.1 ≠ []) →
      (reached.map fun r => (trailText r.1, r.2)).lookup (trailText trail) =
        reached.lookup trail := by
  intro reached
  induction reached with
  | nil => intro _; rfl
  | cons r rest ih =>
      intro h
      obtain ⟨other, p⟩ := r
      have hrest := ih fun r hr => h r (List.mem_cons_of_mem _ hr)
      have hother := h (other, p) (by simp)
      by_cases ht : trail = other
      · subst ht
        simp
      · have htext : trailText trail ≠ trailText other := fun e =>
          ht (trailText_injective clean hother.1 hne hother.2 e)
        simp only [List.map_cons, List.lookup_cons, beq_eq_false_iff_ne.mpr htext,
          beq_eq_false_iff_ne.mpr ht]
        exact hrest

end Reached

/-! ## Stored positions -/

section Stored

variable {σ ε Pos Attr Expr : Type}

/-- The cache holds the positions reached, under the texts of their trails and in their order. -/
structure Stored (e : QueryEngine σ ε Pos Attr Expr) (c : JoinCache Pos) (reached : Reached Pos) :
    Prop where
  entries : c.entries = reached.map fun r => (trailText r.1, r.2)
  clean : ∀ r ∈ reached, CleanTrail r.1 ∧ r.1 ≠ []
  notNull : ∀ r ∈ reached, e.isNull r.2 = false

variable {e : QueryEngine σ ε Pos Attr Expr} {c : JoinCache Pos} {reached : Reached Pos}
  {trail : List String}

theorem stored_empty (e : QueryEngine σ ε Pos Attr Expr) : Stored e .empty [] :=
  ⟨rfl, by simp, by simp⟩

theorem Stored.get? (stored : Stored e c reached) (clean : CleanTrail trail) (hne : trail ≠ []) :
    c.get? (trailText trail) = reached.lookup trail := by
  rw [JoinCache.get?, stored.entries]
  exact lookup_trailText clean hne reached stored.clean

theorem Stored.knownPosition? (stored : Stored e c reached) (clean : CleanTrail trail)
    (hne : trail ≠ []) : knownPosition? e c (trailText trail) = reached.lookup trail := by
  rw [Criteria.knownPosition?, stored.get? clean hne]
  rcases hlookup : reached.lookup trail with _ | q
  · rfl
  · have hnull : e.isNull q = false := stored.notNull _ (mem_of_lookup hlookup)
    simp [hnull]

theorem Stored.insert (stored : Stored e c reached) (clean : CleanTrail trail) (hne : trail ≠ [])
    (fresh : trail ∉ reached.map Prod.fst) {q : Pos} (hnull : e.isNull q = false) :
    Stored e (c.insert (trailText trail) q) (reached ++ [(trail, q)]) where
  entries := by
    have hnone : c.entries.lookup (trailText trail) = none := by
      rw [← lookup_eq_none_of_not_mem fresh]
      exact stored.get? clean hne
    simp only [JoinCache.insert, List.map_append, List.map_cons, List.map_nil]
    rw [put_of_lookup_eq_none _ _ _ hnone, stored.entries]
  clean := by
    intro r hr
    rcases List.mem_append.mp hr with hr | hr
    · exact stored.clean r hr
    · rw [List.mem_singleton.mp hr]
      exact ⟨clean, hne⟩
  notNull := by
    intro r hr
    rcases List.mem_append.mp hr with hr | hr
    · exact stored.notNull r hr
    · rw [List.mem_singleton.mp hr]
      exact hnull

end Stored

/-! ## Walks -/

mutual

def Predicate.Every (ok : Predicate → Prop) : Predicate → Prop
  | .leaf path c => ok (.leaf path c)
  | .unsupported path c => ok (.unsupported path c)
  | .anyOf operands => ok (.anyOf operands) ∧ Predicate.EveryOf ok operands
  | .allOf operands => ok (.allOf operands) ∧ Predicate.EveryOf ok operands

def Predicate.EveryOf (ok : Predicate → Prop) : List Predicate → Prop
  | [] => True
  | p :: rest => p.Every ok ∧ Predicate.EveryOf ok rest

end

theorem everyOf_leaves {ok : Predicate → Prop} {c : Comparison} : ∀ paths : List String,
    (∀ path ∈ paths, ok (.leaf path c)) →
      Predicate.EveryOf ok (paths.map fun path => .leaf path c) := by
  intro paths
  induction paths with
  | nil => intro _; trivial
  | cons path rest ih =>
      intro h
      obtain ⟨hpath, hrest⟩ := List.forall_mem_cons.mp h
      exact ⟨hpath, ih hrest⟩

theorem every_predicate {ok : Predicate → Prop} {i : FieldIntent} {c : Comparison}
    (formed : i.Formed) (leaf : ∀ path ∈ i.paths, ok (.leaf path c))
    (any : ∀ operands, operands ≠ [] → ok (.anyOf operands)) : (i.predicate c).Every ok := by
  by_cases hterm : i.kind = .term
  · rw [predicate_of_term hterm]
    have hne : (i.paths.map fun path => Predicate.leaf path c) ≠ [] := by
      simpa using formed.nonempty
    exact ⟨any _ hne, everyOf_leaves i.paths leaf⟩
  · obtain ⟨path, hpaths⟩ := formed.single hterm
    rw [predicate_of_single hpaths hterm]
    exact leaf path (by simp [hpaths])

/-- The nodes of compiled predicates are the leaves of filtering fields, and disjunctions of some
of them. -/
theorem everyOf_predicates {ok : Predicate → Prop}
    (any : ∀ operands, operands ≠ [] → ok (.anyOf operands)) :
    ∀ fields : List (FieldIntent × Value), (∀ f ∈ fields, f.1.Formed) →
      (∀ f ∈ fields, ∀ c, f.1.comparison? f.2 = some c → ∀ path ∈ f.1.paths, ok (.leaf path c)) →
      Predicate.EveryOf ok (predicates fields) := by
  intro fields
  induction fields with
  | nil => intro _ _; trivial
  | cons f rest ih =>
      intro formed leaf
      obtain ⟨hf, hrest⟩ := List.forall_mem_cons.mp formed
      obtain ⟨hleaf, hleaves⟩ := List.forall_mem_cons.mp leaf
      have below : Predicate.EveryOf ok (predicates rest) := ih hrest hleaves
      rcases hc : f.1.comparison? f.2 with _ | c
      · simpa [predicates, hc] using below
      · have here : (f.1.predicate c).Every ok := every_predicate hf (hleaf c hc) any
        simp only [predicates, List.filterMap_cons, hc, Option.map_some]
        exact ⟨here, below⟩

variable {σ ε ε' Pos Attr Expr α β : Type}

/-- What holds of an engine while a predicate with `Proper` nodes is translated: `Holds s reached
visits` after the given visits, `Fails x s visits` if the last of them failed, or a call between
them.  `Names` and `Means` tell what attributes and expressions stand for. -/
structure Walk (e : QueryEngine σ ε Pos Attr Expr) where
  Holds : σ → Reached Pos → List Visit → Prop
  Fails : ε → σ → List Visit → Prop
  Names : Reached Pos → String → Attr → Prop
  Means : Reached Pos → Predicate → Expr → Prop
  Proper : Predicate → Prop
  clean : ∀ {path c}, Proper (.leaf path c) → CleanPath path
  supported : ∀ {path c}, ¬ Proper (.unsupported path c)
  mono : ∀ {reached p x} (more : Reached Pos), Means reached p x → Means (reached ++ more) p x
  join : ∀ {s reached visits path c parent name p}, Holds s reached visits →
    Proper (.leaf path c) → parent ++ [name] <+: relationshipsOf path →
    reachedAt? e.root reached parent = some p → parent ++ [name] ∉ reached.map Prod.fst →
    Ends
      (fun q s => e.isNull q = false ∧
        Holds s (reached ++ [(parent ++ [name], q)]) (visits ++ [.join (parent ++ [name])]))
      (fun x s => Fails x s (visits ++ [.join (parent ++ [name])]))
      (e.join p name s)
  get : ∀ {s reached visits path c p}, Holds s reached visits → Proper (.leaf path c) →
    reachedAt? e.root reached (relationshipsOf path) = some p →
    Ends
      (fun a s => Names reached path a ∧
        Holds s reached (visits ++ [.get (relationshipsOf path) (attributeOf path)]))
      (fun x s => Fails x s (visits ++ [.get (relationshipsOf path) (attributeOf path)]))
      (e.get p (attributeOf path) s)
  compare : ∀ {s reached visits path c a}, Holds s reached visits → Proper (.leaf path c) →
    Names reached path a →
    Ends (fun x s => Means reached (.leaf path c) x ∧ Holds s reached visits)
      (fun x s => Fails x s visits) (e.compare a c s)
  any : ∀ {s reached visits ps xs}, Holds s reached visits → Proper (.anyOf ps) →
    List.Forall₂ (Means reached) ps xs →
    Ends (fun x s => Means reached (.anyOf ps) x ∧ Holds s reached visits)
      (fun x s => Fails x s visits) (e.any xs s)
  all : ∀ {s reached visits p ps xs}, Holds s reached visits → Proper (.allOf (p :: ps)) →
    List.Forall₂ (Means reached) (p :: ps) xs →
    Ends (fun x s => Means reached (.allOf (p :: ps)) x ∧ Holds s reached visits)
      (fun x s => Fails x s visits) (e.all xs s)
  truth : ∀ {s reached visits}, Holds s reached visits → Proper (.allOf []) →
    Ends (fun x s => Means reached (.allOf []) x ∧ Holds s reached visits)
      (fun x s => Fails x s visits) (e.truth s)

namespace Walk

variable {e : QueryEngine σ ε Pos Attr Expr} (w : Walk e)

structure Ready (t : Traversal σ Pos) (reached : Reached Pos) (visits : List Visit) : Prop where
  holds : w.Holds t.engine reached visits
  entries : t.joined.entries = reached.map fun r => (trailText r.1, r.2)
  clean : ∀ r ∈ reached, CleanTrail r.1 ∧ r.1 ≠ []
  notNull : ∀ r ∈ reached, e.isNull r.2 = false

/-- A run that was to join the new ones of `trails` and to make the visits `due` did so, or failed
on the way. -/
def Kept (wrap : ε → ε') (reached : Reached Pos) (visits : List Visit)
    (trails : List (List String)) (due : List Visit) (Good : α → Reached Pos → Prop) :
    Except ε' α × Traversal σ Pos → Prop :=
  Ends
    (fun a t => ∃ more, more.map Prod.fst = newTrails (reached.map Prod.fst) trails ∧
      w.Ready t (reached ++ more) (visits ++ due) ∧ Good a (reached ++ more))
    (fun x t => ∃ y visited, x = wrap y ∧ visited <+: due ∧
      w.Fails y t.engine (visits ++ visited))

variable {w} {wrap : ε → ε'} {reached : Reached Pos} {visits : List Visit}
  {t : Traversal σ Pos}

theorem Kept.bind {c : Call (Traversal σ Pos) ε' α} {f : α → Call (Traversal σ Pos) ε' β}
    {first second : List (List String)} {due later : List Visit} {Good : α → Reached Pos → Prop}
    {Better : β → Reached Pos → Prop} (h : w.Kept wrap reached visits first due Good (c t))
    (next : ∀ a t more, more.map Prod.fst = newTrails (reached.map Prod.fst) first →
      w.Ready t (reached ++ more) (visits ++ due) → Good a (reached ++ more) →
      w.Kept wrap (reached ++ more) (visits ++ due) second later Better (f a t)) :
    w.Kept wrap reached visits (first ++ second) (due ++ later) Better (Call.bind c f t) := by
  revert h
  simp only [Call.bind]
  rcases c t with ⟨x | a, t'⟩
  · rintro ⟨y, visited, hy, hvisited, hfails⟩
    exact ⟨y, visited, hy, hvisited.trans (List.prefix_append _ _), hfails⟩
  · rintro ⟨more, hmore, hready, hgood⟩
    have h := next a t' more hmore hready hgood
    revert h
    change w.Kept wrap _ _ _ _ _ (f a t') → w.Kept wrap _ _ _ _ _ (f a t')
    rcases f a t' with ⟨x | b, t''⟩
    · rintro ⟨y, visited, hy, hvisited, hfails⟩
      refine ⟨y, due ++ visited, hy, (List.prefix_append_right_inj due).mpr hvisited, ?_⟩
      rwa [← List.append_assoc]
    · rintro ⟨others, hothers, hready', hbetter⟩
      refine ⟨more ++ others, ?_, ?_, ?_⟩
      · rw [List.map_append, hmore, hothers, newTrails_append, List.map_append, hmore]
      · rwa [← List.append_assoc, ← List.append_assoc]
      · rwa [← List.append_assoc]

theorem Kept.andThen {c : Call (Traversal σ Pos) ε' α} {f : α → Call (Traversal σ Pos) ε' β}
    {trails : List (List String)} {due : List Visit} {Good : α → Reached Pos → Prop}
    {Better : β → Reached Pos → Prop} (h : w.Kept wrap reached visits trails due Good (c t))
    (next : ∀ a t more, w.Ready t (reached ++ more) (visits ++ due) → Good a (reached ++ more) →
      w.Kept wrap (reached ++ more) (visits ++ due) [] [] Better (f a t)) :
    w.Kept wrap reached visits trails due Better (Call.bind c f t) := by
  have both := Kept.bind h fun a t more _ => next a t more
  rwa [List.append_nil, List.append_nil] at both

theorem Kept.mapError {c : Call (Traversal σ Pos) ε α} {trails : List (List String)}
    {due : List Visit} {Good : α → Reached Pos → Prop}
    (h : w.Kept id reached visits trails due Good (c t)) :
    w.Kept wrap reached visits trails due Good (Call.mapError wrap c t) := by
  revert h
  simp only [Call.mapError]
  rcases c t with ⟨x | a, t'⟩
  · rintro ⟨y, visited, rfl, hvisited, hfails⟩
    exact ⟨x, visited, rfl, hvisited, hfails⟩
  · exact id

theorem Kept.ofEngine {c : Call σ ε α} {due : List Visit} {Good : α → Reached Pos → Prop}
    (ready : w.Ready t reached visits)
    (h : Ends (fun a s => Good a reached ∧ w.Holds s reached (visits ++ due))
      (fun x s => w.Fails x s (visits ++ due)) (c t.engine)) :
    w.Kept id reached visits [] due Good (onEngine c t) := by
  revert h
  simp only [onEngine]
  rcases c t.engine with ⟨x | a, s'⟩
  · intro h
    exact ⟨x, due, rfl, List.prefix_rfl, h⟩
  · rintro ⟨hgood, hholds⟩
    refine ⟨[], rfl, ?_, ?_⟩
    · rw [List.append_nil]
      exact ⟨hholds, ready.entries, ready.clean, ready.notNull⟩
    · rwa [List.append_nil]

theorem Ready.stored (ready : w.Ready t reached visits) : Stored e t.joined reached :=
  ⟨ready.entries, ready.clean, ready.notNull⟩

theorem getOrJoin_kept (ready : w.Ready t reached visits) {path : String} {comparison : Comparison}
    (proper : w.Proper (.leaf path comparison)) {parent : List String} {name : String} {p : Pos}
    (start : parent ++ [name] <+: relationshipsOf path)
    (at_ : reachedAt? e.root reached parent = some p) :
    w.Kept id reached visits [parent ++ [name]]
      ((newTrails (reached.map Prod.fst) [parent ++ [name]]).map Visit.join)
      (fun q reached => reachedAt? e.root reached (parent ++ [name]) = some q)
      (getOrJoin e p (trailText (parent ++ [name])) name t) := by
  have clean : CleanTrail (parent ++ [name]) := fun n hn =>
    cleanTrail_relationshipsOf (w.clean proper) n (start.subset hn)
  have hne : parent ++ [name] ≠ [] := by simp
  have hknown := ready.stored.knownPosition? clean hne
  -- A trail reached before is found under its text, and any other trail is not.
  by_cases hmem : parent ++ [name] ∈ reached.map Prod.fst
  · obtain ⟨q, hq⟩ := exists_lookup_of_mem hmem
    simp only [getOrJoin, hknown, hq]
    refine ⟨[], ?_, ?_, ?_⟩
    · simp [newTrails, hmem]
    · simpa [newTrails, hmem] using ready
    · simpa [reachedAt?] using hq
  · have hnew : newTrails (reached.map Prod.fst) [parent ++ [name]] = [parent ++ [name]] := by
      simp [newTrails, hmem]
    have hjoin := w.join ready.holds proper start at_ hmem
    rcases hrun : e.join p name t.engine with ⟨x | q, s⟩ <;>
      simp only [getOrJoin, hknown, lookup_eq_none_of_not_mem hmem, hnew, Call.bind, onEngine, hrun]
    · rw [hrun] at hjoin
      exact ⟨x, [.join (parent ++ [name])], rfl, List.prefix_rfl, hjoin⟩
    · rw [hrun] at hjoin
      obtain ⟨hnull, hholds⟩ := hjoin
      have stored := ready.stored.insert clean hne hmem hnull
      exact ⟨[(parent ++ [name], q)], by rw [hnew]; rfl,
        ⟨hholds, stored.entries, stored.clean, stored.notNull⟩,
        reachedAt?_append_singleton e.root q hne hmem⟩

theorem follow_kept {path : String} {comparison : Comparison}
    (proper : w.Proper (.leaf path comparison)) :
    ∀ (names done : List String) {p : Pos} {reached : Reached Pos} {visits : List Visit}
      {t : Traversal σ Pos}, w.Ready t reached visits → done ++ names = relationshipsOf path →
      reachedAt? e.root reached done = some p →
      w.Kept id reached visits (trailsFrom done names)
        ((newTrails (reached.map Prod.fst) (trailsFrom done names)).map Visit.join)
        (fun q reached => reachedAt? e.root reached (relationshipsOf path) = some q)
        (follow e p (trailText done) names t) := by
  intro names
  induction names with
  | nil =>
      intro done p reached visits t ready hdone at_
      rw [List.append_nil] at hdone
      refine ⟨[], by simp [trailsFrom, newTrails], by simpa [trailsFrom, newTrails] using ready, ?_⟩
      simpa [hdone] using at_
  | cons name rest ih =>
      intro done p reached visits t ready hdone at_
      have start : done ++ [name] <+: relationshipsOf path := ⟨rest, by simpa using hdone⟩
      have hsplit : trailsFrom done (name :: rest) =
          [done ++ [name]] ++ trailsFrom (done ++ [name]) rest := rfl
      rw [hsplit, newTrails_append, List.map_append]
      simp only [follow, ← trailText_append_singleton]
      refine Kept.bind (getOrJoin_kept ready proper start at_) ?_
      intro q t' more hmore ready' at_'
      have h := ih (done ++ [name]) ready' (by simpa using hdone) at_'
      rwa [List.map_append, hmore] at h

theorem resolve_kept (ready : w.Ready t reached visits) {path : String} {comparison : Comparison}
    (proper : w.Proper (.leaf path comparison)) :
    w.Kept id reached visits (trailsOf path) (visitsOf (reached.map Prod.fst) path)
      (fun a reached => w.Names reached path a) (resolve e path t) := by
  rw [← List.append_nil (trailsOf path)]
  refine Kept.bind (follow_kept proper (relationshipsOf path) [] ready rfl rfl) ?_
  intro p t' more _ ready' at_
  exact Kept.ofEngine ready' (w.get ready'.holds proper at_)

mutual

theorem express_kept (p : Predicate) (proper : p.Every w.Proper) {reached : Reached Pos}
    {visits : List Visit} {t : Traversal σ Pos} (ready : w.Ready t reached visits) :
    w.Kept ExpressionError.engine reached visits (p.paths.flatMap trailsOf)
      (itinerary (reached.map Prod.fst) p.paths) (fun x reached => w.Means reached p x)
      (express e p t) := by
  match p with
  | .leaf path c =>
      simp only [express, Predicate.paths, itinerary, List.flatMap_cons, List.flatMap_nil,
        List.append_nil]
      refine Kept.mapError (Kept.andThen (resolve_kept ready proper) ?_)
      intro a t' more ready' names
      refine Kept.ofEngine ready' ?_
      simpa using w.compare ready'.holds proper names
  | .unsupported path c => exact (w.supported proper).elim
  | .anyOf operands =>
      obtain ⟨here, below⟩ := proper
      simp only [express, Predicate.paths]
      refine Kept.andThen (expressAll_kept operands below ready) ?_
      intro xs t' more ready' means
      refine Kept.mapError (Kept.ofEngine ready' ?_)
      simpa using w.any ready'.holds here means
  | .allOf [] =>
      obtain ⟨here, _⟩ := proper
      simp only [express, Predicate.paths, Predicate.pathsOf, itinerary, List.flatMap_nil]
      refine Kept.mapError (Kept.ofEngine ready ?_)
      simpa using w.truth ready.holds here
  | .allOf (p :: rest) =>
      -- The first operand is on its own, since a conjunction of none is the expression for truth.
      obtain ⟨here, first, below⟩ := proper
      simp only [express, Predicate.paths, Predicate.pathsOf, itinerary_append,
        List.flatMap_append]
      refine Kept.bind (express_kept p first ready) ?_
      intro x t' more hmore ready' means
      rw [← hmore, ← List.map_append]
      refine Kept.andThen (expressAll_kept rest below ready') ?_
      intro xs t'' others ready'' means'
      refine Kept.mapError (Kept.ofEngine ready'' ?_)
      simpa using w.all ready''.holds here (.cons (w.mono others means) means')

theorem expressAll_kept (ps : List Predicate) (proper : Predicate.EveryOf w.Proper ps)
    {reached : Reached Pos} {visits : List Visit} {t : Traversal σ Pos}
    (ready : w.Ready t reached visits) :
    w.Kept ExpressionError.engine reached visits ((Predicate.pathsOf ps).flatMap trailsOf)
      (itinerary (reached.map Prod.fst) (Predicate.pathsOf ps))
      (fun xs reached => List.Forall₂ (w.Means reached) ps xs) (expressAll e ps t) := by
  match ps with
  | [] =>
      refine ⟨[], by simp [Predicate.pathsOf, newTrails], ?_, .nil⟩
      simpa [Predicate.pathsOf, itinerary] using ready
  | p :: rest =>
      obtain ⟨first, below⟩ := proper
      simp only [expressAll, Predicate.pathsOf, itinerary_append, List.flatMap_append]
      refine Kept.bind (express_kept p first ready) ?_
      intro x t' more hmore ready' means
      rw [← hmore, ← List.map_append]
      refine Kept.andThen (expressAll_kept rest below ready') ?_
      intro xs t'' others ready'' means'
      refine ⟨[], by simp [newTrails], ?_, ?_⟩
      · simpa using ready''
      · simpa using List.Forall₂.cons (w.mono others means) means'

end

end Walk

end CatalogSearch.Criteria
