import CatalogSearch.Criteria.Recording
import CatalogSearch.Proofs.Call
import CatalogSearch.Proofs.Criteria.Correspondence
import CatalogSearch.Proofs.Criteria.Traversal
import CatalogSearch.Proofs.Criteria.Walk

/-!
# The calls of a translation

`e.watched` is the engine `e` that also writes down its calls with their answers.  Main statement:
`toExpression_traverses`, which tells the calls of a translation one by one.  The traversal calls
follow the itinerary of the predicate's paths, each on the position that the trail before it was
given; the other calls build the expression along the tree; and the first call that fails is the
last one.
-/

set_option autoImplicit false

namespace CatalogSearch.Criteria

variable {σ ε ε' Pos Attr Expr α β : Type}

/-! ## Watching an engine -/

inductive EngineCall (ε Pos Attr Expr : Type) where
  | join (parent : Pos) (name : String) (answer : Except ε Pos)
  | get (parent : Pos) (name : String) (answer : Except ε Attr)
  | fetch (name : String) (answer : Except ε Unit)
  | distinct (answer : Except ε Unit)
  | compare (attr : Attr) (comparison : Comparison) (answer : Except ε Expr)
  | all (operands : List Expr) (answer : Except ε Expr)
  | any (operands : List Expr) (answer : Except ε Expr)
  | truth (answer : Except ε Expr)

def errorOf? : Except ε α → Option ε
  | .ok _ => none
  | .error x => some x

namespace EngineCall

def error? : EngineCall ε Pos Attr Expr → Option ε
  | join _ _ answer => errorOf? answer
  | get _ _ answer => errorOf? answer
  | fetch _ answer => errorOf? answer
  | distinct answer => errorOf? answer
  | compare _ _ answer => errorOf? answer
  | all _ answer => errorOf? answer
  | any _ answer => errorOf? answer
  | truth answer => errorOf? answer

def isJoin : EngineCall ε Pos Attr Expr → Bool
  | join _ _ _ => true
  | _ => false

def isTraversal : EngineCall ε Pos Attr Expr → Bool
  | join _ _ _ => true
  | get _ _ _ => true
  | _ => false

end EngineCall

def traversals (calls : List (EngineCall ε Pos Attr Expr)) : List (EngineCall ε Pos Attr Expr) :=
  calls.filter EngineCall.isTraversal

theorem traversals_append_visit (calls : List (EngineCall ε Pos Attr Expr))
    {call : EngineCall ε Pos Attr Expr} (h : call.isTraversal = true) :
    traversals (calls ++ [call]) = traversals calls ++ [call] := by
  simp [traversals, List.filter_append, h]

theorem traversals_append_other (calls : List (EngineCall ε Pos Attr Expr))
    {call : EngineCall ε Pos Attr Expr} (h : call.isTraversal = false) :
    traversals (calls ++ [call]) = traversals calls := by
  simp [traversals, List.filter_append, h]

def watching (call : Except ε α → EngineCall ε Pos Attr Expr) (c : Call σ ε α) :
    Call (σ × List (EngineCall ε Pos Attr Expr)) ε α := fun s =>
  match c s.1 with
  | (r, s') => (r, (s', s.2 ++ [call r]))

/-- The engine, with its calls written down. -/
def QueryEngine.watched (e : QueryEngine σ ε Pos Attr Expr) :
    QueryEngine (σ × List (EngineCall ε Pos Attr Expr)) ε Pos Attr Expr where
  root := e.root
  isNull := e.isNull
  join parent name := watching (.join parent name) (e.join parent name)
  get parent name := watching (.get parent name) (e.get parent name)
  fetch name := watching (.fetch name) (e.fetch name)
  distinct := watching .distinct e.distinct
  compare attr c := watching (.compare attr c) (e.compare attr c)
  all operands := watching (.all operands) (e.all operands)
  any operands := watching (.any operands) (e.any operands)
  truth := watching .truth e.truth
  describe := e.describe

theorem QueryEngine.root_watched (e : QueryEngine σ ε Pos Attr Expr) : e.watched.root = e.root :=
  rfl

theorem watching_alike (call : Except ε α → EngineCall ε Pos Attr Expr) (c : Call σ ε α)
    (s : σ × List (EngineCall ε Pos Attr Expr)) :
    Alike (fun s t => s.1 = t) Eq (watching call c s) (c s.1) := by
  simp only [watching]
  rcases c s.1 with ⟨_ | a, s'⟩
  · exact ⟨rfl, rfl⟩
  · exact ⟨rfl, rfl⟩

def watchedCorrespondence (e : QueryEngine σ ε Pos Attr Expr) : Correspondence e.watched e where
  State s t := s.1 = t
  Place := Eq
  Name := Eq
  Term := Eq
  root := rfl
  isNull := by rintro p _ rfl; rfl
  join := by rintro s _ p _ name rfl rfl; exact watching_alike _ _ s
  get := by rintro s _ p _ name rfl rfl; exact watching_alike _ _ s
  compare := by rintro s _ a _ c rfl rfl; exact watching_alike _ _ s
  all := by
    rintro s _ xs ys rfl h
    rw [List.forall₂_eq_eq_eq] at h
    subst h
    exact watching_alike _ _ s
  any := by
    rintro s _ xs ys rfl h
    rw [List.forall₂_eq_eq_eq] at h
    subst h
    exact watching_alike _ _ s
  truth := by rintro s _ rfl; exact watching_alike _ _ s

theorem toExpression_watched (e : QueryEngine σ ε Pos Attr Expr) (p : Predicate) (s : σ)
    (calls : List (EngineCall ε Pos Attr Expr)) :
    (toExpression e.watched p (s, calls)).1 = (toExpression e p s).1 ∧
      (toExpression e.watched p (s, calls)).2.1 = (toExpression e p s).2 := by
  have hstate : (watchedCorrespondence e).State (s, calls) s := rfl
  exact ((watchedCorrespondence e).toExpression_alike p hstate).eq

/-! ## Traversal calls follow the itinerary -/

/-- The traversal calls make the visits in order, each on the position of its trail, and reach the
given positions. -/
inductive Follows (root : Pos) :
    List Visit → List (EngineCall ε Pos Attr Expr) → Reached Pos → Prop
  | nil : Follows root [] [] []
  | join {visits calls reached parent p} (name : String) (q : Pos)
      (before : Follows root visits calls reached) (at_ : reachedAt? root reached parent = some p) :
      Follows root (visits ++ [.join (parent ++ [name])]) (calls ++ [.join p name (.ok q)])
        (reached ++ [(parent ++ [name], q)])
  | joinFailed {visits calls reached parent p} (name : String) (x : ε)
      (before : Follows root visits calls reached) (at_ : reachedAt? root reached parent = some p) :
      Follows root (visits ++ [.join (parent ++ [name])]) (calls ++ [.join p name (.error x)])
        reached
  | get {visits calls reached trail p} (name : String) (answer : Except ε Attr)
      (before : Follows root visits calls reached) (at_ : reachedAt? root reached trail = some p) :
      Follows root (visits ++ [.get trail name]) (calls ++ [.get p name answer]) reached

def Unbroken (calls : List (EngineCall ε Pos Attr Expr)) : Prop :=
  ∀ call ∈ calls, call.error? = none

def BrokenBy (x : ε) (calls : List (EngineCall ε Pos Attr Expr)) : Prop :=
  ∃ before last, calls = before ++ [last] ∧ Unbroken before ∧ last.error? = some x

/-- A node of the six forms, whose path has no empty segment if it has one. -/
def Predicate.Translatable : Predicate → Prop
  | .leaf path _ => CleanPath path
  | .unsupported _ _ => False
  | .anyOf _ => True
  | .allOf _ => True

theorem Unbroken.append_singleton {calls : List (EngineCall ε Pos Attr Expr)}
    {call : EngineCall ε Pos Attr Expr} (h : Unbroken calls) (hcall : call.error? = none) :
    Unbroken (calls ++ [call]) := by
  intro other hother
  rcases List.mem_append.mp hother with hother | hother
  · exact h other hother
  · rw [List.mem_singleton.mp hother]
    exact hcall

theorem ends_watching {call : Except ε α → EngineCall ε Pos Attr Expr} {c : Call σ ε α}
    {s : σ × List (EngineCall ε Pos Attr Expr)} {Good : α → σ × List _ → Prop}
    {Bad : ε → σ × List _ → Prop}
    (good : ∀ a s', c s.1 = (.ok a, s') → Good a (s', s.2 ++ [call (.ok a)]))
    (bad : ∀ x s', c s.1 = (.error x, s') → Bad x (s', s.2 ++ [call (.error x)])) :
    Ends Good Bad (watching call c s) := by
  simp only [watching]
  rcases hrun : c s.1 with ⟨x | a, s'⟩
  · exact bad x s' hrun
  · exact good a s' hrun

section Watched

variable (e : QueryEngine σ ε Pos Attr Expr)

def OnTrack (s : σ × List (EngineCall ε Pos Attr Expr)) (reached : Reached Pos)
    (visits : List Visit) : Prop :=
  Follows e.root visits (traversals s.2) reached ∧ Unbroken s.2

def Derailed (x : ε) (s : σ × List (EngineCall ε Pos Attr Expr)) (visits : List Visit) : Prop :=
  (∃ reached, Follows e.root visits (traversals s.2) reached) ∧ BrokenBy x s.2

theorem ends_watching_between {call : Except ε α → EngineCall ε Pos Attr Expr} {c : Call σ ε α}
    (htraversal : ∀ r, (call r).isTraversal = false) (herror : ∀ r, (call r).error? = errorOf? r)
    {s : σ × List (EngineCall ε Pos Attr Expr)} {reached : Reached Pos} {visits : List Visit}
    (h : OnTrack e s reached visits) :
    Ends (fun _ s => True ∧ OnTrack e s reached visits) (fun x s => Derailed e x s visits)
      (watching call c s) := by
  have hsame : ∀ r, traversals (s.2 ++ [call r]) = traversals s.2 := fun r =>
    traversals_append_other s.2 (htraversal r)
  apply ends_watching
  · intro a s' _
    refine ⟨trivial, ?_, h.2.append_singleton (herror _)⟩
    rw [hsame]
    exact h.1
  · intro x s' _
    refine ⟨⟨reached, ?_⟩, s.2, _, rfl, h.2, herror _⟩
    rw [hsame]
    exact h.1

def watchedWalk (notNull : ∀ p name s q s', e.join p name s = (.ok q, s') → e.isNull q = false) :
    Walk e.watched where
  Holds := OnTrack e
  Fails := Derailed e
  Names _ _ _ := True
  Means _ _ _ := True
  Proper := Predicate.Translatable
  clean h := h
  supported h := h
  mono _ _ := trivial
  join := by
    intro s reached visits path c parent name p h _ _ at_ _
    apply ends_watching
    · intro q s' hrun
      refine ⟨notNull p name s.1 q s' hrun, ?_, h.2.append_singleton rfl⟩
      rw [traversals_append_visit s.2 rfl]
      exact .join name q h.1 at_
    · intro x s' _
      refine ⟨⟨reached, ?_⟩, s.2, _, rfl, h.2, rfl⟩
      rw [traversals_append_visit s.2 rfl]
      exact .joinFailed name x h.1 at_
  get := by
    intro s reached visits path c p h _ at_
    apply ends_watching
    · intro a s' _
      refine ⟨trivial, ?_, h.2.append_singleton rfl⟩
      rw [traversals_append_visit s.2 rfl]
      exact .get (attributeOf path) (.ok a) h.1 at_
    · intro x s' _
      refine ⟨⟨reached, ?_⟩, s.2, _, rfl, h.2, rfl⟩
      rw [traversals_append_visit s.2 rfl]
      exact .get (attributeOf path) (.error x) h.1 at_
  compare h _ _ := ends_watching_between e (fun _ => rfl) (fun _ => rfl) h
  any h _ _ := ends_watching_between e (fun _ => rfl) (fun _ => rfl) h
  all h _ _ := ends_watching_between e (fun _ => rfl) (fun _ => rfl) h
  truth h _ := ends_watching_between e (fun _ => rfl) (fun _ => rfl) h

end Watched

/-! ## Expressions are built along the tree -/

/-- Only joins were called, if anything. -/
def JoinsOnly (calls : List (EngineCall ε Pos Attr Expr)) : Prop :=
  ∀ call ∈ calls, call.isJoin = true

mutual

/-- The calls, joins aside, are those that make the expression of a predicate out of the attributes
of its leaves, and gave `x`. -/
def Builds : Predicate → List (EngineCall ε Pos Attr Expr) → Expr → Prop
  | .leaf path c, calls, x =>
      ∃ joins p a, JoinsOnly joins ∧
        calls = joins ++ [.get p (attributeOf path) (.ok a), .compare a c (.ok x)]
  | .unsupported _ _, _, _ => False
  | .anyOf operands, calls, x =>
      ∃ earlier xs, BuildsAll operands earlier xs ∧ calls = earlier ++ [.any xs (.ok x)]
  | .allOf operands, calls, x =>
      (operands = [] ∧ calls = [.truth (.ok x)]) ∨
        (operands ≠ [] ∧
          ∃ earlier xs, BuildsAll operands earlier xs ∧ calls = earlier ++ [.all xs (.ok x)])

def BuildsAll : List Predicate → List (EngineCall ε Pos Attr Expr) → List Expr → Prop
  | [], calls, xs => calls = [] ∧ xs = []
  | p :: rest, calls, xs =>
      ∃ first later y ys, Builds p first y ∧ BuildsAll rest later ys ∧
        calls = first ++ later ∧ xs = y :: ys

end

section Inversion

theorem onEngine_watching {call : Except ε α → EngineCall ε Pos Attr Expr} {c : Call σ ε α}
    {t t' : Traversal (σ × List (EngineCall ε Pos Attr Expr)) Pos} {a : α}
    (h : onEngine (watching call c) t = (.ok a, t')) :
    t'.engine.2 = t.engine.2 ++ [call (.ok a)] := by
  obtain ⟨s, hs, rfl⟩ := onEngine_eq_ok.mp h
  revert hs
  simp only [watching]
  rcases c t.engine.1 with ⟨_ | b, s'⟩
  · simp
  · simp only [Prod.mk.injEq, Except.ok.injEq]
    rintro ⟨rfl, rfl⟩
    rfl

def joinNew (e : QueryEngine σ ε Pos Attr Expr) (p : Pos) (trail name : String)
    (t : Traversal (σ × List (EngineCall ε Pos Attr Expr)) Pos) :
    Except ε Pos × Traversal (σ × List (EngineCall ε Pos Attr Expr)) Pos :=
  match e.join p name t.engine.1 with
  | (.ok q, s) =>
      (.ok q, ⟨(s, t.engine.2 ++ [.join p name (.ok q)]), t.joined.insert trail q⟩)
  | (.error x, s) => (.error x, ⟨(s, t.engine.2 ++ [.join p name (.error x)]), t.joined⟩)

theorem getOrJoin_of_unknown {e : QueryEngine σ ε Pos Attr Expr} {p : Pos} {trail name : String}
    {t : Traversal (σ × List (EngineCall ε Pos Attr Expr)) Pos}
    (h : knownPosition? e.watched t.joined trail = none) :
    getOrJoin e.watched p trail name t = joinNew e p trail name t := by
  have called : onEngine (e.watched.join p name) t = ((e.join p name t.engine.1).1,
      ⟨((e.join p name t.engine.1).2, t.engine.2 ++ [.join p name (e.join p name t.engine.1).1]),
        t.joined⟩) := rfl
  simp only [getOrJoin, h, Call.bind, called, joinNew, Call.pure, remember]
  rcases e.join p name t.engine.1 with ⟨x | q, s⟩ <;> rfl

end Inversion

section Built

variable {e : QueryEngine σ ε Pos Attr Expr}

theorem getOrJoin_joins {p q : Pos} {trail name : String}
    {t t' : Traversal (σ × List (EngineCall ε Pos Attr Expr)) Pos}
    (h : getOrJoin e.watched p trail name t = (.ok q, t')) :
    ∃ joins, JoinsOnly joins ∧ t'.engine.2 = t.engine.2 ++ joins := by
  revert h
  simp only [getOrJoin]
  rcases knownPosition? e.watched t.joined trail with _ | known
  · intro h
    obtain ⟨q', t₁, hjoin, hrest⟩ := Call.bind_eq_ok.mp h
    obtain ⟨_, t₂, hremember, hpure⟩ := Call.bind_eq_ok.mp hrest
    simp only [remember, Prod.mk.injEq] at hremember
    obtain ⟨_, rfl⟩ := hremember
    simp only [Call.pure, Prod.mk.injEq] at hpure
    obtain ⟨_, rfl⟩ := hpure
    have hcalls := onEngine_watching hjoin
    exact ⟨[.join p name (.ok q')], by simp [JoinsOnly, EngineCall.isJoin], hcalls⟩
  · simp only [Prod.mk.injEq]
    rintro ⟨_, rfl⟩
    exact ⟨[], by simp [JoinsOnly], by simp⟩

theorem follow_joins : ∀ (names : List String) (trail : String) {p q : Pos}
    {t t' : Traversal (σ × List (EngineCall ε Pos Attr Expr)) Pos},
    follow e.watched p trail names t = (.ok q, t') →
      ∃ joins, JoinsOnly joins ∧ t'.engine.2 = t.engine.2 ++ joins := by
  intro names
  induction names with
  | nil =>
      intro trail p q t t' h
      simp only [follow, Call.pure, Prod.mk.injEq] at h
      obtain ⟨_, rfl⟩ := h
      exact ⟨[], by simp [JoinsOnly], by simp⟩
  | cons name rest ih =>
      intro trail p q t t' h
      obtain ⟨p', t₁, hjoin, hrest⟩ := Call.bind_eq_ok.mp h
      obtain ⟨first, hfirst, h₁⟩ := getOrJoin_joins hjoin
      obtain ⟨later, hlater, h₂⟩ := ih (extendTrail trail name) hrest
      refine ⟨first ++ later, ?_, by rw [h₂, h₁, List.append_assoc]⟩
      intro call hcall
      rcases List.mem_append.mp hcall with hcall | hcall
      · exact hfirst call hcall
      · exact hlater call hcall

theorem resolve_calls {path : String} {a : Attr}
    {t t' : Traversal (σ × List (EngineCall ε Pos Attr Expr)) Pos}
    (h : resolve e.watched path t = (.ok a, t')) :
    ∃ joins p, JoinsOnly joins ∧
      t'.engine.2 = t.engine.2 ++ (joins ++ [.get p (attributeOf path) (.ok a)]) := by
  obtain ⟨p, t₁, hfollow, hget⟩ := Call.bind_eq_ok.mp h
  obtain ⟨joins, hjoins, h₁⟩ := follow_joins _ _ hfollow
  refine ⟨joins, p, hjoins, ?_⟩
  rw [onEngine_watching hget, h₁, List.append_assoc]

mutual

theorem express_builds (p : Predicate) {x : Expr}
    {t t' : Traversal (σ × List (EngineCall ε Pos Attr Expr)) Pos}
    (h : express e.watched p t = (.ok x, t')) :
    ∃ calls, t'.engine.2 = t.engine.2 ++ calls ∧ Builds p calls x := by
  match p with
  | .leaf path c =>
      simp only [express] at h
      obtain ⟨a, t₁, hresolve, hcompare⟩ := Call.bind_eq_ok.mp (Call.mapError_eq_ok.mp h)
      obtain ⟨joins, q, hjoins, h₁⟩ := resolve_calls hresolve
      refine ⟨joins ++ [.get q (attributeOf path) (.ok a), .compare a c (.ok x)], ?_,
        joins, q, a, hjoins, rfl⟩
      rw [onEngine_watching hcompare, h₁]
      simp
  | .unsupported path c =>
      simp only [express] at h
      obtain ⟨_, _, _, hfail⟩ := Call.bind_eq_ok.mp h
      simp [Call.fail] at hfail
  | .anyOf operands =>
      simp only [express] at h
      obtain ⟨xs, t₁, hall, hany⟩ := Call.bind_eq_ok.mp h
      obtain ⟨earlier, h₁, hbuilds⟩ := expressAll_builds operands hall
      refine ⟨earlier ++ [.any xs (.ok x)], ?_, earlier, xs, hbuilds, rfl⟩
      rw [onEngine_watching (Call.mapError_eq_ok.mp hany), h₁, List.append_assoc]
  | .allOf [] =>
      simp only [express] at h
      exact ⟨[.truth (.ok x)], onEngine_watching (Call.mapError_eq_ok.mp h), Or.inl ⟨rfl, rfl⟩⟩
  | .allOf (p :: rest) =>
      simp only [express] at h
      obtain ⟨y, t₁, hfirst, hrest⟩ := Call.bind_eq_ok.mp h
      obtain ⟨ys, t₂, hothers, hall⟩ := Call.bind_eq_ok.mp hrest
      obtain ⟨first, h₁, hbuilds⟩ := express_builds p hfirst
      obtain ⟨later, h₂, hbuilds'⟩ := expressAll_builds rest hothers
      refine ⟨first ++ later ++ [.all (y :: ys) (.ok x)], ?_,
        Or.inr ⟨by simp, first ++ later, y :: ys, ?_, rfl⟩⟩
      · rw [onEngine_watching (Call.mapError_eq_ok.mp hall), h₂, h₁]
        simp
      · exact ⟨first, later, y, ys, hbuilds, hbuilds', rfl, rfl⟩

theorem expressAll_builds (ps : List Predicate) {xs : List Expr}
    {t t' : Traversal (σ × List (EngineCall ε Pos Attr Expr)) Pos}
    (h : expressAll e.watched ps t = (.ok xs, t')) :
    ∃ calls, t'.engine.2 = t.engine.2 ++ calls ∧ BuildsAll ps calls xs := by
  match ps with
  | [] =>
      simp only [expressAll, Call.pure, Prod.mk.injEq, Except.ok.injEq] at h
      obtain ⟨rfl, rfl⟩ := h
      exact ⟨[], by simp, rfl, rfl⟩
  | p :: rest =>
      simp only [expressAll] at h
      obtain ⟨y, t₁, hfirst, hrest⟩ := Call.bind_eq_ok.mp h
      obtain ⟨ys, t₂, hothers, hpure⟩ := Call.bind_eq_ok.mp hrest
      simp only [Call.pure, Prod.mk.injEq, Except.ok.injEq] at hpure
      obtain ⟨rfl, rfl⟩ := hpure
      obtain ⟨first, h₁, hbuilds⟩ := express_builds p hfirst
      obtain ⟨later, h₂, hbuilds'⟩ := expressAll_builds rest hothers
      exact ⟨first ++ later, by rw [h₂, h₁, List.append_assoc], first, later, y, ys, hbuilds,
        hbuilds', rfl, rfl⟩

end

end Built

/-! ## The calls of a translation -/

/-- `calls` are the calls of translating `p` from the state `s`, with their answers. -/
structure Traverses (e : QueryEngine σ ε Pos Attr Expr) (p : Predicate) (s : σ)
    (calls : List (EngineCall ε Pos Attr Expr)) : Prop where
  watched : toExpression e.watched p (s, []) =
    ((toExpression e p s).1, ((toExpression e p s).2, calls))
  /-- The traversal calls are a start of the itinerary, and all of it where the translation
  succeeds. -/
  follows : ∃ visited later reached, visited ++ later = itinerary [] p.paths ∧
    Follows e.root visited (traversals calls) reached ∧
    ∀ x, (toExpression e p s).1 = .ok x → later = []
  /-- The itinerary joins every start of a path's relationships, and none twice. -/
  joinsOnce : (joinedTrails (itinerary [] p.paths)).Nodup ∧
    ∀ trail, trail ∈ joinedTrails (itinerary [] p.paths) ↔
      trail ≠ [] ∧ ∃ path ∈ p.paths, trail <+: relationshipsOf path
  builds : ∀ x, (toExpression e p s).1 = .ok x → Unbroken calls ∧ Builds p calls x
  /-- The error is that of the last call, the first one that failed. -/
  stops : ∀ err, (toExpression e p s).1 = .error err → ∃ x, err = .engine x ∧ BrokenBy x calls

theorem toExpression_traverses (e : QueryEngine σ ε Pos Attr Expr)
    (notNull : ∀ p name s q s', e.join p name s = (.ok q, s') → e.isNull q = false)
    (p : Predicate) (translatable : p.Every Predicate.Translatable) (s : σ) :
    ∃ calls, Traverses e p s calls := by
  obtain ⟨hresult, hstate⟩ := toExpression_watched e p s []
  have ready : (watchedWalk e notNull).Ready ⟨(s, []), .empty⟩ [] [] :=
    ⟨⟨.nil, by simp [Unbroken]⟩, rfl, by simp, by simp⟩
  have kept := Walk.express_kept p translatable ready
  have joinsOnce := And.intro (joinedTrails_itinerary_nodup p.paths)
    (mem_joinedTrails_itinerary p.paths)
  rcases hrun : express e.watched p ⟨(s, []), .empty⟩ with ⟨err | x, t⟩
  · rw [hrun] at kept
    -- The run stopped within the itinerary, and its last call is the one that failed.
    obtain ⟨x, visited, rfl, ⟨later, hlater⟩, ⟨reached, hfollows⟩, hbroken⟩ := kept
    have hto : toExpression e.watched p (s, []) = (.error (.engine x), t.engine) := by
      simp [toExpression, hrun]
    rw [hto] at hresult hstate
    refine ⟨t.engine.2, ?_, ⟨visited, later, reached, hlater, hfollows, ?_⟩, joinsOnce, ?_, ?_⟩
    · rw [hto, ← hresult, ← hstate]
    · intro x hx
      rw [← hresult] at hx
      cases hx
    · intro x hx
      rw [← hresult] at hx
      cases hx
    · intro err herr
      rw [← hresult] at herr
      cases herr
      exact ⟨x, rfl, hbroken⟩
  · rw [hrun] at kept
    obtain ⟨reached, _, ready', _⟩ := kept
    obtain ⟨hfollows, hunbroken⟩ := ready'.holds
    obtain ⟨calls, hcalls, hbuilds⟩ := express_builds p hrun
    have hto : toExpression e.watched p (s, []) = (.ok x, t.engine) := by
      simp [toExpression, hrun]
    rw [hto] at hresult hstate
    simp only [List.nil_append] at hcalls hfollows
    refine ⟨t.engine.2, ?_, ⟨_, [], _, List.append_nil _, hfollows, fun _ _ => rfl⟩, joinsOnce,
      ?_, ?_⟩
    · rw [hto, ← hresult, ← hstate]
    · intro y hy
      rw [← hresult] at hy
      cases hy
      exact ⟨hunbroken, hcalls ▸ hbuilds⟩
    · intro err herr
      rw [← hresult] at herr
      cases herr

theorem toExpression_traverses_recording :
    (∀ p name s q s', (recordingEngine ⟨[], [], [], []⟩).join p name s = (.ok q, s') →
      (recordingEngine ⟨[], [], [], []⟩).isNull q = false) ∧
    ∃ calls, Traverses (recordingEngine ⟨[], [], [], []⟩)
      (.allOf [.leaf "category.department.name" (.contains "toys"),
        .anyOf [.leaf "category.name" (.equal .null),
          .leaf "supplier.department.name" (.oneOf [])]])
      [] calls := by
  have notNull : ∀ p name s q s', (recordingEngine ⟨[], [], [], []⟩).join p name s = (.ok q, s') →
      (recordingEngine ⟨[], [], [], []⟩).isNull q = false := by
    intro p name s q s' h
    simp only [recordingEngine, Call.bind, record, failing, List.contains_nil, Bool.false_eq_true,
      if_false, Call.pure, Prod.mk.injEq, Except.ok.injEq] at h
    simp [recordingEngine, ← h.1]
  refine ⟨notNull, toExpression_traverses _ notNull _ ?_ []⟩
  have first : CleanPath "category.department.name" := by decide
  have second : CleanPath "category.name" := by decide
  have third : CleanPath "supplier.department.name" := by decide
  exact ⟨trivial, first, ⟨trivial, second, third, trivial⟩, trivial⟩

theorem notNull_recording {plan : RecordingPlan} (h : plan.nullJoins = []) :
    ∀ p name s q s', (recordingEngine plan).join p name s = (.ok q, s') →
      (recordingEngine plan).isNull q = false := by
  intro p name s q s' hjoin
  simp only [recordingEngine, Call.bind, record, failing, h, List.contains_nil, Bool.false_eq_true,
    if_false] at hjoin
  split at hjoin
  · cases hjoin
  · obtain ⟨rfl, _⟩ := by simpa [Call.pure] using hjoin
    rfl

end CatalogSearch.Criteria
