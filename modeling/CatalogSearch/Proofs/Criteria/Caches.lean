import CatalogSearch.Proofs.Criteria.Translation

/-!
# Caches over many calls

Paths are resolved one after another against one engine, each with one of any number of caches, and
any call may fail where it joins or where it gets.  A call joins, one after the other, the trails on
the way to its path that its cache does not hold, until all are joined or a join fails, and its cache
takes in those joins that succeeded (`Resolving`).  Main statement: `caches_hold_joined_trails`.  At
any time a cache holds the trails that were joined in the calls that used it, each joined once, and
under each trail the position to which a walk of these joins leads from the root.
-/

set_option autoImplicit false

namespace CatalogSearch.Criteria

variable {ι σ ε Pos Attr Expr : Type}

/-! ## What one call does -/

/-- The trails on the way to a path that are not reached yet, shortest first. -/
def missing (known : Reached Pos) (path : String) : List (List String) :=
  newTrails (known.map Prod.fst) (trailsOf path)

/-- The calls are joins that succeeded, each on the position at which its trail starts, and reached
the positions `found`. -/
inductive Joining (root : Pos) (known : Reached Pos) :
    List (EngineCall ε Pos Attr Expr) → Reached Pos → Prop
  | nil : Joining root known [] []
  | join {calls found parent p} (name : String) (q : Pos) (before : Joining root known calls found)
      (at_ : reachedAt? root (known ++ found) parent = some p) :
      Joining root known (calls ++ [.join p name (.ok q)]) (found ++ [(parent ++ [name], q)])

/-- What resolving a path does where the positions `known` are reached: it joins what is missing and
answers what the attribute is read as, or it stops at the first join that fails. -/
inductive Resolving (root : Pos) (known : Reached Pos) (path : String) :
    List (EngineCall ε Pos Attr Expr) → Reached Pos → Except ε Attr → Prop
  | read {calls found p} (answer : Except ε Attr) (joining : Joining root known calls found)
      (all : found.map Prod.fst = missing known path)
      (at_ : reachedAt? root (known ++ found) (relationshipsOf path) = some p) :
      Resolving root known path (calls ++ [.get p (attributeOf path) answer]) found answer
  | stopped {calls found parent p} (name : String) (x : ε) (joining : Joining root known calls found)
      (next : found.map Prod.fst ++ [parent ++ [name]] <+: missing known path)
      (at_ : reachedAt? root (known ++ found) parent = some p) :
      Resolving root known path (calls ++ [.join p name (.error x)]) found (.error x)

theorem Resolving.joining {root : Pos} {known found : Reached Pos} {path : String}
    {calls : List (EngineCall ε Pos Attr Expr)} {answer : Except ε Attr}
    (h : Resolving root known path calls found answer) :
    ∃ joins last, calls = joins ++ [last] ∧ Joining root known joins found ∧
      (∀ p name q, last ≠ .join p name (.ok q)) ∧
      found.map Prod.fst <+: missing known path := by
  cases h with
  | read answer joining all at_ => exact ⟨_, _, rfl, joining, by simp, all ▸ List.prefix_rfl⟩
  | stopped name x joining next at_ =>
      exact ⟨_, _, rfl, joining, by simp, (List.prefix_append _ _).trans next⟩

/-! ## Following a path -/

section Follow

variable {e : QueryEngine σ ε Pos Attr Expr} {known found : Reached Pos}
  {t : Traversal (σ × List (EngineCall ε Pos Attr Expr)) Pos}

/-- The traversal of a call after joins that reached `found`. -/
structure Progress (e : QueryEngine σ ε Pos Attr Expr) (known : Reached Pos)
    (t : Traversal (σ × List (EngineCall ε Pos Attr Expr)) Pos) (found : Reached Pos) : Prop where
  joining : Joining e.root known t.engine.2 found
  stored : Stored e t.joined (known ++ found)

/-- The traversal of a call that the failed join of a trail stopped. -/
structure StoppedAt (e : QueryEngine σ ε Pos Attr Expr) (known : Reached Pos)
    (t : Traversal (σ × List (EngineCall ε Pos Attr Expr)) Pos) (found : Reached Pos)
    (parent : List String) (name : String) (x : ε) : Prop where
  calls : ∃ calls p, t.engine.2 = calls ++ [.join p name (.error x)] ∧
    Joining e.root known calls found ∧ reachedAt? e.root (known ++ found) parent = some p
  stored : Stored e t.joined (known ++ found)

theorem Progress.getOrJoin
    (notNull : ∀ p name s q s', e.join p name s = (.ok q, s') → e.isNull q = false)
    (progress : Progress e known t found) {parent : List String} {name : String} {p : Pos}
    (clean : CleanTrail (parent ++ [name]))
    (at_ : reachedAt? e.root (known ++ found) parent = some p) :
    Ends
      (fun q t' => ∃ more, Progress e known t' (found ++ more) ∧
        more.map Prod.fst = newTrails ((known ++ found).map Prod.fst) [parent ++ [name]] ∧
        reachedAt? e.root (known ++ (found ++ more)) (parent ++ [name]) = some q)
      (fun x t' => StoppedAt e known t' found parent name x ∧
        newTrails ((known ++ found).map Prod.fst) [parent ++ [name]] = [parent ++ [name]])
      (getOrJoin e.watched p (trailText (parent ++ [name])) name t) := by
  have hne : parent ++ [name] ≠ [] := by simp
  have hknown : knownPosition? e.watched t.joined (trailText (parent ++ [name])) =
      (known ++ found).lookup (parent ++ [name]) := progress.stored.knownPosition? clean hne
  by_cases hmem : parent ++ [name] ∈ (known ++ found).map Prod.fst
  · obtain ⟨q, hq⟩ := exists_lookup_of_mem hmem
    simp only [Criteria.getOrJoin, hknown, hq]
    refine ⟨[], by rwa [List.append_nil], by simp only [newTrails, if_pos hmem, List.map_nil], ?_⟩
    rw [List.append_nil, reachedAt?, if_neg hne, hq]
  · have hnew : newTrails ((known ++ found).map Prod.fst) [parent ++ [name]] =
        [parent ++ [name]] := by simp only [newTrails, if_neg hmem]
    rw [getOrJoin_of_unknown (hknown.trans (lookup_eq_none_of_not_mem hmem)), hnew, joinNew]
    rcases hjoin : e.join p name t.engine.1 with ⟨x | q, s⟩
    · exact ⟨⟨⟨t.engine.2, p, rfl, progress.joining, at_⟩, progress.stored⟩, rfl⟩
    · refine ⟨[(parent ++ [name], q)], ⟨.join name q progress.joining at_, ?_⟩, rfl, ?_⟩
      · rw [← List.append_assoc]
        exact progress.stored.insert clean hne hmem (notNull p name _ q s hjoin)
      · rw [← List.append_assoc]
        exact reachedAt?_append_singleton e.root q hne hmem

theorem Progress.follow
    (notNull : ∀ p name s q s', e.join p name s = (.ok q, s') → e.isNull q = false) :
    ∀ (names done : List String) {p : Pos} {found : Reached Pos}
      {t : Traversal (σ × List (EngineCall ε Pos Attr Expr)) Pos}, Progress e known t found →
      CleanTrail (done ++ names) → reachedAt? e.root (known ++ found) done = some p →
      Ends
        (fun q t' => ∃ more, Progress e known t' (found ++ more) ∧
          more.map Prod.fst = newTrails ((known ++ found).map Prod.fst) (trailsFrom done names) ∧
          reachedAt? e.root (known ++ (found ++ more)) (done ++ names) = some q)
        (fun x t' => ∃ more parent name, StoppedAt e known t' (found ++ more) parent name x ∧
          more.map Prod.fst ++ [parent ++ [name]] <+:
            newTrails ((known ++ found).map Prod.fst) (trailsFrom done names))
        (follow e.watched p (trailText done) names t) := by
  intro names
  induction names with
  | nil =>
      intro done p found t progress _ at_
      refine ⟨[], by rwa [List.append_nil], rfl, ?_⟩
      rwa [List.append_nil, List.append_nil]
  | cons name rest ih =>
      intro done p found t progress clean at_
      have hsplit : done ++ name :: rest = done ++ [name] ++ rest := by simp
      have htrails : trailsFrom done (name :: rest) =
          [done ++ [name]] ++ trailsFrom (done ++ [name]) rest := rfl
      rw [hsplit] at clean ⊢
      rw [htrails, newTrails_append]
      simp only [Criteria.follow, ← trailText_append_singleton]
      have cleanFirst : CleanTrail (done ++ [name]) := fun n hn =>
        clean n (List.mem_append_left _ hn)
      refine Ends.bind ((progress.getOrJoin notNull cleanFirst at_).imp (fun _ _ h => h) ?_) ?_
      · -- The first join failed, so that nothing more is found.
        rintro x t' ⟨stopped, hnew⟩
        refine ⟨[], done, name, by rwa [List.append_nil], ?_⟩
        rw [hnew]
        exact List.prefix_append _ _
      · rintro q t' ⟨more, progress', hmore, at_'⟩
        -- What the rest finds is new also beside the trail that was just joined.
        refine (ih (done ++ [name]) progress' clean at_').imp ?_ ?_
        · rintro q' t'' ⟨others, progress'', hothers, at_''⟩
          rw [List.append_assoc] at progress'' at_''
          refine ⟨more ++ others, progress'', ?_, at_''⟩
          rw [List.map_append, hothers, ← hmore, ← List.map_append, List.append_assoc]
        · rintro x t'' ⟨others, parent, name', stopped, next⟩
          refine ⟨more ++ others, parent, name', by rwa [← List.append_assoc], ?_⟩
          rw [List.map_append, List.append_assoc, ← hmore, ← List.map_append, List.append_assoc]
          exact (List.prefix_append_right_inj _).mpr next

theorem resolving_resolve
    (notNull : ∀ p name s q s', e.join p name s = (.ok q, s') → e.isNull q = false)
    {c : JoinCache Pos} (stored : Stored e c known) {path : String} (clean : CleanPath path) (s : σ) :
    ∃ found,
      Resolving e.root known path (resolve e.watched path ⟨(s, []), c⟩).2.engine.2 found
        (resolve e.watched path ⟨(s, []), c⟩).1 ∧
      Stored e (resolve e.watched path ⟨(s, []), c⟩).2.joined (known ++ found) := by
  have start : Progress e known ⟨(s, []), c⟩ [] := ⟨.nil, by rwa [List.append_nil]⟩
  have hstart : trailText [] = "" := rfl
  have followed := Progress.follow notNull (relationshipsOf path) [] start
    (cleanTrail_relationshipsOf clean) rfl
  simp only [hstart, List.nil_append, List.append_nil] at followed
  simp only [resolve, Call.bind, QueryEngine.root_watched]
  revert followed
  rcases follow e.watched e.root "" (relationshipsOf path) ⟨(s, []), c⟩ with ⟨x | p, t⟩
  · rintro ⟨found, parent, name, ⟨⟨calls, p, hcalls, joining, at_⟩, stored'⟩, next⟩
    refine ⟨found, ?_, stored'⟩
    rw [hcalls]
    exact .stopped name x joining next at_
  · rintro ⟨found, ⟨joining, stored'⟩, all, at_⟩
    exact ⟨found, .read (e.get p (attributeOf path) t.engine.1).1 joining all at_, stored'⟩

end Follow

/-! ## Many calls -/

structure Caches (ι σ Pos : Type) where
  engine : σ
  joined : ι → JoinCache Pos

def Caches.fresh (s : σ) : Caches ι σ Pos := ⟨s, fun _ => .empty⟩

/-- What is seen of a call: the cache it used, its path, the calls of the engine that it made, and
what it answered. -/
structure Round (ι ε Pos Attr Expr : Type) where
  cache : ι
  path : String
  calls : List (EngineCall ε Pos Attr Expr)
  answer : Except ε Attr

section Runs

variable [DecidableEq ι] (e : QueryEngine σ ε Pos Attr Expr)

def Caches.after (cs : Caches ι σ Pos) (k : ι) (path : String) : Caches ι σ Pos :=
  let t := (resolve e path ⟨cs.engine, cs.joined k⟩).2
  ⟨t.engine, Function.update cs.joined k t.joined⟩

def Caches.roundOf (cs : Caches ι σ Pos) (k : ι) (path : String) : Round ι ε Pos Attr Expr :=
  ⟨k, path, (resolve e.watched path ⟨(cs.engine, []), cs.joined k⟩).2.engine.2,
    (resolve e path ⟨cs.engine, cs.joined k⟩).1⟩

def resolveAll : List (ι × String) → Caches ι σ Pos → Caches ι σ Pos
  | [], cs => cs
  | (k, path) :: rest, cs => resolveAll rest (cs.after e k path)

def roundsOf : List (ι × String) → Caches ι σ Pos → List (Round ι ε Pos Attr Expr)
  | [], _ => []
  | (k, path) :: rest, cs => cs.roundOf e k path :: roundsOf rest (cs.after e k path)

end Runs

/-- The calls went as the law says, and left `reached` in the caches: each cache the trails found by
the calls that used it. -/
inductive Logged [DecidableEq ι] (root : Pos) :
    List (Round ι ε Pos Attr Expr) → (ι → Reached Pos) → Prop
  | nil : Logged root [] fun _ => []
  | round {rounds reached found} {r : Round ι ε Pos Attr Expr} (before : Logged root rounds reached)
      (resolving : Resolving root (reached r.cache) r.path r.calls found r.answer) :
      Logged root (rounds ++ [r]) (Function.update reached r.cache (reached r.cache ++ found))

theorem resolve_watched (e : QueryEngine σ ε Pos Attr Expr) (path : String) (s : σ)
    (calls : List (EngineCall ε Pos Attr Expr)) (c : JoinCache Pos) :
    (resolve e.watched path ⟨(s, calls), c⟩).1 = (resolve e path ⟨s, c⟩).1 ∧
      (resolve e.watched path ⟨(s, calls), c⟩).2.joined = (resolve e path ⟨s, c⟩).2.joined := by
  have hrunning : (watchedCorrespondence e).Running ⟨(s, calls), c⟩ ⟨s, c⟩ :=
    ⟨rfl, List.forall₂_same.mpr fun _ _ => ⟨rfl, rfl⟩⟩
  obtain ⟨hanswer, _, hentries⟩ :=
    Alike.eq ((watchedCorrespondence e).resolve_alike path hrunning)
  refine ⟨hanswer, ?_⟩
  have hsame : List.Forall₂ Eq (resolve e.watched path ⟨(s, calls), c⟩).2.joined.entries
      (resolve e path ⟨s, c⟩).2.joined.entries := hentries.imp fun _ _ h => Prod.ext h.1 h.2
  exact congrArg JoinCache.mk (List.forall₂_eq_eq_eq ▸ hsame)

section Runs

variable [DecidableEq ι] {e : QueryEngine σ ε Pos Attr Expr}

def AllStored (e : QueryEngine σ ε Pos Attr Expr) (cs : Caches ι σ Pos) (reached : ι → Reached Pos) :
    Prop :=
  ∀ k, Stored e (cs.joined k) (reached k)

theorem resolving_roundOf
    (notNull : ∀ p name s q s', e.join p name s = (.ok q, s') → e.isNull q = false)
    {cs : Caches ι σ Pos} {reached : ι → Reached Pos} (stored : AllStored e cs reached) (k : ι)
    {path : String} (clean : CleanPath path) :
    ∃ found,
      Resolving e.root (reached k) path (cs.roundOf e k path).calls found
        (cs.roundOf e k path).answer ∧
      AllStored e (cs.after e k path) (Function.update reached k (reached k ++ found)) := by
  obtain ⟨found, resolving, stored'⟩ := resolving_resolve notNull (stored k) clean cs.engine
  obtain ⟨hanswer, hjoined⟩ := resolve_watched e path cs.engine [] (cs.joined k)
  rw [hanswer] at resolving
  rw [hjoined] at stored'
  refine ⟨found, resolving, fun other => ?_⟩
  by_cases hother : other = k
  · subst hother
    simpa only [Caches.after, Function.update_self] using stored'
  · simpa only [Caches.after, Function.update_of_ne hother] using stored other

theorem logged_roundsOf
    (notNull : ∀ p name s q s', e.join p name s = (.ok q, s') → e.isNull q = false) :
    ∀ (calls : List (ι × String)) {cs : Caches ι σ Pos} {reached : ι → Reached Pos}
      {rounds : List (Round ι ε Pos Attr Expr)}, (∀ c ∈ calls, CleanPath c.2) →
      Logged e.root rounds reached → AllStored e cs reached →
      ∃ reached', Logged e.root (rounds ++ roundsOf e calls cs) reached' ∧
        AllStored e (resolveAll e calls cs) reached' := by
  intro calls
  induction calls with
  | nil =>
      intro cs reached rounds _ logged stored
      refine ⟨reached, ?_, stored⟩
      rwa [roundsOf, List.append_nil]
  | cons call rest ih =>
      intro cs reached rounds clean logged stored
      obtain ⟨k, path⟩ := call
      obtain ⟨hpath, hrest⟩ := List.forall_mem_cons.mp clean
      obtain ⟨found, resolving, stored'⟩ := resolving_roundOf notNull stored k hpath
      have logged' : Logged e.root (rounds ++ [cs.roundOf e k path])
          (Function.update reached k (reached k ++ found)) :=
        .round (r := cs.roundOf e k path) logged resolving
      obtain ⟨reached', hlogged, hstored⟩ := ih hrest logged' stored'
      refine ⟨reached', ?_, hstored⟩
      rwa [List.append_assoc] at hlogged

end Runs

/-! ## What the joins account for -/

/-- A join that succeeded: its position, the name of the relationship, and the position it gave. -/
abbrev Joined (Pos : Type) : Type := Pos × String × Pos

def joinsOf (calls : List (EngineCall ε Pos Attr Expr)) : List (Joined Pos) :=
  calls.filterMap fun
    | .join parent name (.ok q) => some (parent, name, q)
    | _ => none

/-- The joins lead along the trail from the root to the position. -/
inductive WalkedTo (root : Pos) (joins : List (Joined Pos)) : List String → Pos → Prop
  | root : WalkedTo root joins [] root
  | step {parent p name q} (before : WalkedTo root joins parent p) (join : (p, name, q) ∈ joins) :
      WalkedTo root joins (parent ++ [name]) q

theorem WalkedTo.append {root : Pos} {joins : List (Joined Pos)} {trail : List String} {p : Pos}
    (h : WalkedTo root joins trail p) (more : List (Joined Pos)) :
    WalkedTo root (joins ++ more) trail p := by
  induction h with
  | root => exact .root
  | step _ join ih => exact .step ih (List.mem_append_left _ join)

/-- The trails reached are those of the joins, each joined once, after its start. -/
structure Accounted (root : Pos) (joins : List (Joined Pos)) (reached : Reached Pos) : Prop where
  once : (reached.map Prod.fst).Nodup
  closed : ∀ parent name, parent ≠ [] → parent ++ [name] ∈ reached.map Prod.fst →
    parent ∈ reached.map Prod.fst
  joined : List.Forall₂
    (fun r join => ∃ parent, r = (parent ++ [join.2.1], join.2.2) ∧
      reachedAt? root reached parent = some join.1)
    reached joins
  walked : ∀ trail p, reachedAt? root reached trail = some p → WalkedTo root joins trail p

section Accounted

variable {root : Pos} {joins : List (Joined Pos)} {reached known found : Reached Pos}

theorem accounted_nil (root : Pos) : Accounted root [] [] where
  once := .nil
  closed := by simp
  joined := .nil
  walked := by
    intro trail p h
    by_cases hnil : trail = []
    · rw [reachedAt?, if_pos hnil] at h
      obtain rfl := Option.some.inj h
      rw [hnil]
      exact .root
    · simp [reachedAt?, hnil] at h

theorem Accounted.join (accounted : Accounted root joins reached) {parent : List String}
    {name : String} {p : Pos} (at_ : reachedAt? root reached parent = some p)
    (fresh : parent ++ [name] ∉ reached.map Prod.fst) (q : Pos) :
    Accounted root (joins ++ [(p, name, q)]) (reached ++ [(parent ++ [name], q)]) where
  once := by
    rw [List.map_append, List.nodup_append]
    refine ⟨accounted.once, by simp, ?_⟩
    rintro trail htrail _ hlast rfl
    rw [List.mem_singleton.mp hlast] at htrail
    exact fresh htrail
  closed := by
    intro start last hne h
    rw [List.map_append, List.mem_append] at h ⊢
    rcases h with h | h
    · exact Or.inl (accounted.closed start last hne h)
    · -- The new trail starts at one that was reached, hence joined.
      obtain ⟨rfl, rfl⟩ : start = parent ∧ last = name := by simpa using h
      rw [reachedAt?, if_neg hne] at at_
      exact Or.inl (List.mem_map.mpr ⟨_, mem_of_lookup at_, rfl⟩)
  joined := by
    refine List.rel_append ?_ (.cons ⟨parent, rfl, reachedAt?_append at_ _⟩ .nil)
    refine accounted.joined.imp ?_
    rintro r join ⟨start, hr, hstart⟩
    exact ⟨start, hr, reachedAt?_append hstart _⟩
  walked := by
    intro trail p' h
    rcases reachedAt?_append_singleton_cases h with h | ⟨rfl, rfl⟩
    · exact (accounted.walked trail p' h).append _
    · exact .step ((accounted.walked parent p at_).append _) (by simp)

theorem joinsOf_append (first second : List (EngineCall ε Pos Attr Expr)) :
    joinsOf (first ++ second) = joinsOf first ++ joinsOf second :=
  List.filterMap_append

theorem joinsOf_singleton_of_other {call : EngineCall ε Pos Attr Expr}
    (other : ∀ parent name q, call ≠ .join parent name (.ok q)) : joinsOf [call] = [] := by
  rcases call with ⟨parent, name, x | q⟩ | _ | _ | _ | _ | _ | _ | _
  · rfl
  · exact absurd rfl (other parent name q)
  all_goals rfl

theorem Accounted.joining {calls : List (EngineCall ε Pos Attr Expr)} {path : String}
    (accounted : Accounted root joins known) (joining : Joining root known calls found)
    (due : found.map Prod.fst <+: missing known path) :
    Accounted root (joins ++ joinsOf calls) (known ++ found) := by
  induction joining with
  | nil => simpa [joinsOf] using accounted
  | @join calls found parent p name q before at_ ih =>
      rw [List.map_append] at due
      have fresh : parent ++ [name] ∉ (known ++ found).map Prod.fst := by
        have hnodup := (newTrails_nodup _ _).sublist due.sublist
        have hnew := (mem_newTrails _ _).mp (due.subset (by simp : parent ++ [name] ∈ _))
        rw [List.map_append, List.mem_append]
        rintro (hknown | hfound)
        · exact hnew.2 hknown
        · exact (List.nodup_append.mp hnodup).2.2 _ hfound _ (by simp) rfl
      have more := (ih ((List.prefix_append _ _).trans due)).join at_ fresh q
      rw [List.append_assoc, List.append_assoc] at more
      rwa [joinsOf_append]

end Accounted

section Logged

variable [DecidableEq ι]

def callsWith (k : ι) (rounds : List (Round ι ε Pos Attr Expr)) :
    List (EngineCall ε Pos Attr Expr) :=
  (rounds.filter fun r => r.cache = k).flatMap Round.calls

theorem callsWith_append_singleton (k : ι) (rounds : List (Round ι ε Pos Attr Expr))
    (r : Round ι ε Pos Attr Expr) :
    callsWith k (rounds ++ [r]) = callsWith k rounds ++ if r.cache = k then r.calls else [] := by
  by_cases hk : r.cache = k
  · simp [callsWith, hk]
  · simp [callsWith, hk]

theorem Logged.accounted {root : Pos} {rounds : List (Round ι ε Pos Attr Expr)}
    {reached : ι → Reached Pos} (logged : Logged root rounds reached) (k : ι) :
    Accounted root (joinsOf (callsWith k rounds)) (reached k) := by
  induction logged with
  | nil => exact accounted_nil root
  | @round rounds reached found r before resolving ih =>
      rw [callsWith_append_singleton]
      by_cases hk : r.cache = k
      · subst hk
        obtain ⟨calls, last, hcalls, joining, hlast, due⟩ := resolving.joining
        rw [if_pos rfl, hcalls, Function.update_self, joinsOf_append, joinsOf_append,
          joinsOf_singleton_of_other hlast, List.append_nil]
        exact ih.joining joining due
      · rwa [if_neg hk, List.append_nil, Function.update_of_ne (Ne.symm hk)]

end Logged

/-- The cache holds the trails that the joins account for, and each position under its trail. -/
structure HoldsJoined (root : Pos) (joins : List (Joined Pos)) (c : JoinCache Pos)
    (reached : Reached Pos) : Prop extends Accounted root joins reached where
  entries : c.entries = reached.map fun r => (trailText r.1, r.2)
  texts : (c.entries.map Prod.fst).Nodup
  position : ∀ r ∈ reached, c.get? (trailText r.1) = some r.2
  size : c.size = joins.length

theorem Accounted.holdsJoined {e : QueryEngine σ ε Pos Attr Expr} {root : Pos}
    {joins : List (Joined Pos)} {c : JoinCache Pos} {reached : Reached Pos}
    (accounted : Accounted root joins reached) (stored : Stored e c reached) :
    HoldsJoined root joins c reached where
  toAccounted := accounted
  entries := stored.entries
  texts := by
    have htexts : c.entries.map Prod.fst = (reached.map Prod.fst).map trailText := by
      rw [stored.entries, List.map_map, List.map_map]
      rfl
    rw [htexts]
    refine List.Nodup.map_on ?_ accounted.once
    intro first hfirst second hsecond htext
    obtain ⟨r, hr, rfl⟩ := List.mem_map.mp hfirst
    obtain ⟨r', hr', rfl⟩ := List.mem_map.mp hsecond
    exact trailText_injective (stored.clean r hr).1 (stored.clean r' hr').1 (stored.clean r hr).2
      (stored.clean r' hr').2 htext
  position := by
    intro r hr
    obtain ⟨hclean, hne⟩ := stored.clean r hr
    rw [stored.get? hclean hne]
    exact lookup_of_mem accounted.once hr
  size := by rw [JoinCache.size, stored.entries, List.length_map, accounted.joined.length_eq]

/-- However calls with any number of caches go, each of them does what the law says with the cache
that it uses, and each cache holds the trails that were joined with it. -/
theorem caches_hold_joined_trails [DecidableEq ι] (e : QueryEngine σ ε Pos Attr Expr)
    (notNull : ∀ p name s q s', e.join p name s = (.ok q, s') → e.isNull q = false)
    (calls : List (ι × String)) (clean : ∀ c ∈ calls, CleanPath c.2) (s : σ) :
    ∃ reached : ι → Reached Pos,
      Logged e.root (roundsOf e calls (.fresh s)) reached ∧
      ∀ k, HoldsJoined e.root (joinsOf (callsWith k (roundsOf e calls (.fresh s))))
        ((resolveAll e calls (.fresh s)).joined k) (reached k) := by
  have start : AllStored e (.fresh s : Caches ι σ Pos) fun _ => [] := fun _ => stored_empty e
  obtain ⟨reached, logged, stored⟩ := logged_roundsOf notNull calls clean .nil start
  exact ⟨reached, logged, fun k => (logged.accounted k).holdsJoined (stored k)⟩

theorem caches_hold_joined_trails_failing :
    ∃ reached : Bool → Reached (Option String),
      Logged (some "")
        (roundsOf (recordingEngine ⟨[], ["manager"], [], []⟩)
          [(false, "category.name"), (false, "category.department.manager.name"),
            (true, "category.name"), (false, "category.department.name")] (.fresh []))
        reached ∧
      ∀ k, HoldsJoined (some "")
        (joinsOf (callsWith k (roundsOf (recordingEngine ⟨[], ["manager"], [], []⟩)
          [(false, "category.name"), (false, "category.department.manager.name"),
            (true, "category.name"), (false, "category.department.name")] (.fresh []))))
        ((resolveAll (recordingEngine ⟨[], ["manager"], [], []⟩)
          [(false, "category.name"), (false, "category.department.manager.name"),
            (true, "category.name"), (false, "category.department.name")] (.fresh [])).joined k)
        (reached k) := by
  have clean : ∀ c ∈ [(false, "category.name"), (false, "category.department.manager.name"),
      (true, "category.name"), (false, "category.department.name")], CleanPath c.2 := by decide
  exact caches_hold_joined_trails _ (notNull_recording rfl) _ clean []

end CatalogSearch.Criteria
