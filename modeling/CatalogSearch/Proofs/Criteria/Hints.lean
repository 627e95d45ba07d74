import CatalogSearch.Proofs.Criteria.Translation

/-!
# Fetch hints

The fields that give hints are those that give conjuncts, and the hints are the relationships that
the paths of the conjuncts start with.  Main statement: `hints_joined_from_root`, which follows the
hints of compiled criteria to the translation of their predicate: it joins from the root exactly the
relationships that the hints name.
-/

set_option autoImplicit false

namespace CatalogSearch.Criteria

/-! ## The first segment of a path -/

theorem splitDots_of_dot : ∀ cs : List Char, '.' ∈ cs →
    ∃ after, splitDots cs = cs.takeWhile (· ≠ '.') :: splitDots after := by
  intro cs
  induction cs with
  | nil => intro h; simp at h
  | cons c rest ih =>
      intro h
      by_cases hc : c = '.'
      · subst hc
        exact ⟨rest, by simp [splitDots]⟩
      · have hrest : '.' ∈ rest := (List.mem_cons.mp h).resolve_left (Ne.symm hc)
        obtain ⟨after, hafter⟩ := ih hrest
        refine ⟨after, ?_⟩
        rw [splitDots_cons_of_ne hc hafter, List.takeWhile_cons_of_pos (by simpa using hc)]

theorem rootRelationship_eq_some {path name : String} :
    rootRelationship path = some name ↔ ∃ rest, rest ≠ [] ∧ segments path = name :: rest := by
  by_cases h : '.' ∈ path.toList
  · obtain ⟨after, hafter⟩ := splitDots_of_dot path.toList h
    have hne : (splitDots after).map String.ofList ≠ [] := by
      simpa using splitDots_ne_nil after
    simp only [rootRelationship, List.contains_iff_mem, h, if_true, segments, hafter,
      List.map_cons, Option.some.injEq, List.cons.injEq]
    constructor
    · rintro rfl
      exact ⟨_, hne, rfl, rfl⟩
    · rintro ⟨_, _, hname, _⟩
      exact hname
  · simp only [rootRelationship, List.contains_iff_mem, h, if_false, segments_of_no_dot h]
    constructor
    · intro hnone
      cases hnone
    · rintro ⟨rest, hne, hpath⟩
      exact absurd (List.cons.inj hpath).2.symm hne

theorem head_relationshipsOf {path name : String} :
    (∃ rest, rest ≠ [] ∧ segments path = name :: rest) ↔ [name] <+: relationshipsOf path := by
  constructor
  · rintro ⟨rest, hne, hpath⟩
    rw [relationshipsOf, hpath, List.dropLast_cons_of_ne_nil hne]
    simp
  · rintro ⟨more, hmore⟩
    have hne : segments path ≠ [] := by
      intro hnil
      simp [relationshipsOf, hnil] at hmore
    have hlast : segments path = relationshipsOf path ++ [(segments path).getLast hne] :=
      (List.dropLast_concat_getLast hne).symm
    refine ⟨more ++ [(segments path).getLast hne], by simp, hlast.trans ?_⟩
    rw [← hmore]
    rfl

/-! ## Fields that filter -/

theorem filtersOn_iff_predicate {i : FieldIntent} (formed : i.Formed) (v : Value) :
    ∃ compiled, compileField i v = .ok compiled ∧
      (filtersOn i v = true ↔ compiled.predicate.isSome = true) := by
  refine ⟨_, compileField_eq formed v, ?_⟩
  rw [filtersOn_eq formed, FieldIntent.outcome, Option.isSome_map]

def filtersIn (instance_ : Instance) (i : FieldIntent) : Bool :=
  (instance_.read? i.name).any (filtersOn i)

theorem filteringPaths_eq {instance_ : Instance} {value : FieldIntent → Value} :
    ∀ intents : List FieldIntent, (∀ i ∈ intents, i.Formed) →
      (∀ i ∈ intents, instance_.read? i.name = some (value i)) →
      filteringPaths (intents.map fun i => (i, value i)) =
        (intents.filter (filtersIn instance_)).flatMap FieldIntent.paths := by
  intro intents
  induction intents with
  | nil => intro _ _; rfl
  | cons i rest ih =>
      intro formed readable
      obtain ⟨hformed, hrest⟩ := List.forall_mem_cons.mp formed
      obtain ⟨hread, hreads⟩ := List.forall_mem_cons.mp readable
      have hfilters : filtersIn instance_ i = (i.comparison? (value i)).isSome := by
        rw [filtersIn, hread, Option.any_some, filtersOn_eq hformed]
      have htail := ih hrest hreads
      simp only [filteringPaths] at htail
      simp only [filteringPaths, List.map_cons, List.flatMap_cons, htail, List.filter_cons,
        hfilters]
      by_cases h : (i.comparison? (value i)).isSome = true
      · rw [if_pos h, if_pos h, List.flatMap_cons]
      · rw [if_neg h, if_neg h, List.nil_append]

/-- The conjuncts are those of the fields that filter, and the hints are the relationships that
their paths start with. -/
structure HintsAgree (instance_ : Instance) (intents : List FieldIntent)
    (criteria : CompiledCriteria) : Prop where
  paths : criteria.predicate.paths =
    (intents.filter (filtersIn instance_)).flatMap FieldIntent.paths
  ascending : criteria.hints.Pairwise (· < ·)
  starts : ∀ name, name ∈ criteria.hints ↔
    ∃ path ∈ criteria.predicate.paths, ∃ rest, rest ≠ [] ∧ segments path = name :: rest

/-! ## Joins from the root -/

variable {σ ε Pos Attr Expr : Type}

section Follows

variable {root : Pos} {visits : List Visit} {calls : List (EngineCall ε Pos Attr Expr)}
  {reached : Reached Pos}

theorem at_root {parent : List String} {p : Pos} {last name : String}
    (at_ : reachedAt? root reached parent = some p) (h : [name] = parent ++ [last]) :
    root = p ∧ name = last := by
  have htrail : [] ++ [name] = parent ++ [last] := h
  obtain ⟨rfl, hlast⟩ := List.append_inj' htrail rfl
  exact ⟨by simpa [reachedAt?] using at_, List.singleton_inj.mp hlast⟩

theorem Follows.exists_join (follows : Follows root visits calls reached) {name : String}
    (h : Visit.join [name] ∈ visits) : ∃ answer, EngineCall.join root name answer ∈ calls := by
  induction follows with
  | nil => simp at h
  | join last q _ at_ ih =>
      rcases List.mem_append.mp h with h | h
      · obtain ⟨answer, hanswer⟩ := ih h
        exact ⟨answer, List.mem_append_left _ hanswer⟩
      · obtain ⟨rfl, rfl⟩ := at_root at_ (by simpa using h)
        exact ⟨.ok q, by simp⟩
  | joinFailed last x _ at_ ih =>
      rcases List.mem_append.mp h with h | h
      · obtain ⟨answer, hanswer⟩ := ih h
        exact ⟨answer, List.mem_append_left _ hanswer⟩
      · obtain ⟨rfl, rfl⟩ := at_root at_ (by simpa using h)
        exact ⟨.error x, by simp⟩
  | get last answer _ _ ih =>
      have hearlier := (List.mem_append.mp h).resolve_right (by simp)
      obtain ⟨answer, hanswer⟩ := ih hearlier
      exact ⟨answer, List.mem_append_left _ hanswer⟩

theorem Follows.answered (follows : Follows root visits calls reached) :
    ∀ r ∈ reached, ∃ parent name, EngineCall.join parent name (.ok r.2) ∈ calls := by
  induction follows with
  | nil => simp
  | @join _ calls _ _ p last q _ _ ih =>
      intro r hr
      rcases List.mem_append.mp hr with hr | hr
      · obtain ⟨parent, name, hcall⟩ := ih r hr
        exact ⟨parent, name, List.mem_append_left _ hcall⟩
      · rw [List.mem_singleton.mp hr]
        exact ⟨p, last, by simp⟩
  | joinFailed last x _ _ ih =>
      intro r hr
      obtain ⟨parent, name, hcall⟩ := ih r hr
      exact ⟨parent, name, List.mem_append_left _ hcall⟩
  | get last answer _ _ ih =>
      intro r hr
      obtain ⟨parent, name, hcall⟩ := ih r hr
      exact ⟨parent, name, List.mem_append_left _ hcall⟩

/-- Where no join answers the root, only the empty trail leads there. -/
theorem Follows.trail_eq_nil (follows : Follows root visits calls reached)
    (fresh : ∀ parent name, EngineCall.join parent name (.ok root) ∉ calls) {trail : List String}
    (at_ : reachedAt? root reached trail = some root) : trail = [] := by
  by_contra hne
  rw [reachedAt?, if_neg hne] at at_
  obtain ⟨parent, name, hcall⟩ := follows.answered _ (mem_of_lookup at_)
  exact fresh parent name hcall

theorem Follows.mem_of_join (follows : Follows root visits calls reached)
    (fresh : ∀ parent name, EngineCall.join parent name (.ok root) ∉ calls) {name : String}
    {answer : Except ε Pos} (h : EngineCall.join root name answer ∈ calls) :
    Visit.join [name] ∈ visits := by
  induction follows with
  | nil => simp at h
  | @join _ calls reached parent p last q before at_ ih =>
      have earlier : ∀ parent name, EngineCall.join parent name (.ok root) ∉ calls :=
        fun parent name hcall => fresh parent name (List.mem_append_left _ hcall)
      rcases List.mem_append.mp h with h | h
      · exact List.mem_append_left _ (ih earlier h)
      · obtain ⟨rfl, rfl, _⟩ : root = p ∧ name = last ∧ answer = .ok q := by simpa using h
        rw [before.trail_eq_nil earlier at_]
        simp
  | @joinFailed _ calls reached parent p last x before at_ ih =>
      have earlier : ∀ parent name, EngineCall.join parent name (.ok root) ∉ calls :=
        fun parent name hcall => fresh parent name (List.mem_append_left _ hcall)
      rcases List.mem_append.mp h with h | h
      · exact List.mem_append_left _ (ih earlier h)
      · obtain ⟨rfl, rfl, _⟩ : root = p ∧ name = last ∧ answer = .error x := by simpa using h
        rw [before.trail_eq_nil earlier at_]
        simp
  | get last answer before at_ ih =>
      have earlier : ∀ parent name, EngineCall.join parent name (.ok root) ∉ _ :=
        fun parent name hcall => fresh parent name (List.mem_append_left _ hcall)
      have hearlier := (List.mem_append.mp h).resolve_right (by simp)
      exact List.mem_append_left _ (ih earlier hearlier)

end Follows

/-- The translation of `p` joins from the root exactly the relationships `names`: for these it joins
the trails of one relationship, and where no join answers the root itself, its calls on the root are
for these. -/
def JoinsFromRoot (e : QueryEngine σ ε Pos Attr Expr) (p : Predicate) (s : σ)
    (names : List String) : Prop :=
  ∃ calls visits reached,
    (toExpression e.watched p (s, [])).2 = ((toExpression e p s).2, calls) ∧
    Follows e.root visits (traversals calls) reached ∧
    (∀ name, name ∈ names ↔ Visit.join [name] ∈ visits) ∧
    ((∀ parent name, EngineCall.join parent name (.ok e.root) ∉ calls) →
      ∀ name, name ∈ names ↔ ∃ answer, EngineCall.join e.root name answer ∈ calls)

theorem follows_itinerary {e : QueryEngine σ ε Pos Attr Expr}
    (notNull : ∀ p name s q s', e.join p name s = (.ok q, s') → e.isNull q = false)
    {p : Predicate} (translatable : p.Every Predicate.Translatable) {s : σ} {x : Expr}
    (h : (toExpression e p s).1 = .ok x) :
    ∃ calls reached, (toExpression e.watched p (s, [])).2 = ((toExpression e p s).2, calls) ∧
      Follows e.root (itinerary [] p.paths) (traversals calls) reached := by
  obtain ⟨hresult, hstate⟩ := toExpression_watched e p s []
  have ready : (watchedWalk e notNull).Ready ⟨(s, []), .empty⟩ [] [] :=
    ⟨⟨.nil, by simp [Unbroken]⟩, rfl, by simp, by simp⟩
  have kept := Walk.express_kept p translatable ready
  rw [h] at hresult
  rcases hrun : express e.watched p ⟨(s, []), .empty⟩ with ⟨err | y, t⟩
  · simp [toExpression, hrun] at hresult
  · rw [hrun] at kept
    obtain ⟨reached, _, ready', _⟩ := kept
    have hto : (toExpression e.watched p (s, [])).2 = t.engine := by simp [toExpression, hrun]
    rw [hto] at hstate ⊢
    exact ⟨t.engine.2, reached, by rw [← hstate], by simpa using ready'.holds.1⟩

theorem joinsFromRoot_itinerary {e : QueryEngine σ ε Pos Attr Expr}
    (notNull : ∀ p name s q s', e.join p name s = (.ok q, s') → e.isNull q = false)
    {p : Predicate} (translatable : p.Every Predicate.Translatable) {s : σ} {x : Expr}
    (h : (toExpression e p s).1 = .ok x) {names : List String}
    (starts : ∀ name, name ∈ names ↔
      ∃ path ∈ p.paths, ∃ rest, rest ≠ [] ∧ segments path = name :: rest) :
    JoinsFromRoot e p s names := by
  obtain ⟨calls, reached, hcalls, hfollows⟩ := follows_itinerary notNull translatable h
  have hvisits : ∀ name, name ∈ names ↔ Visit.join [name] ∈ itinerary [] p.paths := by
    intro name
    rw [← mem_joinedTrails, mem_joinedTrails_itinerary, starts]
    simp [head_relationshipsOf]
  refine ⟨calls, _, reached, hcalls, hfollows, hvisits, ?_⟩
  intro fresh name
  have hmem : ∀ parent name answer, EngineCall.join parent name answer ∈ traversals calls ↔
      EngineCall.join parent name answer ∈ calls := by
    intro parent name answer
    simp [traversals, EngineCall.isTraversal]
  rw [hvisits]
  constructor
  · intro hvisit
    obtain ⟨answer, hanswer⟩ := hfollows.exists_join hvisit
    exact ⟨answer, (hmem _ _ _).mp hanswer⟩
  · rintro ⟨answer, hanswer⟩
    refine hfollows.mem_of_join ?_ ((hmem _ _ _).mpr hanswer)
    intro parent name hcall
    exact fresh parent name ((hmem _ _ _).mp hcall)

/-! ## Hints of compiled criteria -/

theorem translatable_predicates {fields : List (FieldIntent × Value)}
    (sound : ∀ f ∈ fields, f.1.Sound) :
    (Predicate.allOf (predicates fields)).Every Predicate.Translatable := by
  have below : Predicate.EveryOf Predicate.Translatable (predicates fields) := by
    apply everyOf_predicates (fun _ _ => trivial) fields (fun f hf => (sound f hf).toFormed)
    intro f hf c _ path hpath
    exact (sound f hf).clean path hpath
  exact ⟨trivial, below⟩

theorem hintsAgree {instance_ : Instance} {value : FieldIntent → Value}
    {intents : List FieldIntent} (formed : ∀ i ∈ intents, i.Formed)
    (readable : ∀ i ∈ intents, instance_.read? i.name = some (value i)) :
    HintsAgree instance_ intents
      ⟨predicates (intents.map fun i => (i, value i)),
        fetchHints (intents.map fun i => (i, value i))⟩ := by
  have formed' : ∀ f ∈ intents.map fun i => (i, value i), f.1.Formed := by
    intro f hf
    obtain ⟨i, hi, rfl⟩ := List.mem_map.mp hf
    exact formed i hi
  have hpaths := pathsOf_predicates _ formed'
  refine ⟨hpaths.trans (filteringPaths_eq intents formed readable),
    Value.sortedTexts_pairwise _, ?_⟩
  intro name
  rw [mem_fetchHints formed', CompiledCriteria.predicate, Predicate.paths, hpaths]
  simp only [rootRelationship_eq_some]

/-- Of a made type, whatever its fields hold: a field filters exactly if it gives a conjunct, the
hints are the relationships that the filtering paths start with, and these are what the translation
of the criteria joins from the root. -/
theorem hints_joined_from_root {cache : IntentCache} {key : Nat} {name : String}
    {specs : List FieldSpec} {d : Declaration} {intents : List FieldIntent}
    (hd : Declaration.ofFields? key name specs = .ok d) (faithful : cache.Faithful d)
    (hread : (cache.read (.declared d)).result = .ok intents) :
    intents.map FieldIntent.name = specs.map FieldSpec.name ∧
    (∀ i ∈ intents, ∀ v, ∃ compiled, compileField i v = .ok compiled ∧
      (filtersOn i v = true ↔ compiled.predicate.isSome = true)) ∧
    ∀ attributes, (∀ i ∈ intents,
        (Instance.read? ⟨.declared d, attributes⟩ i.name).isSome = true) →
      ∃ criteria, (compile cache ⟨.declared d, attributes⟩).result = .ok criteria ∧
        HintsAgree ⟨.declared d, attributes⟩ intents criteria ∧
        ((∀ spec ∈ specs, CleanPath spec.name) →
          ∀ {σ ε Pos Attr Expr : Type} (e : QueryEngine σ ε Pos Attr Expr),
            (∀ p name s q s', e.join p name s = (.ok q, s') → e.isNull q = false) →
            ∀ s x, (toExpression e criteria.predicate s).1 = .ok x →
              JoinsFromRoot e criteria.predicate s criteria.hints) := by
  have hintents : d.intents? = .ok intents := (result_read faithful).symm.trans hread
  obtain ⟨hnames, hformed⟩ := formed_of_intents? hd hintents
  have formed : ∀ i ∈ intents, i.Formed := fun i hi => (hformed i hi).1
  refine ⟨hnames, fun i hi => filtersOn_iff_predicate (formed i hi), ?_⟩
  intro attributes readable
  -- All fields can be read, so that each intent has a value.
  let value : FieldIntent → Value := fun i =>
    (Instance.read? ⟨.declared d, attributes⟩ i.name).getD .null
  have hvalues : ∀ i ∈ intents,
      Instance.read? ⟨.declared d, attributes⟩ i.name = some (value i) := by
    intro i hi
    obtain ⟨v, hv⟩ := Option.isSome_iff_exists.mp (readable i hi)
    simp [value, hv]
  have hagree := hintsAgree formed hvalues
  refine ⟨_, compile_sound hread formed (readFields?_eq_ok intents hvalues), hagree, ?_⟩
  intro clean σ ε Pos Attr Expr e notNull s x hx
  have sound : ∀ f ∈ intents.map fun i => (i, value i), f.1.Sound := by
    intro f hf
    obtain ⟨i, hi, rfl⟩ := List.mem_map.mp hf
    exact sound_of_intents? hd clean hintents i hi
  exact joinsFromRoot_itinerary notNull (translatable_predicates sound) hx hagree.starts

def ratedSupplies : Declaration :=
  ⟨0, "RatedSupplies", [⟨"supplier", [.marker (.direct "category.supplier.name" .like)], none⟩,
    ⟨"rating", [.marker (.range "reviews.rating")], none⟩, ⟨"status", [], none⟩], true⟩

def ratedFields : List (FieldIntent × Value) :=
  [(⟨"supplier", .single, ["category.supplier.name"], .like⟩, .list [.int 3]),
    (⟨"rating", .range, ["reviews.rating"], .equal⟩, .range none (some (.int 4))),
    (⟨"status", .single, ["status"], .equal⟩, .null)]

def ratedValues : List (String × Value) := ratedFields.map fun f => (f.1.name, f.2)

theorem hints_joined_from_root_ratedSupplies :
    ∃ criteria, (compile .empty ⟨.declared ratedSupplies, ratedValues⟩).result = .ok criteria ∧
      criteria.hints = ["category", "reviews"] ∧
      JoinsFromRoot (recordingEngine ⟨[], [], [], []⟩) criteria.predicate [] criteria.hints := by
  have made : Declaration.ofFields? 0 "RatedSupplies"
      [⟨"supplier", [.marker (.direct (.text "category.supplier.name") (some (.text "like")))],
          none, true⟩,
        ⟨"rating", [.marker (.range (.text "reviews.rating"))], none, true⟩,
        ⟨"status", [], none, true⟩] = .ok ratedSupplies := rfl
  have hread : (IntentCache.empty.read (.declared ratedSupplies)).result =
      .ok (ratedFields.map Prod.fst) := rfl
  obtain ⟨_, _, hcompiled⟩ := hints_joined_from_root made (faithful_empty _) hread
  obtain ⟨criteria, hcriteria, _, hjoins⟩ := hcompiled ratedValues (by decide)
  have formed : ∀ i ∈ ratedFields.map Prod.fst, i.Formed := fun i hi =>
    ((formed_of_intents? made rfl).2 i hi).1
  have hfields : readFields? ⟨.declared ratedSupplies, ratedValues⟩ (ratedFields.map Prod.fst) =
    .ok ratedFields := rfl
  obtain rfl := Except.ok.inj (hcriteria.symm.trans (compile_sound rfl formed hfields))
  have translated : (toExpression (recordingEngine ⟨[], [], [], []⟩)
      (.allOf (predicates ratedFields)) []).1.toOption.isSome = true := by decide +kernel
  refine ⟨_, hcriteria, by decide +kernel, ?_⟩
  rcases hx : (toExpression (recordingEngine ⟨[], [], [], []⟩)
      (.allOf (predicates ratedFields)) []).1 with _ | x
  · rw [hx] at translated
    cases translated
  · exact hjoins (by decide) _ (notNull_recording rfl) [] _ hx

end CatalogSearch.Criteria
