import CatalogSearch.Criteria.Traversal
import Mathlib.Data.List.Induction

/-!
# Trails

A trail is the list of relationships followed from the root.  `trailsOf path` are the trails on the
way to a path's attribute, shortest first, and `newTrails seen trails` are those of `trails` that
occur neither in `seen` nor earlier in `trails`.  `trailText` writes a trail with dots; segments
that are not empty and hold no dot can be read back, so that two such trails never share a text.
-/

set_option autoImplicit false

namespace CatalogSearch.Criteria

/-! ## Splitting at dots -/

theorem splitDots_ne_nil : ∀ cs : List Char, splitDots cs ≠ [] := by
  intro cs
  cases cs with
  | nil => simp [splitDots]
  | cons c rest =>
      simp only [splitDots]
      split
      · simp
      · split <;> simp

theorem splitDots_cons_of_ne {c : Char} (hc : c ≠ '.') {rest : List Char}
    {segment : List Char} {others : List (List Char)} (h : splitDots rest = segment :: others) :
    splitDots (c :: rest) = (c :: segment) :: others := by
  simp [splitDots, hc, h]

theorem splitDots_append_dot : ∀ before after : List Char,
    splitDots (before ++ '.' :: after) = splitDots before ++ splitDots after := by
  intro before after
  induction before with
  | nil => simp [splitDots]
  | cons c rest ih =>
      by_cases hc : c = '.'
      · subst hc
        simp [splitDots, ih]
      · obtain ⟨segment, others, h⟩ := List.exists_cons_of_ne_nil (splitDots_ne_nil rest)
        have hrest : splitDots (rest ++ '.' :: after) = segment :: (others ++ splitDots after) := by
          rw [ih, h, List.cons_append]
        rw [splitDots_cons_of_ne hc h, List.cons_append, splitDots_cons_of_ne hc hrest]
        rfl

theorem splitDots_of_no_dot : ∀ cs : List Char, '.' ∉ cs → splitDots cs = [cs] := by
  intro cs
  induction cs with
  | nil => intro _; rfl
  | cons c rest ih =>
      intro h
      have hc : c ≠ '.' := fun e => h (by simp [e])
      exact splitDots_cons_of_ne hc (ih fun hr => h (List.mem_cons_of_mem _ hr))

theorem no_dot_of_mem_splitDots : ∀ (cs segment : List Char),
    segment ∈ splitDots cs → '.' ∉ segment := by
  intro cs
  induction cs with
  | nil => intro segment h; simp_all [splitDots]
  | cons c rest ih =>
      intro segment h
      by_cases hc : c = '.'
      · simp only [splitDots, hc, if_true, List.mem_cons] at h
        rcases h with rfl | h
        · simp
        · exact ih segment h
      · obtain ⟨first, others, hs⟩ := List.exists_cons_of_ne_nil (splitDots_ne_nil rest)
        rw [splitDots_cons_of_ne hc hs, List.mem_cons] at h
        rcases h with rfl | h
        · have := ih first (by simp [hs])
          simp [this, Ne.symm hc]
        · exact ih segment (by simp [hs, h])

/-! ## Segments and the texts of trails -/

def IsSegment (name : String) : Prop := name ≠ "" ∧ '.' ∉ name.toList

/-- A path without an empty segment. -/
def CleanPath (path : String) : Prop := "" ∉ segments path

def CleanTrail (trail : List String) : Prop := ∀ name ∈ trail, IsSegment name

instance (path : String) : Decidable (CleanPath path) :=
  inferInstanceAs (Decidable ("" ∉ segments path))

theorem segments_append_dot (before after : String) :
    segments (before ++ "." ++ after) = segments before ++ segments after := by
  have h : (before ++ "." ++ after).toList = before.toList ++ '.' :: after.toList := by simp
  simp only [segments, h, splitDots_append_dot, List.map_append]

theorem segments_of_no_dot {name : String} (h : '.' ∉ name.toList) : segments name = [name] := by
  simp [segments, splitDots_of_no_dot _ h]

theorem isSegment_of_mem_segments {path name : String} (clean : CleanPath path)
    (h : name ∈ segments path) : IsSegment name := by
  refine ⟨fun e => clean (e ▸ h), ?_⟩
  obtain ⟨cs, hcs, rfl⟩ := List.mem_map.mp h
  simpa using no_dot_of_mem_splitDots _ cs hcs

theorem cleanTrail_relationshipsOf {path : String} (clean : CleanPath path) :
    CleanTrail (relationshipsOf path) := by
  intro name h
  exact isSegment_of_mem_segments clean (List.dropLast_subset _ h)

def trailText (trail : List String) : String := trail.foldl extendTrail ""

theorem trailText_append_singleton (trail : List String) (name : String) :
    trailText (trail ++ [name]) = extendTrail (trailText trail) name := by
  simp [trailText]

theorem segments_trailText : ∀ trail : List String, CleanTrail trail → trail ≠ [] →
    segments (trailText trail) = trail := by
  intro trail
  induction trail using List.reverseRecOn with
  | nil => intro _ h; exact absurd rfl h
  | append_singleton trail name ih =>
      intro clean _
      have hname : IsSegment name := clean name (by simp)
      rw [trailText_append_singleton]
      by_cases ht : trail = []
      · subst ht
        simpa [trailText, extendTrail] using segments_of_no_dot hname.2
      · have hclean : CleanTrail trail := fun n hn => clean n (by simp [hn])
        have hsegments := ih hclean ht
        have htext : trailText trail ≠ "" := by
          intro he
          have : "" ∈ trail := by
            rw [← hsegments, he]
            decide
          exact (hclean "" this).1 rfl
        rw [extendTrail, if_neg htext, segments_append_dot, hsegments,
          segments_of_no_dot hname.2]

/-- Trails that share only some of their names are never mixed up. -/
theorem trailText_injective {first second : List String} (hfirst : CleanTrail first)
    (hsecond : CleanTrail second) (h1 : first ≠ []) (h2 : second ≠ [])
    (h : trailText first = trailText second) : first = second := by
  rw [← segments_trailText first hfirst h1, ← segments_trailText second hsecond h2, h]

/-! ## The trails of a path -/

def trailsFrom (done : List String) : List String → List (List String)
  | [] => []
  | name :: rest => (done ++ [name]) :: trailsFrom (done ++ [name]) rest

def trailsOf (path : String) : List (List String) := trailsFrom [] (relationshipsOf path)

theorem mem_trailsFrom : ∀ (names done trail : List String),
    trail ∈ trailsFrom done names ↔ ∃ more, more ≠ [] ∧ more <+: names ∧ trail = done ++ more := by
  intro names
  induction names with
  | nil =>
      intro done trail
      simp only [trailsFrom, List.not_mem_nil, List.prefix_nil, false_iff]
      rintro ⟨more, hne, hmore, _⟩
      exact hne hmore
  | cons name rest ih =>
      intro done trail
      simp only [trailsFrom, List.mem_cons, ih]
      constructor
      · rintro (rfl | ⟨more, _, hmore, rfl⟩)
        · exact ⟨[name], by simp, by simp, rfl⟩
        · exact ⟨name :: more, by simp, by simpa using hmore, by simp⟩
      · rintro ⟨more, hne, hmore, rfl⟩
        obtain ⟨first, others, rfl⟩ := List.exists_cons_of_ne_nil hne
        obtain ⟨rfl, hothers⟩ := List.cons_prefix_cons.mp hmore
        by_cases ho : others = []
        · exact Or.inl (by rw [ho])
        · exact Or.inr ⟨others, ho, hothers, by simp⟩

theorem mem_trailsOf {path : String} {trail : List String} :
    trail ∈ trailsOf path ↔ trail ≠ [] ∧ trail <+: relationshipsOf path := by
  simp only [trailsOf, mem_trailsFrom, List.nil_append]
  constructor
  · rintro ⟨more, hne, hmore, rfl⟩
    exact ⟨hne, hmore⟩
  · rintro ⟨hne, hmore⟩
    exact ⟨trail, hne, hmore, rfl⟩

/-! ## Trails not seen before -/

def newTrails (seen : List (List String)) : List (List String) → List (List String)
  | [] => []
  | trail :: rest =>
      if trail ∈ seen then newTrails seen rest else trail :: newTrails (seen ++ [trail]) rest

theorem newTrails_append : ∀ (first second seen : List (List String)),
    newTrails seen (first ++ second) =
      newTrails seen first ++ newTrails (seen ++ newTrails seen first) second := by
  intro first second
  induction first with
  | nil => intro seen; simp [newTrails]
  | cons trail rest ih =>
      intro seen
      by_cases h : trail ∈ seen
      · simp only [List.cons_append, newTrails, if_pos h, ih]
      · simp only [List.cons_append, newTrails, if_neg h, ih, List.append_assoc, List.nil_append]

theorem mem_newTrails {trail : List String} : ∀ (trails seen : List (List String)),
    trail ∈ newTrails seen trails ↔ trail ∈ trails ∧ trail ∉ seen := by
  intro trails
  induction trails with
  | nil => intro seen; simp [newTrails]
  | cons first rest ih =>
      intro seen
      by_cases h : first ∈ seen
      · simp only [newTrails, if_pos h, ih, List.mem_cons]
        constructor
        · rintro ⟨hr, hs⟩
          exact ⟨Or.inr hr, hs⟩
        · rintro ⟨rfl | hr, hs⟩
          · exact absurd h hs
          · exact ⟨hr, hs⟩
      · simp only [newTrails, if_neg h, List.mem_cons, ih, List.mem_append]
        by_cases hf : trail = first
        · subst hf
          simp [h]
        · simp [hf]

theorem mem_newTrails_of_paths (paths : List String) (trail : List String) :
    trail ∈ newTrails [] (paths.flatMap trailsOf) ↔
      trail ≠ [] ∧ ∃ path ∈ paths, trail <+: relationshipsOf path := by
  simp only [mem_newTrails, List.mem_flatMap, mem_trailsOf, List.not_mem_nil, not_false_eq_true,
    and_true]
  constructor
  · rintro ⟨path, hpath, hne, hprefix⟩
    exact ⟨hne, path, hpath, hprefix⟩
  · rintro ⟨hne, path, hpath, hprefix⟩
    exact ⟨path, hpath, hne, hprefix⟩

theorem newTrails_nodup : ∀ trails seen : List (List String), (newTrails seen trails).Nodup := by
  intro trails
  induction trails with
  | nil => intro seen; simp [newTrails]
  | cons first rest ih =>
      intro seen
      by_cases h : first ∈ seen
      · simpa only [newTrails, if_pos h] using ih seen
      · simp only [newTrails, if_neg h, List.nodup_cons, mem_newTrails]
        exact ⟨fun hr => hr.2 (by simp), ih _⟩

end CatalogSearch.Criteria
