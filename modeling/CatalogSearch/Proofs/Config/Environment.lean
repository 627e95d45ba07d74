import CatalogSearch.Config.Settings
import CatalogSearch.Proofs.Call
import CatalogSearch.Proofs.Keyed

/-!
# What a variable is read as

An environment and a file hold values under names.  Loading the file into the environment adds what
is not set there (`Environment.get?_of_load?`), and settings look a name up whatever its case, which
makes no difference if it is always spelled in one way (`valueOf?_of_spelledAs`).  A text in the file
stays as it is written if it refers to no variable (`DotEnv.expandText_of_not_refers`).
-/

set_option autoImplicit false

namespace CatalogSearch.Config

/-! ## The names of a file -/

section Resolve

variable {find : List (String × Option String) → String → Option (Option String)}
  {bindings : List (String × Option String)}

theorem resolve_eq (find : List (String × Option String) → String → Option (Option String))
    (bindings : List (String × Option String)) : DotEnv.resolve find bindings =
      bindings.foldl (fun known binding =>
        put binding.1 (binding.2.map (DotEnv.expandText (find known))) known) [] := rfl

theorem nodup_keys_resolve : ((DotEnv.resolve find bindings).map Prod.fst).Nodup := by
  rw [resolve_eq]
  refine List.foldlRecOn bindings _
    (motive := fun known : List (String × Option String) => (known.map Prod.fst).Nodup)
    List.nodup_nil ?_
  intro known h binding _
  exact nodup_keys_put binding.1 _ known h

theorem mem_keys_of_mem_resolve {name : String}
    (h : name ∈ (DotEnv.resolve find bindings).map Prod.fst) : name ∈ bindings.map Prod.fst := by
  revert h
  rw [resolve_eq]
  refine List.foldlRecOn bindings _
    (motive := fun known : List (String × Option String) =>
      name ∈ known.map Prod.fst → name ∈ bindings.map Prod.fst) ?_ ?_
  · intro h
    cases h
  intro known ih binding hbinding h
  obtain ⟨entry, hentry, rfl⟩ := List.mem_map.mp h
  rcases mem_of_mem_put hentry with rfl | hentry
  · exact List.mem_map.mpr ⟨binding, hbinding, rfl⟩
  · exact ih (List.mem_map.mpr ⟨entry, hentry, rfl⟩)

end Resolve

/-! ## References -/

def DotEnv.Refers (text : String) : Prop := ['$', '\x7b'] <:+: text.toList

theorem DotEnv.expand_of_not_refers (find : String → Option (Option String)) :
    ∀ (fuel : Nat) (s : List Char), ¬ ['$', '\x7b'] <:+: s → s.length < fuel →
      expand find fuel s = s := by
  intro fuel
  induction fuel with
  | zero => intro s _ short; cases short
  | succ fuel ih =>
      intro s plain short
      cases s with
      | nil => rfl
      | cons c rest =>
          have below := ih rest (fun h => plain (h.trans (List.suffix_cons c rest).isInfix))
            (Nat.lt_of_succ_lt_succ short)
          rw [expand, below]
          rintro _ rfl rfl
          exact plain ⟨[], _, rfl⟩

theorem DotEnv.expandText_of_not_refers {text : String} (plain : ¬ Refers text)
    (find : String → Option (Option String)) : expandText find text = text := by
  have short : text.toList.length < text.length + 1 := by
    rw [String.length_toList]
    exact Nat.lt_succ_self _
  rw [expandText, expand_of_not_refers find _ _ plain short, String.ofList_toList]

/-- Values without references are the same for every reader of the file. -/
theorem lookup_resolve_of_not_refers {name : String} {bindings : List (String × Option String)}
    (plain : ∀ text, (name, some text) ∈ bindings → ¬ DotEnv.Refers text)
    (find find' : List (String × Option String) → String → Option (Option String)) :
    (DotEnv.resolve find bindings).lookup name = (DotEnv.resolve find' bindings).lookup name := by
  have alike : ∀ (bindings known known' : List (String × Option String)),
      (∀ text, (name, some text) ∈ bindings → ¬ DotEnv.Refers text) →
      known.lookup name = known'.lookup name →
      (bindings.foldl (fun known binding =>
        put binding.1 (binding.2.map (DotEnv.expandText (find known))) known) known).lookup name =
      (bindings.foldl (fun known binding =>
        put binding.1 (binding.2.map (DotEnv.expandText (find' known))) known) known').lookup
          name := by
    intro bindings
    induction bindings with
    | nil => intro known known' _ same; exact same
    | cons binding rest ih =>
        obtain ⟨key, value⟩ := binding
        intro known known' plain same
        -- Readers may differ in other names, so the induction is on what they say of this one.
        refine ih _ _ (fun text h => plain text (List.mem_cons_of_mem _ h)) ?_
        rw [lookup_put, lookup_put, same]
        by_cases hkey : name = key
        · subst hkey
          cases value with
          | none => rfl
          | some text =>
              have hplain := plain text List.mem_cons_self
              simp only [Option.map_some, DotEnv.expandText_of_not_refers hplain]
        · simp [hkey]
  rw [resolve_eq, resolve_eq]
  exact alike bindings [] [] plain rfl

/-! ## Spellings -/

def SpelledAs (name : String) (names : List String) : Prop :=
  ∀ other ∈ names, Text.lower other = Text.lower name → other = name

theorem valueOf?_eq (name : String) (entries : List (String × Option String)) :
    valueOf? name entries = ((entries.map fun entry =>
      (Text.lower entry.1, entry.2)).reverse.lookup (Text.lower name)).join := rfl

theorem valueOf?_of_spelledAs {name : String} {entries : List (String × Option String)}
    (distinct : (entries.map Prod.fst).Nodup) (spelled : SpelledAs name (entries.map Prod.fst)) :
    valueOf? name entries = (entries.lookup name).join := by
  rw [valueOf?_eq]
  have back : ∀ value, (entries.map fun entry => (Text.lower entry.1, entry.2)).reverse.lookup
      (Text.lower name) = some value → (name, value) ∈ entries := by
    intro value found
    have member := List.mem_reverse.mp (mem_of_lookup found)
    obtain ⟨⟨key, _⟩, hentry, same⟩ := List.mem_map.mp member
    obtain ⟨hkey, rfl⟩ := Prod.mk.inj same
    obtain rfl := spelled key (List.mem_map.mpr ⟨_, hentry, rfl⟩) hkey
    exact hentry
  cases found : (entries.map fun entry => (Text.lower entry.1, entry.2)).reverse.lookup
      (Text.lower name) with
  | some value => rw [lookup_of_mem distinct (back value found)]
  | none =>
      have absent : name ∉ entries.map Prod.fst := by
        intro h
        have lowered : Text.lower name ∈
            (entries.map fun entry => (Text.lower entry.1, entry.2)).reverse.map Prod.fst := by
          obtain ⟨entry, hentry, rfl⟩ := List.mem_map.mp h
          rw [List.map_reverse, List.mem_reverse, List.map_map]
          exact List.mem_map.mpr ⟨entry, hentry, rfl⟩
        obtain ⟨value, hvalue⟩ := exists_lookup_of_mem lowered
        rw [hvalue] at found
        cases found
      rw [lookup_eq_none_of_not_mem absent]

theorem lookup_map_some (name : String) (entries : List (String × String)) :
    ((entries.map fun entry => (entry.1, some entry.2)).lookup name).join =
      entries.lookup name := by
  induction entries with
  | nil => rfl
  | cons entry rest ih =>
      rw [List.map_cons, List.lookup_cons, List.lookup_cons]
      split
      · rfl
      · exact ih

theorem valueOf?_process {env : Environment} {name : String}
    (distinct : (env.entries.map Prod.fst).Nodup)
    (spelled : SpelledAs name (env.entries.map Prod.fst)) (file : Option String) :
    valueOf? name (Source.of env file).env = env.get? name := by
  have given : (Source.of env file).env = env.entries.map fun entry => (entry.1, some entry.2) :=
    rfl
  have names : (Source.of env file).env.map Prod.fst = env.entries.map Prod.fst := by
    rw [given, List.map_map]
    rfl
  rw [← names] at distinct spelled
  rw [valueOf?_of_spelledAs distinct spelled, given]
  exact lookup_map_some name env.entries

/-! ## Loading a file -/

namespace Environment

theorem get?_of_set? {env loaded : Environment} {name value : String}
    (h : env.set? name value = .ok loaded) (other : String) :
    loaded.get? other = (env.get? other).or (if other = name then some value else none) := by
  unfold set? at h
  split at h
  · cases h
  · split at h
    · cases h
    · rw [← Except.ok.inj h]
      by_cases same : other = name
      · simp [get?, List.lookup_append, same]
      · simp [get?, List.lookup_append, List.lookup_cons, same, beq_eq_false_iff_ne.mpr same]

theorem get?_of_add? {env loaded : Environment} {binding : String × Option String}
    (h : env.add? binding = .ok loaded) (other : String) :
    loaded.get? other = (env.get? other).or (if other = binding.1 then binding.2 else none) := by
  obtain ⟨name, value⟩ := binding
  unfold add? at h
  split at h
  · next hname hvalue =>
      simp only at hname hvalue
      rw [get?_of_set? h, hvalue]
  · next kept =>
      rw [← Except.ok.inj h]
      by_cases same : other = name
      · subst same
        cases hname : env.get? other with
        | some _ => rfl
        | none =>
            cases value with
            | none => simp
            | some value => exact absurd rfl (kept value hname)
      · simp [same]

theorem get?_of_foldlM : ∀ (bindings : List (String × Option String)) (env loaded : Environment),
    (bindings.map Prod.fst).Nodup → bindings.foldlM add? env = .ok loaded → ∀ other,
      loaded.get? other = (env.get? other).or (bindings.lookup other).join := by
  intro bindings
  induction bindings with
  | nil =>
      intro env loaded _ h other
      obtain rfl := Except.ok.inj h
      simp
  | cons binding rest ih =>
      intro env loaded distinct h other
      obtain ⟨fresh, distinct⟩ := List.nodup_cons.mp distinct
      rw [List.foldlM_cons] at h
      obtain ⟨first, hfirst, hrest⟩ := except_bind_eq_ok.mp h
      rw [ih first loaded distinct hrest, get?_of_add? hfirst, List.lookup_cons]
      by_cases same : other = binding.1
      · subst same
        rw [lookup_eq_none_of_not_mem fresh]
        simp
      · simp [same, beq_eq_false_iff_ne.mpr same]

theorem get?_of_load? {env loaded : Environment} {file : Option String}
    (h : env.load? file = .ok loaded) (name : String) :
    loaded.get? name =
      (env.get? name).or (((file.map env.fileBindings).getD []).lookup name).join := by
  cases file with
  | none =>
      obtain rfl := Except.ok.inj h
      simp
  | some text => exact get?_of_foldlM _ env loaded nodup_keys_resolve h name

end Environment

end CatalogSearch.Config
