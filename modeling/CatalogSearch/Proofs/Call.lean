import CatalogSearch.Call

/-!
# How runs end

What a sequence of operations did if it gave an answer, what two runs did that give one answer, and
what holds at the end of a run that may fail.
-/

set_option autoImplicit false

namespace CatalogSearch

theorem except_bind_eq_ok {ε α β : Type} {x : Except ε α} {f : α → Except ε β} {b : β} :
    (x >>= f) = .ok b ↔ ∃ a, x = .ok a ∧ f a = .ok b := by
  cases x with
  | error e => simp [bind, Except.bind]
  | ok a => simp [bind, Except.bind]

theorem except_map_eq_ok {ε α β : Type} {x : Except ε α} {f : α → β} {b : β} :
    x.map f = .ok b ↔ ∃ a, x = .ok a ∧ f a = b := by
  cases x with
  | error e => simp [Except.map]
  | ok a => simp [Except.map]

theorem except_bind_eq_error {ε α β : Type} {x : Except ε α} {f : α → Except ε β} {e : ε} :
    (x >>= f) = .error e ↔ x = .error e ∨ ∃ a, x = .ok a ∧ f a = .error e := by
  cases x with
  | error e => simp [bind, Except.bind]
  | ok a => simp [bind, Except.bind]

theorem forM_eq_ok {ε α : Type} {check : α → Except ε Unit} : ∀ xs : List α,
    xs.forM check = .ok () ↔ ∀ a ∈ xs, check a = .ok () := by
  intro xs
  induction xs with
  | nil => simp [List.forM, pure, Except.pure]
  | cons a rest ih =>
      change (check a >>= fun _ => rest.forM check) = .ok () ↔ _
      rw [except_bind_eq_ok, List.forall_mem_cons, ← ih]
      constructor
      · rintro ⟨_, ha, hrest⟩
        exact ⟨ha, hrest⟩
      · rintro ⟨ha, hrest⟩
        exact ⟨(), ha, hrest⟩

theorem forM_eq_error {ε α : Type} {check : α → Except ε Unit} {x : ε} : ∀ xs : List α,
    xs.forM check = .error x ↔ ∃ before a after, xs = before ++ a :: after ∧
      (∀ b ∈ before, check b = .ok ()) ∧ check a = .error x := by
  intro xs
  induction xs with
  | nil => simp [List.forM, pure, Except.pure]
  | cons a rest ih =>
      change (check a >>= fun _ => rest.forM check) = .error x ↔ _
      rw [except_bind_eq_error]
      constructor
      · rintro (ha | ⟨_, ha, hrest⟩)
        · exact ⟨[], a, rest, rfl, by simp, ha⟩
        · obtain ⟨before, b, after, rfl, passed, hb⟩ := ih.mp hrest
          exact ⟨a :: before, b, after, rfl, List.forall_mem_cons.mpr ⟨ha, passed⟩, hb⟩
      · rintro ⟨before, b, after, hsplit, passed, hb⟩
        cases before with
        | nil =>
            obtain ⟨rfl, _⟩ := List.cons.inj hsplit
            exact Or.inl hb
        | cons first before =>
            obtain ⟨rfl, rfl⟩ := List.cons.inj hsplit
            obtain ⟨ha, hbefore⟩ := List.forall_mem_cons.mp passed
            exact Or.inr ⟨(), ha, ih.mpr ⟨before, b, after, rfl, hbefore, hb⟩⟩

theorem cases_of_map_eq {ε α β γ : Type} {f : α → γ} {g : β → γ} {x : Except ε α}
    {y : Except ε β} (h : x.map f = y.map g) :
    (∃ e, x = .error e ∧ y = .error e) ∨ ∃ a b, x = .ok a ∧ y = .ok b ∧ f a = g b := by
  rcases x with e | a <;> rcases y with e' | b
  · exact Or.inl ⟨e, rfl, congrArg Except.error (Except.error.inj h).symm⟩
  · cases h
  · cases h
  · exact Or.inr ⟨a, b, rfl, rfl, Except.ok.inj h⟩

namespace Call

variable {σ ε ε' α β : Type}

theorem bind_eq_ok {c : Call σ ε α} {f : α → Call σ ε β} {s s' : σ} {b : β} :
    Call.bind c f s = (.ok b, s') ↔ ∃ a t, c s = (.ok a, t) ∧ f a t = (.ok b, s') := by
  simp only [Call.bind]
  rcases c s with ⟨x | a, t⟩
  · simp
  · constructor
    · intro h
      exact ⟨a, t, rfl, h⟩
    · rintro ⟨_, _, h, h'⟩
      obtain ⟨rfl, rfl⟩ := by simpa using h
      exact h'

theorem mapError_eq_ok {f : ε → ε'} {c : Call σ ε α} {s s' : σ} {a : α} :
    Call.mapError f c s = (.ok a, s') ↔ c s = (.ok a, s') := by
  simp only [Call.mapError]
  rcases c s with ⟨_ | a, t⟩ <;> simp

end Call

section Ends

variable {σ ε ε' α β : Type}

/-- The answer and the state are good if there is an answer, and the error and the state bad if
there is none. -/
def Ends (Good : α → σ → Prop) (Bad : ε → σ → Prop) : Except ε α × σ → Prop
  | (.ok a, s) => Good a s
  | (.error x, s) => Bad x s

theorem Ends.imp {Good Good' : α → σ → Prop} {Bad Bad' : ε → σ → Prop} {run : Except ε α × σ}
    (h : Ends Good Bad run) (good : ∀ a s, Good a s → Good' a s)
    (bad : ∀ x s, Bad x s → Bad' x s) : Ends Good' Bad' run := by
  rcases run with ⟨x | a, s⟩
  · exact bad x s h
  · exact good a s h

theorem Ends.bind {Good : α → σ → Prop} {Better : β → σ → Prop} {Bad : ε → σ → Prop}
    {c : Call σ ε α} {f : α → Call σ ε β} {s : σ} (first : Ends Good Bad (c s))
    (next : ∀ a s', Good a s' → Ends Better Bad (f a s')) :
    Ends Better Bad (Call.bind c f s) := by
  revert first
  simp only [Call.bind]
  rcases c s with ⟨x | a, s'⟩
  · exact id
  · exact next a s'

theorem Ends.mapError_of {Good : α → σ → Prop} {Bad : ε' → σ → Prop} {wrap : ε → ε'}
    {c : Call σ ε α} {s : σ} (h : Ends Good (fun x => Bad (wrap x)) (c s)) :
    Ends Good Bad (Call.mapError wrap c s) := by
  revert h
  simp only [Call.mapError]
  rcases c s with ⟨x | a, s'⟩ <;> exact id

theorem Ends.mapError {Good : α → σ → Prop} {Bad : σ → Prop} {wrap : ε → ε'} {c : Call σ ε α}
    {s : σ} (h : Ends Good (fun _ => Bad) (c s)) :
    Ends Good (fun _ => Bad) (Call.mapError wrap c s) :=
  Ends.mapError_of h

end Ends

end CatalogSearch
