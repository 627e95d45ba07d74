import CatalogSearch.Proofs.Criteria.Translation

/-!
# Answers that depend on some calls only

`e.Heeds s heard asked` tells of an engine in state `s` that its answers to the calls `asked` depend,
of all calls before, on those `heard` only.  Main statement: such an engine translates a predicate by
the same calls, with the same answers, after two histories that agree in what is heard
(`toExpression_heeding`); if it is asked for everything, it also builds alike
(`build_heeding`).
-/

set_option autoImplicit false

namespace CatalogSearch.Criteria

variable {σ ε Pos Attr Expr α : Type}

/-! ## Histories of calls -/

inductive EngineAsk (Pos Attr Expr : Type) where
  | join (parent : Pos) (name : String)
  | get (parent : Pos) (name : String)
  | fetch (name : String)
  | distinct
  | compare (attr : Attr) (comparison : Comparison)
  | all (operands : List Expr)
  | any (operands : List Expr)
  | truth

/-- True of the calls that translate predicates; the others load rows along with the root's. -/
def EngineAsk.filters : EngineAsk Pos Attr Expr → Bool
  | fetch _ => false
  | distinct => false
  | _ => true

def EngineCall.ask : EngineCall ε Pos Attr Expr → EngineAsk Pos Attr Expr
  | join parent name _ => .join parent name
  | get parent name _ => .get parent name
  | fetch name _ => .fetch name
  | distinct _ => .distinct
  | compare attr comparison _ => .compare attr comparison
  | all operands _ => .all operands
  | any operands _ => .any operands
  | truth _ => .truth

def EngineCall.filters (call : EngineCall ε Pos Attr Expr) : Bool := call.ask.filters

namespace QueryEngine

variable (e : QueryEngine σ ε Pos Attr Expr)

def respond (ask : EngineAsk Pos Attr Expr) (s : σ) : EngineCall ε Pos Attr Expr × σ :=
  match ask with
  | .join parent name => (e.join parent name s).map (.join parent name) id
  | .get parent name => (e.get parent name s).map (.get parent name) id
  | .fetch name => (e.fetch name s).map (.fetch name) id
  | .distinct => (e.distinct s).map .distinct id
  | .compare attr comparison => (e.compare attr comparison s).map (.compare attr comparison) id
  | .all operands => (e.all operands s).map (.all operands) id
  | .any operands => (e.any operands s).map (.any operands) id
  | .truth => (e.truth s).map .truth id

def after (s : σ) (history : List (EngineAsk Pos Attr Expr)) : σ :=
  history.foldl (fun s ask => (e.respond ask s).2) s

/-- From `s` on, the answers to the calls asked depend on the calls heard only. -/
def Heeds (s : σ) (heard asked : EngineAsk Pos Attr Expr → Bool) : Prop :=
  ∀ history ask, asked ask = true →
    (e.respond ask (e.after s history)).1 = (e.respond ask (e.after s (history.filter heard))).1

theorem after_append (s : σ) (history more : List (EngineAsk Pos Attr Expr)) :
    e.after s (history ++ more) = e.after (e.after s history) more := by
  rw [after, List.foldl_append]
  rfl

theorem after_append_singleton (s : σ) (history : List (EngineAsk Pos Attr Expr))
    (ask : EngineAsk Pos Attr Expr) :
    e.after s (history ++ [ask]) = (e.respond ask (e.after s history)).2 :=
  e.after_append s history [ask]

end QueryEngine

/-! ## Two runs with the same calls -/

/-- The watched operation makes the call `ask` and writes its answer down. -/
structure Watches (e : QueryEngine σ ε Pos Attr Expr) (ask : EngineAsk Pos Attr Expr)
    (call : Except ε α → EngineCall ε Pos Attr Expr) (c : Call σ ε α) : Prop where
  asks : ∀ answer, (call answer).ask = ask
  responds : ∀ s, e.respond ask s = (c s).map call id
  injective : ∀ answer answer', call answer = call answer' → answer = answer'

section Heeding

variable (e : QueryEngine σ ε Pos Attr Expr) (s : σ)

/-- What two runs wrote down after different histories: the same calls with the same answers. -/
structure SameCalls (first second : List (EngineAsk Pos Attr Expr))
    (before before' new : List (EngineCall ε Pos Attr Expr))
    (a b : σ × List (EngineCall ε Pos Attr Expr)) : Prop where
  left : a = (e.after s (first ++ new.map EngineCall.ask), before ++ new)
  right : b = (e.after s (second ++ new.map EngineCall.ask), before' ++ new)

variable {e s} {heard asked : EngineAsk Pos Attr Expr → Bool}
  {first second : List (EngineAsk Pos Attr Expr)}
  {before before' new : List (EngineCall ε Pos Attr Expr)}
  {a b : σ × List (EngineCall ε Pos Attr Expr)}

theorem sameCalls_nil (first second : List (EngineAsk Pos Attr Expr))
    (before before' : List (EngineCall ε Pos Attr Expr)) :
    SameCalls e s first second before before' [] (e.after s first, before)
      (e.after s second, before') := by
  constructor
  · simp
  · simp

theorem respond_eq_of_heard (heeds : e.Heeds s heard asked)
    (same : first.filter heard = second.filter heard) {ask : EngineAsk Pos Attr Expr}
    (hask : asked ask = true) (more : List (EngineAsk Pos Attr Expr)) :
    (e.respond ask (e.after s (first ++ more))).1 =
      (e.respond ask (e.after s (second ++ more))).1 := by
  rw [heeds _ ask hask, heeds (second ++ more) ask hask, List.filter_append, List.filter_append,
    same]

theorem SameCalls.step (h : SameCalls e s first second before before' new a b)
    (heeds : e.Heeds s heard asked) (same : first.filter heard = second.filter heard)
    {ask : EngineAsk Pos Attr Expr} (hask : asked ask = true)
    {call : Except ε α → EngineCall ε Pos Attr Expr} {c : Call σ ε α}
    (watches : Watches e ask call c) :
    ∃ answer a' b', watching call c a = (answer, a') ∧ watching call c b = (answer, b') ∧
      SameCalls e s first second before before' (new ++ [call answer]) a' b' := by
  obtain ⟨rfl, rfl⟩ := h
  have hanswers := respond_eq_of_heard heeds same hask (new.map EngineCall.ask)
  have hafter (history : List (EngineAsk Pos Attr Expr)) (answer : Except ε α) :
      e.after s (history ++ (new ++ [call answer]).map EngineCall.ask) =
        (c (e.after s (history ++ new.map EngineCall.ask))).2 := by
    rw [List.map_append, ← List.append_assoc, List.map_singleton, watches.asks,
      e.after_append_singleton, watches.responds]
    rfl
  rw [watches.responds, watches.responds] at hanswers
  have hanswer := watches.injective _ _ hanswers
  refine ⟨_, _, _, rfl, Prod.ext hanswer.symm rfl, ?_, ?_⟩
  · rw [hafter, ← List.append_assoc]
  · rw [hafter, ← List.append_assoc, hanswer]
    rfl

/-- Two states that only calls of the kind asked for led to, the same ones in both runs. -/
def Heeding (e : QueryEngine σ ε Pos Attr Expr) (s : σ) (asked : EngineAsk Pos Attr Expr → Bool)
    (first second : List (EngineAsk Pos Attr Expr))
    (before before' : List (EngineCall ε Pos Attr Expr))
    (a b : σ × List (EngineCall ε Pos Attr Expr)) : Prop :=
  ∃ new, SameCalls e s first second before before' new a b ∧
    ∀ call ∈ new, asked call.ask = true

theorem heeding_watching (heeds : e.Heeds s heard asked)
    (same : first.filter heard = second.filter heard)
    {ask : EngineAsk Pos Attr Expr} (hask : asked ask = true)
    {call : Except ε α → EngineCall ε Pos Attr Expr} {c : Call σ ε α}
    (watches : Watches e ask call c) (h : Heeding e s asked first second before before' a b) :
    Alike (Heeding e s asked first second before before') Eq (watching call c a)
      (watching call c b) := by
  obtain ⟨new, hcalls, hnew⟩ := h
  obtain ⟨answer, a', b', ha, hb, hcalls'⟩ := hcalls.step heeds same hask watches
  have hall : ∀ other ∈ new ++ [call answer], asked other.ask = true := by
    intro other hother
    rcases List.mem_append.mp hother with hother | hother
    · exact hnew other hother
    · rw [List.mem_singleton.mp hother, watches.asks]
      exact hask
  rw [ha, hb]
  cases answer with
  | error x => exact ⟨rfl, _, hcalls', hall⟩
  | ok answer => exact ⟨rfl, _, hcalls', hall⟩

def heedingCorrespondence (heeds : e.Heeds s heard asked)
    (same : first.filter heard = second.filter heard)
    (translates : ∀ ask : EngineAsk Pos Attr Expr, ask.filters = true → asked ask = true)
    (before before' : List (EngineCall ε Pos Attr Expr)) : Correspondence e.watched e.watched where
  State := Heeding e s asked first second before before'
  Place := Eq
  Name := Eq
  Term := Eq
  root := e.root_watched
  isNull := by
    intro p q hpq
    rw [hpq]
  join := by
    intro a b p q name h hpq
    rw [hpq]
    exact heeding_watching heeds same (translates (.join q name) rfl)
      ⟨fun _ => rfl, fun _ => rfl, fun _ _ => (EngineCall.join.inj · |>.2.2)⟩ h
  get := by
    intro a b p q name h hpq
    rw [hpq]
    exact heeding_watching heeds same (translates (.get q name) rfl)
      ⟨fun _ => rfl, fun _ => rfl, fun _ _ => (EngineCall.get.inj · |>.2.2)⟩ h
  compare := by
    intro a b x y c h hxy
    rw [hxy]
    exact heeding_watching heeds same (translates (.compare y c) rfl)
      ⟨fun _ => rfl, fun _ => rfl, fun _ _ => (EngineCall.compare.inj · |>.2.2)⟩ h
  all := by
    intro a b xs ys h hxs
    rw [List.forall₂_eq_eq_eq] at hxs
    rw [hxs]
    exact heeding_watching heeds same (translates (.all ys) rfl)
      ⟨fun _ => rfl, fun _ => rfl, fun _ _ => (EngineCall.all.inj · |>.2)⟩ h
  any := by
    intro a b xs ys h hxs
    rw [List.forall₂_eq_eq_eq] at hxs
    rw [hxs]
    exact heeding_watching heeds same (translates (.any ys) rfl)
      ⟨fun _ => rfl, fun _ => rfl, fun _ _ => (EngineCall.any.inj · |>.2)⟩ h
  truth := by
    intro a b h
    exact heeding_watching heeds same (translates .truth rfl)
      ⟨fun _ => rfl, fun _ => rfl, fun _ _ => EngineCall.truth.inj⟩ h

theorem toExpression_heeding (heeds : e.Heeds s heard asked)
    (same : first.filter heard = second.filter heard)
    (translates : ∀ ask : EngineAsk Pos Attr Expr, ask.filters = true → asked ask = true)
    (before before' : List (EngineCall ε Pos Attr Expr)) (p : Predicate) :
    (toExpression e.watched p (e.after s first, before)).1 =
        (toExpression e.watched p (e.after s second, before')).1 ∧
      Heeding e s asked first second before before'
        (toExpression e.watched p (e.after s first, before)).2
        (toExpression e.watched p (e.after s second, before')).2 := by
  have start : Heeding e s asked first second before before' (e.after s first, before)
      (e.after s second, before') := ⟨[], sameCalls_nil first second before before', by simp⟩
  exact ((heedingCorrespondence heeds same translates before before').toExpression_alike p start).eq

def heedingBuilds (heeds : e.Heeds s heard fun _ => true)
    (same : first.filter heard = second.filter heard)
    (before before' : List (EngineCall ε Pos Attr Expr)) :
    BuildCorrespondence e.watched e.watched where
  toCorrespondence := heedingCorrespondence heeds same (fun _ _ => rfl) before before'
  fetch := by
    intro a b name h
    have watches : Watches e (.fetch name) (.fetch name) (e.fetch name) :=
      ⟨fun _ => rfl, fun _ => rfl, fun _ _ => (EngineCall.fetch.inj · |>.2)⟩
    exact heeding_watching heeds same rfl watches h
  distinct := by
    intro a b h
    have watches : Watches e .distinct .distinct e.distinct :=
      ⟨fun _ => rfl, fun _ => rfl, fun _ _ => EngineCall.distinct.inj⟩
    exact heeding_watching heeds same rfl watches h
  describe := rfl

end Heeding

/-! ## The calls of a build -/

section Builds

variable (e : QueryEngine σ ε Pos Attr Expr)

def QueryEngine.callsOf (cache : IntentCache) (i : Instance) (eager : Bool) (s : σ) :
    List (EngineCall ε Pos Attr Expr) :=
  (build e.watched cache i eager (s, [])).engine.2

def watchedBuilds : BuildCorrespondence e.watched e where
  toCorrespondence := watchedCorrespondence e
  fetch := by
    intro a s name h
    obtain rfl : a.1 = s := h
    exact watching_alike _ _ a
  distinct := by
    intro a s h
    obtain rfl : a.1 = s := h
    exact watching_alike _ _ a
  describe := rfl

variable {e} {cache : IntentCache} {i : Instance}

theorem build_of_compile_error {x : CriteriaError} (h : (compile cache i).result = .error x)
    (eager : Bool) (s : σ) :
    build e cache i eager s =
      ⟨.error (.criteria x), s, (compile cache i).cache, (compile cache i).log⟩ := by
  simp only [build, h]

theorem build_of_compile_ok {criteria : CompiledCriteria}
    (h : (compile cache i).result = .ok criteria) (eager : Bool) (s : σ) :
    build e cache i eager s =
      ⟨(buildCompiled e eager criteria s).1.1.mapError .expression,
        (buildCompiled e eager criteria s).1.2, (compile cache i).cache,
        (compile cache i).log ++ (buildCompiled e eager criteria s).2⟩ := by
  simp only [build, h]

theorem build_watched (e : QueryEngine σ ε Pos Attr Expr) (cache : IntentCache) (i : Instance)
    (eager : Bool) (s : σ) :
    build e cache i eager s =
      ⟨(build e.watched cache i eager (s, [])).result,
        (build e.watched cache i eager (s, [])).engine.1,
        (build e.watched cache i eager (s, [])).cache,
        (build e.watched cache i eager (s, [])).log⟩ := by
  rcases hcompile : (compile cache i).result with x | criteria
  · simp only [build_of_compile_error hcompile]
  · have start : (watchedBuilds e).State (s, []) s := rfl
    obtain ⟨alike, hlog⟩ := (watchedBuilds e).buildCompiled_alike eager criteria start
    obtain ⟨hresult, hstate⟩ := alike.eq
    have hstate : (buildCompiled e.watched eager criteria (s, [])).1.2.1 =
      (buildCompiled e eager criteria s).1.2 := hstate
    simp only [build_of_compile_ok hcompile, hresult, hstate, hlog]

/-- After a history that nothing is heard of, an engine that is asked for everything builds as it
does without. -/
theorem build_heeding {cache' : IntentCache} {s : σ}
    (heeds : e.Heeds s (fun _ => false) fun _ => true)
    (hcompile : (compile cache i).result = (compile cache' i).result) (eager : Bool)
    (history : List (EngineAsk Pos Attr Expr)) :
    (build e cache i eager (e.after s history)).result = (build e cache' i eager s).result ∧
      e.callsOf cache i eager (e.after s history) = e.callsOf cache' i eager s ∧
      (∃ more, (build e cache i eager (e.after s history)).engine =
        e.after s (history ++ more)) ∧
      ∃ log, (build e cache i eager (e.after s history)).log = (compile cache i).log ++ log ∧
        (build e cache' i eager s).log = (compile cache' i).log ++ log := by
  simp only [QueryEngine.callsOf, build_watched e]
  rcases hcriteria : (compile cache i).result with x | criteria
  · have hcriteria' := hcompile.symm.trans hcriteria
    simp only [build_of_compile_error hcriteria, build_of_compile_error hcriteria']
    refine ⟨trivial, trivial, ⟨[], ?_⟩, [], ?_, ?_⟩
    · rw [List.append_nil]
    · rw [List.append_nil]
    · rw [List.append_nil]
  · have hcriteria' := hcompile.symm.trans hcriteria
    have same : history.filter (fun _ => false) = List.filter (fun _ => false) [] := by simp
    -- Nothing of a history is heard, so that any two of them agree in what is.
    have start : (heedingBuilds heeds same [] []).State (e.after s history, []) (s, []) :=
      ⟨[], sameCalls_nil history [] [] [], by simp⟩
    obtain ⟨alike, hlog⟩ := (heedingBuilds heeds same [] []).buildCompiled_alike eager criteria start
    obtain ⟨hresult, new, ⟨hleft, hright⟩, _⟩ := alike.eq
    simp only [build_of_compile_ok hcriteria, build_of_compile_ok hcriteria', hresult, hleft,
      hright, hlog]
    exact ⟨trivial, trivial, ⟨_, rfl⟩, _, rfl, rfl⟩

end Builds

theorem recorded_answer {α : Type} (event : RecordedEvent) (fails : Bool) (x : RecordingError)
    (a : α) (s t : List RecordedEvent) :
    (Call.bind (record event) (fun _ => failing fails x a) s).1 =
      (Call.bind (record event) (fun _ => failing fails x a) t).1 := by
  cases fails with
  | false => rfl
  | true => rfl

/-- A recording engine answers by its plan, whatever it recorded. -/
theorem heeds_recording (plan : RecordingPlan) (s : List RecordedEvent)
    (heard asked : EngineAsk (Option String) String RecordedExpr → Bool) :
    (recordingEngine plan).Heeds s heard asked := by
  intro history ask _
  cases ask with
  | join parent name =>
      exact congrArg (EngineCall.join parent name) (recorded_answer _ _ _ _ _ _)
  | get parent name => exact congrArg (EngineCall.get parent name) (recorded_answer _ _ _ _ _ _)
  | fetch name => exact congrArg (EngineCall.fetch name) (recorded_answer _ _ _ _ _ _)
  | distinct => rfl
  | compare place comparison => rfl
  | all operands => rfl
  | any operands => rfl
  | truth => rfl

end CatalogSearch.Criteria
