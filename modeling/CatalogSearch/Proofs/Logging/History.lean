import CatalogSearch.Logging.Configuration
import Mathlib.Data.List.Induction

/-!
# Loggers after many configurations

Loggers are configured again and again, by requests that may fail.  The first request of all decides
the handler and the level of the root, even if it fails: the handler is there afterwards, and so is
the level if it was a known one.  Every later request that fails changes nothing.  Main statements:
`reached_after`, on what a history of requests leads to, and `request_after_history`, on one more
request.
-/

set_option autoImplicit false

namespace CatalogSearch.Logging

open Config

/-- What the environment says when the loggers are configured, and the levels that are given. -/
structure Request where
  env : Environment
  level : Option String
  criteriaLevel : Option String

namespace Request

def run (r : Request) (l : Loggers) : Except LevelError Unit × Loggers :=
  configure r.env r.level r.criteriaLevel l

/-- The level that a request names for the root: the first of these that is given and not empty, in
capitals. -/
def levelName (r : Request) : String :=
  let given := [r.level, r.env.get? "LOG_LEVEL", some "INFO"].filterMap id
  Text.upper ((given.find? (· ≠ "")).getD "")

def root? (r : Request) : Except LevelError Nat := severityOf r.levelName

def criteria? (r : Request) : Except LevelError (Option Nat) :=
  match r.criteriaLevel with
  | none => .ok none
  | some name => (severityOf (Text.upper name)).map some

variable {r : Request} {l : Loggers}

theorem rootLevelName_eq (r : Request) : rootLevelName r.env r.level = r.levelName := by
  unfold rootLevelName levelName
  rcases r.level with _ | level <;> rcases r.env.get? "LOG_LEVEL" with _ | other
  · rfl
  · by_cases h : other = "" <;> simp [Option.filter_some, h]
  · by_cases h : level = "" <;> simp [Option.filter_some, h]
  · by_cases h : level = "" <;> by_cases h' : other = "" <;> simp [Option.filter_some, h, h']

theorem configureCriteria_eq (l : Loggers) : configureCriteria r.criteriaLevel l =
    match r.criteria? with
    | .error e => (.error e, l)
    | .ok severity => (.ok (), { l with criteria := severity.getD l.criteria }) := by
  unfold configureCriteria criteria?
  cases r.criteriaLevel with
  | none => rfl
  | some name => cases hname : severityOf (Text.upper name) <;> simp [Except.map, hname]

/-- Once the root has its handler, a request decides the rest, and only if it succeeds. -/
theorem run_of_configured (configured : l.formats ≠ []) : r.run l =
    match r.criteria? with
    | .error e => (.error e, l)
    | .ok severity =>
        (.ok (), { l with
          criteria := severity.getD l.criteria
          pool := Level.warning.severity }) := by
  have skipped : configureRoot (rootLevelName r.env r.level) l = (.ok (), l) := by
    unfold configureRoot
    rw [if_neg (by simpa using configured)]
  rw [run, configure, skipped]
  simp only [configureCriteria_eq]
  cases r.criteria? <;> rfl

/-- The handler comes first, then the level of the root, and then all else. -/
theorem run_of_fresh (fresh : l.formats = []) : r.run l =
    match r.root? with
    | .error e => (.error e, { l with formats := [lineFormat] })
    | .ok severity => r.run { l with root := severity, formats := [lineFormat] } := by
  unfold root?
  rw [← rootLevelName_eq]
  cases hroot : severityOf (rootLevelName r.env r.level) with
  | error e => simp [run, configure, configureRoot, fresh, hroot]
  | ok severity => simp [run, configure, configureRoot, fresh, hroot]

theorem run_withRoot (configured : l.formats ≠ []) (severity : Nat) :
    r.run { l with root := severity } = ((r.run l).1, { (r.run l).2 with root := severity }) := by
  have configured' : ({ l with root := severity } : Loggers).formats ≠ [] := configured
  rw [run_of_configured configured, run_of_configured configured']
  cases r.criteria? <;> rfl

end Request

theorem Request.run_fst_of_configured {r : Request} {l : Loggers} (configured : l.formats ≠ []) :
    (r.run l).1 = .ok () ↔ ∃ severity, r.criteria? = .ok severity := by
  rw [run_of_configured configured]
  cases r.criteria? <;> simp

theorem Request.run_fst_of_fresh {r : Request} {l : Loggers} (fresh : l.formats = []) :
    (r.run l).1 = .ok () ↔
      (∃ severity, r.root? = .ok severity) ∧ ∃ severity, r.criteria? = .ok severity := by
  rw [run_of_fresh fresh]
  cases r.root? with
  | error e => simp
  | ok severity => simp [run_fst_of_configured]

/-- A request that fails on fresh loggers leaves the root's part, as far as it was done. -/
theorem Request.left_of_fresh {r : Request} {l : Loggers} {e : LevelError} (fresh : l.formats = [])
    (failed : (r.run l).1 = .error e) :
    (r.run l).2 =
      { l with root := r.root?.toOption.getD l.root, formats := [lineFormat] } := by
  rw [run_of_fresh fresh] at failed ⊢
  cases hroot : r.root? with
  | error e => simp [Except.toOption]
  | ok severity =>
      simp only [hroot] at failed ⊢
      rw [run_of_configured (by simp)] at failed ⊢
      cases hcriteria : r.criteria? with
      | error e => simp [Except.toOption]
      | ok _ =>
          rw [hcriteria] at failed
          cases failed

/-! ## Histories -/

/-- The loggers after requests, failed ones included. -/
def Loggers.after (l : Loggers) (history : List Request) : Loggers :=
  history.foldl (fun l r => (r.run l).2) l

def succeeded : Loggers → List Request → List Request
  | _, [] => []
  | l, r :: rest =>
      match r.run l with
      | (.ok _, l) => r :: succeeded l rest
      | (.error _, l) => succeeded l rest

/-- The level of the root that a history leads to, which the first request alone decides. -/
def rootAfter : List Request → Nat
  | [] => Level.warning.severity
  | first :: _ => first.root?.toOption.getD Level.warning.severity

/-- The last severity that requests give to the criteria, and zero if they give none. -/
def lastCriteria (requests : List Request) : Nat :=
  (requests.filterMap fun r => r.criteria?.toOption.join).getLast?.getD 0

theorem after_append_singleton (l : Loggers) (history : List Request) (r : Request) :
    l.after (history ++ [r]) = (r.run (l.after history)).2 := by
  simp [Loggers.after]

theorem succeeded_append (more : List Request) : ∀ (history : List Request) (l : Loggers),
    succeeded l (history ++ more) = succeeded l history ++ succeeded (l.after history) more := by
  intro history
  induction history with
  | nil => intro l; rfl
  | cons first rest ih =>
      intro l
      have later : l.after (first :: rest) = (first.run l).2.after rest := rfl
      rw [later, List.cons_append, succeeded, succeeded]
      rcases first.run l with ⟨e | _, state⟩
      · exact ih state
      · exact congrArg (first :: ·) (ih state)

theorem succeeded_singleton_of_ok {r : Request} {l : Loggers} (h : (r.run l).1 = .ok ()) :
    succeeded l [r] = [r] := by
  rcases hrun : r.run l with ⟨e | _, state⟩
  · rw [hrun] at h
    cases h
  · simp only [succeeded, hrun]

theorem succeeded_singleton_of_error {r : Request} {l : Loggers} {e : LevelError}
    (h : (r.run l).1 = .error e) : succeeded l [r] = [] := by
  rcases hrun : r.run l with ⟨e | _, state⟩
  · simp only [succeeded, hrun]
  · rw [hrun] at h
    cases h

theorem rootAfter_append_singleton {history : List Request} (h : history ≠ []) (r : Request) :
    rootAfter (history ++ [r]) = rootAfter history := by
  cases history with
  | nil => exact absurd rfl h
  | cons first rest => rfl

theorem lastCriteria_append_singleton (requests : List Request) {r : Request}
    {severity : Option Nat} (h : r.criteria? = .ok severity) :
    lastCriteria (requests ++ [r]) = severity.getD (lastCriteria requests) := by
  unfold lastCriteria
  cases severity <;> simp [h, Except.toOption]

/-- What can be said of loggers that were not configured before a history of requests. -/
structure Reached (history : List Request) (l : Loggers) : Prop where
  formats : l.formats = if history = [] then [] else [lineFormat]
  root : l.root = rootAfter history
  criteria : l.criteria = lastCriteria (succeeded .initial history)
  pool : l.pool = if succeeded .initial history = [] then 0 else Level.warning.severity

theorem reached_of_configured {history : List Request} {r : Request} {m : Loggers}
    (same : r.run (Loggers.initial.after history) = r.run m) (formats : m.formats = [lineFormat])
    (root : m.root = rootAfter (history ++ [r]))
    (criteria : m.criteria = lastCriteria (succeeded .initial history))
    (pool : m.pool = if succeeded .initial history = [] then 0 else Level.warning.severity) :
    Reached (history ++ [r]) (r.run m).2 := by
  have configured : m.formats ≠ [] := by simp [formats]
  have done : succeeded .initial (history ++ [r]) = succeeded .initial history ++
      succeeded (Loggers.initial.after history) [r] := succeeded_append [r] history .initial
  have ran := r.run_of_configured configured
  cases hcriteria : r.criteria? with
  | error e =>
      rw [hcriteria] at ran
      rw [succeeded_singleton_of_error (by rw [same, ran]), List.append_nil] at done
      rw [ran]
      exact ⟨by simp [formats], root, by rw [done, criteria], by rw [done, pool]⟩
  | ok severity =>
      rw [hcriteria] at ran
      rw [succeeded_singleton_of_ok (by rw [same, ran])] at done
      rw [ran]
      refine ⟨by simp [formats], root, ?_, ?_⟩
      · rw [done, lastCriteria_append_singleton _ hcriteria, criteria]
      · simp [done]

theorem Reached.step {history : List Request} (h : Reached history (Loggers.initial.after history))
    (r : Request) : Reached (history ++ [r]) (r.run (Loggers.initial.after history)).2 := by
  by_cases first : history = []
  · subst first
    have fresh : Loggers.initial.formats = [] := rfl
    have start : Loggers.initial.after [] = .initial := rfl
    rw [start]
    have ran := r.run_of_fresh fresh
    cases hroot : r.root? with
    | error e =>
        rw [hroot] at ran
        have none : succeeded .initial [r] = [] :=
          succeeded_singleton_of_error (by rw [ran])
        rw [ran, List.nil_append]
        exact ⟨rfl, by simp [rootAfter, hroot, Except.toOption]; rfl, by rw [none]; rfl,
          by rw [none]; rfl⟩
    | ok severity =>
        rw [hroot] at ran
        rw [ran]
        exact reached_of_configured ran rfl (by simp [rootAfter, hroot, Except.toOption]) rfl rfl
  · refine reached_of_configured rfl ?_ ?_ h.criteria h.pool
    · rw [h.formats, if_neg first]
    · rw [h.root, rootAfter_append_singleton first]

theorem reached_after (history : List Request) :
    Reached history (Loggers.initial.after history) := by
  induction history using List.reverseRecOn with
  | nil => exact ⟨rfl, rfl, rfl, rfl⟩
  | append_singleton history r ih =>
      rw [after_append_singleton]
      exact ih.step r

/-! ## One more request -/

/-- What a request leaves that fails after a history. -/
structure LeftByFailure (history : List Request) (r : Request) (l left : Loggers) : Prop where
  criteria : left.criteria = l.criteria
  pool : left.pool = l.pool
  later : history ≠ [] → left = l
  first : history = [] →
    left.formats = [lineFormat] ∧ left.root = r.root?.toOption.getD l.root
  again : ∀ next : Request, (next.run l).1 = .ok () →
    next.run left = (.ok (), { (next.run l).2 with root := left.root })

/-- What a request leaves that succeeds after a history. -/
structure LeftBySuccess (history : List Request) (r : Request) (left : Loggers) : Prop where
  handler : left.formats = [lineFormat]
  root : left.root = rootAfter (history ++ [r])
  criteria : left.criteria = lastCriteria (succeeded .initial history ++ [r])
  pool : left.pool = Level.warning.severity

theorem leftByFailure_first {r : Request} {e : LevelError}
    (failed : (r.run .initial).1 = .error e) :
    LeftByFailure [] r .initial (r.run .initial).2 := by
  have fresh : Loggers.initial.formats = [] := rfl
  rw [r.left_of_fresh fresh failed]
  refine ⟨rfl, rfl, fun h => absurd rfl h, fun _ => ⟨rfl, rfl⟩, ?_⟩
  intro next ok
  have ran := next.run_of_fresh fresh
  cases hroot : next.root? with
  | error e =>
      rw [hroot] at ran
      rw [ran] at ok
      cases ok
  | ok severity =>
      rw [hroot] at ran
      rw [ran] at ok ⊢
      rw [← ok, ← Request.run_withRoot (by simp)]

theorem leftByFailure_later {history : List Request} (later : history ≠ []) {r : Request}
    {l : Loggers} (configured : l.formats ≠ []) {e : LevelError}
    (failed : (r.run l).1 = .error e) : LeftByFailure history r l (r.run l).2 := by
  have unchanged : (r.run l).2 = l := by
    rw [r.run_of_configured configured] at failed ⊢
    cases hcriteria : r.criteria? with
    | error e => rfl
    | ok _ =>
        rw [hcriteria] at failed
        cases failed
  rw [unchanged]
  refine ⟨rfl, rfl, fun _ => rfl, fun h => absurd h later, ?_⟩
  intro next ok
  have ran := next.run_withRoot configured l.root
  rw [ok] at ran
  exact ran

/-- A request that fails leaves the loggers as they were, except for the root at the first one, and a
request that succeeds leaves what the whole history says. -/
theorem request_after_history (history : List Request) (r : Request) :
    (∀ e, (r.run (Loggers.initial.after history)).1 = .error e →
      LeftByFailure history r (.after .initial history)
        (r.run (Loggers.initial.after history)).2) ∧
    ((r.run (Loggers.initial.after history)).1 = .ok () →
      LeftBySuccess history r (r.run (Loggers.initial.after history)).2) ∧
    ((r.run (Loggers.initial.after history)).1 = .ok () ↔
      (history = [] → ∃ severity, r.root? = .ok severity) ∧
        ∃ severity, r.criteria? = .ok severity) := by
  have reached := reached_after history
  have configured (later : history ≠ []) : (Loggers.initial.after history).formats ≠ [] := by
    simp [reached.formats, later]
  refine ⟨?_, ?_, ?_⟩
  · intro e failed
    -- The first request is the only one that adds the handler before it can fail.
    by_cases first : history = []
    · subst first
      exact leftByFailure_first failed
    · exact leftByFailure_later first (configured first) failed
  · intro ok
    have next := reached.step r
    have done : succeeded .initial (history ++ [r]) = succeeded .initial history ++ [r] := by
      rw [succeeded_append, succeeded_singleton_of_ok ok]
    exact {
      handler := by simp [next.formats]
      root := next.root
      criteria := by rw [next.criteria, done]
      pool := by simp [next.pool, done] }
  · by_cases first : history = []
    · subst first
      have fresh : (Loggers.initial.after []).formats = [] := rfl
      rw [Request.run_fst_of_fresh fresh]
      simp
    · rw [Request.run_fst_of_configured (configured first)]
      simp [first]

def unknownLevel : Request := ⟨⟨[]⟩, some "FOO", none⟩

def debugLevel : Request := ⟨⟨[]⟩, some "DEBUG", none⟩

/-- The first request fails and still counts: the second one, alone a success, finds the handler of
the first and does not set the level of the root. -/
theorem first_failure_counts :
    (unknownLevel.run .initial).1 = .error (.unknown "FOO") ∧
    (unknownLevel.run .initial).2 ≠ .initial ∧
    debugLevel.run .initial = (.ok (), ⟨Level.debug.severity, 0, 30, [lineFormat]⟩) ∧
    debugLevel.run (unknownLevel.run .initial).2 =
      (.ok (), ⟨Level.warning.severity, 0, 30, [lineFormat]⟩) := by
  decide

end CatalogSearch.Logging
