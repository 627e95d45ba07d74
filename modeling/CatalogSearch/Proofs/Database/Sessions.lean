import CatalogSearch.Database.Connection
import CatalogSearch.Database.Pool
import CatalogSearch.Proofs.Call

/-!
# Sessions of single and of pooled connections

A single connection is configured at once, a pooled one later and by the pool, but both send the
same statements: those before the first one without text (`sent`).  Main statement:
`sessions_agree_iff`.  The pool is refused if the connection is, and otherwise both have the same
session, unless the options pass every check but give a timeout of too many digits for a statement.
Then the pool is created, and the error comes with its first connection.
-/

set_option autoImplicit false

namespace CatalogSearch.Database

/-! ## What is sent -/

/-- How the sending of statements ends, and the texts that were sent. -/
def sent : List SessionStatement → Except SessionError Unit × List String
  | [] => (.ok (), [])
  | s :: rest =>
      match s.written with
      | .error e => (.error e, [])
      | .ok text => ((sent rest).1, text :: (sent rest).2)

def settled : Except SessionError Unit → List Event
  | .ok _ => [.committed]
  | .error _ => []

theorem configuring_eq (statements : List SessionStatement) :
    configuring statements = ⟨(sent statements).1,
      (sent statements).2.map .executed ++ settled (sent statements).1⟩ := by
  induction statements with
  | nil => rfl
  | cons s rest ih =>
      unfold configuring sent
      cases s.written with
      | error e => rfl
      | ok text => simp only [ih, List.map_cons, List.cons_append]

theorem execute_session (s : SessionStatement) (before : List Event) (applied saved : List String) :
    server.execute (.session s) ⟨before, applied, saved, none⟩ =
      (.ok [], ⟨before ++ [.executed s.text], applied, saved, none⟩) := rfl

theorem eq_text_of_written {s : SessionStatement} {text : String} (h : s.written = .ok text) :
    text = s.text := by
  unfold SessionStatement.written at h
  split at h
  · exact (Except.ok.inj h).symm
  · cases h

theorem configure_eq (statements : List SessionStatement) :
    ∀ (before : List Event) (applied saved : List String),
      server.configure statements ⟨before, applied, saved, none⟩ =
        ((sent statements).1.mapError .session,
          ⟨before ++ (sent statements).2.map .executed, applied, saved, none⟩) := by
  induction statements with
  | nil =>
      intro before applied saved
      simp only [sent, List.map_nil, List.append_nil]
      rfl
  | cons s rest ih =>
      intro before applied saved
      unfold Client.configure sent
      cases hs : s.written with
      | error e =>
          simp only [List.map_nil, List.append_nil]
          rfl
      | ok text =>
          simp only [Call.bind, Call.mapError, execute_session, ih, eq_text_of_written hs,
            List.map_cons, List.append_assoc, List.singleton_append]

theorem connectSession_eq (url : String) (o : SessionOptions) (before : List Event)
    (applied saved : List String) :
    server.connectSession url o ⟨before, applied, saved, none⟩ =
      match sessionStatements o with
      | .error e => (.error (.session e), ⟨before ++ [.connected url], applied, saved, none⟩)
      | .ok statements => ((sent statements).1.mapError .session, ⟨before ++
          .connected url :: (sent statements).2.map .executed, applied, saved, none⟩) := by
  have connected : server.connect url ⟨before, applied, saved, none⟩ =
      (.ok (), ⟨before ++ [.connected url], applied, saved, none⟩) := rfl
  simp only [Client.connectSession, Call.bind, Call.mapError, connected]
  cases sessionStatements o with
  | error e => rfl
  | ok statements => simp only [configure_eq, List.append_assoc, List.singleton_append]

theorem createPool_eq (url : String) (o : PoolOptions) :
    createPool url o =
      match sessionStatements o.session with
      | .error e => .error (.session e)
      | .ok statements => .ok ⟨⟨url, o.minSize, o.maxSize, o.timeout⟩, statements⟩ := by
  unfold createPool
  cases sessionStatements o.session <;> rfl

theorem sent_of_writable (statements : List SessionStatement)
    (writable : ∀ s ∈ statements, s.isWritable = true) :
    sent statements = (.ok (), statements.map SessionStatement.text) := by
  induction statements with
  | nil => rfl
  | cons s rest ih =>
      have here : s.written = .ok s.text := if_pos (writable s List.mem_cons_self)
      have below := ih fun x hx => writable x (List.mem_cons_of_mem s hx)
      simp only [sent, here, below, List.map_cons]

/-! ## Statements of a session -/

theorem isWritable_timeout {n : Int} :
    (SessionStatement.timeout n).isWritable = true ↔ n.natAbs < Nat.pow 10 literalLimit := by
  unfold SessionStatement.isWritable
  exact decide_eq_true_iff

def sessionTexts (timeout : Option Int) (schema : Option String) : List String :=
  "SET TIME ZONE 'UTC'" ::
    ((timeout.map fun n => "SET statement_timeout = " ++ toString n).toList ++
      (schema.map fun name => "SET search_path TO \"" ++ name ++ "\"").toList)

theorem sessionStatements_eq_ok {o : SessionOptions} {statements : List SessionStatement} :
    sessionStatements o = .ok statements ↔ ∃ timeouts schemas,
      timeoutStatements o.timeout = .ok timeouts ∧ schemaStatements o.schema = .ok schemas ∧
        .timeZone :: timeouts ++ schemas = statements := by
  unfold sessionStatements
  simp only [except_bind_eq_ok, pure, Except.pure, Except.ok.injEq]
  constructor
  · intro ⟨timeouts, htimeouts, schemas, hschemas, h⟩
    exact ⟨timeouts, schemas, htimeouts, hschemas, h⟩
  · intro ⟨timeouts, schemas, htimeouts, hschemas, h⟩
    exact ⟨timeouts, htimeouts, schemas, hschemas, h⟩

theorem eq_of_mem_timeoutStatements {o : Option Timeout} {timeouts : List SessionStatement}
    (made : timeoutStatements o = .ok timeouts) {s : SessionStatement} (hs : s ∈ timeouts) :
    ∃ t n, o = some t ∧ t.milliseconds? = .ok n ∧ s = .timeout n := by
  cases o with
  | none =>
      rw [← Except.ok.inj made] at hs
      cases hs
  | some t =>
      obtain ⟨n, hn, rfl⟩ := except_map_eq_ok.mp made
      exact ⟨t, n, rfl, hn, List.mem_singleton.mp hs⟩

theorem isWritable_of_mem_schemaStatements {o : Option SchemaChoice}
    {schemas : List SessionStatement} (made : schemaStatements o = .ok schemas)
    {s : SessionStatement} (hs : s ∈ schemas) : s.isWritable = true := by
  unfold schemaStatements at made
  split at made
  · rw [← Except.ok.inj made] at hs
    cases hs
  · cases made
  · next name =>
      split at made
      · rw [← Except.ok.inj made] at hs
        rw [List.mem_singleton.mp hs]
        rfl
      · cases made

theorem sessionStatements_of_valid {timeout : Option Int} {schema : Option String}
    (positive : ∀ n, timeout = some n → 0 < n)
    (named : ∀ name, schema = some name → Text.isSchemaName name = true) :
    sessionStatements ⟨timeout.map .int, schema.map .named⟩ =
      .ok (.timeZone :: (timeout.map SessionStatement.timeout).toList ++
        (schema.map SessionStatement.schema).toList) := by
  refine sessionStatements_eq_ok.mpr ⟨_, _, ?_, ?_, rfl⟩
  · cases timeout with
    | none => rfl
    | some n =>
        simp only [Option.map_some, timeoutStatements, Timeout.milliseconds?,
          if_pos (positive n rfl), Except.map, Option.toList_some]
  · cases schema with
    | none => rfl
    | some name =>
        simp only [Option.map_some, schemaStatements, if_pos (named name rfl), Option.toList_some]

theorem createPool_of_valid {url : String} {o : PoolOptions} {timeout : Option Int}
    {schema : Option String} (hsession : o.session = ⟨timeout.map .int, schema.map .named⟩)
    (positive : ∀ n, timeout = some n → 0 < n)
    (short : ∀ n, timeout = some n → n.natAbs < Nat.pow 10 literalLimit)
    (named : ∀ name, schema = some name → Text.isSchemaName name = true) :
    ∃ pool, createPool url o = .ok pool ∧
      pool.settings = ⟨url, o.minSize, o.maxSize, o.timeout⟩ ∧
      pool.configured = ⟨.ok (), (sessionTexts timeout schema).map .executed ++ [.committed]⟩ := by
  have statements := sessionStatements_of_valid positive named
  have writable : ∀ s ∈ .timeZone :: (timeout.map SessionStatement.timeout).toList ++
      (schema.map SessionStatement.schema).toList, s.isWritable = true := by
    intro s hs
    cases s with
    | timeZone => rfl
    | schema name => rfl
    | timeout n =>
        have hn : timeout = some n := by simpa using hs
        exact isWritable_timeout.mpr (short n hn)
  have texts : (.timeZone :: (timeout.map SessionStatement.timeout).toList ++
      (schema.map SessionStatement.schema).toList).map SessionStatement.text =
        sessionTexts timeout schema := by
    cases timeout <;> cases schema <;> rfl
  rw [createPool_eq, hsession, statements]
  refine ⟨_, rfl, rfl, ?_⟩
  rw [Pool.configured, configuring_eq, sent_of_writable _ writable, texts]
  rfl

/-! ## Agreement -/

/-- The pool is refused with the error of the single connection and before anything is sent, or
else its connections get the session of the single one and cannot fail for the options. -/
structure SessionsAgree (url : String) (o : PoolOptions) (s : Server) : Prop where
  result : ∃ r : Except SessionError Unit,
    (createPool url o).map (fun _ => ()) = r.mapError .session ∧
      (server.connectSession url o.session s).1 = r.mapError .session
  untouched : ∀ e, createPool url o = .error e →
    (server.connectSession url o.session s).2.events = s.events ++ [.connected url]
  alike : ∀ pool, createPool url o = .ok pool → ∃ texts : List String,
    (server.connectSession url o.session s).2.events =
        s.events ++ .connected url :: texts.map .executed ∧
      pool.configured = ⟨.ok (), texts.map .executed ++ [.committed]⟩

/-- Options that pass every check, with a timeout of too many digits. -/
def SessionOptions.Unwritable (o : SessionOptions) : Prop :=
  ∃ t n schemas, o.timeout = some t ∧ t.milliseconds? = .ok n ∧ Nat.pow 10 literalLimit ≤ n.natAbs ∧
    schemaStatements o.schema = .ok schemas

/-- What becomes of such options: the pool is created, and every connection fails after its first
statement. -/
structure FailsLate (url : String) (o : PoolOptions) (s : Server) : Prop where
  created : ∃ pool, createPool url o = .ok pool ∧
    pool.configured = ⟨.error .tooManyDigits, [.executed "SET TIME ZONE 'UTC'"]⟩
  single : (server.connectSession url o.session s).1 = .error (.session .tooManyDigits)
  events : (server.connectSession url o.session s).2.events =
    s.events ++ [.connected url, .executed "SET TIME ZONE 'UTC'"]

theorem isWritable_of_not_unwritable {o : SessionOptions} (h : ¬ o.Unwritable)
    {statements : List SessionStatement} (made : sessionStatements o = .ok statements) :
    ∀ s ∈ statements, s.isWritable = true := by
  intro s hs
  obtain ⟨timeouts, schemas, htimeouts, hschemas, rfl⟩ := sessionStatements_eq_ok.mp made
  rcases List.mem_append.mp hs with hs | hs
  · rcases List.mem_cons.mp hs with rfl | hs
    · rfl
    · obtain ⟨t, n, ht, hn, rfl⟩ := eq_of_mem_timeoutStatements htimeouts hs
      by_cases short : n.natAbs < Nat.pow 10 literalLimit
      · exact isWritable_timeout.mpr short
      · exact absurd ⟨t, n, schemas, ht, hn, Nat.le_of_not_lt short, hschemas⟩ h
  · exact isWritable_of_mem_schemaStatements hschemas hs

theorem sent_of_unwritable {o : SessionOptions} (h : o.Unwritable) :
    ∃ statements, sessionStatements o = .ok statements ∧
      sent statements = (.error .tooManyDigits, ["SET TIME ZONE 'UTC'"]) := by
  obtain ⟨t, n, schemas, ht, hn, long, hschemas⟩ := h
  have timeouts : timeoutStatements o.timeout = .ok [.timeout n] := by
    rw [ht, timeoutStatements, hn]
    rfl
  refine ⟨_, sessionStatements_eq_ok.mpr ⟨_, _, timeouts, hschemas, rfl⟩, ?_⟩
  have refused : (SessionStatement.timeout n).written = .error .tooManyDigits := by
    refine if_neg fun writable => ?_
    exact Nat.not_lt_of_le long (isWritable_timeout.mp writable)
  have zone : SessionStatement.timeZone.written = .ok "SET TIME ZONE 'UTC'" := rfl
  simp only [List.cons_append, List.nil_append, sent, zone, refused]

theorem failsLate_of_unwritable {o : PoolOptions} (h : o.session.Unwritable) (url : String)
    (before : List Event) (applied saved : List String) :
    FailsLate url o ⟨before, applied, saved, none⟩ := by
  obtain ⟨statements, made, hsent⟩ := sent_of_unwritable h
  have connected := connectSession_eq url o.session before applied saved
  rw [made] at connected
  simp only [hsent] at connected
  refine ⟨?_, ?_, ?_⟩
  · rw [createPool_eq, made]
    refine ⟨_, rfl, ?_⟩
    rw [Pool.configured, configuring_eq, hsent]
    rfl
  · rw [connected]
    rfl
  · rw [connected]
    rfl

theorem not_sessionsAgree_of_unwritable {o : PoolOptions} (h : o.session.Unwritable) (url : String)
    (before : List Event) (applied saved : List String) :
    ¬ SessionsAgree url o ⟨before, applied, saved, none⟩ := by
  intro agree
  have late := failsLate_of_unwritable h url before applied saved
  obtain ⟨pool, created, failed⟩ := late.created
  obtain ⟨texts, _, configured⟩ := agree.alike pool created
  have same := congrArg PoolRun.result (failed.symm.trans configured)
  cases same

theorem sessionsAgree_of_not_unwritable {o : PoolOptions} (h : ¬ o.session.Unwritable)
    (url : String) (before : List Event) (applied saved : List String) :
    SessionsAgree url o ⟨before, applied, saved, none⟩ := by
  have connected := connectSession_eq url o.session before applied saved
  have created := createPool_eq url o
  cases made : sessionStatements o.session with
  | error e =>
      rw [made] at connected created
      refine ⟨⟨.error e, ?_, ?_⟩, ?_, ?_⟩
      · rw [created]
        rfl
      · rw [connected]
        rfl
      · intro _ _
        rw [connected]
      · intro pool hpool
        rw [created] at hpool
        cases hpool
  | ok statements =>
      have writable := isWritable_of_not_unwritable h made
      rw [made] at connected created
      simp only [sent_of_writable statements writable] at connected
      refine ⟨⟨.ok (), ?_, ?_⟩, ?_, ?_⟩
      · rw [created]
        rfl
      · rw [connected]
      · intro e he
        rw [created] at he
        cases he
      · intro pool hpool
        rw [created] at hpool
        obtain rfl := Except.ok.inj hpool
        refine ⟨statements.map SessionStatement.text, ?_, ?_⟩
        · rw [connected]
        · rw [Pool.configured, configuring_eq, sent_of_writable statements writable]
          rfl

theorem sessions_agree_iff (url : String) (o : PoolOptions) (before : List Event)
    (applied saved : List String) :
    (SessionsAgree url o ⟨before, applied, saved, none⟩ ↔ ¬ o.session.Unwritable) ∧
      (o.session.Unwritable → FailsLate url o ⟨before, applied, saved, none⟩) := by
  refine ⟨⟨?_, ?_⟩, ?_⟩
  · intro agree unwritable
    exact not_sessionsAgree_of_unwritable unwritable url before applied saved agree
  · intro writable
    exact sessionsAgree_of_not_unwritable writable url before applied saved
  · intro unwritable
    exact failsLate_of_unwritable unwritable url before applied saved

theorem unwritable_of_int {n : Int} (positive : 0 < n)
    (long : Nat.pow 10 literalLimit ≤ n.natAbs) :
    SessionOptions.Unwritable ⟨some (.int n), none⟩ :=
  ⟨.int n, n, [], rfl, if_pos positive, long, rfl⟩

def longTimeout : PoolOptions :=
  { PoolOptions.usual with session := ⟨some (.int (Nat.pow 10 literalLimit : Nat)), none⟩ }

theorem long_timeout_fails_late :
    ¬ SessionsAgree "postgresql://localhost/catalog" longTimeout (.ofApplied [] none) := by
  have positive : 0 < Nat.pow 10 literalLimit := by
    rw [Nat.pow_eq]
    exact Nat.pow_pos (by decide)
  have long := unwritable_of_int (Int.natCast_pos.mpr positive)
    (Nat.le_of_eq (Int.natAbs_natCast (Nat.pow 10 literalLimit)).symm)
  exact not_sessionsAgree_of_unwritable long _ [] [] []

end CatalogSearch.Database
