import CatalogSearch.Database.Connection
import CatalogSearch.Proofs.Call

/-!
# Transactions

A database whose clients do not commit on their own.  The first statement of a connection opens a
transaction, a transaction within it is a savepoint, and what was done counts once the connection
ends well.  A call that fails spoils the open transaction, up to the savepoint that is returned to.

What scripts do is a parameter (`Dialect`), and so is which calls are interrupted, be it a
statement, a savepoint or the commit.  `Store.Within` tells what holds while a transaction is open,
`Store.Undone` what holds after a failure.
-/

set_option autoImplicit false

namespace CatalogSearch.Database

variable {τ ε α : Type}

/-! ## Contents -/

/-- The names in the ledger, if there is one, and everything else. -/
structure Contents (τ : Type) where
  ledger : Option (List String)
  tables : τ
  deriving DecidableEq, Repr

def Contents.recorded (c : Contents τ) : List String := c.ledger.getD []

def Contents.prepared (c : Contents τ) : Contents τ := { c with ledger := some c.recorded }

theorem Contents.prepared_of_ledger {c : Contents τ} {names : List String}
    (ledger : c.ledger = some names) : c.prepared = c := by
  unfold Contents.prepared Contents.recorded
  rw [ledger]
  exact congrArg (Contents.mk · c.tables) ledger.symm

/-- How a database carries out statements.  A script may read and change all contents, but it issues
no transaction control. -/
structure Dialect (τ ε : Type) where
  script : String → Contents τ → Except ε (Contents τ)
  dropTable : String → Contents τ → Except ε τ
  noLedger : ε
  alreadyRecorded : ε
  aborted : ε

/-- The answer of a statement, and the contents after it.  A name is recorded only once, for it is
the key of the ledger. -/
def Dialect.perform (d : Dialect τ ε) (c : Contents τ) :
    Statement → Except ε (List String × Contents τ)
  | .session _ => .ok ([], c)
  | .createLedger => .ok ([], c.prepared)
  | .selectApplied =>
      match c.ledger with
      | none => .error d.noLedger
      | some names => .ok (names, c)
  | .insertApplied name =>
      match c.ledger with
      | none => .error d.noLedger
      | some names =>
          if name ∈ names then .error d.alreadyRecorded
          else .ok ([], { c with ledger := some (names ++ [name]) })
  | .script text => (d.script text c).map fun c => ([], c)
  | .dropTable name =>
      if name = ledgerTable then .ok ([], { c with ledger := none })
      else (d.dropTable name c).map fun tables => ([], { c with tables := tables })

/-- The script leaves the ledger to the runs.  If it wrote there, the ledger could say anything. -/
def Dialect.SparesLedger (d : Dialect τ ε) (text : String) : Prop :=
  ∀ c c', d.script text c = .ok c' → c'.ledger = c.ledger

/-! ## The database as a client sees it -/

/-- What an open transaction sees, which is nothing once a call in it failed, and the contents at
its savepoints, the last one first. -/
structure Transaction (τ : Type) where
  view : Option (Contents τ)
  savepoints : List (Contents τ)
  deriving DecidableEq, Repr

structure Store (τ : Type) where
  committed : Contents τ
  transaction : Option (Transaction τ)
  sent : List Statement
  clock : Nat
  deriving DecidableEq, Repr

def Statement.script? : Statement → Option String
  | .script text => some text
  | _ => none

namespace Store

def executed (s : Store τ) : List String := s.sent.filterMap Statement.script?

def opened (s : Store τ) : Transaction τ := s.transaction.getD ⟨some s.committed, []⟩

def spoiled (s : Store τ) : Store τ :=
  { s with transaction := s.transaction.map fun t => { t with view := none } }

/-- Commits what the open transaction sees, or takes it back if it is spoiled. -/
def closed (s : Store τ) : Store τ :=
  { s with committed := s.opened.view.getD s.committed, transaction := none }

def rolledBack (s : Store τ) : Store τ :=
  match s.transaction with
  | some ⟨_, c :: saved⟩ => { s with transaction := some ⟨some c, saved⟩ }
  | _ => { s with transaction := none }

end Store

/-- Whatever makes a call fail spoils the open transaction. -/
def interruptible (interrupts : Nat → Option ε) (c : Call (Store τ) ε α) : Call (Store τ) ε α :=
  fun s =>
    match interrupts s.clock with
    | some e => (.error e, { s with clock := s.clock + 1 }.spoiled)
    | none =>
        match c { s with clock := s.clock + 1 } with
        | (.ok a, s) => (.ok a, s)
        | (.error e, s) => (.error e, s.spoiled)

namespace Dialect

def performing (d : Dialect τ ε) (statement : Statement) : Call (Store τ) ε (List String) :=
  fun s =>
    match s.opened.view with
    | none => (.error d.aborted, s)
    | some c =>
        match d.perform c statement with
        | .error e => (.error e, s)
        | .ok (rows, c) =>
            (.ok rows, { s with transaction := some { s.opened with view := some c } })

/-- A savepoint, or the beginning of a transaction if none is open. -/
def starting (d : Dialect τ ε) : Call (Store τ) ε Unit := fun s =>
  match s.transaction with
  | none => (.ok (), { s with transaction := some s.opened })
  | some ⟨none, _⟩ => (.error d.aborted, s)
  | some ⟨some c, saved⟩ => (.ok (), { s with transaction := some ⟨some c, c :: saved⟩ })

def committing (d : Dialect τ ε) : Call (Store τ) ε Unit := fun s =>
  match s.transaction with
  | some ⟨none, _ :: _⟩ => (.error d.aborted, s)
  | some ⟨some c, _ :: saved⟩ => (.ok (), { s with transaction := some ⟨some c, saved⟩ })
  | _ => (.ok (), s.closed)

def finishing : Call (Store τ) ε Unit := fun s => (.ok (), s.closed)

def client (d : Dialect τ ε) (interrupts : Nat → Option ε) : Client (Store τ) ε where
  connect _ s := interruptible interrupts (Call.pure ()) { s with transaction := none }
  execute statement s := interruptible interrupts (d.performing statement)
    { s with transaction := some s.opened, sent := s.sent ++ [statement] }
  start := interruptible interrupts d.starting
  commit := interruptible interrupts d.committing
  rollBack := Store.rolledBack
  finish := interruptible interrupts finishing
  abandon s := { s with transaction := none }

end Dialect

/-! ## What the calls keep -/

namespace Store

/-- The next statement works on the contents `c`, while those of `base` count.  It may be the one
that opens the transaction. -/
structure Sees (base : Contents τ) (texts : List String) (c : Contents τ)
    (saved : List (Contents τ)) (s : Store τ) : Prop where
  committed : s.committed = base
  executed : s.executed = texts
  opened : s.opened = ⟨some c, saved⟩

/-- A transaction with these savepoints is open, and sees the contents `c`. -/
structure Within (base : Contents τ) (texts : List String) (c : Contents τ)
    (saved : List (Contents τ)) (s : Store τ) : Prop where
  committed : s.committed = base
  executed : s.executed = texts
  transaction : s.transaction = some ⟨some c, saved⟩

/-- Nothing counts of what was done since `base`, and of the texts in `all` some first ones were
sent. -/
structure Undone (base : Contents τ) (before all : List String) (s : Store τ) : Prop where
  committed : s.committed = base
  executed : ∃ texts, texts <+: all ∧ s.executed = before ++ texts

/-- A call failed, which undoes everything, and there is a cause for the error at this time. -/
def Fails (base : Contents τ) (before all : List String) (Cause : ε → Nat → Prop) (e : ε)
    (s : Store τ) : Prop :=
  s.Undone base before all ∧ Cause e s.clock

structure Settled (c : Contents τ) (texts : List String) (s : Store τ) : Prop where
  committed : s.committed = c
  executed : s.executed = texts

variable {base c : Contents τ} {before texts all : List String} {saved : List (Contents τ)}
  {s : Store τ}

theorem Undone.of_eq {s' : Store τ} (h : s.Undone base before all)
    (committed : s'.committed = s.committed) (sent : s'.sent = s.sent) :
    s'.Undone base before all := by
  obtain ⟨texts, first, executed⟩ := h.executed
  refine ⟨committed.trans h.committed, texts, first, ?_⟩
  rw [Store.executed, sent]
  exact executed

theorem Fails.rolledBack {Cause : ε → Nat → Prop} {e : ε} (h : Fails base before all Cause e s) :
    Fails base before all Cause e s.rolledBack := by
  unfold Store.rolledBack
  split
  · exact ⟨h.1.of_eq rfl rfl, h.2⟩
  · exact ⟨h.1.of_eq rfl rfl, h.2⟩

theorem Sees.undone (h : s.Sees base (before ++ texts) c saved) (first : texts <+: all) :
    s.Undone base before all :=
  ⟨h.committed, texts, first, h.executed⟩

theorem Within.sees (h : s.Within base texts c saved) : s.Sees base texts c saved := by
  refine ⟨h.committed, h.executed, ?_⟩
  rw [Store.opened, h.transaction]
  rfl

end Store

open Store

/-- An interruption is a cause, and the call that it met was the last one. -/
def Covers (interrupts : Nat → Option ε) (Cause : ε → Nat → Prop) : Prop :=
  ∀ n e, interrupts n = some e → Cause e (n + 1)

section Calls

variable {base c : Contents τ} {before texts texts' all : List String} {saved : List (Contents τ)}
  {s : Store τ} {Cause : ε → Nat → Prop} {interrupts : Nat → Option ε}

/-- An interruption undoes the call with all the rest, so that only the call is left to look at. -/
theorem ends_interruptible {Good : α → Store τ → Prop} {call : Call (Store τ) ε α}
    (covers : Covers interrupts Cause) (h : s.Undone base before all)
    (ends : Ends Good (Fails base before all Cause) (call { s with clock := s.clock + 1 })) :
    Ends Good (Fails base before all Cause) (interruptible interrupts call s) := by
  unfold interruptible
  cases met : interrupts s.clock with
  | some e => exact ⟨h.of_eq rfl rfl, covers s.clock e met⟩
  | none =>
      revert ends
      rcases call { s with clock := s.clock + 1 } with ⟨e | a, s'⟩
      · exact fun failed => ⟨failed.1.of_eq rfl rfl, failed.2⟩
      · exact id

variable {d : Dialect τ ε}

theorem Store.Settled.connect (covers : Covers interrupts Cause)
    (h : s.Settled base (before ++ texts)) (first : texts <+: all) (url : String) :
    Ends (fun _ => Sees base (before ++ texts) base []) (Fails base before all Cause)
      ((d.client interrupts).connect url s) := by
  change Ends _ _ (interruptible interrupts (Call.pure ()) { s with transaction := none })
  refine ends_interruptible covers ⟨h.committed, texts, first, h.executed⟩ ?_
  refine ⟨h.committed, h.executed, ?_⟩
  rw [← h.committed]
  rfl

theorem Store.Sees.performing {statement : Statement}
    (refusals : ∀ e clock, d.perform c statement = .error e → Cause e clock)
    (h : s.Sees base (before ++ texts) c saved) (first : texts <+: all) :
    Ends (fun rows s' => ∃ c', d.perform c statement = .ok (rows, c') ∧
        s'.Within base (before ++ texts) c' saved)
      (Fails base before all Cause) (d.performing statement s) := by
  unfold Dialect.performing
  simp only [h.opened]
  cases performed : d.perform c statement with
  | error e => exact ⟨h.undone first, refusals e s.clock performed⟩
  | ok answer => exact ⟨answer.2, rfl, h.committed, h.executed, rfl⟩

theorem Store.Sees.execute {statement : Statement} (covers : Covers interrupts Cause)
    (refusals : ∀ e clock, d.perform c statement = .error e → Cause e clock)
    (h : s.Sees base (before ++ texts) c saved)
    (sent : texts ++ statement.script?.toList = texts') (first : texts' <+: all) :
    Ends (fun rows s' => ∃ c', d.perform c statement = .ok (rows, c') ∧
        s'.Within base (before ++ texts') c' saved)
      (Fails base before all Cause) ((d.client interrupts).execute statement s) := by
  have grown : (s.sent ++ [statement]).filterMap Statement.script? = before ++ texts' := by
    rw [List.filterMap_append, ← Store.executed, h.executed, List.append_assoc, ← sent]
    cases statement <;> rfl
  have next : Sees base (before ++ texts') c saved
      ⟨s.committed, some s.opened, s.sent ++ [statement], s.clock + 1⟩ :=
    ⟨h.committed, grown, h.opened⟩
  refine ends_interruptible covers ⟨h.committed, texts', first, grown⟩ ?_
  exact next.performing refusals first

theorem Store.Within.start (covers : Covers interrupts Cause)
    (h : s.Within base (before ++ texts) c saved) (first : texts <+: all) :
    Ends (fun _ => Within base (before ++ texts) c (c :: saved)) (Fails base before all Cause)
      ((d.client interrupts).start s) := by
  refine ends_interruptible covers (h.sees.undone first) ?_
  unfold Dialect.starting
  simp only [h.transaction]
  exact ⟨h.committed, h.executed, rfl⟩

/-- The commit of a savepoint commits nothing. -/
theorem Store.Within.commit {point : Contents τ} (covers : Covers interrupts Cause)
    (h : s.Within base (before ++ texts) c (point :: saved)) (first : texts <+: all) :
    Ends (fun _ => Within base (before ++ texts) c saved) (Fails base before all Cause)
      ((d.client interrupts).commit s) := by
  refine ends_interruptible covers (h.sees.undone first) ?_
  unfold Dialect.committing
  simp only [h.transaction]
  exact ⟨h.committed, h.executed, rfl⟩

theorem Store.Within.finish (covers : Covers interrupts Cause)
    (h : s.Within base (before ++ texts) c saved) (first : texts <+: all) :
    Ends (fun _ => Settled c (before ++ texts)) (Fails base before all Cause)
      ((d.client interrupts).finish s) := by
  have closed : s.closed.committed = c := by
    rw [Store.closed, h.sees.opened]
    rfl
  change Ends _ _ (interruptible interrupts Dialect.finishing s)
  refine ends_interruptible covers (h.sees.undone first) ?_
  exact ⟨closed, h.executed⟩

theorem Store.Within.transaction_ends {call : Call (Store τ) ε α}
    {Changes : α → Contents τ → Prop} (covers : Covers interrupts Cause)
    (h : s.Within base (before ++ texts) c saved) (first : texts <+: all) (first' : texts' <+: all)
    (ends : ∀ s', s'.Within base (before ++ texts) c (c :: saved) →
      Ends (fun a s'' => ∃ c', Changes a c' ∧ s''.Within base (before ++ texts') c' (c :: saved))
        (Fails base before all Cause) (call s')) :
    Ends (fun a s' => ∃ c', Changes a c' ∧ s'.Within base (before ++ texts') c' saved)
      (Fails base before all Cause) ((d.client interrupts).transaction call s) := by
  refine (h.start covers first).bind ?_
  intro _ s₁ h₁
  have rolled : Ends
      (fun a s'' => ∃ c', Changes a c' ∧ s''.Within base (before ++ texts') c' (c :: saved))
      (Fails base before all Cause) ((d.client interrupts).orRollBack call s₁) := by
    have called := ends s₁ h₁
    revert called
    unfold Client.orRollBack
    rcases call s₁ with ⟨e | a, s₂⟩
    · exact Fails.rolledBack
    · exact id
  refine rolled.bind ?_
  intro a s₂ ⟨c', changes, h₂⟩
  refine (h₂.commit covers first').bind ?_
  intro _ s₃ h₃
  exact ⟨c', changes, h₃⟩

end Calls

end CatalogSearch.Database
