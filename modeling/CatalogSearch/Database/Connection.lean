import CatalogSearch.Call
import CatalogSearch.Database.Event
import CatalogSearch.Database.Session

/-!
# Connections

A client sends statements one by one, each of which may fail, and keeps a transaction between its
beginning and its end; that a transaction begins or is committed may fail as well.  `server` is the
simplest client: it keeps the list of migrations that were recorded in it, and every statement that
contains a given text fails.
-/

set_option autoImplicit false

namespace CatalogSearch.Database

/-- The table that records which migrations were applied. -/
def ledgerTable : String := "schema_migrations"

inductive Statement where
  | session (s : SessionStatement)
  | dropTable (name : String)
  | createLedger
  | selectApplied
  | script (text : String)
  | insertApplied (name : String)
  deriving DecidableEq, Repr

def createLedgerText : String :=
  "\n        CREATE TABLE IF NOT EXISTS schema_migrations\n        (\n" ++
  "            filename   TEXT PRIMARY KEY,\n" ++
  "            applied_at TIMESTAMPTZ NOT NULL DEFAULT NOW()\n        );\n        "

def Statement.text : Statement → String
  | session s => s.text
  | dropTable name => "DROP TABLE IF EXISTS " ++ name
  | createLedger => createLedgerText
  | selectApplied => "SELECT filename FROM schema_migrations"
  | script text => text
  | insertApplied _ => "INSERT INTO schema_migrations(filename) VALUES (%s)"

def Statement.event (s : Statement) : Event :=
  match s with
  | .insertApplied name => .executedWith s.text [.text name]
  | _ => .executed s.text

structure Client (σ ε : Type) where
  connect : String → Call σ ε Unit
  /-- A statement answers with the names in its rows. -/
  execute : Statement → Call σ ε (List String)
  start : Call σ ε Unit
  commit : Call σ ε Unit
  rollBack : σ → σ
  /-- Commits what is left to commit, and ends the connection. -/
  finish : Call σ ε Unit
  /-- Takes back what is not committed, and ends the connection. -/
  abandon : σ → σ

variable {σ ε α : Type}

def Client.orRollBack (d : Client σ ε) (c : Call σ ε α) : Call σ ε α := fun s =>
  match c s with
  | (.ok a, s) => (.ok a, s)
  | (.error e, s) => (.error e, d.rollBack s)

/-- Runs a call within a transaction, which is rolled back if the call fails. -/
def Client.transaction (d : Client σ ε) (c : Call σ ε α) : Call σ ε α :=
  Call.bind d.start fun _ =>
    Call.bind (d.orRollBack c) fun a => Call.bind d.commit fun _ => Call.pure a

def Client.executeAll (d : Client σ ε) : List Statement → Call σ ε Unit
  | [] => Call.pure ()
  | s :: rest => Call.bind (d.execute s) fun _ => d.executeAll rest

inductive ConnectError (ε : Type) where
  | session (e : SessionError)
  | database (e : ε)

/-- Sends the statements of a session up to the first one without text. -/
def Client.configure (d : Client σ ε) : List SessionStatement → Call σ (ConnectError ε) Unit
  | [] => Call.pure ()
  | s :: rest =>
      match s.written with
      | .error e => Call.fail (.session e)
      | .ok _ =>
          Call.bind (Call.mapError .database (d.execute (.session s))) fun _ => d.configure rest

def Client.connectSession (d : Client σ ε) (url : String) (o : SessionOptions) :
    Call σ (ConnectError ε) Unit :=
  Call.bind (Call.mapError .database (d.connect url)) fun _ =>
    match sessionStatements o with
    | .error e => Call.fail (.session e)
    | .ok statements => d.configure statements

structure Server where
  events : List Event
  applied : List String
  /-- What `applied` was when the open transaction began. -/
  saved : List String
  failOn : Option String

inductive ServerError where
  | statementFailed
  deriving DecidableEq, Repr

def ServerError.message : ServerError → String
  | statementFailed => "statement failed"

namespace Server

def ofApplied (applied : List String) (failOn : Option String) : Server :=
  ⟨[], applied, applied, failOn⟩

def record (event : Event) (s : Server) : Server := { s with events := s.events ++ [event] }

def hasPart (part : List Char) : List Char → Bool
  | [] => part.isEmpty
  | c :: rest => part.isPrefixOf (c :: rest) || hasPart part rest

def fails (s : Server) (text : String) : Bool :=
  match s.failOn with
  | none => false
  | some part => hasPart part.toList text.toList

def effect : Statement → Server → Server
  | .dropTable name, s => if name = ledgerTable then { s with applied := [] } else s
  | .insertApplied name, s => { s with applied := s.applied ++ [name] }
  | _, s => s

def rows : Statement → Server → List String
  | .selectApplied, s => s.applied
  | _, _ => []

def execute (statement : Statement) : Call Server ServerError (List String) := fun s =>
  let s := s.record statement.event
  if s.fails statement.text then (.error .statementFailed, s)
  else (.ok (rows statement s), effect statement s)

end Server

def server : Client Server ServerError where
  connect url := fun s => (.ok (), s.record (.connected url))
  execute := Server.execute
  start s := (.ok (), { s.record .began with saved := s.applied })
  commit s := (.ok (), s.record .committed)
  rollBack s := { s.record .rolledBack with applied := s.saved }
  finish s := (.ok (), s.record (.ended true))
  abandon s := s.record (.ended false)

end CatalogSearch.Database
