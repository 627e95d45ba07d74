import CatalogSearch.Config.Environment
import CatalogSearch.Database.Event
import CatalogSearch.Database.Session

/-!
# Connection pools

A pool is created only if its session options are valid.  It configures every new connection by the
statements of the session, in one transaction that is committed; a connection that cannot be
configured is not handed out.
-/

set_option autoImplicit false

namespace CatalogSearch.Database

open Config

inductive PoolError where
  | environment (e : LoadError)
  | url (e : UrlError)
  | session (e : SessionError)
  deriving DecidableEq, Repr

def PoolError.message : PoolError → String
  | environment e => e.message
  | url e => e.message
  | session e => e.message

structure PoolOptions where
  minSize : Value
  maxSize : Value
  timeout : Value
  session : SessionOptions

def PoolOptions.usual : PoolOptions :=
  ⟨.int 1, .null, .float (Number.Binary64.ofRatio false 30 1), ⟨none, none⟩⟩

structure Pool where
  settings : PoolSettings
  configuration : List SessionStatement

def createPool (url : String) (o : PoolOptions) : Except PoolError Pool := do
  let statements ← (sessionStatements o.session).mapError .session
  return ⟨⟨url, o.minSize, o.maxSize, o.timeout⟩, statements⟩

def usualUrl (env : Environment) (file : Option String) : Except PoolError String := do
  let env ← (env.load? file).mapError .environment
  (requireUrl env).mapError .url

def createPoolIn (env : Environment) (file : Option String) (url : Option String)
    (o : PoolOptions) : Except PoolError Pool := do
  let url ← match url with
    | some url => .ok url
    | none => usualUrl env file
  createPool url o

def Pool.created (p : Pool) : Event := .poolCreated p.settings

structure PoolRun where
  result : Except SessionError Unit
  events : List Event

/-- Sends statements up to the first one without text, and commits if there is none. -/
def configuring : List SessionStatement → PoolRun
  | [] => ⟨.ok (), [.committed]⟩
  | s :: rest =>
      match s.written with
      | .error e => ⟨.error e, []⟩
      | .ok text =>
          let run := configuring rest
          { run with events := .executed text :: run.events }

def Pool.configured (p : Pool) : PoolRun := configuring p.configuration

/-- Use of a new connection, which goes back to the pool in any case. -/
def Pool.withConnection (p : Pool) (body : List Event) : PoolRun :=
  match p.configured with
  | ⟨.error e, events⟩ => ⟨.error e, .acquired :: events⟩
  | ⟨.ok _, events⟩ => ⟨.ok (), .acquired :: events ++ body ++ [.released]⟩

end CatalogSearch.Database
