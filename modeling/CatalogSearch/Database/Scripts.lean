import CatalogSearch.Config.DotEnv

/-!
# Migration scripts

The scripts that create the tables and the indexes of the catalog.  A directory of scripts holds
files and other entries; only files with the ending `.sql` and something before it are scripts, and
they are applied in the order of their names.
-/

set_option autoImplicit false

namespace CatalogSearch.Database

structure Script where
  name : String
  text : String
  deriving DecidableEq, Repr

/-- An entry of a directory; an entry without text is no file. -/
structure DirectoryEntry where
  name : String
  text : Option String
  deriving DecidableEq, Repr

def ending : List Char := ['.', 's', 'q', 'l']

def isScriptName (name : String) : Bool :=
  ending.isSuffixOf name.toList && ending.length < name.length

def DirectoryEntry.script? (e : DirectoryEntry) : Option Script :=
  match e.text with
  | none => none
  | some text =>
      if isScriptName e.name then
        some ⟨e.name, String.ofList (Config.unixLines text.toList)⟩
      else none

inductive ScriptsError where
  | noDirectory
  | noScripts
  deriving DecidableEq, Repr

def ScriptsError.message (directory : String) : ScriptsError → String
  | noDirectory => "Migrations directory does not exist: " ++ directory
  | noScripts => "No .sql migration files found in " ++ directory

/-- The scripts of a directory, which may be missing, in the order in which they are applied. -/
def scriptsIn (directory : Option (List DirectoryEntry)) : Except ScriptsError (List Script) :=
  match directory with
  | none => .error .noDirectory
  | some entries =>
      match (entries.filterMap DirectoryEntry.script?).mergeSort (fun a b => a.name ≤ b.name) with
      | [] => .error .noScripts
      | scripts => .ok scripts

def createTables : String :=
  "CREATE TABLE IF NOT EXISTS employees\n" ++
  "(\n" ++
  "    id    BIGINT PRIMARY KEY,\n" ++
  "    name  TEXT NOT NULL,\n" ++
  "    email TEXT\n" ++
  ");\n" ++
  "\n" ++
  "CREATE TABLE IF NOT EXISTS departments\n" ++
  "(\n" ++
  "    id         BIGINT PRIMARY KEY,\n" ++
  "    name       TEXT NOT NULL,\n" ++
  "    manager_id BIGINT REFERENCES employees (id)\n" ++
  ");\n" ++
  "\n" ++
  "CREATE TABLE IF NOT EXISTS categories\n" ++
  "(\n" ++
  "    id            BIGINT PRIMARY KEY,\n" ++
  "    name          TEXT NOT NULL,\n" ++
  "    department_id BIGINT REFERENCES departments (id)\n" ++
  ");\n" ++
  "\n" ++
  "CREATE TABLE IF NOT EXISTS products\n" ++
  "(\n" ++
  "    id          BIGINT PRIMARY KEY,\n" ++
  "    name        TEXT           NOT NULL,\n" ++
  "    description TEXT,\n" ++
  "    price       NUMERIC(12, 2) NOT NULL,\n" ++
  "    status      TEXT           NOT NULL,\n" ++
  "    category_id BIGINT REFERENCES categories (id),\n" ++
  "    created_at  TIMESTAMPTZ    NOT NULL DEFAULT NOW()\n" ++
  ");\n" ++
  "\n" ++
  "CREATE TABLE IF NOT EXISTS reviews\n" ++
  "(\n" ++
  "    id         BIGINT PRIMARY KEY,\n" ++
  "    product_id BIGINT   NOT NULL REFERENCES products (id),\n" ++
  "    rating     SMALLINT NOT NULL CHECK (rating BETWEEN 1 AND 5),\n" ++
  "    body       TEXT,\n" ++
  "    created_at TIMESTAMPTZ NOT NULL DEFAULT NOW()\n" ++
  ");\n"

def createIndexes : String :=
  "CREATE INDEX IF NOT EXISTS idx_products_category_id ON products (category_id);\n" ++
  "CREATE INDEX IF NOT EXISTS idx_products_status ON products (status);\n" ++
  "CREATE INDEX IF NOT EXISTS idx_products_price ON products (price);\n" ++
  "CREATE INDEX IF NOT EXISTS idx_categories_department_id ON categories (department_id);\n" ++
  "CREATE INDEX IF NOT EXISTS idx_reviews_product_id ON reviews (product_id);\n"

def catalogScripts : List DirectoryEntry :=
  [⟨"001_create_tables.sql", some createTables⟩, ⟨"002_create_indexes.sql", some createIndexes⟩]

end CatalogSearch.Database
