/-
# Tables of a catalog

The tables and indexes of a catalog carry a prefix, so that several catalogs share one database.

* `TablePrefix` is a prefix of ASCII letters, digits and underscores.
* `createSql` and `dropSql` are the statements that create and drop the tables.
-/
import ProcedureCatalog.Catalog.Error

namespace ProcedureCatalog

/-! ## Prefixes -/

/-- A nonempty text of ASCII letters, digits and underscores. -/
def isTablePrefix (text : String) : Bool :=
  !text.isEmpty && text.toList.all fun c => c.isAlphanum || c == '_'

/-- The prefix of the table names of a catalog. -/
structure TablePrefix where
  text : String
  valid : isTablePrefix text = true

namespace TablePrefix

/-- The prefix with the given text; any other text is an error. -/
def ofString (text : String) : Except CatalogError TablePrefix :=
  if h : isTablePrefix text = true then .ok ⟨text, h⟩ else .error (.invalidPrefix text)

/-- The table of service programs. -/
def programTable (p : TablePrefix) : String := p.text ++ "srvpgm"

/-- The table of procedures. -/
def procedureTable (p : TablePrefix) : String := p.text ++ "srvpgm_method"

/-- The index of procedures by service program. -/
def programIndex (p : TablePrefix) : String := "idx_" ++ p.text ++ "srvpgm_method_srvpgm"

/-- The index of procedures by name. -/
def nameIndex (p : TablePrefix) : String := "idx_" ++ p.text ++ "srvpgm_method_name"

/-- Table names with the prefix can be written in statements: they do not start with a digit. -/
def isReadable (p : TablePrefix) : Bool := !p.text.toList.head?.any Char.isDigit

/-- Tables with the prefix cannot be created: the database keeps such names for itself. -/
def isReserved (p : TablePrefix) : Bool :=
  "sqlite_".toList.isPrefixOf (p.text.toList.map Char.toLower)

/-! ## Statements -/

/-- The statements that create the tables and indexes of a catalog. -/
def createSql (p : TablePrefix) : String :=
  let text := p.text
  s!"
CREATE TABLE IF NOT EXISTS {text}srvpgm (
    library TEXT NOT NULL,
    name TEXT NOT NULL,
    source_file TEXT NOT NULL DEFAULT 'QFUENTES',
    notes TEXT,
    source_checksum TEXT,
    updated_at TEXT NOT NULL DEFAULT (datetime('now')),
    PRIMARY KEY (library, name)
);

CREATE TABLE IF NOT EXISTS {text}srvpgm_method (
    library TEXT NOT NULL,
    srvpgm_name TEXT NOT NULL,
    method_name TEXT NOT NULL,
    description TEXT,
    description_source TEXT CHECK (
        description_source IS NULL
        OR description_source IN ('inline_label', 'block_header', 'name_inference', 'manual')
    ),
    updated_at TEXT NOT NULL DEFAULT (datetime('now')),
    PRIMARY KEY (library, srvpgm_name, method_name),
    FOREIGN KEY (library, srvpgm_name) REFERENCES {text}srvpgm(library, name) ON DELETE CASCADE
);

CREATE INDEX IF NOT EXISTS idx_{text}srvpgm_method_srvpgm ON {text}srvpgm_method(library, srvpgm_name);
CREATE INDEX IF NOT EXISTS idx_{text}srvpgm_method_name ON {text}srvpgm_method(method_name);
"

/-- The statements that drop the tables of a catalog, procedures first. -/
def dropSql (p : TablePrefix) : String :=
  let text := p.text
  s!"
DROP TABLE IF EXISTS {text}srvpgm_method;
DROP TABLE IF EXISTS {text}srvpgm;
"

end TablePrefix

end ProcedureCatalog
