/-
# Databases as text

The form in which a database is kept in a file: a heading, and a line for each table, row and
index, its fields separated by tabs.

* `Database.toText` writes it.
* `Database.ofText?` reads it; any other text is no database, but for the empty text, which is one
  without tables.
-/
import ProcedureCatalog.Catalog.Database
import ProcedureCatalog.Text.Lines

namespace ProcedureCatalog

namespace DatabaseText

/-! ## Fields -/

/-- A character of a field; tabs, line feeds and carriage returns are escaped. -/
def escapeChar (c : Char) : List Char :=
  if c == '\\' then ['\\', '\\']
  else if c == '\t' then ['\\', 't']
  else if c == '\n' then ['\\', 'n']
  else if c == '\r' then ['\\', 'r']
  else [c]

/-- A field. -/
def escape (field : String) : List Char := field.toList.flatMap escapeChar

/-- The characters of a field. -/
def unescape : List Char → List Char
  | [] => []
  | '\\' :: c :: rest =>
    (if c == 't' then '\t' else if c == 'n' then '\n' else if c == 'r' then '\r' else c) ::
      unescape rest
  | c :: rest => c :: unescape rest

/-- The line of some fields. -/
def joinFields (fields : List String) : List Char :=
  Text.joinWith ['\t'] (fields.map escape)

/-- The fields of a line. -/
def splitFields (line : List Char) : List String :=
  (Text.splitAtEach (· == '\t') line).map fun field => .ofList (unescape field)

/-- A text that may be missing. -/
def optional : Option String → String
  | none => "-"
  | some text => "+" ++ text

/-- The text that a field holds, if it holds one. -/
def ofOptional (field : String) : Option String :=
  match field.toList with
  | '+' :: cs => some (.ofList cs)
  | _ => none

/-! ## Lines -/

/-- The fields of a table of service programs and its rows. -/
def programLines (t : NamedTable ServiceProgram) : List (List String) :=
  ["programs", t.name] :: t.rows.map fun p =>
    ["program", p.library, p.name, p.sourceFile, optional p.notes, optional p.checksum,
      optional p.updatedAt]

/-- The fields of a table of procedures and its rows. -/
def procedureLines (t : NamedTable StoredProcedure) : List (List String) :=
  ["procedures", t.name] :: t.rows.map fun r =>
    ["procedure", r.library, r.program, r.name, optional r.description, optional r.source,
      r.updatedAt]

/-- The fields of an index. -/
def indexLine (i : TableIndex) : List String := ["index", i.name, i.table]

/-- The tables with a row more in the last of them. -/
def addToLast {ρ : Type} (row : ρ) : List (NamedTable ρ) → List (NamedTable ρ)
  | [] => []
  | [t] => [{ t with rows := t.rows ++ [row] }]
  | t :: tables => t :: addToLast row tables

/-- The database with what a line adds to it. -/
def addLine (db : Database) : List String → Option Database
  | ["programs", name] => some { db with programs := db.programs ++ [⟨name, []⟩] }
  | ["program", library, name, sourceFile, notes, checksum, updatedAt] =>
    let row : ServiceProgram :=
      ⟨library, name, sourceFile, ofOptional notes, ofOptional checksum, ofOptional updatedAt⟩
    some { db with programs := addToLast row db.programs }
  | ["procedures", name] => some { db with procedures := db.procedures ++ [⟨name, []⟩] }
  | ["procedure", library, program, name, description, source, updatedAt] =>
    let row : StoredProcedure :=
      ⟨library, program, name, ofOptional description, ofOptional source, updatedAt⟩
    some { db with procedures := addToLast row db.procedures }
  | ["index", name, table] => some { db with indexes := db.indexes ++ [⟨name, table⟩] }
  | _ => none

/-- The first line. -/
def heading : String := "procedure catalog 1"

end DatabaseText

namespace Database

open DatabaseText

/-- The text of a database. -/
def toText (db : Database) : String :=
  let lines := db.programs.flatMap programLines ++ db.procedures.flatMap procedureLines ++
    db.indexes.map indexLine
  .ofList ((heading.toList :: lines.map joinFields).flatMap (· ++ ['\n']))

/-- The database that a text holds. -/
def ofText? (text : String) : Option Database :=
  match Text.lines text.toList with
  | [] => some .empty
  | first :: lines =>
    if first == heading.toList then
      lines.foldlM (fun db line => addLine db (splitFields line)) .empty
    else none

end Database

end ProcedureCatalog
