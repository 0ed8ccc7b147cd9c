/-
# SQL statements

The statements that ask the system tables of the host. Every given text stands in a literal.
-/
import ProcedureCatalog.Host.Quoting

namespace ProcedureCatalog.Host

/-! ## Row limits -/

/-- The row limit that is used: the given or default one, brought between 1 and `greatest`. -/
def clampLimit (limit : Option Nat) (default greatest : Nat) : Nat :=
  min greatest (max 1 (limit.getD default))

/-- The row limit of table lists. -/
def tableListLimit (limit : Option Nat) : Nat := clampLimit limit 500 5000

/-- The row limit of table searches. -/
def tableSearchLimit (limit : Option Nat) : Nat := clampLimit limit 100 1000

/-! ## Statements -/

/-- A text as an SQL literal. -/
def literal (text : String) : String := "'" ++ sqlText text ++ "'"

/-- The columns of a table. -/
def describeTableSql (schema table : String) : String :=
  "SELECT COLUMN_NAME, ORDINAL_POSITION, DATA_TYPE, LENGTH, NUMERIC_SCALE " ++
    "FROM QSYS2.SYSCOLUMNS WHERE TABLE_SCHEMA = " ++ literal schema ++
    " AND TABLE_NAME = " ++ literal table ++ " ORDER BY ORDINAL_POSITION"

/-- The tables of a schema. -/
def listTablesSql (schema : String) (limit : Option Nat) : String :=
  "SELECT TABLE_SCHEMA, TABLE_NAME FROM QSYS2.SYSTABLES WHERE TABLE_SCHEMA = " ++
    literal schema ++ " ORDER BY TABLE_NAME FETCH FIRST " ++ toString (tableListLimit limit) ++
    " ROWS ONLY"

/-- The pattern of a table search: a text without `%` may stand anywhere in the name. -/
def tablePattern (text : String) : String :=
  if text.toList.contains '%' then text else "%" ++ text ++ "%"

/-- The tables whose name fits a pattern. -/
def findTableSql (text : String) (limit : Option Nat) : String :=
  "SELECT TABLE_SCHEMA, TABLE_NAME FROM QSYS2.SYSTABLES WHERE TABLE_NAME LIKE " ++
    literal (tablePattern text) ++ " ORDER BY TABLE_SCHEMA, TABLE_NAME FETCH FIRST " ++
    toString (tableSearchLimit limit) ++ " ROWS ONLY"

/-- The condition that selects one service program. -/
def programCondition (library program : String) : String :=
  "WHERE PROGRAM_LIBRARY = " ++ literal library ++ " AND PROGRAM_NAME = " ++ literal program ++
    " ORDER BY SYMBOL_NAME"

/-- The exported symbols of a service program with their usage. -/
def listExportsSql (library program : String) : String :=
  "SELECT PROGRAM_LIBRARY, PROGRAM_NAME, OBJECT_TYPE, TRIM(CHAR(SYMBOL_NAME)) AS SYMBOL_NAME, " ++
    "TRIM(CHAR(SYMBOL_USAGE)) AS SYMBOL_USAGE FROM QSYS2.PROGRAM_EXPORT_IMPORT_INFO " ++
    programCondition library program

/-- The names of the exported symbols of a service program. -/
def exportSymbolsSql (library program : String) : String :=
  "SELECT TRIM(CHAR(SYMBOL_NAME)) AS SYMBOL_NAME FROM QSYS2.PROGRAM_EXPORT_IMPORT_INFO " ++
    programCondition library program

end ProcedureCatalog.Host
