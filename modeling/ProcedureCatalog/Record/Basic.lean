/-
# Service programs and procedures

The two kinds of records of a catalog as its readers see them.
-/
import ProcedureCatalog.DescriptionSource
import ProcedureCatalog.Text.Blank

namespace ProcedureCatalog

/-! ## Service programs -/

/-- The source file of a service program when none is given. -/
def defaultSourceFile : String := "QFUENTES"

/-- A service program. Its source is the member of its own name in `sourceFile`; `checksum` is that
of the source its descriptions were last extracted from. -/
structure ServiceProgram where
  library : String
  name : String
  sourceFile : String
  notes : Option String
  checksum : Option String
  updatedAt : Option String
  deriving DecidableEq, Repr

namespace ServiceProgram

/-- A service program with the default source file and nothing else known. -/
def new (library name : String) : ServiceProgram :=
  ⟨library, name, defaultSourceFile, none, none, none⟩

/-- The name qualified by its library. -/
def qualifiedName (p : ServiceProgram) : String := p.library ++ "/" ++ p.name

end ServiceProgram

/-! ## Procedures -/

/-- A procedure that the service program `program` exports. -/
structure ProcedureRecord where
  library : String
  program : String
  name : String
  description : Option String
  source : Option DescriptionSource
  updatedAt : Option String
  deriving DecidableEq, Repr

namespace ProcedureRecord

/-- A procedure without description. -/
def new (library program name : String) : ProcedureRecord :=
  ⟨library, program, name, none, none, none⟩

/-- The procedure has a description that is not blank. -/
def isDescribed (r : ProcedureRecord) : Bool :=
  r.description.any fun text => !Text.allBlank text.toList

/-- The procedure with a description from the given source. -/
def withDescription (r : ProcedureRecord) (text : String) (source : DescriptionSource) :
    ProcedureRecord :=
  { r with description := some text, source := some source }

end ProcedureRecord

end ProcedureCatalog
