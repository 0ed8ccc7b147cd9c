/-
# Inference from names

A description made from the name of a procedure alone: a verb abbreviation at its start becomes a
phrase, and the rest follows in small letters.
-/
import ProcedureCatalog.Candidate
import ProcedureCatalog.ExpectedNames
import ProcedureCatalog.Text.Lower

namespace ProcedureCatalog.Inference

open Text

/-! ## Vocabulary -/

/-- A token of a name and the phrase it stands for. -/
structure Phrase where
  token : String
  words : String
  deriving Repr

/-- Names that stand for a phrase as a whole. -/
def wholeNames : List Phrase :=
  [⟨"ERROR", "Error"⟩, ⟨"CUOTAS", "Cuotas"⟩, ⟨"PENDPROC", "Pendiente proceso"⟩,
    ⟨"ULTSEC", "Última secuencia"⟩, ⟨"UPDC", "Actualiza"⟩]

/-- Verb abbreviations of three letters. -/
def verbs : List Phrase :=
  [⟨"CHK", "Verifica"⟩, ⟨"GET", "Obtiene"⟩, ⟨"SET", "Establece"⟩, ⟨"UPD", "Actualiza"⟩,
    ⟨"DLT", "Elimina"⟩, ⟨"INZ", "Inicialización"⟩, ⟨"END", "Fin"⟩]

/-- Other beginnings of names, in the order in which they are tried. -/
def irregular : List Phrase :=
  [⟨"ANULA", "Anula"⟩, ⟨"IS", "Indica si"⟩, ⟨"ULTSEC", "Última secuencia"⟩,
    ⟨"PEND", "Pendiente"⟩, ⟨"TIENE", "Indica si tiene"⟩]

/-! ## Reading a name -/

/-- The name without a module name of ASCII letters and digits and its underscore. -/
def dropModule (name : List Char) : List Char :=
  let module := name.takeWhile (· != '_')
  match name.dropWhile (· != '_') with
  | '_' :: rest => if !module.isEmpty && module.all isAsciiAlphanum then rest else name
  | _ => name

/-- The token starts the name. -/
def Phrase.starts (name : List Char) (p : Phrase) : Bool := p.token.toList.isPrefixOf name

/-- The first verb, or else the first irregular token, that starts the name. -/
def verb? (name : List Char) : Option Phrase :=
  (verbs ++ irregular).find? (·.starts name)

/-- The text without underscores at either end. -/
def trimUnderscores (cs : List Char) : List Char :=
  dropEndWhile (· == '_') (cs.dropWhile (· == '_'))

/-- The description of a name in capitals, away from its module. -/
def describe (name : List Char) : List Char :=
  match wholeNames.find? (·.token.toList == name) with
  | some whole => whole.words.toList
  | none =>
    match verb? name with
    | some verb =>
      match lower (trimUnderscores (name.drop verb.token.length)) with
      | [] => verb.words.toList
      | c :: rest => verb.words.toList ++ ' ' :: c :: rest
    | none => lower name

/-- The description inferred from a procedure name; none when the name ends with its module. -/
def infer (name : String) : Option String :=
  match dropModule (upper (trim name.toList)) with
  | [] => none
  | c :: cs => some (.ofList (describe (c :: cs)))

/-- The inferred candidates of all expected names. -/
def collect (expected : ExpectedNames) : List Candidate :=
  expected.names.filterMap fun name =>
    (infer name).map fun description => ⟨name, description, none, .nameInference⟩

end ProcedureCatalog.Inference
