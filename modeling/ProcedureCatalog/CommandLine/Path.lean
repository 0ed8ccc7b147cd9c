/-
# Paths

Names of files as they are written: components between slashes.
-/
import ProcedureCatalog.Text.Blank

namespace ProcedureCatalog.CommandLine

/-- Without slashes, and components of one dot, at the end; a slash alone stays. -/
def trimPath (path : List Char) : List Char :=
  trimEnd path.reverse path.length
where
  /-- On the path read backwards. -/
  trimEnd (reversed : List Char) : (fuel : Nat) → List Char
    | 0 => reversed.reverse
    | fuel + 1 =>
      match reversed with
      | '/' :: c :: rest => trimEnd (c :: rest) fuel
      | '.' :: '/' :: rest => trimEnd ('/' :: rest) fuel
      | _ => reversed.reverse

/-- The path of the directory around a path, unless it is the root or empty. -/
def parentOf? (path : String) : Option String :=
  let trimmed := trimPath path.toList
  if trimmed.isEmpty || trimmed == ['/'] then none
  else
    let around := (trimmed.reverse.dropWhile (· != '/')).reverse
    some (.ofList (trimPath around))

/-- The components of a path. -/
def components (path : String) : List String :=
  (Text.splitAtEach (· == '/') path.toList).map .ofList

end ProcedureCatalog.CommandLine
