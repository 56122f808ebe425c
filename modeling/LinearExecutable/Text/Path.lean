/-!
# Names of files

A file is shown under the shortest spelling of its name: without empty parts and parts that stay in
place, and without a slash at the end. Two names of one spelling name one file.
-/

namespace LinearExecutable.Text

/-- The slashes in front of a name that is not relative. Exactly two are a root of their own; any
other number is one. -/
def rootOf (path : String) : String :=
  match (path.toList.takeWhile (· = '/')).length with
  | 0 => ""
  | 2 => "//"
  | _ => "/"

/-- The parts of a name that lead anywhere. -/
def partsOf (path : String) : List String :=
  (path.splitOn "/").filter fun part => part ≠ "" && part ≠ "."

/-- The name of a file as it is shown; the current directory is a point. -/
def normalPath (path : String) : String :=
  let shown := rootOf path ++ "/".intercalate (partsOf path)
  if shown = "" then "." else shown

end LinearExecutable.Text
