import Sentential.Text.Basic

/-!
# Listings

A path is a row of steps between slashes. An empty step and a single dot stay where they are, and
two dots go back. A listing of a directory has every file in it under the path that needs no such
step.
-/

namespace Sentential.Listing

/-- The names on the way that steps lead, behind the names that led to where they start. There are
none if the way leaves the directory. -/
def follow : List Text → List Text → Option (List Text)
  | names, [] => some names
  | names, step :: rest =>
    if step = [] || step = ['.'] then follow names rest
    else if step = ['.', '.'] then
      if names.isEmpty then none else follow names.dropLast rest
    else follow (names ++ [step]) rest

/-- The path that a listing of the working directory has for a file, if the file lies in it. -/
def path? (path : Text) : Option Text :=
  if path.head? = some '/' then none
  else (follow [] (Text.pieces (· == '/') path)).map fun names => ['/'].intercalate names

end Sentential.Listing
