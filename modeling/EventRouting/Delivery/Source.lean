import EventRouting.Contract.Codec

namespace EventRouting

namespace FilePath

/-- The last part of a relative path, and what stands before it and its separator. -/
def splitLast (path : List Char) : List Char × List Char :=
  let back := path.reverse
  ((back.takeWhile (· ≠ '/')).reverse, ((back.dropWhile (· ≠ '/')).drop 1).reverse)

theorem length_splitLast_lt (c : Char) (path : List Char) :
    (splitLast (c :: path)).2.length < (c :: path).length := by
  have h : ∀ l : List Char, l ≠ [] → ((l.dropWhile (· ≠ '/')).drop 1).length < l.length := by
    intro l hl
    have := (List.dropWhile_sublist (l := l) (· ≠ '/')).length_le
    have := List.length_pos_iff.2 hl
    simp only [List.length_drop]
    omega
  simpa [splitLast] using h (c :: path).reverse (by simp)

/-- A path without empty parts and dots at its end. -/
def trimEnd : List Char → List Char
  | [] => []
  | c :: path =>
    if (splitLast (c :: path)).1 = [] ∨ (splitLast (c :: path)).1 = ['.'] then
      trimEnd (splitLast (c :: path)).2
    else c :: path
termination_by path => path.length
decreasing_by exact length_splitLast_lt c path

/-- What a path starts with before its parts: the root, or a dot for the current directory. -/
def start (path : List Char) : List Char :=
  match path with
  | '/' :: _ => ['/']
  | ['.'] | '.' :: '/' :: _ => ['.']
  | _ => []

/-- The path without its last part, unless there is no part to leave. -/
def parent? (path : String) : Option String :=
  let path := path.toList
  let body := trimEnd (path.drop (start path).length)
  if body ≠ [] then some (.ofList (start path ++ trimEnd (splitLast body).2))
  else if start path = ['.'] then some ""
  else none

/-- The directory of a file, which is the current one for a bare name. -/
def directory (path : String) : String :=
  match parent? path with
  | none | some "" => "."
  | some parent => parent

end FilePath

/-- What a path leads to. -/
inductive FilePlace where
  | file (p : Payload)
  | directory
  /-- Nothing, in a directory that exists. -/
  | missing
  | missingDirectory
  /-- A path that goes on below a file. -/
  | underFile
  deriving DecidableEq, Repr

namespace FilePlace

/-- A missing file is no failure. -/
def read : FilePlace → Except ContractError (Option Payload)
  | .file p => .ok (some p)
  | .missing | .missingDirectory => .ok none
  | .directory => .error (.io "IsADirectory")
  | .underFile => .error (.io "NotADirectory")

/-- Whether the directory of the path can be watched. -/
def isWatchable : FilePlace → Bool
  | .missingDirectory => false
  | .file _ | .directory | .missing | .underFile => true

end FilePlace

end EventRouting
