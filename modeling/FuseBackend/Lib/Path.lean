import Mathlib.Data.List.Basic

/-!
# Unix path components

The component iterator of a Unix path, as the standard library of Rust computes it: separators
are `/`, runs of separators count as one, `.` is dropped everywhere but at the start of a relative
path, and `..` is kept as a component of its own. A path has a root when it starts with `/`.
Paths are taken as lists of characters, so that every definition here is structural.

`resolve` reads the components as moves in a tree of names, from a list of names already
walked: `..` goes back one name, and stays at the root when there is none.
-/

namespace Path

inductive Component where
  | rootDir
  | curDir
  | parentDir
  | normal (name : String)
  deriving DecidableEq, Repr

/-- The pieces between separators, empty ones included. -/
def splitSlash : List Char → List (List Char)
  | [] => [[]]
  | c :: cs =>
    if c = '/' then [] :: splitSlash cs
    else
      match splitSlash cs with
      | [] => [[c]]
      | p :: ps => (c :: p) :: ps

/-- What one piece between separators contributes after the first. -/
def pieceComponent : List Char → Option Component
  | [] => none
  | ['.'] => none
  | ['.', '.'] => some .parentDir
  | s => some (.normal (String.ofList s))

def hasRoot (path : List Char) : Bool := path.head? = some '/'

def components (path : List Char) : List Component :=
  match splitSlash path with
  | [] => []
  | first :: rest =>
    let head : List Component :=
      if hasRoot path then [.rootDir]
      else if first = ['.'] then [.curDir]
      else (pieceComponent first).toList
    head ++ rest.filterMap pieceComponent

example : components "/a//./b/..".toList =
    [.rootDir, .normal "a", .normal "b", .parentDir] := by decide

example : components "./a/.".toList = [.curDir, .normal "a"] := by decide

/-- The names the components lead to from `names`, `.` and `..` resolved one by one. -/
def resolve : List String → List Component → List String
  | names, [] => names
  | names, .rootDir :: cs => resolve names cs
  | names, .curDir :: cs => resolve names cs
  | names, .parentDir :: cs => resolve names.dropLast cs
  | names, .normal name :: cs => resolve (names ++ [name]) cs

example : resolve [] (components "/../a/b/./../c".toList) = ["a", "c"] := by decide

end Path
