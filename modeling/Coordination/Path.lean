import Coordination.Failure

/-!
# Paths

A path is the root `/` or a sequence of components, each written after a slash, none of them empty.
`validate` decides this for any text, `split` cuts a path at its last slash, and `join` puts the
two parts together again.
-/

namespace Coordination.Path

/-- The path of the root directory. -/
def root : String := "/"

/-- The components of a text that begins with a slash. -/
def components? (path : String) : Option (List (List Char)) :=
  match path.toList with
  | '/' :: rest => some (rest.splitOn '/')
  | _ => none

/-- The root, or a text that begins with a slash and has no empty component. -/
def isValid (path : String) : Bool :=
  path == root || (components? path).any (·.all (· ≠ []))

/-- Refuses a text that is not a path. -/
def validate (path : String) : Except Failure Unit :=
  if isValid path then .ok () else .error (.invalidPath path)

/-- The text after the last slash, or all of it. -/
def name (path : String) : String :=
  String.ofList (path.toList.reverse.takeWhile (· ≠ '/')).reverse

/-- The text before the last slash, or the root where nothing stands before it. -/
def parent (path : String) : String :=
  match path.toList.reverse.dropWhile (· ≠ '/') with
  | [] => root
  | [_] => root
  | _ :: before => String.ofList before.reverse

/-- The path of a child. -/
def join (parent name : String) : String :=
  if parent = root then root ++ name else parent ++ root ++ name

/-- Number of slashes; the root and its children have one. -/
def depth (path : String) : Nat := path.toList.count '/'

end Coordination.Path
