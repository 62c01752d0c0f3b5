import PubSub.Text.Utf8

/-!
# Paths

A path is a run of bytes with names between slashes. It begins at the root if its first byte is a
slash, and at the working folder otherwise.
-/

namespace PubSub.Path

def slash : UInt8 := 47

/-- The name of a folder itself. -/
def here : Bytes := [46]

/-- The name of the folder above. -/
def above : Bytes := [46, 46]

def isAbsolute (path : Bytes) : Bool := path.head? = some slash

def endsInSlash (path : Bytes) : Bool := path.getLast? = some slash

/-- The names of a path, in order. -/
def names (path : Bytes) : List Bytes := (path.splitOn slash).filter (· ≠ [])

/-- The path of a name under a folder; a name that is an absolute path stands alone. -/
def join (folder name : Bytes) : Bytes :=
  if isAbsolute name then name
  else if folder = [] ∨ endsInSlash folder then folder ++ name
  else folder ++ slash :: name

/-- The names that count: a folder's name for itself only counts at the front. -/
def parts (path : Bytes) : List Bytes :=
  match names path with
  | [] => []
  | n :: ns => (if isAbsolute path then [n].filter (· ≠ here) else [n]) ++ ns.filter (· ≠ here)

/-- The path of the first names of another one. -/
def ofParts (absolute : Bool) (ns : List Bytes) : Bytes :=
  (if absolute then [slash] else []) ++ [slash].intercalate ns

/-- A path and all that lead to it, from the top. -/
def leading (path : Bytes) : List Bytes :=
  let ns := parts path
  (List.range ns.length).map fun k => ofParts (isAbsolute path) (ns.take (k + 1))

end PubSub.Path
