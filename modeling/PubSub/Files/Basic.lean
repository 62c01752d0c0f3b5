import PubSub.Files.Path
import PubSub.SystemError

/-!
# Files

A tree of folders, files and two devices, held as a numbered list of nodes with the root first.
Names lead to nodes; who has opened a node keeps its number, also when its name is gone.

`Files.locate` finds the node of a path, `Files.openAppend` finds or makes a file to append to.
-/

namespace PubSub

inductive Node where
  | folder (entries : List (Bytes × Nat))
  | file (content : Bytes)
  /-- A device that takes all bytes and keeps none. -/
  | null
  /-- A device that never has room. -/
  | full
  deriving DecidableEq, Repr

structure Files where
  nodes : List Node
  /-- The working folder and the folders above it, up to the root. -/
  home : List Nat
  /-- How writes to a file of a size fail: after how many of their bytes, and why. -/
  brake : (size count : Nat) → Option (Nat × SystemError)

namespace Files

def node? (f : Files) (n : Nat) : Option Node := f.nodes[n]?

def entries? (f : Files) (n : Nat) : Option (List (Bytes × Nat)) :=
  match f.node? n with
  | some (.folder entries) => some entries
  | _ => none

def isFolder (f : Files) (n : Nat) : Bool := (f.entries? n).isSome

def setNode (f : Files) (n : Nat) (node : Node) : Files := { f with nodes := f.nodes.set n node }

/-- Adds a node under a name of a folder. -/
def addNode (f : Files) (folder : Nat) (entries : List (Bytes × Nat)) (name : Bytes)
    (node : Node) : Files :=
  let n := f.nodes.length
  { f with nodes := f.nodes.set folder (.folder (entries ++ [(name, n)])) ++ [node] }

/-! ## Finding -/

def longestName : Nat := 255

def longestPath : Nat := 4095

/-- Paths that can name nothing. -/
def checkPath (path : Bytes) : Except SystemError Unit :=
  if path.contains 0 then .error .nulInName
  else if path = [] then .error .notFound
  else if longestPath < path.length then .error .nameTooLong
  else .ok ()

/-- One name further from a folder, whose number comes first, before those above it. -/
def enter (f : Files) (trail : List Nat) (name : Bytes) : Except SystemError (List Nat) :=
  match trail with
  | [] => .error .notFound
  | folder :: up =>
    match f.entries? folder with
    | none => .error .notDirectory
    | some entries =>
      if name = Path.here then .ok trail
      else if name = Path.above then .ok (if up = [] then trail else up)
      else if longestName < name.length then .error .nameTooLong
      else
        match entries.lookup name with
        | none => .error .notFound
        | some n => .ok (n :: trail)

def walk (f : Files) (trail : List Nat) (names : List Bytes) : Except SystemError (List Nat) :=
  names.foldlM f.enter trail

/-- Where a path begins. -/
def origin (f : Files) (path : Bytes) : List Nat := if Path.isAbsolute path then [0] else f.home

/-- The node of a path, and the folders above it. -/
def follow (f : Files) (path : Bytes) : Except SystemError (List Nat) := do
  checkPath path
  let trail ← f.walk (f.origin path) (Path.names path)
  if Path.endsInSlash path ∧ !trail.head?.any f.isFolder then .error .notDirectory
  else .ok trail

def locate (f : Files) (path : Bytes) : Except SystemError Nat := do
  match (← f.follow path) with
  | [] => .error .notFound
  | n :: _ => .ok n

def hasFolder (f : Files) (path : Bytes) : Bool :=
  match f.locate path with
  | .ok n => f.isFolder n
  | .error _ => false

/-- A place for a last name: the folder that is to hold it, with its entries. -/
structure Place where
  folder : Nat
  entries : List (Bytes × Nat)
  name : Bytes
  deriving DecidableEq, Repr

/-- The place that a path names, whether or not there is anything; `none` if the path names a
folder by other means than its own name. -/
def place? (f : Files) (path : Bytes) : Except SystemError (Option Place) := do
  checkPath path
  let names := Path.names path
  let trail ← f.walk (f.origin path) names.dropLast
  match trail.head?.bind fun folder => (f.entries? folder).map fun entries => (folder, entries) with
  | none => .error .notDirectory
  | some (folder, entries) =>
    match names.getLast? with
    | none => .ok none
    | some name =>
      if name = Path.here ∨ name = Path.above then .ok none
      else if longestName < name.length then .error .nameTooLong
      else .ok (some ⟨folder, entries, name⟩)

/-- The file of a path, made if it is not there, to append to it. -/
def openAppend (f : Files) (path : Bytes) : Except SystemError Nat × Files :=
  match f.place? path with
  | .error e => (.error e, f)
  | .ok none => (.error .isDirectory, f)
  | .ok (some p) =>
    if Path.endsInSlash path then (.error .isDirectory, f)
    else
      match p.entries.lookup p.name with
      | some n => if f.isFolder n then (.error .isDirectory, f) else (.ok n, f)
      | none => (.ok f.nodes.length, f.addNode p.folder p.entries p.name (.file []))

/-! ## Contents -/

/-- The bytes of a node; what the full device holds begins with a zero. -/
def read (f : Files) (n : Nat) : Except SystemError Bytes :=
  match f.node? n with
  | some (.file content) => .ok content
  | some .null => .ok []
  | some .full => .ok [0]
  | some (.folder _) => .error .isDirectory
  | none => .error .notFound

/-- The length of a file; devices have none. -/
def size (f : Files) (n : Nat) : Nat :=
  match f.node? n with
  | some (.file content) => content.length
  | _ => 0

/-- Appends bytes to an open node. A write that fails may leave its first bytes. -/
def append (f : Files) (n : Nat) (bytes : Bytes) : Except SystemError Unit × Files :=
  match f.node? n with
  | some (.file content) =>
    match f.brake content.length bytes.length with
    | none => (.ok (), f.setNode n (.file (content ++ bytes)))
    | some (k, e) => (.error e, f.setNode n (.file (content ++ bytes.take k)))
  | some .null => (.ok (), f)
  | some .full => (.error .noSpace, f)
  | _ => (.error .isDirectory, f)

/-- Sets the length of an open file. -/
def cut (f : Files) (n length : Nat) : Except SystemError Unit × Files :=
  match f.node? n with
  | some (.file content) =>
    let zeros := List.replicate (length - content.length) 0
    (.ok (), f.setNode n (.file (content.take length ++ zeros)))
  | _ => (.error .invalidArgument, f)

def sync (f : Files) (n : Nat) : Except SystemError Unit :=
  match f.node? n with
  | some (.file _) => .ok ()
  | _ => .error .invalidArgument

/-- Lets no file grow past a size. -/
def limit (f : Files) (size : Nat) : Files :=
  { f with brake := fun length count =>
      if length + count ≤ size then none else some (size - length, .fileTooLarge) }

def unlimited (f : Files) : Files := { f with brake := fun _ _ => none }

end Files

end PubSub
