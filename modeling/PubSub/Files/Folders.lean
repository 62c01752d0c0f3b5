import PubSub.Files.Basic

/-!
# Folders

Making folders with all that are missing above them, putting files into place, removing, and
listing what is below a folder.
-/

namespace PubSub.Files

def makeFolder (f : Files) (path : Bytes) : Except SystemError Unit × Files :=
  match f.place? path with
  | .error e => (.error e, f)
  | .ok none => (.error .alreadyExists, f)
  | .ok (some p) =>
    if (p.entries.lookup p.name).isSome then (.error .alreadyExists, f)
    else (.ok (), f.addNode p.folder p.entries p.name (.folder []))

/-- Makes the folder of a path, and those above it as far as they are missing. `parts` are the
names of the path from its last one on. -/
def makeFoldersFrom (absolute : Bool) :
    (parts : List Bytes) → (path : Bytes) → Files → Except SystemError Unit × Files
  | [], path, f => if f.hasFolder path ∨ path = [] then (.ok (), f) else f.makeFolder path
  | _ :: up, path, f =>
    match f.makeFolder path with
    | (.ok (), f) => (.ok (), f)
    | (.error e, f) =>
      if e = .notFound then
        match makeFoldersFrom absolute up (Path.ofParts absolute up.reverse) f with
        | (.error e, f) => (.error e, f)
        | (.ok (), f) =>
          match f.makeFolder path with
          | (.ok (), f) => (.ok (), f)
          | (.error e, f) => if f.hasFolder path then (.ok (), f) else (.error e, f)
      else if f.hasFolder path then (.ok (), f)
      else (.error e, f)

def makeFolders (f : Files) (path : Bytes) : Except SystemError Unit × Files :=
  makeFoldersFrom (Path.isAbsolute path) (Path.parts path).reverse path f

/-- The root with the devices, and a working folder. -/
def start (home : Bytes) : Files :=
  let bare : Files := ⟨[.folder [(Utf8.ofText "dev", 1)],
    .folder [(Utf8.ofText "null", 2), (Utf8.ofText "full", 3)], .null, .full], [0], fun _ _ => none⟩
  let f := (bare.makeFolders home).2
  { f with home := (f.follow home).toOption.getD [0] }

/-- Replaces or makes a file with a content, and makes the folders above it. -/
def put (f : Files) (path content : Bytes) : Except SystemError Unit × Files :=
  let folder := Path.ofParts (Path.isAbsolute path) (Path.parts path).dropLast
  match f.makeFolders folder with
  | (.error e, f) => (.error e, f)
  | (.ok (), f) =>
    match f.openAppend path with
    | (.error e, f) => (.error e, f)
    | (.ok n, f) =>
      match f.node? n with
      | some (.file _) => (.ok (), f.setNode n (.file content))
      | _ => (.ok (), f)

/-- Appends to a file, which is made if it is missing. -/
def extend (f : Files) (path content : Bytes) : Except SystemError Unit × Files :=
  let folder := Path.ofParts (Path.isAbsolute path) (Path.parts path).dropLast
  match f.makeFolders folder with
  | (.error e, f) => (.error e, f)
  | (.ok (), f) =>
    match f.openAppend path with
    | (.error e, f) => (.error e, f)
    | (.ok n, f) => f.append n content

/-- Takes a name, and all below it, out of its folder. -/
def remove (f : Files) (path : Bytes) : Except SystemError Unit × Files :=
  match f.place? path with
  | .error e => (.error e, f)
  | .ok none => (.error .isDirectory, f)
  | .ok (some p) =>
    if (p.entries.lookup p.name).isSome then
      (.ok (), f.setNode p.folder (.folder (p.entries.filter (·.1 ≠ p.name))))
    else (.error .notFound, f)

def readPath (f : Files) (path : Bytes) : Except SystemError Bytes := do f.read (← f.locate path)

/-! ## Listing -/

/-- All paths below a folder with their contents; folders end in a slash and have none. Folders lie
no deeper in one another than there are nodes. -/
def listFrom (f : Files) : (depth : Nat) → (lead : Bytes) → (folder : Nat) →
    List (Bytes × Option Bytes)
  | 0, _, _ => []
  | depth + 1, lead, folder =>
    ((f.entries? folder).getD []).flatMap fun (name, n) =>
      if f.isFolder n then
        (lead ++ name ++ [Path.slash], none)
          :: listFrom f depth (lead ++ name ++ [Path.slash]) n
      else [(lead ++ name, some ((f.read n).toOption.getD []))]

/-- All paths below the working folder. -/
def list (f : Files) : List (Bytes × Option Bytes) :=
  match f.home with
  | [] => []
  | home :: _ => f.listFrom f.nodes.length [] home

end PubSub.Files
