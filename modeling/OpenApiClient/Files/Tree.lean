import OpenApiClient.Failure
import OpenApiClient.Files.PathName

/-! # A tree of files

The tree holds files and directories by the steps that lead to them from the root. A name is
followed step by step, and each step but the last has to lead to a directory. An operation that
fails keeps what it did before. -/
namespace OpenApiClient

/-- What stands at a place. -/
inductive FileNode
  | file (content : ByteArray)
  | directory

namespace FileNode

def isDirectory : FileNode → Bool
  | directory => true
  | file _ => false

end FileNode

/-- A place: the steps to it from the root. -/
abbrev FileTree.Place := List String

/-- Files and directories. -/
structure FileTree where
  /-- What stands at each place but the root, which is always a directory. -/
  nodes : List (FileTree.Place × FileNode) := []
  /-- The place where names that do not start at the root start. -/
  workingDirectory : FileTree.Place := []

/-- A step that may change the files. -/
abbrev FileM := ExceptT Fault (StateM FileTree)

namespace FileTree

def node? (t : FileTree) (place : Place) : Option FileNode :=
  if place = [] then some .directory else t.nodes.lookup place

/-- The tree with a node at a place. -/
def put (t : FileTree) (place : Place) (node : FileNode) : FileTree :=
  { t with nodes := (place, node) :: t.nodes.filter (·.1 ≠ place) }

/-- The most bytes of a step. -/
def stepLimit : Nat := 255

/-- The most bytes of a name. -/
def nameLimit : Nat := 4095

/-- The place to which steps lead from a place. Nothing has to stand there. -/
def follow (t : FileTree) (place : Place) : List String → Except FileProblem Place
  | [] => .ok place
  | step :: rest =>
    match t.node? place with
    | none => .error .missing
    | some (.file _) => .error .notDirectory
    | some .directory =>
      if step = ".." then t.follow place.dropLast rest
      else if stepLimit < step.utf8ByteSize then .error .longName
      else t.follow (place ++ [step]) rest

/-- The place that a name leads to. A name with the character zero is of no use to any file. -/
def find (t : FileTree) (p : PathName) : Except Fault Place :=
  let name := p.text
  if name.toList.contains '\x00' then .error .badValue
  else if nameLimit < name.utf8ByteSize then .error (.file .longName)
  else (t.follow (if p.isAbsolute then [] else t.workingDirectory) p.steps).mapError .file

def read (t : FileTree) (p : PathName) : Except Fault ByteArray := do
  match t.node? (← t.find p) with
  | none => .error (.file .missing)
  | some .directory => .error (.file .isDirectory)
  | some (.file content) => .ok content

def isDirectory (t : FileTree) (p : PathName) : Bool :=
  match t.find p with
  | .ok place => (t.node? place).any FileNode.isDirectory
  | .error _ => false

/-- The tree with a new directory, in one that exists. -/
def addDirectory (t : FileTree) (p : PathName) : Except Fault FileTree := do
  let place ← t.find p
  match t.node? place with
  | none => .ok (t.put place .directory)
  | some _ => .error (.file .alreadyThere)

/-- The tree with a file written, in a directory that exists. -/
def write (t : FileTree) (p : PathName) (content : ByteArray) : Except Fault FileTree := do
  let place ← t.find p
  match t.node? place with
  | some .directory => .error (.file .isDirectory)
  | _ => .ok (t.put place (.file content))

/-- The tree with a file at a place, and with directories on the way to it. -/
def withFile (t : FileTree) (place : Place) (content : ByteArray) : FileTree :=
  let outer := ((List.range place.length).drop 1).map place.take
  (outer.foldl (fun t place => t.put place .directory) t).put place (.file content)

@[simp] theorem node?_root (t : FileTree) : t.node? [] = some .directory := rfl

theorem node?_put_self (t : FileTree) {place : Place} (h : place ≠ []) (node : FileNode) :
    (t.put place node).node? place = some node := by
  simp [node?, put, h]

private theorem lookup_filter_ne {α : Type} (nodes : List (Place × α)) {place other : Place}
    (h : other ≠ place) :
    (nodes.filter fun e => !decide (e.1 = place)).lookup other = nodes.lookup other := by
  induction nodes with
  | nil => rfl
  | cons e rest ih =>
    obtain ⟨here, v⟩ := e
    by_cases he : here = place
    · have hne : (other == here) = false := by simpa [he] using h
      rw [List.filter_cons_of_neg (by simp [he]), ih, List.lookup_cons, hne]
    · rw [List.filter_cons_of_pos (by simp [he]), List.lookup_cons, List.lookup_cons, ih]

/-- A node that is put at a place changes no other place. -/
theorem node?_put_of_ne (t : FileTree) {place other : Place} (h : other ≠ place)
    (node : FileNode) : (t.put place node).node? other = t.node? other := by
  unfold node?
  split
  · rfl
  · have hne : (other == place) = false := by simpa using h
    simpa [put, List.lookup_cons, hne] using lookup_filter_ne t.nodes h

end FileTree

/-- Changes the files in one step, or fails and leaves them. -/
def FileM.change (f : FileTree → Except Fault FileTree) : FileM Unit := do
  match f (← get) with
  | .ok t => set t
  | .error fault => throw fault

/-- Makes a directory, if it is not there yet. -/
def FileM.addDirectory (p : PathName) : FileM Unit := do
  match (← get).addDirectory p with
  | .ok t => set t
  | .error fault => if !(← get).isDirectory p then throw fault

/-- Makes a directory and those around it; the steps to it come innermost first. -/
def FileM.addDirectories (root : String) : (inner : List String) → FileM Unit
  | [] => FileM.addDirectory ⟨root, []⟩
  | step :: outer => do
    let p : PathName := ⟨root, (step :: outer).reverse⟩
    match (← get).addDirectory p with
    | .error (.file .missing) => do
      FileM.addDirectories root outer
      FileM.addDirectory p
    | _ => FileM.addDirectory p

end OpenApiClient
