import LineTemplate.Fault
import LineTemplate.Text.Utf8
import Std.Data.TreeMap.Raw

/-!
# File trees

A file tree is what a program finds from the root of its file system down, together with the
directory it is started in. A path is followed part by part, from the root or from that directory;
wherever it goes on, it has to be in a directory. Files are read and written as a whole. The
directories of a tree are ordered maps from names to what is in them; that they are well-formed is
part of the tree. Links, devices and permissions are not part of it.
-/
namespace LineTemplate

/-- A file, or a directory with what is in it. -/
inductive Node where
  | file (content : Bytes)
  | directory (entries : Std.TreeMap.Raw Text Node)

namespace Node

/-- What a chain of names leads to. -/
def find? (node : Node) : List Text → Option Node
  | [] => some node
  | name :: rest =>
    match node with
    | file _ => none
    | directory entries =>
      match entries[name]? with
      | none => none
      | some child => child.find? rest

/-- Puts a node where a chain of names leads, in place of what was there. Directories that are
missing on the way are created; a file on the way stays. -/
def put (new : Node) : Node → List Text → Node
  | _, [] => new
  | file content, _ :: _ => file content
  | directory entries, name :: rest =>
    directory (entries.insert name (put new (entries[name]?.getD (directory ∅)) rest))

/-- Each directory, at any depth, is a well-formed map. -/
inductive WellFormed : Node → Prop where
  | file (content : Bytes) : WellFormed (file content)
  | directory {entries : Std.TreeMap.Raw Text Node} (ordered : entries.WF)
      (children : ∀ (name : Text) (child : Node), entries[name]? = some child → WellFormed child) :
      WellFormed (directory entries)

namespace WellFormed

theorem empty : (Node.directory ∅).WellFormed := by
  refine directory Std.TreeMap.Raw.WF.emptyc fun name child h => ?_
  rw [Std.TreeMap.Raw.getElem?_emptyc] at h
  contradiction

theorem put {new node : Node} (hnew : new.WellFormed) (h : node.WellFormed) (names : List Text) :
    (Node.put new node names).WellFormed := by
  induction names generalizing node with
  | nil =>
    rw [Node.put]
    exact hnew
  | cons name rest ih =>
    cases h with
    | file content =>
      rw [Node.put]
      exact file content
    | @directory entries ordered children =>
      have hchild : (entries[name]?.getD (Node.directory ∅)).WellFormed := by
        cases hc : entries[name]? with
        | none => exact empty
        | some child => exact children name child hc
      rw [Node.put]
      refine directory ordered.insert fun other child hc => ?_
      rw [Std.TreeMap.Raw.getElem?_insert ordered] at hc
      split at hc
      · obtain rfl := Option.some.inj hc
        exact ih hchild
      · exact children other child hc

end WellFormed

end Node

/-- A place in a tree: the names that lead to it from the root, the last one first. -/
abbrev Location := List Text

/-- Everything from the root down. Paths that do not begin at the root begin at `start`. -/
structure FileTree where
  root : Node
  wellFormed : root.WellFormed
  start : Location

namespace FileTree

/-- The tree with nothing in it but the directory that a program is started in. -/
def startedIn (start : Location) : FileTree :=
  ⟨Node.put (.directory ∅) (.directory ∅) start.reverse, .put .empty .empty start.reverse, start⟩

def node? (tree : FileTree) (location : Location) : Option Node :=
  tree.root.find? location.reverse

def isDirectory (tree : FileTree) (location : Location) : Bool :=
  match tree.node? location with
  | some (.directory _) => true
  | _ => false

def put (tree : FileTree) (location : Location) (node : Node) (h : node.WellFormed) : FileTree :=
  ⟨node.put tree.root location.reverse, h.put tree.wellFormed location.reverse, tree.start⟩

/-- Longest name of a file, in bytes. -/
def maxNameLength : Nat := 255

/-- Whether a part of a path leads nowhere else: it is empty or a single point. -/
def isIdle (part : Text) : Bool := part == [] || part == ['.']

/-- Goes from a directory along one part of a path. Two points lead to the directory around it,
and from the root to the root. -/
def enter? (location : Location) (part : Text) : Option Location :=
  if isIdle part then some location
  else if part = ['.', '.'] then some location.tail
  else if maxNameLength < Text.byteLength part then none
  else some (part :: location)

def follow? (tree : FileTree) (location : Location) : List Text → Option Location
  | [] => some location
  | part :: rest =>
    if tree.isDirectory location then (enter? location part).bind (tree.follow? · rest) else none

/-- Longest path, in bytes. -/
def maxPathLength : Nat := 4095

/-- Whether the system takes a text as a path. -/
def isPath (text : Text) : Bool :=
  !text.isEmpty && !text.elem '\x00' && Text.byteLength text ≤ maxPathLength

def origin (tree : FileTree) (path : Text) : Location :=
  if path.head? = some '/' then [] else tree.start

/-- The location of a path, which need not exist in its last part. -/
def locate? (tree : FileTree) (path : Text) : Option Location :=
  if isPath path then tree.follow? (tree.origin path) (Text.split '/' path) else none

def content? (tree : FileTree) (path : Text) : Option Bytes :=
  match (tree.locate? path).bind tree.node? with
  | some (.file content) => some content
  | _ => none

def readText (tree : FileTree) (path : Text) : Except Fault Text :=
  match tree.content? path with
  | none => .error (.fileNotFound path)
  | some content =>
    match Utf8.decode? content with
    | none => .error (.inaccessible .notText)
    | some text => .ok text

/-- Writes a file, in place of an earlier one. Its directory has to be there. -/
def write? (tree : FileTree) (path : Text) (content : Bytes) : Option FileTree :=
  match tree.locate? path with
  | none => none
  | some location =>
    if tree.isDirectory location then none
    else some (tree.put location (.file content) (.file content))

/-- Creates the directories along the parts of a path. The flag is false if something else is in
the way, and what was created before that stays. -/
def createAlong (tree : FileTree) (location : Location) : List Text → FileTree × Bool
  | [] => (tree, true)
  | part :: rest =>
    match enter? location part with
    | none => (tree, false)
    | some location =>
      match tree.node? location with
      | some (.directory _) => tree.createAlong location rest
      | some (.file _) => (tree, false)
      | none => (tree.put location (.directory ∅) .empty).createAlong location rest

/-- The parts in front of the last one that names something, up to the one before it that does. -/
def parentParts (path : Text) : List Text :=
  ((((Text.split '/' path).reverse.dropWhile isIdle).drop 1).dropWhile isIdle).reverse

/-- Creates the directory that a path lies in, and those around it. If the path has one part only,
there is nothing to create. -/
def createParent (tree : FileTree) (path : Text) : FileTree × Bool :=
  let parts := parentParts path
  if parts = [] then (tree, true)
  else if isPath (['/'].intercalate parts) ∧ tree.isDirectory (tree.origin path) then
    tree.createAlong (tree.origin path) parts
  else (tree, false)

/-- The tree of a directory to start in and some files, given by their paths. -/
def ofFiles (start : Location) (files : List (Text × Bytes)) : FileTree :=
  files.foldl (fun tree (path, content) =>
    let tree := (tree.createParent path).1
    (tree.write? path content).getD tree) (startedIn start)

end FileTree

end LineTemplate
