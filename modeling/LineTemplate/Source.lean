import LineTemplate.Expansion
import LineTemplate.FileTree

/-!
# Templates from bytes and files

A template that comes as bytes has to be UTF-8, and a byte order mark at its start is dropped. A
file is expanded into another one as a whole: nothing is written, and no directory is created,
unless the expansion succeeds.
-/
namespace LineTemplate.Expander

def runBytes (e : Expander) (bytes : Bytes) : Run :=
  match Utf8.decode? bytes with
  | none => .stop (some (.inaccessible .notText))
  | some text => e.run (Utf8.stripMark text)

/-- Writes an output to a path, creating the directories around it. The flag says whether that
went well; directories created before a failure stay. -/
def writeOutput (tree : FileTree) (target output : Text) : FileTree × Bool :=
  match tree.createParent target with
  | (tree, false) => (tree, false)
  | (tree, true) =>
    match tree.write? target (Utf8.encode output) with
    | none => (tree, false)
    | some tree => (tree, true)

/-- Expands the file at one path into the file at another; the tree afterwards is given in any
case. -/
def expandFile (e : Expander) (tree : FileTree) (template target : Text) :
    Except Fault (List Warning) × FileTree :=
  match tree.readText template with
  | .error fault => (.error fault, tree)
  | .ok text =>
    match e.expand (Utf8.stripMark text) with
    | .error fault => (.error fault, tree)
    | .ok expansion =>
      match writeOutput tree target expansion.output with
      | (tree, true) => (.ok expansion.warnings, tree)
      | (tree, false) => (.error (.inaccessible (.refused target)), tree)

end LineTemplate.Expander
