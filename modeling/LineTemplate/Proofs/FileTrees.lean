import LineTemplate.FileTree
import LineTemplate.Proofs.Decoding
import LineTemplate.Proofs.Runs
import Mathlib.Data.List.DropRight

/-!
# Writing into a file tree

At each location of a tree there is a file, a directory or nothing. Paths are followed along the
directories only, and a file is written where its directory already is. So a write changes what is
seen at one location and nowhere else, and each path leads where it led before. Creating the
directory of a file hides nothing, and does nothing where the directory is there.
-/
namespace LineTemplate

namespace Node

def content? : Node → Option Bytes
  | file content => some content
  | directory _ => none

/-- What is seen from a node along a chain of names: nothing, a directory, or a file with its
content. -/
def seen? (node : Node) (names : List Text) : Option (Option Bytes) :=
  (node.find? names).map content?

@[simp] theorem seen?_nil (node : Node) : node.seen? [] = some node.content? := by
  rw [seen?, find?]
  rfl

@[simp] theorem seen?_file (content : Bytes) (name : Text) (rest : List Text) :
    (file content).seen? (name :: rest) = none := by
  rw [seen?, find?]
  rfl

@[simp] theorem seen?_directory (entries : Std.TreeMap.Raw Text Node) (name : Text)
    (rest : List Text) :
    (directory entries).seen? (name :: rest) = entries[name]?.bind (·.seen? rest) := by
  rw [seen?, find?]
  cases entries[name]? <;> rfl

lemma eq_directory_of_content? {node : Node} (h : node.content? = none) :
    ∃ entries, node = directory entries := by
  cases node with
  | file content => contradiction
  | directory entries => exact ⟨entries, rfl⟩

/-- Only directories are gone through. -/
lemma seen?_of_append {node : Node} {names : List Text} {name : Text}
    (h : node.seen? (names ++ [name]) ≠ none) : node.seen? names = some none := by
  induction names generalizing node with
  | nil =>
    cases node with
    | file content => exact absurd (seen?_file content name []) h
    | directory entries => rw [seen?_nil, content?]
  | cons first names ih =>
    cases node with
    | file content => exact absurd (seen?_file content first (names ++ [name])) h
    | directory entries =>
      rw [List.cons_append, seen?_directory] at h
      rw [seen?_directory]
      cases hchild : entries[first]? with
      | none => simp [hchild] at h
      | some child =>
        rw [hchild, Option.bind_some] at h
        exact ih h

lemma wellFormed_directory {entries : Std.TreeMap.Raw Text Node} :
    (directory entries).WellFormed ↔ entries.WF ∧
      ∀ (name : Text) (child : Node), entries[name]? = some child → child.WellFormed := by
  constructor
  · rintro ⟨⟩
    exact ⟨‹_›, ‹_›⟩
  · rintro ⟨hordered, hchildren⟩
    exact .directory hordered hchildren

/-- If a file is put into a directory, in place of an earlier one or of nothing, then it is seen
there, and along all other chains of names the same is seen as before. -/
lemma seen?_put {node : Node} (hnode : node.WellFormed) (content : Bytes) {names : List Text}
    {name : Text} (hparent : node.seen? names = some none)
    (h : node.seen? (names ++ [name]) ≠ some none) (other : List Text) :
    (put (file content) node (names ++ [name])).seen? other =
      if other = names ++ [name] then some (some content) else node.seen? other := by
  induction names generalizing node other with
  | nil =>
    obtain ⟨entries, rfl⟩ := eq_directory_of_content? (Option.some.inj hparent)
    obtain ⟨hordered, -⟩ := wellFormed_directory.mp hnode
    rw [List.nil_append, seen?_directory] at h
    rw [List.nil_append, put, put]
    cases other with
    | nil => rfl
    | cons first rest =>
      rw [seen?_directory, seen?_directory, Std.TreeMap.Raw.getElem?_insert hordered]
      by_cases hfirst : name = first
      · subst hfirst
        cases rest with
        | nil => simp [content?]
        | cons second rest =>
          have hfile : entries[name]?.bind (·.seen? (second :: rest)) = none := by
            cases hchild : entries[name]? with
            | none => rfl
            | some child =>
              cases child with
              | file before => simp
              | directory inner => simp [hchild, content?] at h
          simp [hfile]
      · have hne : ¬ (first :: rest = [name]) := fun heq => hfirst (List.cons.inj heq).1.symm
        simp [hfirst, Ne.symm hfirst]
  | cons first names ih =>
    cases node with
    | file before => simp at hparent
    | directory entries =>
      obtain ⟨hordered, hchildren⟩ := wellFormed_directory.mp hnode
      rw [List.cons_append, seen?_directory] at h
      rw [seen?_directory] at hparent
      cases hchild : entries[first]? with
      | none => simp [hchild] at hparent
      | some child =>
        rw [hchild, Option.bind_some] at h hparent
        rw [List.cons_append, put, hchild, Option.getD_some]
        cases other with
        | nil => rfl
        | cons second rest =>
          rw [seen?_directory, seen?_directory, Std.TreeMap.Raw.getElem?_insert hordered]
          by_cases hsecond : first = second
          · subst hsecond
            simp [hchild, ih (hchildren first child hchild) hparent h]
          · simp [hsecond, Ne.symm hsecond]

/-- Whatever is put where nothing was, what was seen elsewhere is still seen. -/
lemma seen?_put_of_none {new node : Node} (hnode : node.WellFormed) {names other : List Text}
    (h : node.seen? names = none) {view : Option Bytes} (hother : node.seen? other = some view) :
    (put new node names).seen? other = some view := by
  induction names generalizing node other with
  | nil =>
    rw [seen?_nil] at h
    contradiction
  | cons first names ih =>
    cases node with
    | file content => rwa [put]
    | directory entries =>
      obtain ⟨hordered, hchildren⟩ := wellFormed_directory.mp hnode
      rw [put]
      cases other with
      | nil => exact hother
      | cons second rest =>
        rw [seen?_directory] at h hother
        rw [seen?_directory, Std.TreeMap.Raw.getElem?_insert hordered]
        by_cases hsecond : first = second
        · subst hsecond
          cases hchild : entries[first]? with
          | none => simp [hchild] at hother
          | some child =>
            rw [hchild, Option.bind_some] at h hother
            simpa using ih (hchildren first child hchild) h hother
        · simpa [hsecond] using hother

end Node

namespace FileTree

variable {tree : FileTree}

def seen? (tree : FileTree) (location : Location) : Option (Option Bytes) :=
  tree.root.seen? location.reverse

lemma seen?_eq (tree : FileTree) (location : Location) :
    tree.seen? location = (tree.node? location).map Node.content? := by
  rw [seen?, Node.seen?, node?]

lemma isDirectory_iff {location : Location} :
    tree.isDirectory location = true ↔ tree.seen? location = some none := by
  rw [isDirectory, seen?_eq]
  rcases tree.node? location with _ | (content | entries)
  · simp
  · simp [Node.content?]
  · simp [Node.content?]

lemma content?_eq_some_iff {path : Text} {content : Bytes} :
    tree.content? path = some content ↔
      ∃ location, tree.locate? path = some location ∧
        tree.seen? location = some (some content) := by
  rw [content?]
  cases hpath : tree.locate? path with
  | none => simp
  | some location =>
    simp only [Option.bind_some, seen?_eq, Option.some.injEq, exists_eq_left']
    rcases tree.node? location with _ | (content | entries)
    · simp
    · simp [Node.content?]
    · simp [Node.content?]

lemma readText_eq_ok_iff {path text : Text} :
    tree.readText path = .ok text ↔ tree.content? path = some (Utf8.encode text) := by
  rw [readText]
  cases tree.content? path with
  | none => simp
  | some bytes =>
    rw [Option.some.injEq, eq_comm (a := bytes), ← Utf8.decode?_eq_some_iff]
    dsimp only
    cases Utf8.decode? bytes <;> simp

lemma readText_of_ill_formed {path : Text} {bytes : Bytes} (hfile : tree.content? path = some bytes)
    (h : ∀ text, Utf8.encode text ≠ bytes) :
    tree.readText path = .error (.inaccessible .notText) := by
  rw [readText, hfile]
  dsimp only
  rw [Utf8.decode?_eq_none_iff.mpr h]

/-- A location that is a directory or stands in one. -/
def Attached (tree : FileTree) (location : Location) : Prop :=
  tree.isDirectory location = true ∨
    ∃ name parent, location = name :: parent ∧ tree.isDirectory parent = true

lemma isDirectory_of_seen? {name : Text} {parent : Location}
    (h : tree.seen? (name :: parent) ≠ none) : tree.isDirectory parent = true := by
  rw [seen?, List.reverse_cons] at h
  exact isDirectory_iff.mpr (Node.seen?_of_append h)

/-- The directory around a directory is one, and the root has itself around it. -/
lemma isDirectory_tail {location : Location} (h : tree.isDirectory location = true) :
    tree.isDirectory location.tail = true := by
  cases location with
  | nil => exact h
  | cons name parent =>
    have hseen : tree.seen? (name :: parent) ≠ none := by
      rw [isDirectory_iff.mp h]
      exact Option.some_ne_none none
    exact isDirectory_of_seen? hseen

lemma attached_of_enter? {location next : Location} {part : Text}
    (hlocation : tree.isDirectory location = true) (h : enter? location part = some next) :
    tree.Attached next := by
  unfold enter? at h
  split_ifs at h
  · obtain rfl := Option.some.inj h
    exact .inl hlocation
  · obtain rfl := Option.some.inj h
    exact .inl (isDirectory_tail hlocation)
  · obtain rfl := Option.some.inj h
    exact .inr ⟨part, location, rfl, hlocation⟩

/-- Where a path leads on, it leads to a directory or into one. -/
lemma attached_of_follow? {location found : Location} {parts : List Text}
    (h : tree.follow? location parts = some found) :
    parts = [] ∧ found = location ∨ tree.Attached found := by
  induction parts generalizing location with
  | nil => exact .inl ⟨rfl, (Option.some.inj h).symm⟩
  | cons part rest ih =>
    rw [follow?] at h
    split_ifs at h with hlocation
    obtain ⟨next, hnext, hfound⟩ := Option.bind_eq_some_iff.mp h
    rcases ih hfound with ⟨-, rfl⟩ | hattached
    · exact .inr (attached_of_enter? hlocation hnext)
    · exact .inr hattached

lemma attached_of_locate? {path : Text} {location : Location}
    (h : tree.locate? path = some location) : tree.Attached location := by
  unfold locate? at h
  split_ifs at h
  rcases attached_of_follow? h with ⟨hparts, -⟩ | hattached
  · exact absurd hparts (Text.split_spec '/' path).1
  · exact hattached

/-- Where a path leads depends on the directories, and on the one where it may begin. -/
lemma locate?_congr {after : FileTree}
    (h : ∀ location, after.isDirectory location = tree.isDirectory location)
    (hstart : after.start = tree.start) (path : Text) :
    after.locate? path = tree.locate? path := by
  have hfollow (parts : List Text) (location : Location) :
      after.follow? location parts = tree.follow? location parts := by
    induction parts generalizing location with
    | nil => rfl
    | cons part rest ih => simp only [follow?, h, ih]
  simp only [locate?, origin, hstart, hfollow]

/-- A path along which a file can be written: it does not lead to a directory, and the directory
that it leads into is there. -/
def Writable (tree : FileTree) (path : Text) : Prop :=
  ∃ location, tree.locate? path = some location ∧ tree.isDirectory location = false

instance (tree : FileTree) (path : Text) : Decidable (tree.Writable path) :=
  decidable_of_iff (((tree.locate? path).map tree.isDirectory) = some false) (by
    simp [Writable])

/-- One tree is another one in which the file at a path was written, or written anew. -/
structure WrittenAt (tree : FileTree) (path : Text) (content : Bytes) (after : FileTree) :
    Prop where
  content : after.content? path = some content
  elsewhere : ∀ location, tree.locate? path ≠ some location →
    after.seen? location = tree.seen? location
  paths : ∀ other, after.locate? other = tree.locate? other

lemma write?_eq_none_iff {path : Text} {content : Bytes} :
    tree.write? path content = none ↔ ¬ tree.Writable path := by
  rw [write?, Writable]
  cases hpath : tree.locate? path with
  | none => simp
  | some location => cases hd : tree.isDirectory location <;> simp [hd]

lemma seen?_put {name : Text} {parent : Location} (hparent : tree.isDirectory parent = true)
    (h : tree.isDirectory (name :: parent) = false) (content : Bytes) (other : Location) :
    (tree.put (name :: parent) (.file content) (.file content)).seen? other =
      if other = name :: parent then some (some content) else tree.seen? other := by
  have hseen := isDirectory_iff.mp hparent
  have hfree : tree.seen? (name :: parent) ≠ some none := by
    intro hdirectory
    rw [isDirectory_iff.mpr hdirectory] at h
    contradiction
  rw [seen?, List.reverse_cons] at hfree
  have hput := Node.seen?_put tree.wellFormed content hseen hfree other.reverse
  simp only [← List.reverse_cons, List.reverse_inj] at hput
  exact hput

/-- A file can be written along a path that is writable, and nothing else is changed. -/
theorem Writable.exists_writtenAt {path : Text} (h : tree.Writable path) (content : Bytes) :
    ∃ after, tree.write? path content = some after ∧ tree.WrittenAt path content after := by
  obtain ⟨location, hpath, hfile⟩ := h
  obtain ⟨name, parent, rfl, hparent⟩ : ∃ name parent, location = name :: parent ∧
      tree.isDirectory parent = true := by
    rcases attached_of_locate? hpath with hdirectory | hin
    · rw [hfile] at hdirectory
      contradiction
    · exact hin
  have hseen := seen?_put hparent hfile content
  have hdirectories (other : Location) :
      (tree.put (name :: parent) (.file content) (.file content)).isDirectory other =
        tree.isDirectory other := by
    rw [Bool.eq_iff_iff, isDirectory_iff, isDirectory_iff, hseen]
    split_ifs with hother
    · rw [← isDirectory_iff, hother, hfile]
      simp
    · exact Iff.rfl
  have hpaths := locate?_congr hdirectories rfl
  have hwrite : tree.write? path content =
      some (tree.put (name :: parent) (.file content) (.file content)) := by
    simp [write?, hpath, hfile]
  refine ⟨_, hwrite, ?_, fun other hother => ?_, hpaths⟩
  · refine content?_eq_some_iff.mpr ⟨name :: parent, ?_, ?_⟩
    · rw [hpaths, hpath]
    · rw [hseen, if_pos rfl]
  · rw [hseen, if_neg]
    rintro rfl
    exact hother hpath

lemma follow?_append (location : Location) (parts rest : List Text) :
    tree.follow? location (parts ++ rest) =
      (tree.follow? location parts).bind (tree.follow? · rest) := by
  induction parts generalizing location with
  | nil => rfl
  | cons part parts ih =>
    rw [List.cons_append, follow?, follow?]
    split_ifs
    · simp only [ih, Option.bind_assoc]
    · rfl

/-- A path that leads to a directory begins in one. -/
lemma isDirectory_of_follow? {location found : Location} {parts : List Text}
    (h : tree.follow? location parts = some found) (hfound : tree.isDirectory found = true) :
    tree.isDirectory location = true := by
  cases parts with
  | nil =>
    obtain rfl := Option.some.inj h
    exact hfound
  | cons part rest =>
    rw [follow?] at h
    split_ifs at h with hlocation
    exact hlocation

/-- Along directories that are there none is created. -/
lemma createAlong_of_follow? {location found : Location} {parts : List Text}
    (h : tree.follow? location parts = some found) (hfound : tree.isDirectory found = true) :
    tree.createAlong location parts = (tree, true) := by
  induction parts generalizing location with
  | nil => rfl
  | cons part rest ih =>
    rw [follow?] at h
    split_ifs at h
    obtain ⟨next, hnext, hrest⟩ := Option.bind_eq_some_iff.mp h
    have hdirectory := isDirectory_of_follow? hrest hfound
    rw [isDirectory] at hdirectory
    rw [createAlong, hnext]
    dsimp only
    split at hdirectory
    · rename_i hnode
      rw [hnode]
      exact ih hrest
    · contradiction

lemma isPath_of_append {text rest : Text} (h : isPath (text ++ rest) = true) (hne : text ≠ []) :
    isPath text = true := by
  simp only [isPath, Bool.and_eq_true, Bool.not_eq_true', List.isEmpty_eq_false_iff,
    List.elem_eq_mem, decide_eq_true_eq, decide_eq_false_iff_not, List.mem_append, not_or,
    Text.byteLength_append] at h ⊢
  obtain ⟨⟨-, hzero, -⟩, hlength⟩ := h
  exact ⟨⟨hne, hzero⟩, by omega⟩

lemma parentParts_of_split {path last : Text} {front : List Text}
    (h : Text.split '/' path = front ++ [last]) (hlast : isIdle last = false) :
    parentParts path = front.rdropWhile isIdle := by
  have hnot : ¬ isIdle last = true := Bool.eq_false_iff.mp hlast
  rw [parentParts, h, List.reverse_concat, List.dropWhile_cons_of_neg hnot, List.drop_succ_cons,
    List.drop_zero, List.rdropWhile]

/-- The parts of a path up to one that names something are a path. -/
lemma isPath_intercalate {path last : Text} {front rest : List Text} (h : isPath path = true)
    (hsplit : Text.split '/' path = front ++ [last] ++ rest) (hlast : isIdle last = false) :
    isPath (['/'].intercalate (front ++ [last])) = true := by
  obtain ⟨-, -, htext⟩ := Text.split_spec '/' path
  have hne : front ++ [last] ≠ [] := List.concat_ne_nil last front
  rw [hsplit, Text.intercalate_append ['/'] hne] at htext
  rw [← htext] at h
  refine isPath_of_append h ?_
  have hlast : last ≠ [] := by
    rintro rfl
    contradiction
  cases front with
  | nil => simpa using hlast
  | cons first front =>
    rw [Text.intercalate_append ['/'] (List.cons_ne_nil first front)]
    simp

/-- The last part of a path along which a file can be written is the name of the file, and the
parts in front of it lead to a directory. -/
lemma Writable.exists_name {path : Text} (h : tree.Writable path) :
    isPath path = true ∧ ∃ front name parent, Text.split '/' path = front ++ [name] ∧
      isIdle name = false ∧ tree.follow? (tree.origin path) front = some parent ∧
        tree.isDirectory parent = true := by
  obtain ⟨location, hlocation, hfile⟩ := h
  rw [locate?] at hlocation
  split_ifs at hlocation with hpath
  obtain ⟨hne, -, -⟩ := Text.split_spec '/' path
  obtain ⟨front, name, hsplit⟩ := (List.eq_nil_or_concat' (Text.split '/' path)).resolve_left hne
  rw [hsplit, follow?_append] at hlocation
  obtain ⟨parent, hparent, hname⟩ := Option.bind_eq_some_iff.mp hlocation
  rw [follow?] at hname
  split_ifs at hname with hdirectory
  obtain ⟨next, hnext, hend⟩ := Option.bind_eq_some_iff.mp hname
  obtain rfl := Option.some.inj hend
  refine ⟨hpath, front, name, parent, hsplit, ?_, hparent, hdirectory⟩
  by_contra hidle
  rw [enter?, if_pos (Bool.not_eq_false _ ▸ hidle)] at hnext
  obtain rfl := Option.some.inj hnext
  rw [hdirectory] at hfile
  contradiction

/-- Where the directory that a file lies in is there, none is created for it. -/
theorem createParent_of_writable {path : Text} (h : tree.Writable path) :
    tree.createParent path = (tree, true) := by
  obtain ⟨hpath, front, name, parent, hsplit, hname, hparent, hdirectory⟩ := h.exists_name
  have hparts := parentParts_of_split hsplit hname
  have hnames := List.rdropWhile_last_not isIdle front
  obtain ⟨idle, hfront⟩ := List.rdropWhile_prefix isIdle front
  rw [← hparts] at hfront hnames
  rw [← hfront, follow?_append] at hparent
  obtain ⟨reached, hreached, hidle⟩ := Option.bind_eq_some_iff.mp hparent
  have hreached' := isDirectory_of_follow? hidle hdirectory
  simp only [createParent]
  split_ifs with hnone hgood
  · rfl
  · exact createAlong_of_follow? hreached hreached'
  · have hlast := List.dropLast_append_getLast hnone
    have hpieces : Text.split '/' path =
        (parentParts path).dropLast ++ [(parentParts path).getLast hnone] ++ (idle ++ [name]) := by
      rw [hlast, hsplit, ← hfront, List.append_assoc]
    have hparent' := isPath_intercalate hpath hpieces (Bool.eq_false_iff.mpr (hnames hnone))
    rw [hlast] at hparent'
    exact absurd ⟨hparent', isDirectory_of_follow? hreached hreached'⟩ hgood

lemma seen?_createAlong {location : Location} {parts : List Text} {other : Location}
    {view : Option Bytes} (h : tree.seen? other = some view) :
    (tree.createAlong location parts).1.seen? other = some view := by
  induction parts generalizing tree location with
  | nil => exact h
  | cons part rest ih =>
    rw [createAlong]
    cases hnext : enter? location part with
    | none => exact h
    | some next =>
      dsimp only
      cases hnode : tree.node? next with
      | none =>
        have hnone : tree.seen? next = none := by
          rw [seen?_eq, hnode]
          rfl
        have hput : (tree.put next (.directory ∅) .empty).seen? other = some view :=
          Node.seen?_put_of_none tree.wellFormed hnone h
        exact ih hput
      | some node =>
        cases node with
        | file content => exact h
        | directory entries => exact ih h

/-- A path along which a file can be written once the directories around it are created. -/
def Creatable (tree : FileTree) (path : Text) : Prop :=
  (tree.createParent path).2 = true ∧ (tree.createParent path).1.Writable path

instance (tree : FileTree) (path : Text) : Decidable (tree.Creatable path) :=
  inferInstanceAs (Decidable (_ ∧ _))

lemma seen?_createParent {path : Text} {location : Location} {view : Option Bytes}
    (h : tree.seen? location = some view) :
    (tree.createParent path).1.seen? location = some view := by
  simp only [createParent]
  split_ifs
  · exact h
  · exact seen?_createAlong h
  · exact h

end FileTree

end LineTemplate
