import LineTemplate.Proofs.Balance
import LineTemplate.Proofs.Production

/-!
# Templates as forests of blocks

A template whose directives balance is a forest: content lines, and blocks with their branches.
Lines are read from the last one on, so that what follows a block is known before the block is. They
are read as a forest exactly if they are its lines, and balanced lines always are.
-/
namespace LineTemplate

/-- When a branch may be taken, if none before it was. -/
inductive Guard where
  | holding (condition : Condition)
  | always
  deriving DecidableEq, Repr

namespace Guard

def directive : Guard → Directive
  | holding condition => .alternative condition
  | always => .otherwise

end Guard

mutual
/-- Lines and blocks, one after the other. -/
inductive Forest where
  | empty
  | line (text : Text) (rest : Forest)
  /-- A block, its first branch being guarded by a condition, and what follows the block. -/
  | block (first : Condition) (body : Forest) (others : Branches) (rest : Forest)

/-- The branches of a block behind its first one. -/
inductive Branches where
  | closed
  | branch (guard : Guard) (body : Forest) (others : Branches)
end

mutual
/-- The lines of a forest, in the order of the template. -/
def Forest.entries : Forest → List Entry
  | .empty => []
  | .line text rest => .content text :: rest.entries
  | .block first body others rest =>
    .directive (.opening first) :: (body.entries ++ (others.entries ++ rest.entries))

/-- The lines of some branches, with the end of the block. -/
def Branches.entries : Branches → List Entry
  | .closed => [.directive .closing]
  | .branch guard body others => .directive guard.directive :: (body.entries ++ others.entries)
end

/-- How many lines a forest takes. -/
def Forest.height (forest : Forest) : Nat := forest.entries.length

/-- How many lines some branches take. -/
def Branches.height (branches : Branches) : Nat := branches.entries.length

@[simp] theorem Forest.height_line (text : Text) (rest : Forest) :
    (Forest.line text rest).height = 1 + rest.height := by
  rw [height, entries, List.length_cons, Nat.add_comm]
  rfl

@[simp] theorem Forest.height_block (first : Condition) (body : Forest) (others : Branches)
    (rest : Forest) :
    (Forest.block first body others rest).height =
      1 + body.height + others.height + rest.height := by
  simp only [height, Branches.height, entries, List.length_cons, List.length_append]
  omega

@[simp] theorem Branches.height_branch (guard : Guard) (body : Forest) (others : Branches) :
    (Branches.branch guard body others).height = 1 + body.height + others.height := by
  simp only [height, Forest.height, entries, List.length_cons, List.length_append]
  omega

def Forest.append : Forest → Forest → Forest
  | .empty, tail => tail
  | .line text rest, tail => .line text (rest.append tail)
  | .block first body others rest, tail => .block first body others (rest.append tail)

theorem Forest.append_empty : ∀ forest : Forest, forest.append .empty = forest
  | .empty => rfl
  | .line text rest => by rw [append, append_empty rest]
  | .block first body others rest => by rw [append, append_empty rest]

/-- The last lines of a template, read. -/
structure Pending where
  /-- What stands in the innermost block of the place where the lines begin. -/
  forest : Forest
  /-- The blocks that are closed in the lines but not opened there, innermost first: their
  branches in the lines, and what follows each block. -/
  blocks : List (Branches × Forest)

namespace Pending

/-- One more line in front, unless it needs a block that the lines do not close. -/
def put (p : Pending) : Entry → Option Pending
  | .content text => some ⟨.line text p.forest, p.blocks⟩
  | .directive .closing => some ⟨.empty, (.closed, p.forest) :: p.blocks⟩
  | .directive .otherwise =>
    match p.blocks with
    | [] => none
    | (others, rest) :: blocks => some ⟨.empty, (.branch .always p.forest others, rest) :: blocks⟩
  | .directive (.alternative condition) =>
    match p.blocks with
    | [] => none
    | (others, rest) :: blocks =>
      some ⟨.empty, (.branch (.holding condition) p.forest others, rest) :: blocks⟩
  | .directive (.opening condition) =>
    match p.blocks with
    | [] => none
    | (others, rest) :: blocks => some ⟨.block condition p.forest others rest, blocks⟩

/-- Reads lines from the last one on. -/
def ofEntries? : List Entry → Option Pending
  | [] => some ⟨.empty, []⟩
  | entry :: rest => (ofEntries? rest).bind (·.put entry)

def entries (p : Pending) : List Entry :=
  p.forest.entries ++ p.blocks.flatMap fun block => block.1.entries ++ block.2.entries

lemma entries_put {p q : Pending} {entry : Entry} (h : p.put entry = some q) :
    q.entries = entry :: p.entries := by
  obtain ⟨forest, blocks⟩ := p
  match entry, blocks with
  | .content text, blocks =>
    obtain rfl := Option.some.inj h
    simp [entries, Forest.entries]
  | .directive .closing, blocks =>
    obtain rfl := Option.some.inj h
    simp [entries, Forest.entries, Branches.entries]
  | .directive .otherwise, (others, rest) :: blocks =>
    obtain rfl := Option.some.inj h
    simp [entries, Forest.entries, Branches.entries, Guard.directive]
  | .directive (.alternative condition), (others, rest) :: blocks =>
    obtain rfl := Option.some.inj h
    simp [entries, Forest.entries, Branches.entries, Guard.directive]
  | .directive (.opening condition), (others, rest) :: blocks =>
    obtain rfl := Option.some.inj h
    simp [entries, Forest.entries]

theorem entries_ofEntries? {es : List Entry} {p : Pending} (h : ofEntries? es = some p) :
    p.entries = es := by
  induction es generalizing p with
  | nil =>
    obtain rfl := Option.some.inj h
    rfl
  | cons entry rest ih =>
    obtain ⟨q, hq, hp⟩ := Option.bind_eq_some_iff.mp h
    rw [entries_put hp, ih hq]

mutual
/-- A forest in front of some lines is read as it is. -/
lemma ofEntries?_forest {rest : List Entry} {tail : Forest} {blocks : List (Branches × Forest)}
    (h : ofEntries? rest = some ⟨tail, blocks⟩) :
    ∀ forest : Forest, ofEntries? (forest.entries ++ rest) = some ⟨forest.append tail, blocks⟩
  | .empty => h
  | .line text forest => by
    rw [Forest.entries, List.cons_append, ofEntries?, ofEntries?_forest h forest]
    rfl
  | .block first body others forest => by
    have hothers := ofEntries?_branches (ofEntries?_forest h forest) others
    rw [Forest.entries, List.cons_append, List.append_assoc, List.append_assoc, ofEntries?,
      ofEntries?_forest hothers body, Forest.append_empty]
    rfl

lemma ofEntries?_branches {rest : List Entry} {tail : Forest} {blocks : List (Branches × Forest)}
    (h : ofEntries? rest = some ⟨tail, blocks⟩) :
    ∀ branches : Branches,
      ofEntries? (branches.entries ++ rest) = some ⟨.empty, (branches, tail) :: blocks⟩
  | .closed => by
    rw [Branches.entries, List.cons_append, List.nil_append, ofEntries?, h]
    rfl
  | .branch guard body others => by
    have hbody := ofEntries?_forest (ofEntries?_branches h others) body
    rw [Branches.entries, List.cons_append, List.append_assoc, ofEntries?, hbody,
      Forest.append_empty]
    cases guard <;> rfl
end

/-- As many blocks are closed as the directives of the lines leave to be opened. -/
theorem ofEntries?_of_balanced {es : List Entry} {opened : Nat}
    (h : BalancedFrom opened (es.filterMap Entry.directive?)) :
    ∃ p, ofEntries? es = some p ∧ p.blocks.length = opened := by
  induction es generalizing opened with
  | nil => exact ⟨_, rfl, (balancedFrom_nil.mp h).symm⟩
  | cons entry rest ih =>
    cases entry with
    | content text =>
      obtain ⟨p, hp, hl⟩ := ih h
      refine ⟨_, by rw [ofEntries?, hp]; rfl, ?_⟩
      exact hl
    | directive d =>
      cases d with
      | opening condition =>
        obtain ⟨⟨forest, blocks⟩, hp, hl⟩ := ih (balancedFrom_opening_cons.mp h)
        obtain ⟨⟨others, tail⟩, blocks, rfl⟩ := List.exists_cons_of_length_eq_add_one hl
        refine ⟨_, by rw [ofEntries?, hp]; rfl, ?_⟩
        exact Nat.succ.inj hl
      | alternative condition =>
        obtain ⟨ho, h⟩ := (balancedFrom_branch_cons rfl).mp h
        obtain ⟨⟨forest, blocks⟩, hp, rfl⟩ := ih h
        obtain ⟨⟨others, tail⟩, blocks, rfl⟩ := List.exists_cons_of_length_pos ho
        refine ⟨_, by rw [ofEntries?, hp]; rfl, ?_⟩
        rfl
      | otherwise =>
        obtain ⟨ho, h⟩ := (balancedFrom_branch_cons rfl).mp h
        obtain ⟨⟨forest, blocks⟩, hp, rfl⟩ := ih h
        obtain ⟨⟨others, tail⟩, blocks, rfl⟩ := List.exists_cons_of_length_pos ho
        refine ⟨_, by rw [ofEntries?, hp]; rfl, ?_⟩
        rfl
      | closing =>
        obtain ⟨ho, h⟩ := balancedFrom_closing_cons.mp h
        obtain ⟨p, hp, hl⟩ := ih h
        refine ⟨_, by rw [ofEntries?, hp]; rfl, ?_⟩
        rw [List.length_cons, hl]
        omega

end Pending

namespace Forest

/-- The forest that some lines are, if they are one. -/
def ofEntries? (es : List Entry) : Option Forest :=
  match Pending.ofEntries? es with
  | some ⟨forest, []⟩ => some forest
  | _ => none

/-- Lines are read as a forest exactly if they are its lines, so they are those of one at most. -/
theorem ofEntries?_eq_some_iff {es : List Entry} {forest : Forest} :
    ofEntries? es = some forest ↔ forest.entries = es := by
  constructor
  · intro h
    unfold ofEntries? at h
    split at h
    · rename_i read hp
      obtain rfl : read = forest := Option.some.inj h
      have hes := Pending.entries_ofEntries? hp
      simpa [Pending.entries] using hes
    · contradiction
  · rintro rfl
    have hnil : Pending.ofEntries? [] = some ⟨.empty, []⟩ := rfl
    have h := Pending.ofEntries?_forest hnil forest
    rw [List.append_nil, append_empty] at h
    rw [ofEntries?, h]

theorem ofEntries?_of_balanced {es : List Entry} (h : Balanced (es.filterMap Entry.directive?)) :
    ∃ forest, ofEntries? es = some forest := by
  obtain ⟨⟨forest, blocks⟩, hp, hl⟩ := Pending.ofEntries?_of_balanced h
  obtain rfl := List.length_eq_zero_iff.mp hl
  exact ⟨forest, by rw [ofEntries?, hp]⟩

end Forest

end LineTemplate
