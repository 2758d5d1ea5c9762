import LineTemplate.Directive
import LineTemplate.Fault

/-!
# Conditional blocks

Which lines of a template are emitted depends on the directives above them. The state kept is
small: whether the branch at hand is emitted, what that was in the enclosing blocks, and from
which depth on everything is passed over. Blocks inside a branch that is not emitted are counted
so that they balance, but their tests are never looked at.

A directive either is refused, or changes the state outright, or first asks whether one tag has
a value. `Reaction` says which, so that it is known what a step looks at.
-/
namespace LineTemplate

/-- What a directive does to a state of type `σ`. -/
inductive Reaction (σ : Type) where
  | refused (imbalance : Imbalance)
  | settled (next : σ)
  /-- The next state depends on whether the tag has a value. -/
  | asks (tag : Text) (next : Bool → σ)

namespace Reaction

variable {σ : Type}

def asked : Reaction σ → Option Text
  | asks tag _ => some tag
  | _ => none

def answer (hasValue : Text → Bool) : Reaction σ → Except Imbalance σ
  | refused imbalance => .error imbalance
  | settled next => .ok next
  | asks tag next => .ok (next (hasValue tag))

/-- The state after a reaction; a refusal changes nothing. -/
def next (hasValue : Text → Bool) (before : σ) (reaction : Reaction σ) : σ :=
  match reaction.answer hasValue with
  | .error _ => before
  | .ok after => after

end Reaction

/-- The emission of the branch at hand. -/
inductive Emission where
  /-- The branch is emitted. -/
  | live
  /-- No branch of the block has been taken yet. -/
  | waiting
  /-- An earlier branch of the block was taken. -/
  | spent
  deriving DecidableEq, Repr

def Emission.taken : Emission → Bool
  | live => true
  | waiting => false
  | spent => true

structure Scope where
  /-- The emission of the branch that the block stands in. -/
  saved : Emission
  openedAt : Nat
  deriving DecidableEq, Repr

/-- The state of the conditional blocks at some line. The depth is kept beside the open blocks, so
that it is known without counting them. -/
structure Conditional where
  emission : Emission
  scopes : List Scope
  depth : Nat
  /-- The depth from which on blocks are only counted, unless lines are emitted. -/
  skipDepth : Option Nat
  depth_eq : depth = scopes.length
  deriving DecidableEq, Repr

namespace Conditional

def start : Conditional := ⟨.live, [], 0, none, rfl⟩

def push (c : Conditional) (scope : Scope) : Conditional :=
  { c with scopes := scope :: c.scopes, depth := c.depth + 1, depth_eq := by simp [c.depth_eq] }

def pop (c : Conditional) : Conditional :=
  { c with scopes := c.scopes.tail, depth := c.depth - 1, depth_eq := by simp [c.depth_eq] }

def emits (c : Conditional) : Bool := c.emission == .live

/-- Whether directives at the present depth take effect. -/
def reaches (c : Conditional) : Bool :=
  match c.skipDepth with
  | none => true
  | some skip => c.depth ≤ skip

/-- The branch at hand gets an emission; if it is not emitted, what is deeper is passed over. -/
def settle (c : Conditional) (emission : Emission) : Conditional :=
  { c with emission, skipDepth := if emission = .live then none else some c.depth }

/-- Tests a condition for the branch at hand, unless it is passed over. -/
def test (c : Conditional) (condition : Condition) : Reaction Conditional :=
  if c.reaches then
    .asks condition.tag fun hasValue =>
      c.settle (if condition.test.holds hasValue then .live else .waiting)
  else .settled c

def opening (c : Conditional) (condition : Condition) (line : Nat) : Reaction Conditional :=
  (c.push ⟨c.emission, line⟩).test condition

def alternative (c : Conditional) (condition : Condition) : Reaction Conditional :=
  if c.scopes = [] then .refused .strayElif
  else if c.emission.taken then
    .settled (if c.reaches then c.settle .spent else c)
  else c.test condition

/-- Begins a branch for when none was taken. -/
def otherwise (c : Conditional) : Reaction Conditional :=
  if c.scopes = [] then .refused .strayElse
  else if c.reaches then
    match c.emission with
    | .waiting => .settled (c.settle .live)
    | .live => .settled (c.settle .spent)
    | .spent => .settled c
  else .settled c

def closing (c : Conditional) : Reaction Conditional :=
  match c.scopes with
  | [] => .refused .strayEndif
  | scope :: _ => .settled (if c.reaches then c.pop.settle scope.saved else c.pop)

/-- What a directive does, `line` being the line it stands on. -/
def react (c : Conditional) (line : Nat) : Directive → Reaction Conditional
  | .opening condition => c.opening condition line
  | .alternative condition => c.alternative condition
  | .otherwise => c.otherwise
  | .closing => c.closing

/-- One directive, the answers about tags being given. -/
def step (hasValue : Text → Bool) (c : Conditional) (line : Nat) (directive : Directive) :
    Except Fault Conditional :=
  match (c.react line directive).answer hasValue with
  | .error imbalance => .error (.unbalanced line imbalance)
  | .ok next => .ok next

/-- The fault of a template that ends here: the innermost open block is named. -/
def unclosed? (c : Conditional) : Option Fault :=
  match c.scopes with
  | [] => none
  | scope :: _ => some (.unbalanced scope.openedAt (.unclosed c.depth))

end Conditional

end LineTemplate
