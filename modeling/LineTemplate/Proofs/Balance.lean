import LineTemplate.Proofs.Frames

/-!
# Balanced sequences of directives

How deep a sequence of directives stands is the number of blocks that it opens less the number of
blocks that it closes, whatever is emitted in between. A sequence that closes all that it opens, and
has no branch or end of a block that it did not open, can be taken from every state that is ever
reached, and leaves that state as it was.
-/
namespace LineTemplate

namespace Directive

def opens : Directive → Bool
  | opening _ => true
  | _ => false

def closes : Directive → Bool
  | closing => true
  | _ => false

def branches : Directive → Bool
  | alternative _ => true
  | otherwise => true
  | _ => false

/-- By how much a directive changes the number of open blocks. -/
def weight : Directive → Int
  | opening _ => 1
  | closing => -1
  | _ => 0

/-- What is wrong with a directive where no block is open, if anything is. -/
def stray? : Directive → Option Imbalance
  | opening _ => none
  | alternative _ => some .strayElif
  | otherwise => some .strayElse
  | closing => some .strayEndif

lemma opens_eq_false_of_branches {d : Directive} (h : d.branches = true) : d.opens = false := by
  cases d with
  | opening condition => contradiction
  | closing => contradiction
  | alternative condition => rfl
  | otherwise => rfl

end Directive

/-- The number of blocks that are opened less the number of those that are closed. -/
def level (ds : List Directive) : Int := ds.countP Directive.opens - ds.countP Directive.closes

@[simp] theorem level_nil : level [] = 0 := rfl

@[simp] theorem level_append (ds ds' : List Directive) :
    level (ds ++ ds') = level ds + level ds' := by
  simp only [level, List.countP_append]
  omega

@[simp] theorem level_cons (d : Directive) (ds : List Directive) :
    level (d :: ds) = d.weight + level ds := by
  simp only [level, List.countP_cons]
  cases d <;> simp [Directive.opens, Directive.closes, Directive.weight] <;> omega

/-- Behind `opened` open blocks, no branch and no end of a block stands where no block is open. -/
def Sheltered (opened : Nat) (ds : List Directive) : Prop :=
  ∀ before d after, ds = before ++ d :: after → d.opens = false → opened + level before ≠ 0

theorem sheltered_nil {opened : Nat} : Sheltered opened [] := by
  intro before d after h
  simp at h

theorem sheltered_cons {opened : Nat} {d : Directive} {ds : List Directive} :
    Sheltered opened (d :: ds) ↔
      (d.opens = false → opened ≠ 0) ∧
        ∃ opened' : Nat, (opened' : Int) = opened + d.weight ∧ Sheltered opened' ds := by
  constructor
  · intro h
    have hd : d.opens = false → opened ≠ 0 := fun ho => by simpa using h [] d ds rfl ho
    have hw : 0 ≤ opened + d.weight := by
      cases d <;> simp_all [Directive.opens, Directive.weight] <;> omega
    refine ⟨hd, (opened + d.weight).toNat, by omega, fun before d' after hds ho => ?_⟩
    have := h (d :: before) d' after (by rw [hds, List.cons_append]) ho
    rw [level_cons] at this
    omega
  · rintro ⟨hd, opened', hw, h⟩ before d' after hds ho
    rcases List.cons_eq_append_iff.mp hds with ⟨rfl, hd'⟩ | ⟨before', rfl, hds'⟩
    · obtain rfl : d' = d := (List.cons.inj hd').1
      simpa using hd ho
    · have := h before' d' after hds' ho
      rw [level_cons]
      omega

/-- The number of open blocks is never negative along a sheltered sequence. -/
lemma Sheltered.nonneg {opened : Nat} {ds : List Directive} (h : Sheltered opened ds) :
    0 ≤ opened + level ds := by
  induction ds generalizing opened with
  | nil => simp
  | cons d ds ih =>
    obtain ⟨-, opened', hw, h⟩ := sheltered_cons.mp h
    have := ih h
    rw [level_cons]
    omega

lemma Sheltered.left {opened : Nat} {ds ds' : List Directive} (h : Sheltered opened (ds ++ ds')) :
    Sheltered opened ds := by
  intro before d after hds ho
  exact h before d (after ++ ds') (by rw [hds, List.append_assoc, List.cons_append]) ho

/-- Behind `opened` open blocks, no prefix of a sequence closes more blocks than are open, the whole
of it closes all that are open, and each branch belongs to an open block. -/
structure BalancedFrom (opened : Nat) (ds : List Directive) : Prop where
  never_below : ∀ before after, ds = before ++ after → 0 ≤ opened + level before
  branch_open : ∀ before d after, ds = before ++ d :: after → d.branches = true →
    0 < opened + level before
  all_closed : opened + level ds = 0

/-- A sequence that opens as many blocks as it closes, closes no block before it is opened, and has
branches only of blocks that it opened. -/
abbrev Balanced (ds : List Directive) : Prop := BalancedFrom 0 ds

theorem balancedFrom_iff {opened : Nat} {ds : List Directive} :
    BalancedFrom opened ds ↔ Sheltered opened ds ∧ opened + level ds = 0 := by
  constructor
  · intro h
    refine ⟨fun before d after hds ho => ?_, h.all_closed⟩
    cases hb : d.branches with
    | true =>
      have hopen := h.branch_open before d after hds hb
      omega
    | false =>
      have hbelow := h.never_below (before ++ [d]) after (by rw [hds, List.append_assoc]; rfl)
      have hw : d.weight = -1 := by
        cases d <;> simp_all [Directive.opens, Directive.branches, Directive.weight]
      simp only [level_append, level_cons, level_nil, hw] at hbelow
      omega
  · rintro ⟨h, ht⟩
    refine ⟨?_, fun before d after hds hb => ?_, ht⟩
    · rintro before after rfl
      exact h.left.nonneg
    · subst hds
      have hne := h before d after rfl (Directive.opens_eq_false_of_branches hb)
      have hle := h.left.nonneg
      omega

theorem balancedFrom_cons {opened : Nat} {d : Directive} {ds : List Directive} :
    BalancedFrom opened (d :: ds) ↔
      (d.opens = false → opened ≠ 0) ∧
        ∃ opened' : Nat, (opened' : Int) = opened + d.weight ∧ BalancedFrom opened' ds := by
  simp only [balancedFrom_iff, sheltered_cons, level_cons]
  constructor
  · rintro ⟨⟨hd, opened', hw, h⟩, ht⟩
    exact ⟨hd, opened', hw, h, by omega⟩
  · rintro ⟨hd, opened', hw, h, ht⟩
    exact ⟨⟨hd, opened', hw, h⟩, by omega⟩

theorem balancedFrom_nil {opened : Nat} : BalancedFrom opened [] ↔ opened = 0 := by
  simp [balancedFrom_iff, sheltered_nil]

theorem balancedFrom_opening_cons {opened : Nat} {condition : Condition} {ds : List Directive} :
    BalancedFrom opened (.opening condition :: ds) ↔ BalancedFrom (opened + 1) ds := by
  rw [balancedFrom_cons]
  constructor
  · rintro ⟨-, opened', hw, h⟩
    obtain rfl : opened' = opened + 1 := by simp only [Directive.weight] at hw; omega
    exact h
  · exact fun h => ⟨fun ho => absurd ho.symm Bool.false_ne_true, _, rfl, h⟩

theorem balancedFrom_closing_cons {opened : Nat} {ds : List Directive} :
    BalancedFrom opened (.closing :: ds) ↔ 0 < opened ∧ BalancedFrom (opened - 1) ds := by
  rw [balancedFrom_cons]
  constructor
  · rintro ⟨hd, opened', hw, h⟩
    simp only [Directive.weight] at hw
    obtain rfl : opened' = opened - 1 := by omega
    exact ⟨Nat.pos_of_ne_zero (hd rfl), h⟩
  · rintro ⟨ho, h⟩
    exact ⟨fun _ => Nat.ne_of_gt ho, _, by simp only [Directive.weight]; omega, h⟩

theorem balancedFrom_branch_cons {opened : Nat} {d : Directive} (hb : d.branches = true)
    {ds : List Directive} :
    BalancedFrom opened (d :: ds) ↔ 0 < opened ∧ BalancedFrom opened ds := by
  have hw : d.weight = 0 := by cases d <;> simp_all [Directive.branches, Directive.weight]
  have hd := Directive.opens_eq_false_of_branches hb
  rw [balancedFrom_cons, hw]
  constructor
  · rintro ⟨ho, opened', he, h⟩
    obtain rfl : opened' = opened := by omega
    exact ⟨Nat.pos_of_ne_zero (ho hd), h⟩
  · rintro ⟨ho, h⟩
    exact ⟨fun _ => Nat.ne_of_gt ho, opened, by omega, h⟩

/-- Whether a sequence is balanced is found out by counting along it. -/
instance decidableBalancedFrom : ∀ opened ds, Decidable (BalancedFrom opened ds)
  | _, [] => decidable_of_iff _ balancedFrom_nil.symm
  | opened, .opening _ :: ds =>
    have := decidableBalancedFrom (opened + 1) ds
    decidable_of_iff _ balancedFrom_opening_cons.symm
  | opened, .closing :: ds =>
    have := decidableBalancedFrom (opened - 1) ds
    decidable_of_iff _ balancedFrom_closing_cons.symm
  | opened, .alternative _ :: ds =>
    have := decidableBalancedFrom opened ds
    decidable_of_iff _ (balancedFrom_branch_cons rfl).symm
  | opened, .otherwise :: ds =>
    have := decidableBalancedFrom opened ds
    decidable_of_iff _ (balancedFrom_branch_cons rfl).symm

namespace Frames

variable (hasValue : Text → Bool) (line : Nat)

/-- Opening a block adds a frame with the line of the directive, whatever the answer. -/
lemma step_opening (frames : Frames) (condition : Condition) :
    ∃ f : Frame, f.openedAt = line ∧
      step hasValue frames line (.opening condition) = .ok (f :: frames) := by
  cases hl : live frames with
  | true => exact ⟨_, rfl, by simp only [step, react_opening_live hl, Reaction.answer]; rfl⟩
  | false => exact ⟨_, rfl, by simp only [step, react_opening_dead hl, Reaction.answer]; rfl⟩

/-- Another branch changes the innermost frame, but not the line that opened its block. -/
lemma step_branch {d : Directive} (hb : d.branches = true) (f : Frame) (outer : Frames) :
    ∃ g : Frame, g.openedAt = f.openedAt ∧
      step hasValue (f :: outer) line d = .ok (g :: outer) := by
  cases d with
  | opening condition => contradiction
  | closing => contradiction
  | otherwise =>
    exact ⟨{ f with live := f.waits, matched := f.matched || f.parentLive }, rfl, rfl⟩
  | alternative condition =>
    let holds := condition.test.holds (hasValue condition.tag)
    cases hf : f.waits with
    | true =>
      refine ⟨{ f with matched := holds, live := holds }, rfl, ?_⟩
      simp only [step, react_alternative_open hf, Reaction.answer, holds]
    | false =>
      refine ⟨{ f with live := false }, rfl, ?_⟩
      simp only [step, react_alternative_shut hf, Reaction.answer]

@[simp] theorem step_closing (f : Frame) (outer : Frames) :
    step hasValue (f :: outer) line .closing = .ok outer := rfl

lemma step_stray {d : Directive} {imbalance : Imbalance} (hd : d.stray? = some imbalance) :
    step hasValue [] line d = .error (.unbalanced line imbalance) := by
  cases d with
  | opening condition => contradiction
  | alternative condition =>
    obtain rfl : .strayElif = imbalance := Option.some.inj hd
    rfl
  | otherwise =>
    obtain rfl : .strayElse = imbalance := Option.some.inj hd
    rfl
  | closing =>
    obtain rfl : .strayEndif = imbalance := Option.some.inj hd
    rfl

end Frames

namespace Follower

/-- Behind some blocks, a sequence that closes just these leaves the blocks around them. -/
lemma follow_framed {moves : List Move} {inner : Frames}
    (h : BalancedFrom inner.length (moves.map Move.directive)) (outer : Frames) :
    framed.follow (inner ++ outer) moves = .ok outer := by
  induction moves generalizing inner with
  | nil =>
    obtain rfl : inner = [] := List.length_eq_zero_iff.mp (balancedFrom_nil.mp h)
    rfl
  | cons move moves ih =>
    obtain ⟨line, d, hasValue⟩ := move
    cases hb : d.branches with
    | true =>
      obtain ⟨ho, h⟩ := (balancedFrom_branch_cons hb).mp h
      obtain ⟨f, inner, rfl⟩ := List.exists_cons_of_length_pos ho
      obtain ⟨g, -, hs⟩ := Frames.step_branch hasValue line hb f (inner ++ outer)
      have hrest : framed.follow (g :: inner ++ outer) moves = .ok outer := ih h
      simpa only [follow, framed, List.cons_append, hs] using hrest
    | false =>
      cases d with
      | opening condition =>
        obtain ⟨f, -, hs⟩ := Frames.step_opening hasValue line (inner ++ outer) condition
        have hrest : framed.follow (f :: inner ++ outer) moves = .ok outer :=
          ih (balancedFrom_opening_cons.mp h)
        simpa only [follow, framed, List.cons_append, hs] using hrest
      | closing =>
        obtain ⟨ho, h⟩ := balancedFrom_closing_cons.mp h
        obtain ⟨f, inner, rfl⟩ := List.exists_cons_of_length_pos ho
        exact ih h
      | alternative condition => contradiction
      | otherwise => contradiction

lemma follow_compact {frames : Frames} (h : frames.Nested) (moves : List Move) :
    compact.follow (Frames.compact frames) moves =
      (framed.follow frames moves).map Frames.compact := by
  induction moves generalizing frames with
  | nil => rfl
  | cons move moves ih =>
    simp only [follow, step_compact h]
    cases hs : framed.step frames move with
    | error fault => rfl
    | ok after => exact ih (Frames.step_nested h hs)

/-- Every state that is reached, failing moves included, is coherent, and a balanced sequence can be
followed from it without a fault and ends in the same state. -/
theorem balanced_moves_keep_state (before : List Move) :
    (compact.after .start before).Coherent ∧
      ∀ within : List Move, Balanced (within.map Move.directive) →
        compact.follow (compact.after .start before) within =
          .ok (compact.after .start before) := by
  have hn := after_nested Frames.nested_nil before
  rw [show Conditional.start = Frames.compact [] from rfl, after_compact Frames.nested_nil before]
  refine ⟨(Frames.compact_coherent hn).1, fun within hw => ?_⟩
  have hf := @follow_framed within [] hw (framed.after [] before)
  rw [follow_compact hn, show framed.follow (framed.after [] before) within = _ from hf]
  rfl

/-- Blocks inside of a branch that is not taken, with branches of their own. -/
theorem nested_blocks_keep_state :
    Balanced [.opening ⟨.empty, ['B']⟩, .alternative ⟨.empty, ['C']⟩, .closing] ∧
      compact.follow (compact.after .start [⟨1, .opening ⟨.notEmpty, ['A']⟩, fun _ => false⟩])
          [⟨2, .opening ⟨.empty, ['B']⟩, fun _ => true⟩,
            ⟨3, .alternative ⟨.empty, ['C']⟩, fun _ => false⟩, ⟨4, .closing, fun _ => true⟩] =
        .ok (compact.after .start [⟨1, .opening ⟨.notEmpty, ['A']⟩, fun _ => false⟩]) :=
  ⟨by decide, (balanced_moves_keep_state _).2 _ (by decide)⟩

end Follower

end LineTemplate
