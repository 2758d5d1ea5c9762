import LineTemplate.Conditional
import Mathlib.Tactic.Common

/-!
# Conditional blocks with a frame for each

The state of the conditional blocks is compact: one emission is shared by all open blocks, and a
depth says from where on directives are only counted. Here every open block has a frame of its own
that records what is known of that block. The compact state is a view of the frames, and the view
commutes with every directive, so that both follow any sequence of directives in the same way.
-/
namespace LineTemplate

namespace Reaction

variable {σ τ : Type}

/-- The same reaction, the states being seen through a view. -/
def map (view : σ → τ) : Reaction σ → Reaction τ
  | refused imbalance => refused imbalance
  | settled next => settled (view next)
  | asks tag next => asks tag fun hasValue => view (next hasValue)

/-- Whatever the answer, the reaction leads to a state of the given kind, if to any. -/
def Leads (kind : σ → Prop) : Reaction σ → Prop
  | refused _ => True
  | settled next => kind next
  | asks _ next => ∀ hasValue, kind (next hasValue)

@[simp] theorem asked_map (view : σ → τ) (reaction : Reaction σ) :
    (reaction.map view).asked = reaction.asked := by
  cases reaction <;> rfl

@[simp] theorem answer_map (view : σ → τ) (hasValue : Text → Bool) (reaction : Reaction σ) :
    (reaction.map view).answer hasValue = (reaction.answer hasValue).map view := by
  cases reaction <;> rfl

lemma Leads.answer {kind : σ → Prop} {reaction : Reaction σ} (h : reaction.Leads kind)
    {hasValue : Text → Bool} {after : σ} (ha : reaction.answer hasValue = .ok after) :
    kind after := by
  cases reaction with
  | refused imbalance => contradiction
  | settled next =>
    obtain rfl : next = after := Except.ok.inj ha
    exact h
  | asks tag next =>
    obtain rfl : next (hasValue tag) = after := Except.ok.inj ha
    exact h _

end Reaction

attribute [ext] Conditional

namespace Conditional

/-- How the parts of a state belong together: something is passed over exactly where nothing is
emitted, from the depth of an open block on. -/
structure Coherent (c : Conditional) : Prop where
  skip_none : c.skipDepth = none ↔ c.emission = .live
  skip_pos : ∀ skip, c.skipDepth = some skip → 1 ≤ skip
  skip_le : ∀ skip, c.skipDepth = some skip → skip ≤ c.depth
  live_outside : c.depth = 0 → c.emission = .live

theorem start_coherent : Coherent start where
  skip_none := by simp [start]
  skip_pos := by simp [start]
  skip_le := by simp [start]
  live_outside := fun _ => rfl

lemma Coherent.push {c : Conditional} (h : c.Coherent) (scope : Scope) :
    (c.push scope).Coherent where
  skip_none := h.skip_none
  skip_pos := h.skip_pos
  skip_le := fun skip hs => Nat.le_succ_of_le (h.skip_le skip hs)
  live_outside := fun hd => absurd hd (Nat.succ_ne_zero c.depth)

lemma settle_coherent {c : Conditional} (h : 0 < c.depth) (emission : Emission) :
    (c.settle emission).Coherent where
  skip_none := by simp [settle]
  skip_pos := by
    intro skip hs
    simp only [settle] at hs
    split_ifs at hs
    obtain rfl := Option.some.inj hs
    exact h
  skip_le := by
    intro skip hs
    simp only [settle] at hs
    split_ifs at hs
    obtain rfl := Option.some.inj hs
    exact Nat.le_refl _
  live_outside := fun hd => absurd hd (Nat.ne_of_gt h)

@[simp] theorem settle_settle (c : Conditional) (e e' : Emission) :
    (c.settle e).settle e' = c.settle e' := rfl

@[simp] theorem reaches_settle (c : Conditional) (emission : Emission) :
    (c.settle emission).reaches = true := by
  cases emission <;> simp [settle, reaches]

/-- What stands directly in a block is passed over exactly if the block is not emitted. -/
lemma Coherent.reaches_push {c : Conditional} (h : c.Coherent) (scope : Scope) :
    (c.push scope).reaches = c.emits := by
  cases hs : c.skipDepth with
  | none => simp [Conditional.push, reaches, emits, hs, h.skip_none.mp hs]
  | some skip =>
    have hle := h.skip_le skip hs
    have hne : c.emits = false := by
      refine beq_false_of_ne fun he => ?_
      simp [h.skip_none.mpr he] at hs
    rw [hne]
    simp only [Conditional.push, reaches, hs, decide_eq_false_iff_not]
    omega

end Conditional

structure Frame where
  /-- Whether lines were emitted where the block begins. -/
  parentLive : Bool
  /-- Whether a branch of the block has been taken. -/
  matched : Bool
  /-- Whether the branch at hand is emitted. -/
  live : Bool
  openedAt : Nat
  deriving DecidableEq, Repr

/-- Whether a further branch of the block can be taken. -/
def Frame.waits (f : Frame) : Bool := f.parentLive && !f.matched

/-- The open blocks, innermost first. -/
abbrev Frames := List Frame

namespace Frames

/-- Whether lines are emitted inside of the blocks. -/
def live : Frames → Bool
  | [] => true
  | f :: _ => f.live

/-- What a directive does to the open blocks, `line` being the line it stands on. A condition is
looked at only where its outcome counts. -/
def react (frames : Frames) (line : Nat) : Directive → Reaction Frames
  | .opening condition =>
    if live frames then
      .asks condition.tag fun hasValue =>
        let holds := condition.test.holds hasValue
        ⟨true, holds, holds, line⟩ :: frames
    else .settled (⟨false, false, false, line⟩ :: frames)
  | .alternative condition =>
    match frames with
    | [] => .refused .strayElif
    | f :: outer =>
      if f.waits then
        .asks condition.tag fun hasValue =>
          let holds := condition.test.holds hasValue
          { f with matched := holds, live := holds } :: outer
      else .settled ({ f with live := false } :: outer)
  | .otherwise =>
    match frames with
    | [] => .refused .strayElse
    | f :: outer =>
      .settled ({ f with live := f.waits,
                         matched := f.matched || f.parentLive } :: outer)
  | .closing =>
    match frames with
    | [] => .refused .strayEndif
    | _ :: outer => .settled outer

/-- One directive, the answers about tags being given. -/
def step (hasValue : Text → Bool) (frames : Frames) (line : Nat) (directive : Directive) :
    Except Fault Frames :=
  match (react frames line directive).answer hasValue with
  | .error imbalance => .error (.unbalanced line imbalance)
  | .ok next => .ok next

def unclosed? : Frames → Option Fault
  | [] => none
  | f :: outer => some (.unbalanced f.openedAt (.unclosed (f :: outer).length))

/-- A block stands in the branch at hand of the block around it; its branches are taken only where
lines are emitted, and an emitted branch is a taken one. -/
def Nested : Frames → Prop
  | [] => True
  | f :: outer =>
    f.parentLive = live outer ∧ (f.matched → f.parentLive) ∧ (f.live → f.matched) ∧ Nested outer

theorem nested_nil : Nested [] := True.intro

lemma react_opening_live {frames : Frames} (h : live frames = true) (line : Nat)
    (condition : Condition) :
    react frames line (.opening condition) = .asks condition.tag fun hasValue =>
      ⟨true, condition.test.holds hasValue, condition.test.holds hasValue, line⟩ :: frames := by
  simp [react, h]

lemma react_opening_dead {frames : Frames} (h : live frames = false) (line : Nat)
    (condition : Condition) :
    react frames line (.opening condition) = .settled (⟨false, false, false, line⟩ :: frames) := by
  simp [react, h]

lemma react_alternative_open {f : Frame} (h : f.waits = true)
    (outer : Frames) (line : Nat) (condition : Condition) :
    react (f :: outer) line (.alternative condition) = .asks condition.tag fun hasValue =>
      { f with matched := condition.test.holds hasValue,
               live := condition.test.holds hasValue } :: outer := by
  simp [react, h]

lemma react_alternative_shut {f : Frame} (h : f.waits = false)
    (outer : Frames) (line : Nat) (condition : Condition) :
    react (f :: outer) line (.alternative condition) =
      .settled ({ f with live := false } :: outer) := by
  simp [react, h]

theorem react_nested {frames : Frames} (h : Nested frames) (line : Nat) (directive : Directive) :
    (react frames line directive).Leads Nested := by
  cases directive with
  | opening condition =>
    cases hl : live frames with
    | true =>
      rw [react_opening_live hl]
      exact fun _ => ⟨hl.symm, fun _ => rfl, id, h⟩
    | false =>
      rw [react_opening_dead hl]
      exact ⟨hl.symm, id, id, h⟩
  | alternative condition =>
    cases frames with
    | nil => exact True.intro
    | cons f outer =>
      obtain ⟨hp, hm, -, ho⟩ := h
      cases hf : f.waits with
      | true =>
        rw [react_alternative_open hf]
        exact fun _ => ⟨hp, fun _ => (Bool.and_eq_true_iff.mp hf).1, id, ho⟩
      | false =>
        rw [react_alternative_shut hf]
        exact ⟨hp, hm, fun hl => absurd hl Bool.false_ne_true, ho⟩
  | otherwise =>
    cases frames with
    | nil => exact True.intro
    | cons f outer =>
      obtain ⟨hp, hm, -, ho⟩ := h
      refine ⟨hp, ?_, ?_, ho⟩
      · intro ht
        exact ((Bool.or_eq_true_iff.mp ht).elim hm id)
      · intro hl
        have hpl : f.parentLive = true := (Bool.and_eq_true_iff.mp hl).1
        simp [hpl]
  | closing =>
    cases frames with
    | nil => exact True.intro
    | cons f outer => exact h.2.2.2

/-- The emission of a block that stands where lines are emitted. -/
def emission (f : Frame) : Emission :=
  if f.live then .live else if f.matched then .spent else .waiting

/-- The compact state of the open blocks. A block that stands in a branch that is not emitted is
only counted. -/
def compact : Frames → Conditional
  | [] => .start
  | f :: outer =>
    let opened := (compact outer).push ⟨(compact outer).emission, f.openedAt⟩
    if f.parentLive then opened.settle (emission f) else opened

@[simp] theorem depth_compact (frames : Frames) : (compact frames).depth = frames.length := by
  induction frames with
  | nil => rfl
  | cons f outer ih =>
    cases hp : f.parentLive <;> simp [compact, hp, Conditional.push, Conditional.settle, ih]

@[simp] theorem scopes_compact_cons (f : Frame) (outer : Frames) :
    (compact (f :: outer)).scopes =
      ⟨(compact outer).emission, f.openedAt⟩ :: (compact outer).scopes := by
  cases hp : f.parentLive <;> simp [compact, hp, Conditional.push, Conditional.settle]

theorem compact_coherent {frames : Frames} (h : Nested frames) :
    (compact frames).Coherent ∧ (compact frames).emits = live frames := by
  induction frames with
  | nil => exact ⟨Conditional.start_coherent, rfl⟩
  | cons f outer ih =>
    obtain ⟨hp, hm, hl, ho⟩ := h
    obtain ⟨hc, he⟩ := ih ho
    have hopened := hc.push ⟨(compact outer).emission, f.openedAt⟩
    cases hpl : f.parentLive with
    | true =>
      simp only [compact, hpl, if_true]
      refine ⟨Conditional.settle_coherent (Nat.succ_pos _) _, ?_⟩
      cases hfl : f.live <;> cases hfm : f.matched <;>
        simp [Conditional.emits, Conditional.settle, emission, live, hfl, hfm]
    | false =>
      have hfl : f.live = false := by
        cases hfl : f.live with
        | false => rfl
        | true => simp [hm (hl hfl)] at hpl
      simp only [compact, hpl, Bool.false_eq_true, if_false]
      exact ⟨hopened, by rw [live, hfl, ← hpl, hp, ← he]; rfl⟩

/-- Directives in a block take effect exactly if the block stands where lines are emitted. -/
lemma reaches_compact_cons {f : Frame} {outer : Frames} (h : Nested (f :: outer)) :
    (compact (f :: outer)).reaches = f.parentLive := by
  obtain ⟨hc, he⟩ := compact_coherent h.2.2.2
  cases hpl : f.parentLive with
  | true => simp [compact, hpl]
  | false =>
    simp only [compact, hpl, Bool.false_eq_true, if_false]
    rw [hc.reaches_push, he, ← h.1, hpl]

/-- Where lines are emitted outside of a block, a change of its frame changes the emission. -/
lemma compact_cons_settle {f : Frame} (h : f.parentLive = true) (outer : Frames)
    (matched live : Bool) :
    compact ({ f with matched := matched, live := live } :: outer) =
      (compact (f :: outer)).settle (emission { f with matched := matched, live := live }) := by
  simp [compact, h]

lemma compact_cons_dead {f : Frame} (h : f.parentLive = false) (outer : Frames)
    (matched live : Bool) :
    compact ({ f with matched := matched, live := live } :: outer) = compact (f :: outer) := by
  simp [compact, h]

lemma emission_compact_cons {f : Frame} (hf : f.parentLive = true) (outer : Frames) :
    (compact (f :: outer)).emission = emission f := by
  simp [compact, hf, Conditional.settle]

lemma opening_compact {frames : Frames} (h : Nested frames) (line : Nat) (condition : Condition) :
    (compact frames).opening condition line =
      (react frames line (.opening condition)).map compact := by
  obtain ⟨hc, he⟩ := compact_coherent h
  simp only [Conditional.opening, Conditional.test, hc.reaches_push, he]
  cases hl : live frames with
  | true =>
    rw [react_opening_live hl]
    simp only [if_true, Reaction.map, Conditional.push]
    congr 1
    funext hasValue
    cases hv : condition.test.holds hasValue <;> simp [compact, emission, Conditional.push]
  | false =>
    rw [react_opening_dead hl]
    simp [Reaction.map, compact]

lemma alternative_compact_cons {f : Frame} {outer : Frames} (h : Nested (f :: outer)) (line : Nat)
    (condition : Condition) :
    (compact (f :: outer)).alternative condition =
      (react (f :: outer) line (.alternative condition)).map compact := by
  have hr := reaches_compact_cons h
  obtain ⟨-, -, hl, -⟩ := h
  simp only [Conditional.alternative, Conditional.test, scopes_compact_cons, reduceCtorEq,
    if_false, hr]
  by_cases hp : f.parentLive = true
  · rw [emission_compact_cons hp, if_pos hp, if_pos hp]
    by_cases hm : f.matched = true
    · have ht : (emission f).taken = true := by
        cases hfl : f.live <;> simp [emission, hfl, hm, Emission.taken]
      have hg := compact_cons_settle hp outer f.matched false
      rw [react_alternative_shut (by simp [Frame.waits, hm]), if_pos ht, Reaction.map, hg]
      simp [emission, hm]
    · have ht : ¬ (emission f).taken = true := by
        have hfl : ¬ f.live = true := fun hfl => hm (hl hfl)
        simp [emission, hfl, hm, Emission.taken]
      rw [react_alternative_open (by simp [Frame.waits, hp, hm]), if_neg ht, Reaction.map]
      congr 1
      funext hasValue
      let holds := condition.test.holds hasValue
      rw [compact_cons_settle hp outer holds holds]
      cases hv : condition.test.holds hasValue <;> simp [emission, holds, hv]
  · have hp' : f.parentLive = false := by simpa using hp
    have hg := compact_cons_dead hp' outer f.matched false
    rw [react_alternative_shut (by simp [Frame.waits, hp']), Reaction.map, hg]
    simp [hp']

lemma otherwise_compact_cons {f : Frame} {outer : Frames} (h : Nested (f :: outer)) (line : Nat) :
    (compact (f :: outer)).otherwise = (react (f :: outer) line .otherwise).map compact := by
  have hr := reaches_compact_cons h
  obtain ⟨-, -, hl, -⟩ := h
  simp only [Conditional.otherwise, scopes_compact_cons, reduceCtorEq, if_false, hr, react,
    Reaction.map]
  by_cases hp : f.parentLive = true
  · have hg := compact_cons_settle hp outer (f.matched || f.parentLive) f.waits
    rw [hg, if_pos hp, emission_compact_cons hp]
    cases hfl : f.live with
    | true => simp [emission, Frame.waits, hfl, hp, hl hfl]
    | false =>
      cases hm : f.matched with
      | true =>
        have hc : (compact (f :: outer)).settle .spent = compact (f :: outer) := by
          simp [compact, hp, emission, hfl, hm]
        simp [emission, Frame.waits, hfl, hp, hm, hc]
      | false => simp [emission, Frame.waits, hfl, hp, hm]
  · have hp' : f.parentLive = false := by simpa using hp
    have hg := compact_cons_dead hp' outer (f.matched || f.parentLive) f.waits
    rw [hg, if_neg hp]

lemma closing_compact_cons {f : Frame} {outer : Frames} (h : Nested (f :: outer)) :
    (compact (f :: outer)).closing = .settled (compact outer) := by
  obtain ⟨hc, he⟩ := compact_coherent h.2.2.2
  simp only [Conditional.closing, scopes_compact_cons, reaches_compact_cons h]
  congr 1
  cases hp : f.parentLive with
  | false =>
    simp only [Bool.false_eq_true, if_false]
    ext1 <;> simp [Conditional.pop, compact, hp, Conditional.push]
  | true =>
    have hl : (compact outer).emission = .live := by
      rw [← h.1, hp] at he
      exact eq_of_beq he
    ext1
    · rfl
    · simp [Conditional.settle, Conditional.pop]
    · simp [Conditional.settle, Conditional.pop]
    · simp [Conditional.settle, Conditional.pop, hl, hc.skip_none.mpr hl]

/-- A directive does the same to the compact state as to the frames. -/
theorem react_compact {frames : Frames} (h : Nested frames) (line : Nat) (directive : Directive) :
    (compact frames).react line directive = (react frames line directive).map compact := by
  cases directive with
  | opening condition => exact opening_compact h line condition
  | alternative condition =>
    cases frames with
    | nil => rfl
    | cons f outer => exact alternative_compact_cons h line condition
  | otherwise =>
    cases frames with
    | nil => rfl
    | cons f outer => exact otherwise_compact_cons h line
  | closing =>
    cases frames with
    | nil => rfl
    | cons f outer => exact closing_compact_cons h

theorem step_compact {frames : Frames} (h : Nested frames) (hasValue : Text → Bool) (line : Nat)
    (directive : Directive) :
    (compact frames).step hasValue line directive =
      (step hasValue frames line directive).map compact := by
  unfold Conditional.step step
  rw [react_compact h, Reaction.answer_map]
  cases (react frames line directive).answer hasValue <;> rfl

theorem step_nested {frames after : Frames} (h : Nested frames) {hasValue : Text → Bool}
    {line : Nat} {directive : Directive} (hs : step hasValue frames line directive = .ok after) :
    Nested after := by
  unfold step at hs
  split at hs
  · contradiction
  · obtain rfl := Except.ok.inj hs
    exact (react_nested h line directive).answer ‹_›

@[simp] theorem unclosed?_compact (frames : Frames) :
    (compact frames).unclosed? = unclosed? frames := by
  cases frames with
  | nil => rfl
  | cons f outer =>
    simp only [Conditional.unclosed?, scopes_compact_cons, depth_compact, unclosed?]

end Frames

/-- A directive of a sequence, with the line it stands on and the answers about tags that are
given at that time. -/
structure Move where
  line : Nat
  directive : Directive
  hasValue : Text → Bool

/-- What can be seen of a move and of the state after it. -/
structure Sight where
  fault : Option Fault
  asked : Option Text
  depth : Nat
  emits : Bool
  /-- The fault of a template that would end here. -/
  unclosed : Option Fault

/-- A machine that follows directives, with what can be seen of it. -/
structure Follower (σ : Type) where
  step : σ → Move → Except Fault σ
  asked : σ → Move → Option Text
  depth : σ → Nat
  emits : σ → Bool
  unclosed? : σ → Option Fault

namespace Follower

def compact : Follower Conditional where
  step c move := c.step move.hasValue move.line move.directive
  asked c move := (c.react move.line move.directive).asked
  depth := Conditional.depth
  emits := Conditional.emits
  unclosed? := Conditional.unclosed?

/-- The open blocks with a frame for each. -/
def framed : Follower Frames where
  step frames move := frames.step move.hasValue move.line move.directive
  asked frames move := (frames.react move.line move.directive).asked
  depth := List.length
  emits := Frames.live
  unclosed? := Frames.unclosed?

variable {σ : Type} (m : Follower σ)

/-- The state to go on from: a move that fails changes nothing. -/
def next (s : σ) (move : Move) : σ :=
  match m.step s move with
  | .error _ => s
  | .ok after => after

/-- The state after a sequence of moves, failing ones included. -/
def after (s : σ) (moves : List Move) : σ := moves.foldl m.next s

/-- The state after a sequence of moves, or the fault of the first one that fails. -/
def follow (s : σ) : List Move → Except Fault σ
  | [] => .ok s
  | move :: moves =>
    match m.step s move with
    | .error fault => .error fault
    | .ok after => follow after moves

def sight (s : σ) (move : Move) : Sight where
  fault :=
    match m.step s move with
    | .error fault => some fault
    | .ok _ => none
  asked := m.asked s move
  depth := m.depth (m.next s move)
  emits := m.emits (m.next s move)
  unclosed := m.unclosed? (m.next s move)

def sights (s : σ) : List Move → List Sight
  | [] => []
  | move :: moves => m.sight s move :: sights (m.next s move) moves

lemma step_compact {frames : Frames} (h : frames.Nested) (move : Move) :
    compact.step (Frames.compact frames) move = (framed.step frames move).map Frames.compact :=
  Frames.step_compact h move.hasValue move.line move.directive

lemma next_compact {frames : Frames} (h : frames.Nested) (move : Move) :
    compact.next (Frames.compact frames) move = Frames.compact (framed.next frames move) := by
  simp only [next, step_compact h]
  cases framed.step frames move <;> rfl

lemma next_nested {frames : Frames} (h : frames.Nested) (move : Move) :
    (framed.next frames move).Nested := by
  unfold next
  split
  · exact h
  · exact Frames.step_nested h ‹_›

lemma after_nested {frames : Frames} (h : frames.Nested) (moves : List Move) :
    (framed.after frames moves).Nested := by
  induction moves generalizing frames with
  | nil => exact h
  | cons move moves ih => exact ih (next_nested h move)

lemma after_compact {frames : Frames} (h : frames.Nested) (moves : List Move) :
    compact.after (Frames.compact frames) moves = Frames.compact (framed.after frames moves) := by
  induction moves generalizing frames with
  | nil => rfl
  | cons move moves ih =>
    simp only [after, List.foldl_cons, next_compact h]
    exact ih (next_nested h move)

lemma sight_compact {frames : Frames} (h : frames.Nested) (move : Move) :
    compact.sight (Frames.compact frames) move = framed.sight frames move := by
  have hn := next_nested h move
  simp only [sight, next_compact h, step_compact h]
  congr 1
  · cases framed.step frames move <;> rfl
  · simp [compact, framed, Frames.react_compact h]
  · exact Frames.depth_compact _
  · exact (Frames.compact_coherent hn).2
  · exact Frames.unclosed?_compact _

lemma sights_compact {frames : Frames} (h : frames.Nested) (moves : List Move) :
    compact.sights (Frames.compact frames) moves = framed.sights frames moves := by
  induction moves generalizing frames with
  | nil => rfl
  | cons move moves ih =>
    simp only [sights, sight_compact h, next_compact h, ih (next_nested h move)]

/-- The compact state refines the frames. Along any sequence of directives, on any lines, with any
answers about tags and whether or not some of them fail, both show the same, and the compact state
is that of the frames. -/
theorem compact_refines_framed (moves : List Move) :
    compact.sights .start moves = framed.sights [] moves ∧
      compact.after .start moves = Frames.compact (framed.after [] moves) :=
  ⟨sights_compact Frames.nested_nil moves, after_compact Frames.nested_nil moves⟩

end Follower

end LineTemplate
