import LineTemplate.Proofs.Forest

/-!
# The meaning of a forest of blocks

A forest has a meaning of its own, by recursion: of each block the first branch whose guard holds,
and nothing of a block where no guard holds. Going through the lines one by one with the open blocks
at hand produces just that, since a branch that is not taken produces nothing and leaves the open
blocks as they are.
-/
namespace LineTemplate

/-- Whether a guard holds; a tag that is not defined counts as empty. -/
def Guard.holds (tags : Dictionary) : Guard → Bool
  | .holding condition => condition.test.holds (tags.hasValue condition.tag)
  | .always => true

mutual
/-- The meaning of a forest that begins at number `line`. -/
def Forest.produce (e : Expander) (line : Nat) : Forest → Produced
  | .empty => .nothing
  | .line text rest => (e.produceLine line text).andThen (rest.produce e (line + 1))
  | .block first body others rest =>
    let taken :=
      if (Guard.holding first).holds e.tags then body.produce e (line + 1)
      else others.produce e (line + 1 + body.height)
    taken.andThen (rest.produce e (line + 1 + body.height + others.height))

/-- The meaning of branches of which none before was taken. -/
def Branches.produce (e : Expander) (line : Nat) : Branches → Produced
  | .closed => .nothing
  | .branch guard body others =>
    if guard.holds e.tags then body.produce e (line + 1)
    else others.produce e (line + 1 + body.height)
end

namespace Frames

lemma step_opening_dead {frames : Frames} (h : frames.live = false) (hasValue : Text → Bool)
    (line : Nat) (condition : Condition) :
    step hasValue frames line (.opening condition) =
      .ok (⟨false, false, false, line⟩ :: frames) := by
  simp only [step, react_opening_dead h, Reaction.answer]

lemma step_opening_live {frames : Frames} (h : frames.live = true) (tags : Dictionary)
    (line : Nat) (condition : Condition) :
    ∃ f : Frame, live (f :: frames) = (Guard.holding condition).holds tags ∧
      f.waits = !(Guard.holding condition).holds tags ∧
      step tags.hasValue frames line (.opening condition) = .ok (f :: frames) := by
  let holds := (Guard.holding condition).holds tags
  refine ⟨⟨true, holds, holds, line⟩, rfl, rfl, ?_⟩
  simp only [step, react_opening_live h, Reaction.answer, Guard.holds, holds]

/-- A branch of a block of which no further branch can be taken. -/
lemma step_guard_shut {f : Frame} (h : f.waits = false) (outer : Frames)
    (hasValue : Text → Bool) (line : Nat) (guard : Guard) :
    ∃ g : Frame, live (g :: outer) = false ∧ g.waits = false ∧
      step hasValue (f :: outer) line guard.directive = .ok (g :: outer) := by
  cases guard with
  | holding condition =>
    refine ⟨{ f with live := false }, rfl, h, ?_⟩
    simp only [step, Guard.directive, react_alternative_shut h, Reaction.answer]
  | always =>
    refine ⟨{ f with live := f.waits, matched := f.matched || f.parentLive }, h, ?_, rfl⟩
    cases hp : f.parentLive <;> simp [Frame.waits]

/-- A branch of a block of which no branch was taken is taken exactly if its guard holds. -/
lemma step_guard_waits {f : Frame} (h : f.waits = true) (outer : Frames) (tags : Dictionary)
    (line : Nat) (guard : Guard) :
    ∃ g : Frame, live (g :: outer) = guard.holds tags ∧ g.waits = !guard.holds tags ∧
      step tags.hasValue (f :: outer) line guard.directive = .ok (g :: outer) := by
  have hp : f.parentLive = true := (Bool.and_eq_true_iff.mp h).1
  cases guard with
  | holding condition =>
    let holds := condition.test.holds (tags.hasValue condition.tag)
    refine ⟨{ f with matched := holds, live := holds }, rfl, ?_, ?_⟩
    · simp [Frame.waits, hp, Guard.holds, holds]
    · simp only [step, Guard.directive, react_alternative_open h, Reaction.answer, holds]
  | always =>
    refine ⟨{ f with live := f.waits, matched := f.matched || f.parentLive }, h, ?_, rfl⟩
    simp [Frame.waits, hp, Guard.holds]

end Frames

namespace Expander

variable (e : Expander)

mutual
/-- Where no lines are emitted, a forest produces nothing and leaves the open blocks as they are. -/
lemma produce_forest_dead {frames : Frames} (h : frames.live = false) (rest : List Entry) :
    ∀ (line : Nat) (forest : Forest), e.produce line frames (forest.entries ++ rest) =
      e.produce (line + forest.height) frames rest
  | line, .empty => rfl
  | line, .line text forest => by
    rw [Forest.entries, List.cons_append, produce_content_dead e h,
      produce_forest_dead h rest (line + 1) forest, Forest.height_line, Nat.add_assoc]
  | line, .block first body others forest => by
    have hs := Frames.step_opening_dead h e.tags.hasValue line first
    rw [Forest.entries, List.cons_append, produce_directive e hs, List.append_assoc,
      List.append_assoc, produce_forest_dead rfl, produce_branches_shut rfl,
      produce_forest_dead h, Forest.height_block]
    simp only [Nat.add_assoc]

/-- A block of which no further branch can be taken produces nothing more. -/
lemma produce_branches_shut {f : Frame} (h : f.waits = false) (outer : Frames)
    (rest : List Entry) :
    ∀ (line : Nat) (branches : Branches),
      e.produce line (f :: outer) (branches.entries ++ rest) =
        e.produce (line + branches.height) outer rest
  | line, .closed => rfl
  | line, .branch guard body others => by
    obtain ⟨g, hl, hw, hs⟩ := Frames.step_guard_shut h outer e.tags.hasValue line guard
    rw [Branches.entries, List.cons_append, produce_directive e hs, List.append_assoc,
      produce_forest_dead hl, produce_branches_shut hw, Branches.height_branch]
    simp only [Nat.add_assoc]
end

mutual
/-- Where lines are emitted, a forest produces its meaning and leaves the open blocks alone. -/
lemma produce_forest_live {frames : Frames} (h : frames.live = true) (rest : List Entry) :
    ∀ (line : Nat) (forest : Forest), e.produce line frames (forest.entries ++ rest) =
      (forest.produce e line).andThen (e.produce (line + forest.height) frames rest)
  | line, .empty => by simp [Forest.entries, Forest.produce, Forest.height]
  | line, .line text forest => by
    rw [Forest.entries, List.cons_append, produce_content_live e h,
      produce_forest_live h rest (line + 1) forest, Forest.produce, Produced.andThen_assoc,
      Forest.height_line, Nat.add_assoc]
  | line, .block first body others forest => by
    obtain ⟨f, hl, hw, hs⟩ := Frames.step_opening_live h e.tags line first
    rw [Forest.entries, List.cons_append, produce_directive e hs, List.append_assoc,
      List.append_assoc, Forest.produce, Forest.height_block]
    cases hg : (Guard.holding first).holds e.tags with
    | true =>
      rw [hg] at hl hw
      rw [produce_forest_live hl, produce_branches_shut e hw, produce_forest_live h, if_pos rfl,
        Produced.andThen_assoc]
      simp only [Nat.add_assoc]
    | false =>
      rw [hg] at hl hw
      rw [produce_forest_dead e hl, produce_branches_waiting hw, produce_forest_live h,
        if_neg Bool.false_ne_true, Produced.andThen_assoc]
      simp only [Nat.add_assoc]

/-- A block of which no branch was taken yet produces the meaning of its further branches. -/
lemma produce_branches_waiting {f : Frame} (h : f.waits = true) (outer : Frames)
    (rest : List Entry) :
    ∀ (line : Nat) (branches : Branches),
      e.produce line (f :: outer) (branches.entries ++ rest) =
        (branches.produce e line).andThen (e.produce (line + branches.height) outer rest)
  | line, .closed => by
    rw [Branches.entries, List.cons_append, Branches.produce, Produced.nothing_andThen]
    rfl
  | line, .branch guard body others => by
    obtain ⟨g, hl, hw, hs⟩ := Frames.step_guard_waits h outer e.tags line guard
    rw [Branches.entries, List.cons_append, produce_directive e hs, List.append_assoc,
      Branches.produce, Branches.height_branch]
    cases hg : guard.holds e.tags with
    | true =>
      rw [hg] at hl hw
      rw [produce_forest_live hl, produce_branches_shut e hw, if_pos rfl]
      simp only [Nat.add_assoc]
    | false =>
      rw [hg] at hl hw
      rw [produce_forest_dead e hl, produce_branches_waiting hw, if_neg Bool.false_ne_true]
      simp only [Nat.add_assoc]
end

lemma production_of_entries {template : Text} {forest : Forest}
    (h : forest.entries = Entry.ofTemplate template) :
    e.production template = forest.produce e 1 := by
  have hlive := e.produce_forest_live (show Frames.live [] = true from rfl) [] 1 forest
  rw [production, ← h, ← List.append_nil forest.entries, hlive]
  exact Produced.andThen_nothing _

/-- A template whose directives balance is one forest and no other. With every dictionary and every
line ending the text, the warnings and the fault of its expansion are those of the forest. -/
theorem balanced_template_produces_forest (template : Text)
    (h : Balanced ((Entry.ofTemplate template).filterMap Entry.directive?)) :
    ∃ forest : Forest,
      (∀ other : Forest, other.entries = Entry.ofTemplate template ↔ other = forest) ∧
        ∀ e : Expander, e.written template = (forest.produce e 1).text ∧
          e.check template = (forest.produce e 1).outcome := by
  obtain ⟨forest, hf⟩ := Forest.ofEntries?_of_balanced h
  have hentries := Forest.ofEntries?_eq_some_iff.mp hf
  refine ⟨forest, fun other => ⟨fun ho => ?_, fun ho => ho ▸ hentries⟩, fun e => ?_⟩
  · exact Option.some.inj ((Forest.ofEntries?_eq_some_iff.mpr ho).symm.trans hf)
  · rw [written_eq, check_eq, e.production_of_entries hentries]
    exact ⟨rfl, rfl⟩

/-- A block with another one in its second branch. -/
theorem nested_template_produces_forest :
    let template :=
      "!!ifempty: A!!\na\n!!else!!\n!!ifempty: B!!\n%%C%%\n!!endif!!\n!!endif!!".toList
    Balanced ((Entry.ofTemplate template).filterMap Entry.directive?) ∧
      ∃ forest : Forest,
        (∀ other : Forest, other.entries = Entry.ofTemplate template ↔ other = forest) ∧
          ∀ e : Expander, e.written template = (forest.produce e 1).text ∧
            e.check template = (forest.produce e 1).outcome :=
  ⟨by decide +kernel, balanced_template_produces_forest _ (by decide +kernel)⟩

end Expander

end LineTemplate
