import LineTemplate.Proofs.Production

/-!
# The blocks along a template

The state of the blocks at a line is what the directives above it lead to. A run looks at what comes
behind some lines only from the state that they lead to.
-/
namespace LineTemplate

/-- The directives among some lines, in order, the first line having number `line`. -/
def Entry.moves (hasValue : Text → Bool) (line : Nat) : List Entry → List Move
  | [] => []
  | .content _ :: es => moves hasValue (line + 1) es
  | .directive d :: es => ⟨line, d, hasValue⟩ :: moves hasValue (line + 1) es

namespace Expander

variable (e : Expander)

/-- The state of the conditional blocks behind the first lines of a template. -/
def blocksBehind (es : List Entry) : Conditional :=
  Follower.compact.after .start (Entry.moves e.tags.hasValue 1 es)

/-- The open blocks behind some lines, the first of them having number `line`. -/
def framesBehind (line : Nat) (frames : Frames) (es : List Entry) : Frames :=
  Follower.framed.after frames (Entry.moves e.tags.hasValue line es)

@[simp] theorem framesBehind_nil (line : Nat) (frames : Frames) :
    e.framesBehind line frames [] = frames := rfl

@[simp] theorem framesBehind_content (line : Nat) (frames : Frames) (text : Text)
    (es : List Entry) :
    e.framesBehind line frames (.content text :: es) = e.framesBehind (line + 1) frames es := rfl

lemma framesBehind_directive {line : Nat} {frames after : Frames} {d : Directive}
    (h : frames.step e.tags.hasValue line d = .ok after) (es : List Entry) :
    e.framesBehind line frames (.directive d :: es) = e.framesBehind (line + 1) after es := by
  have hnext : Follower.framed.next frames ⟨line, d, e.tags.hasValue⟩ = after := by
    simp only [Follower.next, Follower.framed, h]
  rw [framesBehind, Entry.moves, Follower.after, List.foldl_cons, hnext]
  rfl

theorem emits_blocksBehind (es : List Entry) :
    (e.blocksBehind es).emits = (e.framesBehind 1 [] es).live := by
  have hcompact := Follower.after_compact Frames.nested_nil (Entry.moves e.tags.hasValue 1 es)
  have hnested := Follower.after_nested Frames.nested_nil (Entry.moves e.tags.hasValue 1 es)
  rw [blocksBehind, show Conditional.start = Frames.compact [] from rfl, hcompact]
  exact (Frames.compact_coherent hnested).2

/-- Two ends of a template that produce the same from the state in front of them make the same
difference to what the whole produces. -/
theorem produce_append_congr {line : Nat} {frames : Frames} {es rest rest' : List Entry}
    (h : e.produce (line + es.length) (e.framesBehind line frames es) rest =
      e.produce (line + es.length) (e.framesBehind line frames es) rest') :
    e.produce line frames (es ++ rest) = e.produce line frames (es ++ rest') := by
  induction es generalizing line frames with
  | nil => exact h
  | cons entry es ih =>
    rw [Entry.add_length_cons] at h
    rw [List.cons_append, List.cons_append]
    cases entry with
    | content text =>
      cases hl : frames.live with
      | true => rw [produce_content_live e hl, produce_content_live e hl, ih h]
      | false => rw [produce_content_dead e hl, produce_content_dead e hl, ih h]
    | directive d =>
      cases hs : frames.step e.tags.hasValue line d with
      | error fault => rw [produce_directive_error e hs, produce_directive_error e hs]
      | ok after =>
        rw [framesBehind_directive e hs] at h
        rw [produce_directive e hs, produce_directive e hs, ih h]

end Expander

end LineTemplate
