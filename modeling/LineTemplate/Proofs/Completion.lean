import LineTemplate.Proofs.Course
import LineTemplate.Proofs.Imbalance

/-!
# When an expansion succeeds

An expansion succeeds exactly if the directives of its template balance and no line that is emitted
fails. Where each tag on a line has a value, no line is dropped, and a line fails by the options of
some placeholder on it.
-/
namespace LineTemplate

/-- Where each tag has a value, placeholders can be substituted exactly if the options of all of them
can be read. -/
lemma substituteAll_ne_error_iff {tags : Dictionary} {newline lineIndent tail : Text} {line : Nat}
    {os : List Placeholder.Occurrence}
    (h : ∀ o ∈ os, tags.hasValue o.placeholder.tag = true) :
    (∀ fault, (substituteAll tags newline line lineIndent tail os).result ≠ .error fault) ↔
      ∀ o ∈ os, ∃ options, o.placeholder.readOptions lineIndent line = .ok options := by
  induction os with
  | nil => simp [substituteAll]
  | cons o os ih =>
    obtain ⟨ho, hos⟩ := List.forall_mem_cons.mp h
    rw [List.forall_mem_cons, ← ih hos, substituteAll]
    cases hvalue : tags.get? o.placeholder.tag with
    | none => simp [Dictionary.hasValue, hvalue] at ho
    | some value =>
      have hne : value.isEmpty = false := by simpa [Dictionary.hasValue, hvalue] using ho
      cases hoptions : o.placeholder.readOptions lineIndent line with
      | error fault => simp
      | ok options =>
        simp [hne, Substituted.result_prepend_eq_error_iff]

namespace Expander

variable (e : Expander)

/-- No emitted line fails among lines that begin inside of some blocks, the first of them having
number `line`. -/
def LinesPass (line : Nat) (frames : Frames) (es : List Entry) : Prop :=
  ∀ k text, es[k]? = some (.content text) → (e.framesBehind line frames (es.take k)).live = true →
    (e.produceLine (line + k) text).fault = none

lemma linesPass_content {line : Nat} {frames : Frames} {text : Text} {es : List Entry} :
    e.LinesPass line frames (.content text :: es) ↔
      (frames.live = true → (e.produceLine line text).fault = none) ∧
        e.LinesPass (line + 1) frames es := by
  constructor
  · intro h
    refine ⟨h 0 text rfl, fun k other hk hlive => ?_⟩
    rw [show line + 1 + k = line + (k + 1) by omega]
    exact h (k + 1) other hk hlive
  · rintro ⟨hfirst, h⟩ k other hk hlive
    cases k with
    | zero =>
      obtain rfl := Entry.content.inj (Option.some.inj hk)
      exact hfirst hlive
    | succ k =>
      rw [show line + (k + 1) = line + 1 + k by omega]
      exact h k other hk hlive

lemma linesPass_directive {line : Nat} {frames after : Frames} {d : Directive}
    (hs : frames.step e.tags.hasValue line d = .ok after) {es : List Entry} :
    e.LinesPass line frames (.directive d :: es) ↔ e.LinesPass (line + 1) after es := by
  constructor
  · intro h k other hk hlive
    rw [show line + 1 + k = line + (k + 1) by omega]
    refine h (k + 1) other hk ?_
    rwa [List.take_succ_cons, framesBehind_directive e hs]
  · intro h k other hk hlive
    cases k with
    | zero => exact absurd (Option.some.inj hk) (by simp)
    | succ k =>
      rw [List.take_succ_cons, framesBehind_directive e hs] at hlive
      rw [show line + (k + 1) = line + 1 + k by omega]
      exact h k other hk hlive

/-- Lines that begin inside of some blocks are gone through without a fault exactly if they close
these blocks and are balanced apart from that, and no emitted line fails. -/
theorem fault_produce_eq_none_iff {line : Nat} {frames : Frames} {es : List Entry} :
    (e.produce line frames es).fault = none ↔
      BalancedFrom frames.length (es.filterMap Entry.directive?) ∧ e.LinesPass line frames es := by
  induction es generalizing line frames with
  | nil =>
    rw [List.filterMap_nil, balancedFrom_nil, List.length_eq_zero_iff]
    cases frames with
    | nil => simp [produce, Frames.unclosed?, LinesPass]
    | cons f outer => simp [produce, Frames.unclosed?]
  | cons entry es ih =>
    cases entry with
    | content text =>
      rw [linesPass_content]
      have hsame : (Entry.content text :: es).filterMap Entry.directive? =
        es.filterMap Entry.directive? := rfl
      cases hl : frames.live with
      | true =>
        rw [produce_content_live e hl, Produced.fault_andThen_eq_none_iff, ih, hsame]
        tauto
      | false =>
        rw [produce_content_dead e hl, ih, hsame]
        simp
    | directive d =>
      have hsame : (Entry.directive d :: es).filterMap Entry.directive? =
        d :: es.filterMap Entry.directive? := rfl
      rw [hsame, balancedFrom_cons]
      by_cases hd : d.opens = false → frames.length ≠ 0
      · obtain ⟨after, hs, hl, -⟩ := Frames.step_sheltered hd e.tags.hasValue line
        rw [produce_directive e hs, ih, linesPass_directive e hs]
        constructor
        · rintro ⟨h, hlines⟩
          exact ⟨⟨hd, _, hl, h⟩, hlines⟩
        · rintro ⟨⟨-, opened, hw, h⟩, hlines⟩
          obtain rfl : opened = after.length := by omega
          exact ⟨h, hlines⟩
      · have hstray : d.opens = false ∧ frames = [] := by
          simpa [List.length_eq_zero_iff] using hd
        obtain ⟨hopens, rfl⟩ := hstray
        obtain ⟨imbalance, himbalance⟩ : ∃ imbalance, d.stray? = some imbalance := by
          cases d with
          | opening condition => contradiction
          | alternative condition => exact ⟨_, rfl⟩
          | otherwise => exact ⟨_, rfl⟩
          | closing => exact ⟨_, rfl⟩
        rw [produce_directive_error e (Frames.step_stray _ _ himbalance)]
        simp [Produced.failure, hopens]

lemma fault_produceLine_eq_none_iff {line : Nat} {text : Text}
    (h : ∀ o ∈ (Placeholder.cut text).occurrences, e.tags.hasValue o.placeholder.tag = true) :
    (e.produceLine line text).fault = none ↔
      ∀ o ∈ (Placeholder.cut text).occurrences,
        ∃ options, o.placeholder.readOptions (Text.indentation text) line = .ok options := by
  have hsubstitute :
      (∀ fault, (substitute e.tags e.ending.text text line).result ≠ .error fault) ↔ _ :=
    substituteAll_ne_error_iff h
  rw [← hsubstitute, produceLine]
  rcases (substitute e.tags e.ending.text text line).result with fault | substitution
  · simp
  · cases substitution <;> simp

end Expander

end LineTemplate
