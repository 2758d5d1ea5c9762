import LineTemplate.Proofs.BreakStyle

/-!
# Texts without markup

Where no line is a directive and none has a placeholder, an expansion asks for no tag and writes the
lines as they are. What is written of a template is its own lines, each with the line ending, so an
output in which no markup is left is final: from there on each expansion gives it back.
-/
namespace LineTemplate

/-- A line without markup, which is neither a directive nor has a placeholder on it. Markers may
stand on it. -/
structure Plain (line : Text) : Prop where
  content : Directive.read? line = none
  no_placeholder : (Placeholder.cut line).occurrences = []

instance (line : Text) : Decidable (Plain line) :=
  decidable_of_iff (Directive.read? line = none ∧ (Placeholder.cut line).occurrences = [])
    ⟨fun h => ⟨h.1, h.2⟩, fun h => ⟨h.1, h.2⟩⟩

namespace Plain

lemma tail_cut {line : Text} (h : Plain line) : (Placeholder.cut line).tail = line := by
  have htext := Placeholder.text_cut line
  rwa [Placeholder.Cut.text, h.no_placeholder] at htext

lemma substitute_eq {line : Text} (h : Plain line) (tags : Dictionary) (newline : Text) (k : Nat) :
    substitute tags newline line k = ⟨[], .ok (.line line)⟩ := by
  simp only [substitute, h.no_placeholder, h.tail_cut, substituteAll]

end Plain

namespace Expander

variable (e : Expander)

/-- Outside of all blocks, lines without markup are emitted one by one. -/
lemma runFrom_plain {ls : List Text} (h : ∀ line ∈ ls, Plain line) (k : Nat) :
    e.runFrom k .start ls = ⟨ls.map .emitted, [], none⟩ := by
  induction ls generalizing k with
  | nil => rfl
  | cons line ls ih =>
    obtain ⟨hline, hls⟩ := List.forall_mem_cons.mp h
    have hemits : Conditional.start.emits = true := rfl
    simp only [runFrom, hline.content, hline.substitute_eq, hemits, if_true, ih hls, Run.after,
      List.map_cons, List.append_nil]

/-- A text without markup is expanded to its own lines. -/
theorem expand_plain {text : Text} (h : ∀ line ∈ lines text, Plain line) :
    e.expand text = .ok ⟨unlines e.ending (lines text), []⟩ := by
  have hrun : e.run text = ⟨(lines text).map .emitted, [], none⟩ := e.runFrom_plain h 1
  have hwritten : e.written text = unlines e.ending (lines text) := by
    rw [written, hrun, Run.written, List.flatMap_map]
    rfl
  have hcheck : e.check text = .ok [] := by rw [check, hrun, Run.outcome]
  exact e.expand_eq_ok_iff.mpr ⟨hwritten, hcheck⟩

/-- What is written of a template is its own lines, each with the line ending. -/
lemma written_eq_unlines_lines (template : Text) :
    e.written template = unlines e.ending (lines (e.written template)) := by
  have hwritten := e.written_eq_unlines (.refl e.tags) (rfl : lines template = lines template)
  have hlines := congrArg lines hwritten
  rw [lines_unlines fun _ hl => unbroken_of_mem_lines hl] at hlines
  rw [hlines]
  exact hwritten

lemma expandRounds_of_fixed {text : Text} (h : e.expand text = .ok ⟨text, []⟩) (rounds : Nat) :
    e.expandRounds rounds text = List.replicate rounds (.ok ⟨text, []⟩) := by
  induction rounds with
  | zero => rfl
  | succ rounds ih => simp only [expandRounds, h, ih, List.replicate_succ]

variable {e}

/-- If no markup is left in the output of an expansion, then expanding the output with any
dictionary and with the same line ending gives it back, without warnings, and so does each further
round. With another line ending it gives the same lines, each with that ending. -/
theorem output_without_markup_is_final {template output : Text} {warnings : List Warning}
    (h : e.expand template = .ok ⟨output, warnings⟩) (hplain : ∀ line ∈ lines output, Plain line) :
    (∀ tags, expand ⟨tags, e.ending⟩ output = .ok ⟨output, []⟩) ∧
      (∀ tags rounds, expandRounds ⟨tags, e.ending⟩ rounds output =
        List.replicate rounds (.ok ⟨output, []⟩)) ∧
      (∀ rounds, e.expandRounds (rounds + 1) template =
        .ok ⟨output, warnings⟩ :: List.replicate rounds (.ok ⟨output, []⟩)) ∧
      ∀ tags ending, expand ⟨tags, ending⟩ output = .ok ⟨unlines ending (lines output), []⟩ := by
  have hself : output = unlines e.ending (lines output) := by
    obtain ⟨rfl, -⟩ := e.expand_eq_ok_iff.mp h
    exact e.written_eq_unlines_lines template
  have hfixed (tags : Dictionary) : expand ⟨tags, e.ending⟩ output = .ok ⟨output, []⟩ := by
    rw [expand_plain _ hplain, ← hself]
  refine ⟨hfixed, fun tags => expandRounds_of_fixed _ (hfixed tags), fun rounds => ?_,
    fun tags ending => expand_plain ⟨tags, ending⟩ hplain⟩
  rw [expandRounds, h]
  exact congrArg _ (e.expandRounds_of_fixed (hfixed e.tags) rounds)

/-- An output with markers that are no markup, and with a value of several lines. -/
theorem markers_in_output_are_copied :
    let e : Expander := ⟨.ofPairs [(['A'], "!! x\ry%%".toList)], .crlf⟩
    let template := "\t%%A:keepindent%% %%\n!!else\n%% %%U%%%".toList
    let output := "\t!! x\r\n\ty%% %%\r\n!!else\r\n%% %\r\n".toList
    let warnings : List Warning := [⟨3, ['U']⟩]
    e.expand template = .ok ⟨output, warnings⟩ ∧ (∀ line ∈ lines output, Plain line) ∧
      (∀ tags, expand ⟨tags, e.ending⟩ output = .ok ⟨output, []⟩) ∧
      (∀ tags rounds, expandRounds ⟨tags, e.ending⟩ rounds output =
        List.replicate rounds (.ok ⟨output, []⟩)) ∧
      (∀ rounds, e.expandRounds (rounds + 1) template =
        .ok ⟨output, warnings⟩ :: List.replicate rounds (.ok ⟨output, []⟩)) ∧
      ∀ tags ending, expand ⟨tags, ending⟩ output = .ok ⟨unlines ending (lines output), []⟩ := by
  intro e template output warnings
  have h : e.expand template = .ok ⟨output, warnings⟩ := by decide +kernel
  have hplain : ∀ line ∈ lines output, Plain line := by decide +kernel
  exact ⟨h, hplain, output_without_markup_is_final h hplain⟩

end Expander

end LineTemplate
