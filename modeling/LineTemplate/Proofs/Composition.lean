import LineTemplate.Proofs.LineBreaks
import LineTemplate.Proofs.Production

/-!
# One template behind another

The number of a line is only carried along: where lines are numbered from further on, warnings and
faults name lines that are further on, and nothing else changes. A template that is expanded without
a fault has closed all its blocks, so that what follows it is expanded as if it stood alone.
-/
namespace LineTemplate

def Warning.shift (n : Nat) (w : Warning) : Warning := { w with line := w.line + n }

def Substituted.shift (n : Nat) (s : Substituted) : Substituted :=
  ⟨s.warnings.map (Warning.shift n), s.result.mapError (Fault.shift n)⟩

def Frame.shift (n : Nat) (f : Frame) : Frame := { f with openedAt := f.openedAt + n }

def Frames.shift (n : Nat) (frames : Frames) : Frames := frames.map (Frame.shift n)

/-- The same product, of lines that stand `n` lines further down. -/
def Produced.shift (n : Nat) (p : Produced) : Produced :=
  ⟨p.text, p.warnings.map (Warning.shift n), p.fault.map (Fault.shift n)⟩

namespace Options

lemma width_shift (n line : Nat) (option text : Text) :
    width (line + n) option text = (width line option text).mapError (Fault.shift n) := by
  unfold width
  split
  · rfl
  · split_ifs <;> rfl

lemma apply_shift (n line : Nat) (lineIndent : Text) (options : Options) (option : Text) :
    apply lineIndent (line + n) options option =
      (apply lineIndent line options option).mapError (Fault.shift n) := by
  unfold apply
  split
  · rename_i c text _
    rw [width_shift]
    cases width line option text <;> rfl
  all_goals rfl

lemma ofPieces_shift (n line : Nat) (lineIndent : Text) (options : Options) (pieces : List Text) :
    ofPieces lineIndent (line + n) options pieces =
      (ofPieces lineIndent line options pieces).mapError (Fault.shift n) := by
  induction pieces generalizing options with
  | nil => rfl
  | cons option pieces ih =>
    rw [ofPieces, ofPieces, apply_shift]
    cases apply lineIndent line options option with
    | error fault => rfl
    | ok next => exact ih next

end Options

lemma Placeholder.readOptions_shift (n line : Nat) (lineIndent : Text) (placeholder : Placeholder) :
    placeholder.readOptions lineIndent (line + n) =
      (placeholder.readOptions lineIndent line).mapError (Fault.shift n) := by
  unfold readOptions
  split
  · rfl
  · exact Options.ofPieces_shift n line lineIndent _ _

namespace Substituted

lemma shift_prepend (n : Nat) (text : Text) (s : Substituted) :
    (s.prepend text).shift n = (s.shift n).prepend text := by
  obtain ⟨warnings, result⟩ := s
  cases result <;> rfl

lemma shift_warn (n : Nat) (warning : Warning) (s : Substituted) :
    (s.warn warning).shift n = (s.shift n).warn (warning.shift n) := rfl

end Substituted

lemma substituteAll_shift (n line : Nat) (tags : Dictionary) (newline lineIndent tail : Text)
    (os : List Placeholder.Occurrence) :
    substituteAll tags newline (line + n) lineIndent tail os =
      (substituteAll tags newline line lineIndent tail os).shift n := by
  induction os with
  | nil => rfl
  | cons o os ih =>
    rw [substituteAll, substituteAll]
    cases tags.get? o.placeholder.tag with
    | none => simp only [ih, Substituted.shift_warn, Substituted.shift_prepend]; rfl
    | some value =>
      simp only [Placeholder.readOptions_shift]
      cases o.placeholder.readOptions lineIndent line with
      | error fault => rfl
      | ok options =>
        simp only [Except.mapError]
        split_ifs
        · rfl
        · rw [ih, Substituted.shift_prepend]

namespace Frames

@[simp] theorem live_shift (n : Nat) (frames : Frames) : (frames.shift n).live = frames.live := by
  cases frames <;> rfl

theorem react_shift (n line : Nat) (frames : Frames) (d : Directive) :
    (frames.shift n).react (line + n) d = (frames.react line d).map (shift n) := by
  cases d with
  | opening condition =>
    cases hl : frames.live with
    | true =>
      rw [react_opening_live hl, react_opening_live ((live_shift n frames).trans hl)]
      rfl
    | false =>
      rw [react_opening_dead hl, react_opening_dead ((live_shift n frames).trans hl)]
      rfl
  | alternative condition =>
    cases frames with
    | nil => rfl
    | cons f outer =>
      cases hw : f.waits with
      | true =>
        rw [react_alternative_open hw]
        exact react_alternative_open (f := f.shift n) hw (outer.map (Frame.shift n)) _ _
      | false =>
        rw [react_alternative_shut hw]
        exact react_alternative_shut (f := f.shift n) hw (outer.map (Frame.shift n)) _ _
  | otherwise => cases frames <;> rfl
  | closing => cases frames <;> rfl

theorem step_shift (hasValue : Text → Bool) (n line : Nat) (frames : Frames) (d : Directive) :
    (frames.shift n).step hasValue (line + n) d =
      match frames.step hasValue line d with
      | .error fault => .error (fault.shift n)
      | .ok after => .ok (after.shift n) := by
  unfold step
  rw [react_shift, Reaction.answer_map]
  cases (react frames line d).answer hasValue <;> rfl

theorem unclosed?_shift (n : Nat) (frames : Frames) :
    (frames.shift n).unclosed? = frames.unclosed?.map (Fault.shift n) := by
  cases frames with
  | nil => rfl
  | cons f outer => simp [shift, unclosed?, Frame.shift, Fault.shift]

end Frames

namespace Produced

lemma shift_andThen (n : Nat) (p q : Produced) :
    (p.andThen q).shift n = (p.shift n).andThen (q.shift n) := by
  obtain ⟨text, warnings, fault⟩ := p
  cases fault <;> simp [andThen, shift]

lemma shift_failure (n : Nat) (fault : Fault) :
    (failure fault).shift n = failure (fault.shift n) := rfl

end Produced

namespace Expander

variable (e : Expander)

lemma produceLine_shift (n line : Nat) (text : Text) :
    e.produceLine (line + n) text = (e.produceLine line text).shift n := by
  unfold produceLine substitute
  rw [substituteAll_shift]
  generalize substituteAll e.tags e.ending.text line _ _ _ = s
  obtain ⟨warnings, result⟩ := s
  cases result with
  | error fault => rfl
  | ok substitution => cases substitution <;> rfl

/-- Lines that stand further down produce the same, but for the numbers of lines. -/
theorem produce_shift (n line : Nat) (frames : Frames) (es : List Entry) :
    e.produce (line + n) (frames.shift n) es = (e.produce line frames es).shift n := by
  induction es generalizing line frames with
  | nil => rw [produce, produce, Frames.unclosed?_shift]; rfl
  | cons entry es ih =>
    have hnext (frames : Frames) : e.produce (line + n + 1) (frames.shift n) es =
        (e.produce (line + 1) frames es).shift n := by
      rw [Nat.add_right_comm]
      exact ih (line + 1) frames
    cases entry with
    | content text =>
      have hlive := Frames.live_shift n frames
      cases hl : frames.live with
      | true =>
        rw [produce_content_live e hl, produce_content_live e (hlive.trans hl), hnext,
          produceLine_shift, Produced.shift_andThen]
      | false =>
        rw [produce_content_dead e hl, produce_content_dead e (hlive.trans hl), hnext]
    | directive d =>
      have hstep := Frames.step_shift e.tags.hasValue n line frames d
      cases hs : frames.step e.tags.hasValue line d with
      | error fault =>
        rw [hs] at hstep
        rw [produce_directive_error e hs, produce_directive_error e hstep, Produced.shift_failure]
      | ok after =>
        rw [hs] at hstep
        rw [produce_directive e hs, produce_directive e hstep, hnext]

/-- Lines that end a template without a fault have closed all blocks, and what follows them produces
what it produces outside of all blocks. -/
theorem produce_append {line : Nat} {frames : Frames} {es : List Entry}
    (h : (e.produce line frames es).fault = none) (rest : List Entry) :
    e.produce line frames (es ++ rest) =
      (e.produce line frames es).andThen (e.produce (line + es.length) [] rest) := by
  induction es generalizing line frames with
  | nil =>
    cases frames with
    | nil => exact (Produced.nothing_andThen _).symm
    | cons f outer => contradiction
  | cons entry es ih =>
    rw [Entry.add_length_cons]
    cases entry with
    | content text =>
      cases hl : frames.live with
      | true =>
        rw [produce_content_live e hl] at h
        have hrest := (Produced.fault_andThen_eq_none_iff.mp h).2
        rw [List.cons_append, produce_content_live e hl, produce_content_live e hl, ih hrest,
          Produced.andThen_assoc]
      | false =>
        rw [produce_content_dead e hl] at h
        rw [List.cons_append, produce_content_dead e hl, produce_content_dead e hl, ih h]
    | directive d =>
      cases hs : frames.step e.tags.hasValue line d with
      | error fault =>
        rw [produce_directive_error e hs] at h
        contradiction
      | ok after =>
        rw [produce_directive e hs] at h
        rw [List.cons_append, produce_directive e hs, produce_directive e hs, ih h]

/-- What follows a template that is expanded without a fault produces what it produces alone, as
many lines further down, if the end of the template and its start share no line. -/
lemma production_append {first second : Text} (h : (e.production first).fault = none)
    (hended : Ended first) (hf : ¬ Fuses first second) :
    e.production (first ++ second) =
      (e.production first).andThen ((e.production second).shift (lines first).length) := by
  have hentries : Entry.ofTemplate (first ++ second) =
      Entry.ofTemplate first ++ Entry.ofTemplate second := by
    rw [Entry.ofTemplate, lines_append hended hf, List.map_append]
    rfl
  have hlength : (Entry.ofTemplate first).length = (lines first).length := List.length_map _
  rw [production, hentries, e.produce_append h, hlength]
  congr 1
  exact e.produce_shift (lines first).length 1 [] (Entry.ofTemplate second)

/-- A template behind one that is expanded without a fault is expanded as it is alone: its output
follows that of the first, and its warnings or its fault are the same, as many lines further down as
the first has. This needs the first template to end with a line break, if it is not empty, and not
to share that break with the second. -/
theorem expansion_of_append {first second : Text} {warnings : List Warning}
    (h : e.check first = .ok warnings) (hended : Ended first) (hf : ¬ Fuses first second) :
    e.written (first ++ second) = e.written first ++ e.written second ∧
      (∀ later, e.check second = .ok later → e.check (first ++ second) =
        .ok (warnings ++ later.map (Warning.shift (lines first).length))) ∧
      ∀ fault, e.check second = .error fault → e.check (first ++ second) =
        .error (fault.shift (lines first).length) := by
  obtain ⟨hfault, hwarnings⟩ := e.check_eq_ok_iff.mp h
  have hproduction := e.production_append hfault hended hf
  rw [Produced.andThen, hfault] at hproduction
  refine ⟨?_, fun later hl => ?_, fun fault hl => ?_⟩
  · rw [written_eq, written_eq, written_eq, hproduction]
    rfl
  · obtain ⟨hfault', hlater⟩ := e.check_eq_ok_iff.mp hl
    rw [check_eq_ok_iff, hproduction]
    exact ⟨by rw [Produced.shift, hfault']; rfl, by rw [Produced.shift, hwarnings, hlater]⟩
  · have hfault' := e.check_eq_error_iff.mp hl
    rw [check_eq_error_iff, hproduction, Produced.shift, hfault']
    rfl

/-- A block with a warning in it, ended by a carriage return, and behind it a warning and an `else`
outside of every block. -/
theorem stray_else_behind_block :
    let e : Expander := ⟨.empty, .crlf⟩
    let first := "!!ifempty: A!!\n%%B%%\n!!endif!!\r".toList
    let second := "\r%%C%%\n!!else!!".toList
    (e.check first = .ok [⟨2, ['B']⟩] ∧ Ended first ∧ ¬ Fuses first second) ∧
    e.written (first ++ second) = e.written first ++ e.written second ∧
      (∀ later, e.check second = .ok later → e.check (first ++ second) =
        .ok ([⟨2, ['B']⟩] ++ later.map (Warning.shift (lines first).length))) ∧
      ∀ fault, e.check second = .error fault → e.check (first ++ second) =
        .error (fault.shift (lines first).length) := by
  intro e first second
  have h : e.check first = .ok [⟨2, ['B']⟩] := by decide +kernel
  have hended : Ended first := by
    intro c hc
    obtain rfl : '\r' = c := Option.some.inj hc
    rfl
  have hf : ¬ Fuses first second := fun hf => absurd (Option.some.inj hf.2) (by decide)
  exact ⟨⟨h, hended, hf⟩, e.expansion_of_append h hended hf⟩

end Expander

end LineTemplate
