import LineTemplate.Proofs.LineBreaks
import LineTemplate.Proofs.Production

/-!
# Styles of line breaks

An expansion sees a template and the values of tags through their lines only, and writes no break
but its own line ending. So the run with any line ending is that with line feeds, spelled anew: the
lines of the output, the warnings and the fault are the same, however the breaks of the template and
of the values are spelled and whatever ending is written.
-/
namespace LineTemplate

/-- Two dictionaries define the same tags, with values of the same lines. -/
def Dictionary.SameLines (tags tags' : Dictionary) : Prop :=
  ∀ name, (tags.get? name).map lines = (tags'.get? name).map lines

namespace Dictionary.SameLines

variable {tags tags' : Dictionary}

lemma refl (tags : Dictionary) : tags.SameLines tags := fun _ => rfl

lemma get?_cases (h : tags.SameLines tags') (name : Text) :
    tags.get? name = none ∧ tags'.get? name = none ∨
      ∃ value value', tags.get? name = some value ∧ tags'.get? name = some value' ∧
        lines value = lines value' := by
  have hname := h name
  cases hg : tags.get? name with
  | none =>
    rw [hg, Option.map_none, eq_comm, Option.map_eq_none_iff] at hname
    exact .inl ⟨rfl, hname⟩
  | some value =>
    rw [hg, Option.map_some, eq_comm, Option.map_eq_some_iff] at hname
    obtain ⟨value', hg', hl⟩ := hname
    exact .inr ⟨value, value', rfl, hg', hl.symm⟩

/-- A value without lines is empty, so the lines of values say which of them are. -/
lemma isEmpty_eq {value value' : Text} (h : lines value = lines value') :
    value.isEmpty = value'.isEmpty := by
  rw [Bool.eq_iff_iff, List.isEmpty_iff, List.isEmpty_iff, ← lines_eq_nil_iff, h, lines_eq_nil_iff]

lemma hasValue_eq (h : tags.SameLines tags') : tags.hasValue = tags'.hasValue := by
  funext name
  rcases h.get?_cases name with ⟨hg, hg'⟩ | ⟨value, value', hg, hg', hl⟩
  · simp only [hasValue, hg, hg']
  · simp only [hasValue, hg, hg', isEmpty_eq hl]

end Dictionary.SameLines

namespace LineEnding

/-- A text with a line ending in place of each line feed, and without carriage returns. -/
def respell (ending : LineEnding) (text : Text) : Text :=
  text.flatMap fun c => if c = '\n' then ending.text else if c = '\r' then [] else [c]

@[simp] theorem respell_nil (ending : LineEnding) : ending.respell [] = [] := rfl

@[simp] theorem respell_append (ending : LineEnding) (a b : Text) :
    ending.respell (a ++ b) = ending.respell a ++ ending.respell b := List.flatMap_append

@[simp] theorem respell_cons_feed (ending : LineEnding) (text : Text) :
    ending.respell ('\n' :: text) = ending.text ++ ending.respell text := rfl

@[simp] theorem respell_text_lf (ending : LineEnding) : ending.respell lf.text = ending.text :=
  List.append_nil _

theorem respell_of_unbroken (ending : LineEnding) {text : Text} (h : Unbroken text) :
    ending.respell text = text := by
  induction text with
  | nil => rfl
  | cons c text ih =>
    obtain ⟨hc, htext⟩ := List.forall_mem_cons.mp h
    have hc : c ≠ '\n' ∧ c ≠ '\r' := by simpa [isBreak] using hc
    rw [← List.singleton_append, respell_append, ih htext]
    simp [respell, hc]

lemma respell_following (ending : LineEnding) {indent : Text} (hi : Unbroken indent)
    {ls : List Text} (h : ∀ line ∈ ls, Unbroken line) :
    ending.respell (ls.flatMap fun line => lf.text ++ indent ++ line) =
      ls.flatMap fun line => ending.text ++ indent ++ line := by
  induction ls with
  | nil => rfl
  | cons line ls ih =>
    obtain ⟨hline, hls⟩ := List.forall_mem_cons.mp h
    simp only [List.flatMap_cons, respell_append, respell_text_lf, respell_of_unbroken ending hi,
      respell_of_unbroken ending hline, ih hls]

theorem return_not_mem_respell_lf (text : Text) : '\r' ∉ lf.respell text := by
  intro h
  obtain ⟨c, -, hc⟩ := List.mem_flatMap.mp h
  split_ifs at hc with hf hr
  · simp [LineEnding.text] at hc
  · contradiction
  · exact hr (List.mem_singleton.mp hc).symm

/-- A text of ended lines, spelled anew, is its lines, each with the ending. -/
theorem respell_eq_unlines (ending : LineEnding) {text : Text} (hreturn : '\r' ∉ text)
    (h : Ended text) : ending.respell text = unlines ending (lines text) := by
  induction text using induction_lines with
  | nil => simp
  | last line hne hu => exact absurd (h.eq_nil_of_unbroken hu) hne
  | ended line c rest hu hc ih =>
    obtain rfl : c = '\n' := by
      have hne : c ≠ '\r' := fun hr => hreturn (by simp [hr])
      exact (isBreak_iff.mp hc).resolve_right hne
    have hrest : rest <:+ line ++ '\n' :: rest :=
      (List.suffix_cons _ _).trans (List.suffix_append _ _)
    have hih : ending.respell rest = unlines ending (lines rest) :=
      ih (fun hr => hreturn (hrest.mem hr)) (h.of_suffix hrest)
    rw [lines_append_break hu hc, unlines_cons, respell_append, respell_cons_feed,
      respell_of_unbroken ending hu, show afterBreak ('\n' :: rest) = rest from rfl, hih,
      List.append_assoc]

end LineEnding

lemma OptionItem.eq_of_ofText_eq_indent {text width : Text} {c : Char}
    (h : ofText text = indent c width) : c = ' ' ∨ c = '\t' := by
  unfold ofText at h
  split at h
  · exact .inl (OptionItem.indent.inj h).1.symm
  · exact .inr (OptionItem.indent.inj h).1.symm
  · split_ifs at h

namespace Options

/-- What is put in front of inserted lines holds no break, if the indentation of the template line
holds none. -/
lemma unbroken_indent_of_apply {lineIndent : Text} (h : Unbroken lineIndent) {line : Nat}
    {options next : Options} {option : Text} (hi : Unbroken options.indent)
    (ho : apply lineIndent line options option = .ok next) : Unbroken next.indent := by
  rcases apply_cases ho with ⟨unit, text, n, hitem, -, rfl⟩ | ⟨-, rfl⟩ | ⟨-, rfl⟩ | ⟨-, rfl⟩
  · intro c hc
    obtain rfl := List.eq_of_mem_replicate hc
    rcases OptionItem.eq_of_ofText_eq_indent hitem with rfl | rfl <;> rfl
  · exact h
  · exact hi
  · exact hi

/-- A value is inserted as any other one of the same lines is, its breaks spelled anew. -/
lemma insertion_eq_respell (ending : LineEnding) {options : Options}
    (hi : Unbroken options.indent) {value value' : Text} (h : lines value = lines value') :
    options.insertion ending.text value =
      ending.respell (options.insertion LineEnding.lf.text value') := by
  have hlines : ∀ line ∈ lines value', Unbroken line := fun _ hl => unbroken_of_mem_lines hl
  unfold insertion
  rw [h]
  generalize lines value' = ls at hlines
  cases ls with
  | nil => rfl
  | cons first rest =>
    obtain ⟨hfirst, hrest⟩ := List.forall_mem_cons.mp hlines
    have hlead : Unbroken (if options.keepsIndent then [] else options.indent) := by
      split_ifs
      · exact unbroken_nil
      · exact hi
    simp only [LineEnding.respell_append, LineEnding.respell_of_unbroken ending hlead,
      LineEnding.respell_of_unbroken ending hfirst, LineEnding.respell_following ending hi hrest]

end Options

lemma Placeholder.unbroken_indent_of_readOptions {lineIndent : Text} (h : Unbroken lineIndent)
    {line : Nat} {placeholder : Placeholder} {options : Options}
    (ho : placeholder.readOptions lineIndent line = .ok options) : Unbroken options.indent := by
  rw [readOptions_eq] at ho
  exact Options.ofPieces_keeps (fun options => Unbroken options.indent)
    (fun _ _ _ hi hnext => Options.unbroken_indent_of_apply h hi hnext) ho unbroken_nil

/-- What stands around the placeholders of a line without breaks holds none. -/
lemma Placeholder.Cut.unbroken_of_text {cut : Cut} (h : Unbroken cut.text) :
    (∀ o ∈ cut.occurrences, Unbroken o.gap) ∧ Unbroken cut.tail := by
  obtain ⟨hos, htail⟩ := unbroken_append.mp h
  refine ⟨fun o ho c hc => hos c ?_, htail⟩
  exact List.mem_flatMap.mpr ⟨o, ho, List.mem_append_left _ hc⟩

def Substitution.respell (ending : LineEnding) : Substitution → Substitution
  | line text => line (ending.respell text)
  | skip => skip

def Substituted.respell (ending : LineEnding) (s : Substituted) : Substituted :=
  { s with result := s.result.map (Substitution.respell ending) }

lemma Substituted.respell_prepend (ending : LineEnding) (text : Text) (s : Substituted) :
    (s.prepend text).respell ending = (s.respell ending).prepend (ending.respell text) := by
  obtain ⟨warnings, result⟩ := s
  cases result with
  | error fault => rfl
  | ok substitution => cases substitution <;> simp [prepend, respell, Except.map,
      Substitution.prepend, Substitution.respell]

lemma Substituted.respell_warn (ending : LineEnding) (warning : Warning) (s : Substituted) :
    (s.warn warning).respell ending = (s.respell ending).warn warning := rfl

lemma substituteAll_eq_respell (ending : LineEnding) {tags tags' : Dictionary}
    (htags : tags.SameLines tags') (line : Nat) {lineIndent tail : Text}
    (hi : Unbroken lineIndent) (htail : Unbroken tail) {os : List Placeholder.Occurrence}
    (hos : ∀ o ∈ os, Unbroken o.gap) :
    substituteAll tags ending.text line lineIndent tail os =
      (substituteAll tags' LineEnding.lf.text line lineIndent tail os).respell ending := by
  induction os with
  | nil =>
    simp [substituteAll, Substituted.respell, Except.map, Substitution.respell,
      ending.respell_of_unbroken htail]
  | cons o os ih =>
    obtain ⟨ho, hos⟩ := List.forall_mem_cons.mp hos
    have hgap := ending.respell_of_unbroken ho
    rcases htags.get?_cases o.placeholder.tag with ⟨hg, hg'⟩ | ⟨value, value', hg, hg', hl⟩
    · simp only [substituteAll, hg, hg', ih hos, Substituted.respell_warn,
        Substituted.respell_prepend, hgap]
    · simp only [substituteAll, hg, hg', Dictionary.SameLines.isEmpty_eq hl]
      cases hr : o.placeholder.readOptions lineIndent line with
      | error fault => rfl
      | ok options =>
        have hindent := Placeholder.unbroken_indent_of_readOptions hi hr
        dsimp only
        split_ifs
        · rfl
        · rw [ih hos, Substituted.respell_prepend, LineEnding.respell_append, hgap,
            options.insertion_eq_respell ending hindent hl]

/-- A line without breaks is substituted in the same way for each line ending, but for the breaks
that are written. -/
lemma substitute_eq_respell (ending : LineEnding) {tags tags' : Dictionary}
    (htags : tags.SameLines tags') {source : Text} (h : Unbroken source) (line : Nat) :
    substitute tags ending.text source line =
      (substitute tags' LineEnding.lf.text source line).respell ending := by
  have hindent : Unbroken (Text.indentation source) :=
    fun c hc => h c ((List.takeWhile_prefix _).mem hc)
  have hcut : Unbroken (Placeholder.cut source).text := by rwa [Placeholder.text_cut]
  obtain ⟨hos, htail⟩ := Placeholder.Cut.unbroken_of_text hcut
  exact substituteAll_eq_respell ending htags line hindent htail hos

def Fate.respell (ending : LineEnding) : Fate → Fate
  | emitted text => emitted (ending.respell text)
  | fate => fate

/-- A run, the breaks within written lines being spelled anew. -/
def Run.respell (ending : LineEnding) (run : Run) : Run :=
  { run with fates := run.fates.map (Fate.respell ending) }

namespace Run

@[simp] theorem respell_after (ending : LineEnding) (fate : Fate) (warnings : List Warning)
    (run : Run) :
    (run.after fate warnings).respell ending =
      (run.respell ending).after (fate.respell ending) warnings := rfl

@[simp] theorem outcome_respell (ending : LineEnding) (run : Run) :
    (run.respell ending).outcome = run.outcome := rfl

theorem written_respell (ending : LineEnding) (run : Run) :
    (run.respell ending).written ending.text = ending.respell (run.written LineEnding.lf.text) := by
  obtain ⟨fates, warnings, fault⟩ := run
  simp only [respell, written]
  induction fates with
  | nil => rfl
  | cons fate fates ih =>
    rw [List.map_cons, List.flatMap_cons, List.flatMap_cons, ending.respell_append, ih]
    congr 1
    cases fate <;> simp [Fate.respell, Fate.written]

/-- A run writes whole lines, each with its ending. -/
theorem ended_written (ending : LineEnding) (run : Run) : Ended (run.written ending.text) := by
  rw [written]
  induction run.fates with
  | nil => exact ended_nil
  | cons fate fates ih =>
    refine Ended.append ?_ ih
    cases fate with
    | emitted text => exact ending.ended_append_text text
    | directive => exact ended_nil
    | suppressed => exact ended_nil
    | skipped => exact ended_nil

end Run

namespace Expander

variable {e e' : Expander}

lemma runFrom_eq_respell {tags : Dictionary} (htags : e.tags.SameLines tags) {ls : List Text}
    (h : ∀ line ∈ ls, Unbroken line) (line : Nat) (c : Conditional) :
    e.runFrom line c ls = (runFrom ⟨tags, .lf⟩ line c ls).respell e.ending := by
  induction ls generalizing line c with
  | nil => rfl
  | cons text ls ih =>
    obtain ⟨htext, hls⟩ := List.forall_mem_cons.mp h
    cases hd : Directive.read? text with
    | some d =>
      simp only [runFrom, hd, htags.hasValue_eq]
      cases c.step tags.hasValue line d with
      | error fault => rfl
      | ok next => rw [Run.respell_after, ← ih hls]; rfl
    | none =>
      cases hc : c.emits with
      | false =>
        simp only [runFrom, hd, hc, Bool.false_eq_true, if_false, Run.respell_after, ih hls]
        rfl
      | true =>
        simp only [runFrom, hd, hc, if_true, substitute_eq_respell e.ending htags htext]
        generalize substitute tags LineEnding.lf.text text line = s
        obtain ⟨warnings, result⟩ := s
        cases result with
        | error fault => rfl
        | ok substitution =>
          cases substitution with
          | skip => simp [Substituted.respell, Except.map, Substitution.respell, ih hls]; rfl
          | line text => simp [Substituted.respell, Except.map, Substitution.respell, ih hls]; rfl

/-- Templates of the same lines, with values of the same lines, are run through alike. -/
lemma run_eq_respell {tags : Dictionary} (htags : e.tags.SameLines tags)
    {template template' : Text} (h : lines template = lines template') :
    e.run template = (run ⟨tags, .lf⟩ template').respell e.ending := by
  rw [run, run, h]
  exact runFrom_eq_respell htags (fun _ hl => unbroken_of_mem_lines hl) 1 .start

/-- What is written of a template consists of the lines that are written with line feeds. -/
lemma written_eq_unlines {tags : Dictionary} (htags : e.tags.SameLines tags)
    {template template' : Text} (h : lines template = lines template') :
    e.written template = unlines e.ending (lines (written ⟨tags, .lf⟩ template')) := by
  set base : Expander := ⟨tags, .lf⟩
  have hended : Ended (base.written template') := Run.ended_written .lf (base.run template')
  have hself : base.written template' = LineEnding.lf.respell (base.written template') := by
    have hrun : base.run template' = (base.run template').respell .lf :=
      run_eq_respell (.refl tags) rfl
    conv_lhs => rw [written, hrun]
    exact Run.written_respell .lf (base.run template')
  have hreturn : '\r' ∉ base.written template' := by
    rw [hself]
    exact LineEnding.return_not_mem_respell_lf _
  rw [written, run_eq_respell htags h, Run.written_respell]
  exact e.ending.respell_eq_unlines hreturn hended

/-- Two templates of the same lines, expanded with dictionaries of the same tags whose values have
the same lines, and with any line endings, end with the same fault or give the same warnings and
outputs of the same lines. An output is always its own lines, each with the line ending; so it holds
no other break, and is empty or ends with the line ending. -/
theorem expansion_ignores_break_style {template template' : Text}
    (htemplate : lines template = lines template') (htags : e.tags.SameLines e'.tags) :
    ((∃ fault, e.expand template = .error fault ∧ e'.expand template' = .error fault) ∨
      ∃ warnings output output', e.expand template = .ok ⟨output, warnings⟩ ∧
        e'.expand template' = .ok ⟨output', warnings⟩ ∧ lines output = lines output') ∧
    ∀ output warnings, e.expand template = .ok ⟨output, warnings⟩ →
      output = unlines e.ending (lines output) ∧ (∀ line ∈ lines output, Unbroken line) ∧
        (output = [] ∨ ∃ front, output = front ++ e.ending.text) := by
  set rows := lines (written ⟨e'.tags, .lf⟩ template')
  have hrows : ∀ line ∈ rows, Unbroken line := fun _ hl => unbroken_of_mem_lines hl
  have hwritten : e.written template = unlines e.ending rows := written_eq_unlines htags htemplate
  have hwritten' : e'.written template' = unlines e'.ending rows :=
    written_eq_unlines (.refl e'.tags) rfl
  have hlines : lines (e.written template) = rows := by rw [hwritten, lines_unlines hrows]
  have hlines' : lines (e'.written template') = rows := by rw [hwritten', lines_unlines hrows]
  have hcheck : e.check template = e'.check template' := by
    rw [check, check, run_eq_respell htags htemplate, run_eq_respell (.refl e'.tags) rfl,
      Run.outcome_respell, Run.outcome_respell]
  constructor
  · cases hc : e'.check template' with
    | error fault =>
      rw [hc] at hcheck
      exact .inl ⟨fault, e.expand_eq_error_iff.mpr hcheck, e'.expand_eq_error_iff.mpr hc⟩
    | ok warnings =>
      rw [hc] at hcheck
      exact .inr ⟨warnings, _, _, e.expand_eq_ok_iff.mpr ⟨rfl, hcheck⟩,
        e'.expand_eq_ok_iff.mpr ⟨rfl, hc⟩, hlines.trans hlines'.symm⟩
  · intro output warnings h
    obtain ⟨rfl, -⟩ := e.expand_eq_ok_iff.mp h
    rw [hlines, hwritten]
    exact ⟨rfl, hrows, unlines_eq_nil_or_append e.ending rows⟩

/-- Carriage returns in the template and in a value on one side, line feeds on the other, and an
inserted value between two placeholders whose tags are not defined. -/
theorem carriage_returns_change_no_lines :
    let template := "a\r\n\t%%B%%%%A:keepindent%%%%B%%\r\r\n".toList
    let template' := "a\n\t%%B%%%%A:keepindent%%%%B%%\n\n".toList
    let e : Expander := ⟨.ofPairs [(['A'], "x\r\ry".toList)], .crlf⟩
    let e' : Expander := ⟨.ofPairs [(['A'], "x\n\ny\r\n".toList)], .cr⟩
    lines template = lines template' ∧ e.tags.SameLines e'.tags ∧
    ((∃ fault, e.expand template = .error fault ∧ e'.expand template' = .error fault) ∨
      ∃ warnings output output', e.expand template = .ok ⟨output, warnings⟩ ∧
        e'.expand template' = .ok ⟨output', warnings⟩ ∧ lines output = lines output') ∧
    ∀ output warnings, e.expand template = .ok ⟨output, warnings⟩ →
      output = unlines e.ending (lines output) ∧ (∀ line ∈ lines output, Unbroken line) ∧
        (output = [] ∨ ∃ front, output = front ++ e.ending.text) := by
  intro template template' e e'
  have htemplate : lines template = lines template' := by decide +kernel
  have hvalue : lines "x\r\ry".toList = lines "x\n\ny\r\n".toList := by decide +kernel
  have htags : e.tags.SameLines e'.tags := by
    intro name
    simp only [e, e', Dictionary.ofPairs, Dictionary.insertAll, List.foldl_cons, List.foldl_nil,
      Dictionary.get?_insert]
    split_ifs
    · exact congrArg some hvalue
    · rfl
  exact ⟨htemplate, htags, expansion_ignores_break_style htemplate htags⟩

end Expander

end LineTemplate
