import LineTemplate.Expansion
import LineTemplate.Reference
import Mathlib.Tactic.Common

/-!
# What an expansion depends on

An expansion looks at the dictionary in two places: a condition asks whether its tag has a value,
and a placeholder asks for the value of its tag. Both places are among the references of the
template, so that dictionaries which agree there lead to the same run. What is inserted is not
looked at again: what becomes of each line, the warnings and the fault depend only on which tags are
defined and which of them are empty.
-/
namespace LineTemplate

lemma Reaction.answer_congr {σ : Type} {reaction : Reaction σ} {hasValue hasValue' : Text → Bool}
    (h : ∀ tag, reaction.asked = some tag → hasValue tag = hasValue' tag) :
    reaction.answer hasValue = reaction.answer hasValue' := by
  cases reaction with
  | refused imbalance => rfl
  | settled next => rfl
  | asks tag next => rw [answer, answer, h tag rfl]

/-- The tag that a directive tests, if it tests one. -/
def Directive.tag? : Directive → Option Text
  | opening condition => some condition.tag
  | alternative condition => some condition.tag
  | otherwise => none
  | closing => none

namespace Conditional

lemma eq_tag_of_asked_test {c : Conditional} {condition : Condition} {tag : Text}
    (h : (c.test condition).asked = some tag) : condition.tag = tag := by
  unfold test at h
  split_ifs at h
  · exact Option.some.inj h
  · contradiction

lemma tag?_of_asked_react {c : Conditional} {line : Nat} {d : Directive} {tag : Text}
    (h : (c.react line d).asked = some tag) : d.tag? = some tag := by
  cases d with
  | opening condition => exact congrArg some (eq_tag_of_asked_test h)
  | alternative condition =>
    simp only [react, alternative] at h
    split_ifs at h
    · contradiction
    · contradiction
    · contradiction
    · exact congrArg some (eq_tag_of_asked_test h)
  | otherwise =>
    simp only [react, otherwise] at h
    split_ifs at h
    · contradiction
    · split at h <;> contradiction
    · contradiction
  | closing =>
    simp only [react, closing] at h
    split at h <;> contradiction

/-- A directive has the same effect whenever its own tag has a value or has none. -/
theorem step_congr {c : Conditional} {line : Nat} {d : Directive} {hasValue hasValue' : Text → Bool}
    (h : ∀ tag, d.tag? = some tag → hasValue tag = hasValue' tag) :
    c.step hasValue line d = c.step hasValue' line d := by
  have hanswer : (c.react line d).answer hasValue = (c.react line d).answer hasValue' :=
    Reaction.answer_congr fun tag ha => h tag (tag?_of_asked_react ha)
  rw [step, step, hanswer]

end Conditional

/-- Placeholders whose tags have the same values are substituted in the same way. -/
theorem substituteAll_congr {tags tags' : Dictionary} {os : List Placeholder.Occurrence}
    (h : ∀ o ∈ os, tags.get? o.placeholder.tag = tags'.get? o.placeholder.tag)
    (newline : Text) (line : Nat) (lineIndent tail : Text) :
    substituteAll tags newline line lineIndent tail os =
      substituteAll tags' newline line lineIndent tail os := by
  induction os with
  | nil => rfl
  | cons o os ih =>
    rw [substituteAll, substituteAll, h o List.mem_cons_self,
      ih fun other hm => h other (List.mem_cons_of_mem _ hm)]

namespace Directive

/-- What is found on a test line stands behind a marker and a keyword. -/
lemma exists_of_locate? {line : Text} {located : Located} (h : locate? line = some located) :
    ∃ (keyword : Keyword) (body rest : Text), line = marker ++ body ∧
      Text.trimStart body = keyword.text ++ rest ∧
      readTag? (marker ++ Text.indentation body) keyword rest = some located := by
  unfold locate? at h
  split at h
  · contradiction
  · rename_i body hbody
    obtain ⟨keyword, -, hkeyword⟩ := List.exists_of_findSome?_eq_some h
    split at hkeyword
    · contradiction
    · rename_i rest hrest
      exact ⟨keyword, body, rest, Text.strip?_eq_some_iff.mp hbody,
        Text.strip?_eq_some_iff.mp hrest, hkeyword⟩

/-- The tag behind a keyword is the longest word there, and the line is closed behind it. -/
lemma word_of_readTag? {lead text : Text} {keyword : Keyword} {located : Located}
    (h : readTag? lead keyword text = some located) :
    ∃ word, word = (Text.trimStart text).takeWhile Text.isWord ∧ ¬ word.isEmpty = true ∧
      isClosed (Text.trimStart ((Text.trimStart text).dropWhile Text.isWord)) = true ∧
      located = ⟨lead ++ keyword.text ++ Text.indentation text, word, keyword.directive word⟩ := by
  simp only [readTag?] at h
  split_ifs at h with hempty hclosed
  exact ⟨_, rfl, hempty, hclosed, (Option.some.inj h).symm⟩

lemma tag?_of_locate? {line : Text} {located : Located} (h : locate? line = some located) :
    located.directive.tag? = some located.tag := by
  obtain ⟨keyword, body, rest, -, -, hread⟩ := exists_of_locate? h
  obtain ⟨word, -, -, -, rfl⟩ := word_of_readTag? hread
  cases keyword <;> rfl

/-- A line whose directive tests a tag is a test line, and the tag is found on it. -/
lemma locate?_of_read? {line : Text} {d : Directive} (h : read? line = some d) {tag : Text}
    (ht : d.tag? = some tag) : ∃ located, locate? line = some located ∧ located.tag = tag := by
  unfold read? at h
  split_ifs at h
  · obtain rfl := Option.some.inj h
    contradiction
  · obtain rfl := Option.some.inj h
    contradiction
  · obtain ⟨located, hl, rfl⟩ := Option.map_eq_some_iff.mp h
    exact ⟨located, hl, Option.some.inj ((tag?_of_locate? hl).symm.trans ht)⟩

end Directive

namespace Reference

@[simp] theorem tags_ofOccurrences (line column : Nat) (os : List Placeholder.Occurrence) :
    (ofOccurrences line column os).map (·.tag) = os.map (·.placeholder.tag) := by
  induction os generalizing column with
  | nil => rfl
  | cons o os ih => rw [ofOccurrences, List.map_cons, ih, List.map_cons]

lemma exists_of_condition {text tag : Text} {d : Directive} (hd : Directive.read? text = some d)
    (ht : d.tag? = some tag) (line : Nat) : ∃ r ∈ ofLine line text, r.tag = tag := by
  obtain ⟨located, hl, rfl⟩ := Directive.locate?_of_read? hd ht
  refine ⟨⟨located.tag, .condition, line, located.column, none⟩, ?_, rfl⟩
  rw [ofLine, hd, hl]
  exact List.mem_singleton_self _

lemma exists_of_placeholder {text : Text} (hd : Directive.read? text = none)
    {o : Placeholder.Occurrence} (ho : o ∈ (Placeholder.cut text).occurrences) (line : Nat) :
    ∃ r ∈ ofLine line text, r.tag = o.placeholder.tag := by
  rw [ofLine, hd]
  have hmem := List.mem_map_of_mem (f := fun o => o.placeholder.tag) ho
  rw [← tags_ofOccurrences line 1] at hmem
  obtain ⟨r, hr, htag⟩ := List.mem_map.mp hmem
  exact ⟨r, hr, htag⟩

end Reference

namespace Expander

variable {e e' : Expander}

/-- Where the dictionaries agree on what some lines refer to, the lines are gone through in the same
way. -/
lemma runFrom_congr (hending : e.ending = e'.ending) {line : Nat} {ls : List Text}
    (h : ∀ r ∈ Reference.ofLines line ls, e.tags.get? r.tag = e'.tags.get? r.tag)
    (c : Conditional) : e.runFrom line c ls = e'.runFrom line c ls := by
  induction ls generalizing line c with
  | nil => rfl
  | cons text ls ih =>
    have hline : ∀ r ∈ Reference.ofLine line text, e.tags.get? r.tag = e'.tags.get? r.tag :=
      fun r hr => h r (List.mem_append_left _ hr)
    have hrest (c : Conditional) : e.runFrom (line + 1) c ls = e'.runFrom (line + 1) c ls :=
      ih (fun r hr => h r (List.mem_append_right _ hr)) c
    cases hd : Directive.read? text with
    | some d =>
      have hstep : c.step e.tags.hasValue line d = c.step e'.tags.hasValue line d := by
        refine Conditional.step_congr fun tag ht => ?_
        obtain ⟨r, hr, rfl⟩ := Reference.exists_of_condition hd ht line
        rw [Dictionary.hasValue, Dictionary.hasValue, hline r hr]
      simp only [runFrom, hd, hstep, hrest]
    | none =>
      have hsubstitute : substitute e.tags e.ending.text text line =
          substitute e'.tags e'.ending.text text line := by
        rw [substitute, substitute, hending]
        refine substituteAll_congr (fun o ho => ?_) _ _ _ _
        obtain ⟨r, hr, htag⟩ := Reference.exists_of_placeholder hd ho line
        rw [← htag, hline r hr]
      simp only [runFrom, hd, hsubstitute, hrest]

/-- If two dictionaries answer alike for each tag that a template refers to, expanding it with
either and with one line ending gives the same output, complete or not, and the same warnings or the
same fault. -/
theorem expansion_depends_on_references {template : Text}
    (h : ∀ r ∈ Reference.ofTemplate template, e.tags.get? r.tag = e'.tags.get? r.tag)
    (hending : e.ending = e'.ending) :
    e.written template = e'.written template ∧ e.check template = e'.check template := by
  have hrun : e.run template = e'.run template := runFrom_congr hending h .start
  rw [written, written, check, check, hrun, hending]
  exact ⟨rfl, rfl⟩

/-- Two dictionaries that differ in a tag which a template only seems to refer to. -/
theorem unused_tag_changes_nothing :
    let template := "!!ifempty: A!!\n%%B:skipempty%% %%C :% %\n!!elifempty: B\n!!endif!!".toList
    let e : Expander := ⟨.ofPairs [(['B'], ['b']), (['C'], ['c'])], .cr⟩
    let e' : Expander := ⟨.ofPairs [(['B'], ['b']), (['C'], []), (['D'], ['d'])], .cr⟩
    (∀ r ∈ Reference.ofTemplate template, e.tags.get? r.tag = e'.tags.get? r.tag) ∧
      e.ending = e'.ending ∧
      e.written template = e'.written template ∧ e.check template = e'.check template := by
  intro template e e'
  have h : ∀ r ∈ Reference.ofTemplate template, e.tags.get? r.tag = e'.tags.get? r.tag := by
    decide +kernel
  exact ⟨h, rfl, expansion_depends_on_references h rfl⟩

end Expander

/-- Two dictionaries define the same tags, and the same of them have a value that is not empty. -/
structure Dictionary.Alike (tags tags' : Dictionary) : Prop where
  contains_eq : ∀ name, tags.contains name = tags'.contains name
  hasValue_eq : ∀ name, tags.hasValue name = tags'.hasValue name

/-- Of the value of a tag, alike dictionaries have in common whether there is one and whether it is
empty. -/
lemma Dictionary.Alike.get?_cases {tags tags' : Dictionary} (h : tags.Alike tags') (name : Text) :
    tags.get? name = none ∧ tags'.get? name = none ∨
      ∃ value value', tags.get? name = some value ∧ tags'.get? name = some value' ∧
        value.isEmpty = value'.isEmpty := by
  have hc := h.contains_eq name
  have hv := h.hasValue_eq name
  unfold contains at hc
  unfold hasValue at hv
  cases hg : tags.get? name with
  | none =>
    cases hg' : tags'.get? name with
    | none => exact .inl ⟨rfl, rfl⟩
    | some value' => simp [hg, hg'] at hc
  | some value =>
    cases hg' : tags'.get? name with
    | none => simp [hg, hg'] at hc
    | some value' =>
      simp only [hg, hg', Bool.not_inj_iff] at hv
      exact .inr ⟨value, value', rfl, rfl, hv⟩

def Substitution.blank : Substitution → Substitution
  | line _ => line []
  | skip => skip

def Substituted.blank (s : Substituted) : Substituted :=
  { s with result := s.result.map Substitution.blank }

def Fate.blank : Fate → Fate
  | emitted _ => emitted []
  | fate => fate

/-- What became of the lines of a run, its warnings and its fault, whatever was written. -/
def Run.blank (run : Run) : Run := { run with fates := run.fates.map Fate.blank }

namespace Substituted

@[simp] theorem blank_prepend (text : Text) (s : Substituted) :
    (s.prepend text).blank = s.blank := by
  obtain ⟨warnings, result⟩ := s
  cases result with
  | error fault => rfl
  | ok substitution => cases substitution <;> rfl

@[simp] theorem blank_warn (warning : Warning) (s : Substituted) :
    (s.warn warning).blank = s.blank.warn warning := rfl

end Substituted

@[simp] theorem Run.blank_after (fate : Fate) (warnings : List Warning) (run : Run) :
    (run.after fate warnings).blank = run.blank.after fate.blank warnings := rfl

@[simp] theorem Run.outcome_blank (run : Run) : run.blank.outcome = run.outcome := rfl

/-- With alike dictionaries the same becomes of a line, and its options are at fault alike. -/
lemma blank_substituteAll {tags tags' : Dictionary} (h : tags.Alike tags') (newline newline' : Text)
    (line : Nat) (lineIndent tail : Text) (os : List Placeholder.Occurrence) :
    (substituteAll tags newline line lineIndent tail os).blank =
      (substituteAll tags' newline' line lineIndent tail os).blank := by
  induction os with
  | nil => rfl
  | cons o os ih =>
    rcases h.get?_cases o.placeholder.tag with ⟨hg, hg'⟩ | ⟨value, value', hg, hg', hempty⟩
    · simp only [substituteAll, hg, hg', Substituted.blank_warn, Substituted.blank_prepend, ih]
    · simp only [substituteAll, hg, hg', hempty]
      cases o.placeholder.readOptions lineIndent line with
      | error fault => rfl
      | ok options =>
        dsimp only
        split_ifs
        · rfl
        · rw [Substituted.blank_prepend, Substituted.blank_prepend, ih]

namespace Expander

lemma blank_runFrom_content {e : Expander} {text : Text} (hd : Directive.read? text = none)
    {c : Conditional} (hc : c.emits = true) (line : Nat) (ls : List Text) :
    (e.runFrom line c (text :: ls)).blank =
      let s := (substitute e.tags e.ending.text text line).blank
      match s.result with
      | .error fault => { Run.stop (some fault) with warnings := s.warnings }
      | .ok .skip => (e.runFrom (line + 1) c ls).blank.after .skipped s.warnings
      | .ok (.line text) => (e.runFrom (line + 1) c ls).blank.after (.emitted text) s.warnings := by
  simp only [runFrom, hd, hc, if_true]
  generalize substitute e.tags e.ending.text text line = s
  obtain ⟨warnings, result⟩ := s
  cases result with
  | error fault => rfl
  | ok substitution => cases substitution <;> rfl

variable {e e' : Expander}

lemma blank_runFrom (h : e.tags.Alike e'.tags) (line : Nat) (c : Conditional) (ls : List Text) :
    (e.runFrom line c ls).blank = (e'.runFrom line c ls).blank := by
  induction ls generalizing line c with
  | nil => rfl
  | cons text ls ih =>
    cases hd : Directive.read? text with
    | some d =>
      have hstep : c.step e.tags.hasValue line d = c.step e'.tags.hasValue line d :=
        Conditional.step_congr fun tag _ => h.hasValue_eq tag
      simp only [runFrom, hd, hstep]
      cases c.step e'.tags.hasValue line d with
      | error fault => rfl
      | ok next => rw [Run.blank_after, Run.blank_after, ih]
    | none =>
      cases hc : c.emits with
      | false =>
        simp only [runFrom, hd, hc, Bool.false_eq_true, if_false, Run.blank_after, ih]
      | true =>
        have hsubstitute : (substitute e.tags e.ending.text text line).blank =
            (substitute e'.tags e'.ending.text text line).blank := blank_substituteAll h _ _ _ _ _ _
        rw [blank_runFrom_content hd hc, blank_runFrom_content hd hc, hsubstitute, ih]

lemma map_warnings_expand (e : Expander) (template : Text) :
    (e.expand template).map Expansion.warnings = e.check template := by
  rw [expand]
  cases e.check template <;> rfl

/-- With two dictionaries that define the same tags and give values that are not empty to the same
of them, a template is expanded with the same warnings or ends with the same fault, whatever the
line endings, and the same lines are directives, suppressed, skipped and emitted. -/
theorem outcome_depends_on_emptiness (h : e.tags.Alike e'.tags) (template : Text) :
    e.check template = e'.check template ∧
      (e.expand template).map Expansion.warnings = (e'.expand template).map Expansion.warnings ∧
      (e.run template).fates.map Fate.blank = (e'.run template).fates.map Fate.blank := by
  have hrun : (e.run template).blank = (e'.run template).blank := blank_runFrom h 1 .start _
  have hcheck : e.check template = e'.check template := by
    rw [check, check, ← Run.outcome_blank, hrun, Run.outcome_blank]
  refine ⟨hcheck, ?_, congrArg Run.fates hrun⟩
  rw [map_warnings_expand, map_warnings_expand, hcheck]

/-- Two dictionaries with different values, one of them being a placeholder and a directive. -/
theorem inserted_text_feeds_nothing_back :
    let template := "!!ifnotempty: A!!\n%%A%% %%B%%\n%%E:skipempty%%\n!!endif!!".toList
    let e : Expander := ⟨.ofPairs [(['A'], ['a']), (['E'], [])], .lf⟩
    let e' : Expander := ⟨.ofPairs [(['A'], "%%B%%\n!!else!!".toList), (['E'], [])], .crlf⟩
    e.tags.Alike e'.tags ∧ e.check template = e'.check template ∧
      (e.expand template).map Expansion.warnings = (e'.expand template).map Expansion.warnings ∧
      (e.run template).fates.map Fate.blank = (e'.run template).fates.map Fate.blank := by
  intro template e e'
  have h : e.tags.Alike e'.tags := by
    constructor
    · intro name
      simp only [e, e', Dictionary.ofPairs, Dictionary.insertAll, List.foldl_cons, List.foldl_nil,
        Dictionary.contains, Dictionary.get?_insert]
      split_ifs <;> rfl
    · intro name
      simp only [e, e', Dictionary.ofPairs, Dictionary.insertAll, List.foldl_cons, List.foldl_nil,
        Dictionary.hasValue, Dictionary.get?_insert]
      split_ifs <;> rfl
  exact ⟨h, outcome_depends_on_emptiness h template⟩

end Expander

end LineTemplate
