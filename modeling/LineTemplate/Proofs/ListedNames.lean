import LineTemplate.Proofs.Completion
import LineTemplate.Proofs.Sessions
import LineTemplate.Proofs.TagNames
import LineTemplate.Proofs.Warnings

/-!
# The listed names of a template

The plain list of a template has each tag that the template refers to, once and at its first place.
If all of them are given back as definitions, then nothing that the template refers to is left
undefined or empty: there are no warnings, no line is dropped, and an expansion can fail only by
blocks that do not balance and by options that cannot be read.
-/
namespace LineTemplate

namespace CommandLine

lemma mem_firstNames_iff {seen : Std.TreeSet Text} {references : List Reference} {name : Text} :
    name ∈ firstNames seen references ↔ name ∉ seen ∧ ∃ r ∈ references, r.tag = name := by
  induction references generalizing seen with
  | nil => simp [firstNames]
  | cons first rest ih =>
    rw [firstNames]
    by_cases hname : first.tag = name
    · subst hname
      split_ifs with hseen
      · simp [ih, hseen]
      · simp [hseen]
    · have hrest : (∃ r ∈ first :: rest, r.tag = name) ↔ ∃ r ∈ rest, r.tag = name := by
        simp [hname]
      rw [hrest]
      split_ifs with hseen
      · exact ih
      · rw [List.mem_cons, ih, Std.TreeSet.mem_insert, Std.compare_eq_iff_eq]
        simp [hname, Ne.symm hname]

def firstPlace (references : List Reference) (name : Text) : Nat :=
  references.findIdx (·.tag == name)

/-- Each name is listed in front of those that are met later. -/
lemma pairwise_firstNames (seen : Std.TreeSet Text) (references : List Reference) :
    (firstNames seen references).Pairwise fun name other =>
      firstPlace references name < firstPlace references other := by
  induction references generalizing seen with
  | nil => exact .nil
  | cons first rest ih =>
    have hlater {name : Text} (h : first.tag ≠ name) :
        firstPlace (first :: rest) name = firstPlace rest name + 1 := by
      have hbeq : (first.tag == name) = false := beq_eq_false_iff_ne.mpr h
      simp only [firstPlace, List.findIdx_cons, hbeq, cond_false]
    have hrest {seen : Std.TreeSet Text} (hseen : first.tag ∈ seen) :
        (firstNames seen rest).Pairwise fun name other =>
          firstPlace (first :: rest) name < firstPlace (first :: rest) other := by
      refine (ih seen).imp_of_mem fun {name other} hname hother hlt => ?_
      have hne {name : Text} (h : name ∈ firstNames seen rest) : first.tag ≠ name := by
        rintro rfl
        exact (mem_firstNames_iff.mp h).1 hseen
      rw [hlater (hne hname), hlater (hne hother)]
      omega
    rw [firstNames]
    split_ifs with hseen
    · exact hrest hseen
    · have hinsert : first.tag ∈ seen.insert first.tag := by simp
      refine List.pairwise_cons.mpr ⟨fun name hname => ?_, hrest hinsert⟩
      have hne : first.tag ≠ name := by
        rintro rfl
        exact (mem_firstNames_iff.mp hname).1 hinsert
      rw [hlater hne, firstPlace, List.findIdx_cons]
      simp

end CommandLine

/-- The line of a template that an entry was read from. -/
lemma Entry.exists_line {template : Text} {k : Nat} {entry : Entry}
    (h : (ofTemplate template)[k]? = some entry) :
    ∃ text, (lines template)[k]? = some text ∧ read text = entry := by
  rw [ofTemplate, List.getElem?_map] at h
  exact Option.map_eq_some_iff.mp h

/-- Each tag that a template refers to has a value. -/
def Dictionary.Covers (tags : Dictionary) (template : Text) : Prop :=
  ∀ r ∈ Reference.ofTemplate template, tags.hasValue r.tag = true

namespace Dictionary.Covers

variable {tags : Dictionary} {template : Text} {k : Nat}

lemma asked (h : tags.Covers template) {line : Nat} {d : Directive} {tag : Text} {c : Conditional}
    (hk : (Entry.ofTemplate template)[k]? = some (.directive d))
    (hasked : (c.react line d).asked = some tag) : tags.hasValue tag = true := by
  obtain ⟨text, htext, hread⟩ := Entry.exists_line hk
  have hd : Directive.read? text = some d := by
    unfold Entry.read at hread
    split at hread
    · rename_i found hfound
      rw [hfound, Entry.directive.inj hread]
    · contradiction
  obtain ⟨r, hr, rfl⟩ :=
    Reference.exists_of_condition hd (Conditional.tag?_of_asked_react hasked) (1 + k)
  exact h r (Reference.mem_ofLines_iff.mpr ⟨k, text, htext, hr⟩)

lemma placeholder (h : tags.Covers template) {text : Text}
    (hk : (Entry.ofTemplate template)[k]? = some (.content text)) {o : Placeholder.Occurrence}
    (ho : o ∈ (Placeholder.cut text).occurrences) : tags.hasValue o.placeholder.tag = true := by
  obtain ⟨line, hline, hread⟩ := Entry.exists_line hk
  unfold Entry.read at hread
  split at hread
  · contradiction
  · rename_i hd
    obtain rfl := Entry.content.inj hread
    obtain ⟨r, hr, htag⟩ := Reference.exists_of_placeholder hd ho (1 + k)
    rw [← htag]
    exact h r (Reference.mem_ofLines_iff.mpr ⟨k, line, hline, hr⟩)

end Dictionary.Covers

namespace Expander

variable (e : Expander) {template : Text}

lemma warnings_eq_nil (h : e.tags.Covers template) {warnings : List Warning}
    (hcheck : e.check template = .ok warnings) : warnings = [] := by
  obtain ⟨hfault, rfl⟩ := e.check_eq_ok_iff.mp hcheck
  have hwarnings := e.warnings_produce hfault
  have hnone : (Reference.ofLines 1 (lines template)).filter
      (e.reportsFrom 1 [] (lines template)) = [] := by
    refine List.filter_eq_nil_iff.mpr fun r hr => ?_
    have hdefined : r.isUndefined e.tags = false := by
      have hvalue := h r hr
      rw [Dictionary.hasValue] at hvalue
      rw [Reference.isUndefined]
      cases hget : e.tags.get? r.tag with
      | none => simp [hget] at hvalue
      | some value => rfl
    simp [reportsFrom, hdefined]
  rw [hnone] at hwarnings
  exact hwarnings

/-- Where everything that a template refers to has a value, it is expanded without a fault exactly
if its blocks balance and all options on the emitted lines can be read. -/
theorem check_eq_ok_nil_iff (h : e.tags.Covers template) :
    e.check template = .ok [] ↔
      Balanced ((Entry.ofTemplate template).filterMap Entry.directive?) ∧
        ∀ k text, (Entry.ofTemplate template)[k]? = some (.content text) →
          (e.blocksBehind ((Entry.ofTemplate template).take k)).emits = true →
          ∀ o ∈ (Placeholder.cut text).occurrences,
            ∃ options, o.placeholder.readOptions (Text.indentation text) (k + 1) = .ok options := by
  have hline {k : Nat} {text : Text}
      (hk : (Entry.ofTemplate template)[k]? = some (.content text)) :
      (e.produceLine (k + 1) text).fault = none ↔ _ :=
    e.fault_produceLine_eq_none_iff fun o ho => h.placeholder hk ho
  have hfault : e.check template = .ok [] ↔ (e.production template).fault = none := by
    rw [check_eq_ok_iff]
    refine ⟨fun hok => hok.1, fun hfault => ⟨hfault, ?_⟩⟩
    exact e.warnings_eq_nil h (e.check_eq_ok_iff.mpr ⟨hfault, rfl⟩)
  rw [hfault, production, fault_produce_eq_none_iff]
  refine and_congr_right fun _ => forall_congr' fun k => forall_congr' fun text => ?_
  refine forall_congr' fun hk => ?_
  rw [emits_blocksBehind, Nat.add_comm 1 k, hline hk]

end Expander

namespace CommandLine

/-- The plain list of a template has just the tags that the template refers to, each once and in the
order of their first places. All of them are read as definitions without a value. If they are all
given back as definitions, in any order, there are no warnings, each condition that is looked at
finds a value, and a check ends with exit code 0 exactly if the blocks balance and all options on
the emitted lines can be read. -/
theorem listed_definitions_silence_warnings (template : Text) (d : Dictionary)
    (ending : LineEnding) :
    let references := Reference.ofTemplate template
    let names := listing d references .plain
    let es := Entry.ofTemplate template
    names.Nodup ∧
    (∀ name, name ∈ names ↔ ∃ r ∈ references, r.tag = name) ∧
    names.Pairwise (fun name other => firstPlace references name < firstPlace references other) ∧
    (∀ name ∈ names, Definition.read name = .ok ⟨name, none⟩) ∧
    (∀ w arguments environment tree input i text, readInvocation arguments environment = .ok i →
      i.SetsUp ⟨d, ending⟩ (Utf8.encode text) tree input → Utf8.stripMark text = template →
      i.task = .list .plain →
        let report := (run w arguments environment tree input).1
        report.exitCode = 0 ∧ report.output = unlines .lf names) ∧
    ∀ order, order.Perm names → ∃ defined, d.defineAll order = .ok defined ∧
      (∀ name, defined.get? name = if name ∈ names then some Dictionary.flagText else d.get? name) ∧
      let e : Expander := ⟨defined, ending⟩
      (∀ warnings, e.check template = .ok warnings → warnings = []) ∧
      (∀ output warnings, e.expand template = .ok ⟨output, warnings⟩ → warnings = []) ∧
      (∀ k directive tag, es[k]? = some (.directive directive) →
        ((e.blocksBehind (es.take k)).react (k + 1) directive).asked = some tag →
          defined.hasValue tag = true) ∧
      ∀ w arguments environment tree input i text, readInvocation arguments environment = .ok i →
        i.SetsUp e (Utf8.encode text) tree input → Utf8.stripMark text = template →
        i.task = .check →
          ((run w arguments environment tree input).1.exitCode = 0 ↔
            Balanced (es.filterMap Entry.directive?) ∧
              ∀ k text, es[k]? = some (.content text) →
                (e.blocksBehind (es.take k)).emits = true →
                ∀ o ∈ (Placeholder.cut text).occurrences, ∃ options,
                  o.placeholder.readOptions (Text.indentation text) (k + 1) = .ok options) := by
  intro references names es
  have hmem (name : Text) : name ∈ names ↔ ∃ r ∈ references, r.tag = name := by
    rw [show names = firstNames ∅ references from rfl, mem_firstNames_iff]
    simp
  have hpairwise : names.Pairwise fun name other =>
      firstPlace references name < firstPlace references other := pairwise_firstNames ∅ references
  have hword (name : Text) (h : name ∈ names) : Text.isName name = true := by
    obtain ⟨r, hr, rfl⟩ := (hmem name).mp h
    exact Reference.isName_tag hr
  refine ⟨hpairwise.imp fun hlt heq => ?_, hmem, hpairwise,
    fun name h => Definition.read_of_isName (hword name h), ?_, fun order horder => ?_⟩
  · rw [heq] at hlt
    omega
  · rintro w arguments environment tree input i text hi h rfl htask
    have hplan : planTask ⟨d, ending⟩ (Utf8.stripMark text) i.task =
        .done ⟨[], unlines .lf names, 0⟩ := by
      rw [htask]
      rfl
    rw [run_of_readInvocation hi, h.perform_of_done hplan]
    exact ⟨rfl, rfl⟩
  · have hordered (name : Text) : name ∈ order ↔ name ∈ names := horder.mem_iff
    obtain ⟨defined, hdefine, hget⟩ := Dictionary.get?_defineAll_names
      (fun name h => hword name ((hordered name).mp h)) d
    simp only [hordered] at hget
    have hcovers : defined.Covers template := by
      intro r hr
      rw [Dictionary.hasValue, hget, if_pos ((hmem r.tag).mpr ⟨r, hr, rfl⟩)]
      rfl
    let e : Expander := ⟨defined, ending⟩
    have hsilent {warnings : List Warning} (h : e.check template = .ok warnings) : warnings = [] :=
      e.warnings_eq_nil hcovers h
    refine ⟨defined, hdefine, hget, fun warnings => hsilent, fun output warnings h => ?_,
      fun k directive tag hk hasked => hcovers.asked hk hasked, ?_⟩
    · exact hsilent (e.expand_eq_ok_iff.mp h).2
    · rintro w arguments environment tree input i text hi h rfl htask
      have hplan : planTask e (Utf8.stripMark text) i.task =
          .done (checkOutcome e (Utf8.stripMark text)) := by
        rw [htask, planTask]
      rw [run_of_readInvocation hi, h.perform_of_done hplan]
      exact exitCode_checkOutcome_eq_zero_iff.trans (e.check_eq_ok_nil_iff hcovers)

/-- Tags are listed where they first stand, also in a branch that is never emitted. -/
example :
    let template := "%%B%%\n!!ifempty: A!!\n%%C: x%%%%A%%\n!!endif!!".toList
    listing .empty (Reference.ofTemplate template) .plain = [['B'], ['A'], ['C']] := by
  decide +kernel

end CommandLine

end LineTemplate
