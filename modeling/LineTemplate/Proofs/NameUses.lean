import LineTemplate.Proofs.DirectiveGrammar
import LineTemplate.Proofs.LineBreaks
import LineTemplate.Proofs.SubstitutedLine
import LineTemplate.Proofs.TagFiles
import Mathlib.Tactic.TFAE

/-!
# Where a name can be used

Names are read in four places: by the check of a dictionary, in placeholders, in directives and in
definitions. All of them draw the same line. What a dictionary takes over from definitions and tag
files is therefore never out of reach of a template, and a placeholder without options brings up the
lines of its value.
-/
namespace LineTemplate

theorem checkName_eq_ok_iff {name : Text} : checkName name = .ok () ↔ Text.isName name = true := by
  unfold checkName
  split_ifs with h <;> simp [h]

namespace Text

lemma cut_append_separator {separator : Char} {text : Text} (h : separator ∉ text) (rest : Text) :
    cut separator (text ++ separator :: rest) = (text, some rest) := by
  have hrun : Run (· != separator) text (separator :: rest) := by
    refine ⟨fun c hc => bne_iff_ne.mpr ?_, fun c hc => ?_⟩
    · intro heq
      exact h (heq ▸ hc)
    · simp [Option.some.inj hc]
  rw [cut, hrun.dropWhile_eq, hrun.takeWhile_eq]

/-- No line ends within a name. -/
lemma unbroken_of_isName {name : Text} (h : isName name = true) : Unbroken name := by
  intro c hc
  have hword : isWord c = true := (isName_iff.mp h).2 c hc
  have hne {d : Char} (hd : isBlank d = true) : c ≠ d := by
    intro heq
    rw [heq, isWord_eq_false_of_isBlank hd] at hword
    contradiction
  simp [isBreak, hne (d := '\n') (by decide), hne (d := '\r') (by decide)]

end Text

namespace Definition

/-- What is defined has a name. -/
lemma checkName_of_read {text : Text} {definition : Definition} (h : read text = .ok definition) :
    checkName definition.name = .ok () := by
  simp only [read] at h
  split_ifs at h
  split at h
  · contradiction
  · rename_i hname
    obtain rfl := Except.ok.inj h
    exact hname

/-- A name, an equals sign and a value are the definition of that name with that value. -/
theorem read_of_isName_append {name : Text} (h : Text.isName name = true) (value : Text) :
    read (name ++ '=' :: value) = .ok ⟨name, some value⟩ :=
  read_of_cut (Text.cut_append_separator (Text.equals_notMem_of_isName h) value) h

end Definition

namespace Placeholder

def bare (name : Text) : Text := marker ++ name ++ marker

lemma opens_bare {name : Text} (h : Text.isName name = true) (rest : Text) :
    Opens (bare name ++ rest) name [] (marker ++ rest) := by
  obtain ⟨hne, hword⟩ := Text.isName_iff.mp h
  refine ⟨by simp [bare], hne, ⟨hword, fun c hc => ?_⟩, ⟨nofun, fun c hc => ?_⟩⟩
  · obtain rfl : '%' = c := Option.some.inj hc
    decide +kernel
  · obtain rfl : '%' = c := Option.some.inj hc
    decide

theorem read?_bare {name : Text} (h : Text.isName name = true) :
    read? (bare name) = some ⟨⟨name, none⟩, bare name, []⟩ := by
  have hspelled := Spelled.bare (opens_bare h [])
  rw [List.append_nil, List.append_nil] at hspelled
  exact read?_eq_some_iff.mpr hspelled

theorem cut_bare {name : Text} (h : Text.isName name = true) :
    cut (bare name) = ⟨[⟨[], ⟨name, none⟩, bare name⟩], []⟩ := by
  have hread := read?_bare h
  have hcons : bare name = '%' :: ('%' :: name ++ marker) := rfl
  have hnothing : cutFrom [] [] = ⟨[], []⟩ := by rw [cutFrom, List.reverse_nil]
  rw [hcons] at hread ⊢
  rw [cut, cutFrom, hread]
  simp only [hnothing, List.reverse_nil]

/-- The pattern of placeholders matches the whole of it, and keeps the name and no options. -/
theorem search_bare {name : Text} (h : Text.isName name = true) :
    pattern.search 0 (bare name) = [⟨0, (bare name).length, [(1, name)]⟩] := by
  rw [search_spans, spans, cut_bare h]
  simp [spansFrom, Span.toMatch, groups]

lemma exists_of_mem_spansFrom {cursor : Nat} {os : List Occurrence} {span : Span}
    (h : span ∈ spansFrom cursor os) : ∃ o ∈ os, o.placeholder = span.placeholder := by
  induction os generalizing cursor with
  | nil => contradiction
  | cons o os ih =>
    rcases List.mem_cons.mp h with rfl | h
    · exact ⟨o, List.mem_cons_self, rfl⟩
    · obtain ⟨o', ho', heq⟩ := ih h
      exact ⟨o', List.mem_cons_of_mem _ ho', heq⟩

/-- What a match keeps as the tag is a name. -/
lemma isName_of_mem_search {text : Text} {m : Pattern.Match} (h : m ∈ pattern.search 0 text)
    {tag : Text} (htag : m.groups.lookup 1 = some tag) : Text.isName tag = true := by
  rw [search_spans] at h
  obtain ⟨span, hspan, rfl⟩ := List.mem_map.mp h
  obtain ⟨o, ho, hplaceholder⟩ := exists_of_mem_spansFrom hspan
  have hname := Reference.isName_of_placeholder ho
  rw [hplaceholder] at hname
  obtain rfl : span.placeholder.tag = tag := Option.some.inj htag
  exact hname

/-- A placeholder is no directive. -/
lemma directive_read?_bare (name : Text) : Directive.read? (bare name) = none := by
  rw [Option.eq_none_iff_forall_ne_some]
  intro d hd
  obtain ⟨s, htext, -⟩ := Directive.read?_eq_some_iff.mp hd
  rw [Directive.Spelling.text_eq] at htext
  exact absurd (List.cons.inj htext).1 (by decide)

lemma unbroken_bare {name : Text} (h : Text.isName name = true) : Unbroken (bare name) := by
  have hmarker : Unbroken marker := by simp [Unbroken, marker, isBreak]
  exact unbroken_append.mpr ⟨unbroken_append.mpr ⟨hmarker, Text.unbroken_of_isName h⟩, hmarker⟩

lemma lines_bare {name : Text} (h : Text.isName name = true) : lines (bare name) = [bare name] :=
  lines_of_unbroken (by simp [bare, marker]) (unbroken_bare h)

end Placeholder

/-- A test of a name, spelled with a single blank. -/
theorem Directive.read?_ifEmpty {name : Text} (h : Text.isName name = true) :
    read? ("!!ifempty: ".toList ++ name ++ "!!".toList) = some (.opening ⟨.empty, name⟩) := by
  let space : Blanks := ⟨[' '], List.forall_mem_singleton.mpr (by decide)⟩
  let nothing : Blanks := ⟨[], nofun⟩
  refine read?_eq_some_iff.mpr ⟨.test false .empty nothing space ⟨name, h⟩ nothing nothing, ?_, rfl⟩
  simp [Spelling.text, testWord, marker, nothing, space]

/-- Lines with an ending after each of them are the same with the ending between them and one more
behind the last. -/
lemma unlines_eq_intercalate (ending : LineEnding) {ls : List Text} (h : ls ≠ []) :
    unlines ending ls = ending.text.intercalate ls ++ ending.text := by
  obtain ⟨first, ls, rfl⟩ := List.exists_cons_of_ne_nil h
  rw [Text.intercalate_cons]
  induction ls generalizing first with
  | nil => simp
  | cons second ls ih =>
    rw [unlines_cons, ih second (List.cons_ne_nil _ _), List.flatMap_cons]
    simp only [List.append_assoc]

namespace Expander

variable (e : Expander)

/-- A template of one content line is expanded to what is substituted on it. -/
lemma expand_line {line text : Text} (hlines : lines line = [line])
    (hcontent : Directive.read? line = none)
    (hsubstitute : substitute e.tags e.ending.text line 1 = ⟨[], .ok (.line text)⟩) :
    e.expand line = .ok ⟨text ++ e.ending.text, []⟩ := by
  have hemits : Conditional.start.emits = true := rfl
  have hrun : e.run line = ⟨[.emitted text], [], none⟩ := by
    rw [run, hlines, runFrom, hcontent]
    simp only [hemits, if_true, hsubstitute]
    rfl
  rw [expand_eq_ok_iff, written, check, hrun]
  simp [Run.written, Run.outcome, Fate.written]

/-- A placeholder without options is expanded to the lines of its value, or to a blank line. -/
theorem expand_bare {name value : Text} (h : Text.isName name = true)
    (hvalue : e.tags.get? name = some value) :
    e.expand (Placeholder.bare name) =
      .ok ⟨unlines e.ending (if value = [] then [[]] else lines value), []⟩ := by
  have hsubstitute : substitute e.tags e.ending.text (Placeholder.bare name) 1 =
      ⟨[], .ok (.line (e.ending.text.intercalate (lines value)))⟩ := by
    simp only [substitute, Placeholder.cut_bare h, substituteAll, hvalue, Placeholder.readOptions,
      Options.insertion_eq_indented]
    simp [Options.plain, Options.indented, Substituted.prepend, Substitution.prepend, Except.map]
  rw [e.expand_line (Placeholder.lines_bare h) (Placeholder.directive_read?_bare name) hsubstitute]
  by_cases hempty : value = []
  · subst hempty
    simp
  · have hne : lines value ≠ [] := fun hnil => hempty (lines_eq_nil_iff.mp hnil)
    rw [if_neg hempty, unlines_eq_intercalate e.ending hne]

end Expander

namespace Dictionary

/-- Each tag that is defined has a name that templates can refer to. -/
def Named (d : Dictionary) : Prop := ∀ name value, d.get? name = some value → checkName name = .ok ()

theorem named_empty : empty.Named := by
  intro name value h
  rw [get?_empty] at h
  contradiction

variable {d d' : Dictionary}

lemma Named.insert (h : d.Named) {name : Text} (hname : checkName name = .ok ()) (value : Text) :
    (d.insert name value).Named := by
  intro other value' hget
  rw [get?_insert] at hget
  by_cases heq : other = name
  · rw [heq, hname]
  · rw [if_neg heq] at hget
    exact h other value' hget

lemma Named.extend (h : d.Named) (h' : d'.Named) : (d.extend d').Named := by
  intro name value hget
  rw [get?_extend, Option.or_eq_some_iff] at hget
  obtain hnew | ⟨-, hold⟩ := hget
  · exact h' name value hnew
  · exact h name value hold

lemma checkName_of_readMember {name : Text} {value : Json} {answer : Option Text}
    (h : readMember name value = .ok answer) : checkName name = .ok () := by
  unfold readMember at h
  split at h
  · contradiction
  · assumption

lemma Named.addMembers (h : d.Named) {members : List (Text × Json)}
    (hadd : d.addMembers members = .ok d') : d'.Named := by
  induction members generalizing d with
  | nil =>
    obtain rfl := Except.ok.inj hadd
    exact h
  | cons member members ih =>
    unfold Dictionary.addMembers at hadd
    split at hadd
    · contradiction
    · exact ih h hadd
    · rename_i hread
      exact ih (h.insert (checkName_of_readMember hread) _) hadd

theorem named_ofJson {json : Json} (h : ofJson json = .ok d) : d.Named := by
  cases json with
  | object members => exact named_empty.addMembers h
  | _ => contradiction

lemma named_ofTagFile {content : Text} (h : ofTagFile content = .ok d) : d.Named := by
  obtain ⟨members, -, hadd⟩ := ofTagFile_eq_ok h
  exact named_empty.addMembers hadd

lemma Named.addTagFiles (h : d.Named) {contents : List (Except Fault Text)}
    (hadd : d.addTagFiles contents = .ok d') : d'.Named := by
  induction contents generalizing d with
  | nil =>
    obtain rfl := Except.ok.inj hadd
    exact h
  | cons content contents ih =>
    cases content with
    | error fault => contradiction
    | ok content =>
      rw [Dictionary.addTagFiles] at hadd
      split at hadd
      · contradiction
      · rename_i more hmore
        exact ih (h.extend (named_ofTagFile hmore)) hadd

lemma define_eq_ok {text : Text} (h : d.define text = .ok d') :
    ∃ definition, checkName definition.name = .ok () ∧ d' = d.apply definition := by
  unfold define at h
  split at h
  · contradiction
  · rename_i definition hread
    exact ⟨definition, Definition.checkName_of_read hread, (Except.ok.inj h).symm⟩

lemma Named.defineAll (h : d.Named) {texts : List Text} (hall : d.defineAll texts = .ok d') :
    d'.Named := by
  induction texts generalizing d with
  | nil =>
    obtain rfl := Except.ok.inj hall
    exact h
  | cons text texts ih =>
    unfold Dictionary.defineAll at hall
    split at hall
    · contradiction
    · rename_i defined hdefine
      obtain ⟨definition, hname, rfl⟩ := define_eq_ok hdefine
      exact ih (h.insert hname _) hall

end Dictionary

/-- The names that a dictionary accepts are those that a placeholder, a condition and a definition
stand with, and there are no other ones that templates refer to. Definitions and tag files add no
other tags, and a placeholder of a tag that is defined is expanded without a warning to the lines of
its value, or to a blank line where the value is empty. -/
theorem names_are_usable_everywhere (name : Text) :
    [checkName name = .ok (),
      Placeholder.pattern.search 0 (Placeholder.bare name) =
        [⟨0, (Placeholder.bare name).length, [(1, name)]⟩],
      Directive.read? ("!!ifempty: ".toList ++ name ++ "!!".toList) =
        some (.opening ⟨.empty, name⟩),
      ∃ template, ∃ r ∈ Reference.ofTemplate template, r.tag = name,
      ∀ value, Definition.read (name ++ '=' :: value) = .ok ⟨name, some value⟩].TFAE ∧
    (∀ (d d' : Dictionary) text, d.define text = .ok d' →
      ∃ added, checkName added = .ok () ∧ d'.contains added = true ∧
        ∀ other, other ≠ added → d'.get? other = d.get? other) ∧
    (∀ json d, Dictionary.ofJson json = .ok d → d.Named) ∧
    (∀ contents texts d d', Dictionary.ofTagFiles contents = .ok d →
      d.defineAll texts = .ok d' → d'.Named) ∧
    (checkName name = .ok () → ∀ (e : Expander) value, e.tags.get? name = some value →
      e.expand (Placeholder.bare name) =
        .ok ⟨unlines e.ending (if value = [] then [[]] else lines value), []⟩) := by
  refine ⟨?_, ?_, fun json d h => Dictionary.named_ofJson h, fun contents texts d d' hfiles h => ?_,
    fun h e value hvalue => e.expand_bare (checkName_eq_ok_iff.mp h) hvalue⟩
  · rw [checkName_eq_ok_iff]
    tfae_have 1 → 2 := fun h => Placeholder.search_bare h
    tfae_have 2 → 1 := by
      intro h
      exact Placeholder.isName_of_mem_search (h ▸ List.mem_singleton_self _) rfl
    tfae_have 1 → 3 := fun h => Directive.read?_ifEmpty h
    tfae_have 3 → 1 := by
      intro h
      obtain ⟨located, hlocated, rfl⟩ := Directive.locate?_of_read? h rfl
      exact Reference.isName_of_located hlocated
    tfae_have 1 → 4 := by
      intro h
      have hcut := Placeholder.cut_bare h
      refine ⟨Placeholder.bare name, ⟨name, .placeholder, 1, 1, none⟩, ?_, rfl⟩
      rw [Reference.ofTemplate, Placeholder.lines_bare h, Reference.ofLines, Reference.ofLine,
        Placeholder.directive_read?_bare, hcut]
      exact List.mem_cons_self
    tfae_have 4 → 1 := by
      intro h
      obtain ⟨template, r, hr, rfl⟩ := h
      exact Reference.isName_tag hr
    tfae_have 1 → 5 := fun h value => Definition.read_of_isName_append h value
    tfae_have 5 → 1 := fun h => checkName_eq_ok_iff.mp (Definition.checkName_of_read (h []))
    tfae_finish
  · intro d d' text h
    obtain ⟨definition, hname, rfl⟩ := Dictionary.define_eq_ok h
    refine ⟨definition.name, hname, ?_, fun other hne => ?_⟩
    · simp [Dictionary.contains, Dictionary.apply]
    · rw [Dictionary.apply, Dictionary.get?_insert, if_neg hne]
  · exact (Dictionary.named_empty.addTagFiles hfiles).defineAll h

end LineTemplate
