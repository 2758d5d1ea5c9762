import LineTemplate.Substitution
import LineTemplate.Proofs.PlaceholderScan

/-!
# What substitution makes of a line

The placeholders of a line stand for texts of their own, whatever stands beside them: nothing for a
tag that is not defined, and else the lines of its value with their indentation. Only a placeholder
with faulty options, or with an empty value that is to be skipped, decides about the line as a
whole. The first one that does ends the substitution, and nothing behind it is looked at.
-/
namespace LineTemplate

namespace Options

/-- The lines of a value behind their indentation, as they are inserted. -/
def indented (options : Options) (newline value : Text) : Text :=
  (if options.keepsIndent ∨ lines value = [] then [] else options.indent) ++
    (newline ++ options.indent).intercalate (lines value)

theorem insertion_eq_indented (options : Options) (newline value : Text) :
    options.insertion newline value = options.indented newline value := by
  unfold insertion indented
  cases lines value with
  | nil => simp
  | cons first rest => simp [Text.intercalate_cons]

/-- Options that keep the indentation of the line have that indentation. -/
def Keeps (lineIndent : Text) (options : Options) : Prop :=
  options.keepsIndent = true → options.indent = lineIndent

lemma keeps_of_apply {lineIndent option : Text} {line : Nat} {options options' : Options}
    (h : apply lineIndent line options option = .ok options') (hkeeps : options.Keeps lineIndent) :
    options'.Keeps lineIndent := by
  rcases apply_cases h with ⟨unit, text, n, -, -, rfl⟩ | ⟨-, rfl⟩ | ⟨-, rfl⟩ | ⟨-, rfl⟩
  · exact nofun
  · exact fun _ => rfl
  · exact hkeeps
  · exact hkeeps

end Options

def Substituted.behind (s : Substituted) (warnings : List Warning) (text : Text) : Substituted :=
  ⟨warnings ++ s.warnings, s.result.map (·.prepend text)⟩

lemma Substituted.behind_nil (s : Substituted) : s.behind [] [] = s := by
  obtain ⟨warnings, fault | text | _⟩ := s <;> rfl

lemma Substituted.behind_behind (s : Substituted) (v w : List Warning) (a b : Text) :
    (s.behind w b).behind v a = s.behind (v ++ w) (a ++ b) := by
  obtain ⟨warnings, fault | text | _⟩ := s <;>
    simp [behind, Except.map, Substitution.prepend]

namespace Placeholder

lemma keeps_of_readOptions {p : Placeholder} {lineIndent : Text} {line : Nat} {options : Options}
    (h : p.readOptions lineIndent line = .ok options) : options.Keeps lineIndent := by
  have hplain : Options.plain.Keeps lineIndent := nofun
  rw [readOptions_eq] at h
  exact Options.ofPieces_keeps (Options.Keeps lineIndent)
    (fun _ _ _ hkeeps hnext => Options.keeps_of_apply hnext hkeeps) h hplain

/-- A placeholder of a defined tag decides about its line if its options are at fault, or if its
value is empty and the line is to be skipped then. -/
inductive Decides (tags : Dictionary) (lineIndent : Text) (line : Nat) (p : Placeholder) :
    Except Fault Substitution → Prop
  | fault {value : Text} {fault : Fault} (defined : tags.get? p.tag = some value)
    (bad : p.readOptions lineIndent line = .error fault) :
    Decides tags lineIndent line p (.error fault)
  | skip {options : Options} (defined : tags.get? p.tag = some [])
    (good : p.readOptions lineIndent line = .ok options) (skips : options.skipsEmpty = true) :
    Decides tags lineIndent line p (.ok .skip)

/-- The text that any other placeholder stands for. -/
def replacement (tags : Dictionary) (newline lineIndent : Text) (line : Nat) (p : Placeholder) :
    Text :=
  match tags.get? p.tag, p.readOptions lineIndent line with
  | some value, .ok options => options.indented newline value
  | _, _ => []

/-- Some placeholders with the text in front of each of them, as they are read. -/
def sources (os : List Occurrence) : Text := os.flatMap fun o => o.gap ++ o.source

def replacements (tags : Dictionary) (newline lineIndent : Text) (line : Nat)
    (os : List Occurrence) : Text :=
  os.flatMap fun o => o.gap ++ o.placeholder.replacement tags newline lineIndent line

/-- The warnings about the undefined ones of some placeholders. -/
def undefinedAmong (tags : Dictionary) (line : Nat) (os : List Occurrence) : List Warning :=
  (os.filter fun o => (tags.get? o.placeholder.tag).isNone).map fun o => ⟨line, o.placeholder.tag⟩

lemma replacements_append (tags : Dictionary) (newline lineIndent : Text) (line : Nat)
    (os ps : List Occurrence) :
    replacements tags newline lineIndent line (os ++ ps) =
      replacements tags newline lineIndent line os ++
        replacements tags newline lineIndent line ps := List.flatMap_append

lemma undefinedAmong_append (tags : Dictionary) (line : Nat) (os ps : List Occurrence) :
    undefinedAmong tags line (os ++ ps) =
      undefinedAmong tags line os ++ undefinedAmong tags line ps := by
  simp [undefinedAmong]

end Placeholder

open Placeholder

lemma exists_first {α : Type} (p : α → Prop) (l : List α) :
    (∀ a ∈ l, ¬ p a) ∨
      ∃ front a behind, l = front ++ a :: behind ∧ (∀ b ∈ front, ¬ p b) ∧ p a := by
  classical
  cases hfirst : l.find? (fun a => decide (p a)) with
  | none => exact .inl fun a ha hp => List.find?_eq_none.mp hfirst a ha (decide_eq_true hp)
  | some a =>
    obtain ⟨ha, front, behind, hsplit, hfront⟩ := List.find?_eq_some_iff_append.mp hfirst
    refine .inr ⟨front, a, behind, hsplit, fun b hb hp => ?_, of_decide_eq_true ha⟩
    simpa [hp] using hfront b hb

section Substitute

variable {tags : Dictionary} {newline lineIndent tail : Text} {line : Nat}

lemma substituteAll_cons_of_decides {o : Occurrence} {os : List Occurrence}
    {result : Except Fault Substitution} (h : o.placeholder.Decides tags lineIndent line result) :
    substituteAll tags newline line lineIndent tail (o :: os) = ⟨[], result⟩ := by
  cases h with
  | fault defined bad => simp only [substituteAll, defined, bad]
  | skip defined good skips =>
    simp only [substituteAll, defined, good, skips, List.isEmpty_nil, Bool.and_self, if_true]

/-- Any other placeholder is replaced, and reported if its tag is not defined. -/
lemma substituteAll_cons_of_not_decides {o : Occurrence} {os : List Occurrence}
    (h : ∀ result, ¬ o.placeholder.Decides tags lineIndent line result) :
    substituteAll tags newline line lineIndent tail (o :: os) =
      (substituteAll tags newline line lineIndent tail os).behind (undefinedAmong tags line [o])
        (replacements tags newline lineIndent line [o]) := by
  have hskip {value : Text} (hg : tags.get? o.placeholder.tag = some value) {options : Options}
      (ho : o.placeholder.readOptions lineIndent line = .ok options) :
      (options.skipsEmpty && value.isEmpty) = false := by
    rw [Bool.eq_false_iff]
    intro hand
    obtain ⟨hskips, hempty⟩ := Bool.and_eq_true_iff.mp hand
    rw [List.isEmpty_iff.mp hempty] at hg
    exact h _ (.skip hg ho hskips)
  rw [substituteAll]
  cases hg : tags.get? o.placeholder.tag with
  | none =>
    simp [undefinedAmong, replacements, replacement, hg, Substituted.prepend, Substituted.warn,
      Substituted.behind]
  | some value =>
    cases ho : o.placeholder.readOptions lineIndent line with
    | error fault => exact absurd (.fault hg ho) (h _)
    | ok options =>
      simp [undefinedAmong, replacements, replacement, hg, ho, hskip hg ho, Substituted.prepend,
        Substituted.behind, Options.insertion_eq_indented]

/-- As long as no placeholder decides about the line, substitution goes on. -/
theorem substituteAll_append {front : List Occurrence}
    (h : ∀ o ∈ front, ∀ result, ¬ o.placeholder.Decides tags lineIndent line result)
    (behind : List Occurrence) :
    substituteAll tags newline line lineIndent tail (front ++ behind) =
      (substituteAll tags newline line lineIndent tail behind).behind
        (undefinedAmong tags line front) (replacements tags newline lineIndent line front) := by
  induction front with
  | nil => exact (Substituted.behind_nil _).symm
  | cons o front ih =>
    obtain ⟨ho, hfront⟩ := List.forall_mem_cons.mp h
    rw [List.cons_append, substituteAll_cons_of_not_decides ho, ih hfront,
      Substituted.behind_behind, ← undefinedAmong_append, ← replacements_append,
      List.singleton_append]

lemma exists_first_decides (tags : Dictionary) (lineIndent : Text) (line : Nat)
    (os : List Occurrence) :
    (∀ o ∈ os, ∀ result, ¬ o.placeholder.Decides tags lineIndent line result) ∨
      ∃ front o behind result, os = front ++ o :: behind ∧
        (∀ o ∈ front, ∀ result, ¬ o.placeholder.Decides tags lineIndent line result) ∧
        o.placeholder.Decides tags lineIndent line result := by
  obtain hnone | ⟨front, o, behind, hsplit, hfront, result, hresult⟩ :=
    exists_first (fun o => ∃ result, o.placeholder.Decides tags lineIndent line result) os
  · exact .inl fun o ho => not_exists.mp (hnone o ho)
  · exact .inr ⟨front, o, behind, result, hsplit, fun b hb => not_exists.mp (hfront b hb), hresult⟩

end Substitute

/-- What becomes of a line by the meaning of its placeholders. -/
inductive LineMeaning (tags : Dictionary) (newline source : Text) (line : Nat) :
    Substituted → Prop
  /-- No placeholder decides: all of them are replaced. -/
  | replaced
    (none : ∀ o ∈ (cut source).occurrences, ∀ result,
      ¬ o.placeholder.Decides tags (Text.indentation source) line result) :
    LineMeaning tags newline source line
      ⟨undefinedAmong tags line (cut source).occurrences,
        .ok (.line (replacements tags newline (Text.indentation source) line
          (cut source).occurrences ++ (cut source).tail))⟩
  /-- The first placeholder that decides. -/
  | decided {front behind : List Occurrence} {o : Occurrence} {result : Except Fault Substitution}
    (split : (cut source).occurrences = front ++ o :: behind)
    (none : ∀ o ∈ front, ∀ result,
      ¬ o.placeholder.Decides tags (Text.indentation source) line result)
    (first : o.placeholder.Decides tags (Text.indentation source) line result) :
    LineMeaning tags newline source line ⟨undefinedAmong tags line front, result⟩

/-- Substitution makes of a line what it means. -/
theorem LineMeaning.substitute_eq {tags : Dictionary} {newline source : Text} {line : Nat}
    {s : Substituted} (h : LineMeaning tags newline source line s) :
    substitute tags newline source line = s := by
  cases h with
  | replaced none =>
    have hall : substituteAll tags newline line (Text.indentation source) (cut source).tail
        ((cut source).occurrences ++ []) = _ := substituteAll_append none []
    rw [List.append_nil] at hall
    rw [substitute]
    simp only [hall, substituteAll, Substituted.behind, List.append_nil]
    rfl
  | @decided front behind o result split none first =>
    have hfront : substituteAll tags newline line (Text.indentation source) (cut source).tail
        (front ++ o :: behind) = _ := substituteAll_append none (o :: behind)
    rw [substitute]
    simp only [split, hfront, substituteAll_cons_of_decides first, Substituted.behind,
      List.append_nil]
    cases first <;> rfl

/-- Every line has a meaning: some placeholder is the first to decide, or none decides. -/
theorem lineMeaning_substitute (tags : Dictionary) (newline source : Text) (line : Nat) :
    LineMeaning tags newline source line (substitute tags newline source line) := by
  obtain hnone | ⟨front, o, behind, result, hsplit, hnone, hfirst⟩ :=
    exists_first_decides tags (Text.indentation source) line (cut source).occurrences
  · have hmeaning : LineMeaning tags newline source line _ := .replaced hnone
    rwa [hmeaning.substitute_eq]
  · have hmeaning : LineMeaning tags newline source line _ := .decided hsplit hnone hfirst
    rwa [hmeaning.substitute_eq]

namespace Placeholder

lemma marker_prefix_source {text : Text} {found : Found} (h : Spelled text found) :
    marker <+: found.source := by
  cases h <;> simp only [List.append_assoc, List.prefix_append]

/-- A text without a marker has no placeholders. -/
lemma occurrences_of_no_marker {source : Text} (h : ¬ marker <:+: source) :
    (cut source).occurrences = [] := by
  rw [List.eq_nil_iff_forall_not_mem]
  intro o ho
  obtain ⟨here, found, hread, -, hsource⟩ := read?_of_mem_cutFrom ho
  have hmarker : marker <:+: o.source :=
    hsource ▸ (marker_prefix_source (read?_eq_some_iff.mp hread)).isInfix
  have hpart : o.source <:+: source := by
    obtain ⟨front, behind, hsplit⟩ := List.append_of_mem ho
    rw [← text_cut source, Cut.text, hsplit, List.flatMap_append, List.flatMap_cons]
    exact ⟨sources front ++ o.gap, sources behind ++ (cut source).tail, by simp [sources]⟩
  exact h (hmarker.trans hpart)

end Placeholder

/-- Substitution on a line is what the placeholders on it mean, which are the matches of their
pattern. A line without a marker is left as it is. -/
theorem substitution_is_line_meaning (tags : Dictionary) (newline source : Text) (line : Nat) :
    pattern.search 0 source = (spans source).map Span.toMatch ∧
      source = sources (cut source).occurrences ++ (cut source).tail ∧
      (∀ s, LineMeaning tags newline source line s ↔ substitute tags newline source line = s) ∧
      (∀ (p : Placeholder) options,
        p.readOptions (Text.indentation source) line = .ok options → options.keepsIndent = true →
          ∃ rest, source = options.indent ++ rest ∧ Text.Run Text.isBlank options.indent rest) ∧
      (¬ marker <:+: source → substitute tags newline source line = ⟨[], .ok (.line source)⟩) := by
  refine ⟨search_pattern 0 [] source, (text_cut source).symm, fun s => ⟨(·.substitute_eq), ?_⟩,
    fun p options h hkeeps => ?_, fun h => ?_⟩
  · rintro rfl
    exact lineMeaning_substitute tags newline source line
  · rw [keeps_of_readOptions h hkeeps]
    exact ⟨Text.trimStart source, (Text.indentation_append_trimStart source).symm,
      Text.run_takeWhile Text.isBlank source⟩
  · have hnone := occurrences_of_no_marker h
    have htail := text_cut source
    rw [Cut.text, hnone] at htail
    simp only [substitute, hnone, substituteAll]
    rw [show (cut source).tail = source from htail]

end LineTemplate
