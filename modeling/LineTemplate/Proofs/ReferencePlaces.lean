import LineTemplate.Proofs.DirectiveGrammar
import LineTemplate.Proofs.PlaceholderScan
import LineTemplate.Proofs.Warnings
import LineTemplate.Text.Utf8

/-!
# The places of references

A line with a spelling of a directive refers to the tag in that spelling, if there is one, and any
other line refers to the tags of its placeholders. Columns are lengths of what stands in front, in
bytes. What is referred to begins there, however many bytes the characters in front of it have, and
wherever else on the line the same text may stand.
-/
namespace LineTemplate

namespace Utf8

lemma encode_append (a b : Text) : encode (a ++ b) = encode a ++ encode b := List.flatMap_append

lemma length_encode (text : Text) : (encode text).length = Text.byteLength text := by
  induction text with
  | nil => rfl
  | cons c text ih =>
    rw [encode, List.flatMap_cons, List.length_append, String.length_utf8EncodeChar,
      Text.byteLength_cons, ← ih, encode]

/-- Behind the bytes of a front come the bytes of the rest. -/
lemma drop_encode_append (front rest : Text) :
    (encode (front ++ rest)).drop (Text.byteLength front) = encode rest := by
  rw [encode_append, ← length_encode, List.drop_left]

end Utf8

namespace Reference

/-- What stands at the place of a reference: a placeholder begins with its marker, and of a
condition the tag itself is meant. -/
def begins (r : Reference) : Text :=
  match r.kind with
  | .placeholder => Placeholder.marker ++ r.tag
  | .condition => r.tag

/-- A reference points into a line: at its column, counted from one, the bytes of the line begin
with what is referred to. -/
structure PointsInto (r : Reference) (text : Text) : Prop where
  one_le : 1 ≤ r.column
  bytes : Utf8.encode r.begins <+: (Utf8.encode text).drop (r.column - 1)

lemma pointsInto_of_eq_append {r : Reference} {text front rest : Text} (htext : text = front ++ rest)
    (hcolumn : r.column = Text.byteLength front + 1) (hrest : r.begins <+: rest) :
    r.PointsInto text := by
  obtain ⟨behind, rfl⟩ := hrest
  refine ⟨by omega, ?_⟩
  rw [htext, hcolumn, Nat.add_sub_cancel, Utf8.drop_encode_append, Utf8.encode_append]
  exact List.prefix_append _ _

end Reference

/-- What a spelling on a line refers to: the tag of a test, behind all that stands in front of it. -/
def Directive.Spelling.references (line : Nat) : Directive.Spelling → List Reference
  | closing _ _ _ => []
  | otherwise _ _ => []
  | test alternate kind a b tag _ _ =>
    [⟨tag, .condition, line,
      Text.byteLength (marker ++ a ++ testWord alternate kind ++ b) + 1, none⟩]

namespace Reference

def ofMatch (line : Nat) (text : Text) (m : Pattern.Match) : Reference :=
  ⟨(m.groups.lookup 1).getD [], .placeholder, line, Text.byteLength (text.take m.start) + 1,
    m.groups.lookup 2⟩

open Directive in
/-- A line that is spelled as a directive refers to what its spelling refers to. -/
theorem ofLine_spelled (line : Nat) (s : Spelling) : ofLine line s.text = s.references line := by
  have hread : read? s.text = some s.directive := read?_eq_some_iff.mpr ⟨s, rfl, rfl⟩
  rw [ofLine, hread]
  cases hlocate : locate? s.text with
  | none =>
    cases s with
    | closing a b c => rfl
    | otherwise a b => rfl
    | test alternate kind a b tag c d =>
      exact absurd hlocate (locate?_ne_none alternate kind a b tag c d)
  | some located =>
    -- What is located belongs to some spelling of the line, and the line has no other one.
    obtain ⟨alternate, kind, a, b, tag, c, d, htext, rfl⟩ := locate?_eq_some hlocate
    obtain rfl := Spelling.text_injective htext
    rfl

lemma lookup_groups_two (placeholder : Placeholder) :
    placeholder.groups.lookup 2 = placeholder.options := by
  obtain ⟨tag, _ | options⟩ := placeholder <;> rfl

/-- Columns and matches go through a line together, behind whatever text. -/
lemma ofOccurrences_eq_map (line : Nat) (front tail : Text) (os : List Placeholder.Occurrence) :
    ofOccurrences line (Text.byteLength front + 1) os =
      ((Placeholder.spansFrom front.length os).map Placeholder.Span.toMatch).map
        (ofMatch line (front ++ (⟨os, tail⟩ : Placeholder.Cut).text)) := by
  induction os generalizing front with
  | nil => rfl
  | cons o os ih =>
    have htext : front ++ (⟨o :: os, tail⟩ : Placeholder.Cut).text =
        front ++ o.gap ++ o.source ++ (⟨os, tail⟩ : Placeholder.Cut).text := by
      simp [Placeholder.Cut.text]
    have htake : (front ++ o.gap ++ o.source ++ (⟨os, tail⟩ : Placeholder.Cut).text).take
        (front.length + o.gap.length) = front ++ o.gap := by
      rw [← List.length_append, List.append_assoc, List.take_left]
    have hcolumn : Text.byteLength front + 1 + Text.byteLength o.gap =
        Text.byteLength (front ++ o.gap) + 1 := by
      rw [Text.byteLength_append]
      omega
    have hrest := ih (front ++ o.gap ++ o.source)
    rw [Text.byteLength_append _ o.source, List.length_append, List.length_append] at hrest
    rw [htext, ofOccurrences, Placeholder.spansFrom, List.map_cons, List.map_cons, ← hrest, ofMatch,
      Placeholder.Span.toMatch, htake, lookup_groups_two, hcolumn, Nat.add_right_comm _ 1]
    rfl

/-- Any other line refers to what the matches on it refer to. -/
theorem ofLine_of_content {text : Text} (h : Directive.read? text = none) (line : Nat) :
    ofLine line text = (Placeholder.pattern.search 0 text).map (ofMatch line text) := by
  have hmap := ofOccurrences_eq_map line [] (Placeholder.cut text).tail
    (Placeholder.cut text).occurrences
  rw [ofLine, h, Placeholder.search_spans, Placeholder.spans]
  rwa [Text.byteLength_nil, List.length_nil, List.nil_append, Placeholder.text_cut] at hmap

lemma pointsInto_of_mem_spelling {line : Nat} {s : Directive.Spelling} {r : Reference}
    (h : r ∈ s.references line) : r.PointsInto s.text := by
  cases s with
  | closing a b c => contradiction
  | otherwise a b => contradiction
  | test alternate kind a b tag c d =>
    obtain rfl := List.mem_singleton.mp h
    have htext : (Directive.Spelling.test alternate kind a b tag c d).text =
        Directive.marker ++ a ++ Directive.testWord alternate kind ++ b ++
          (tag ++ (c ++ (Directive.marker ++ d))) := by
      simp [Directive.Spelling.text]
    exact pointsInto_of_eq_append htext rfl (List.prefix_append _ _)

lemma pointsInto_of_mem_search {line : Nat} {text : Text} {r : Reference}
    (h : r ∈ (Placeholder.pattern.search 0 text).map (ofMatch line text)) : r.PointsInto text := by
  rw [Placeholder.search_spans, List.map_map] at h
  obtain ⟨span, hspan, rfl⟩ := List.mem_map.mp h
  have hbegins : (ofMatch line text span.toMatch).begins <+: text.drop span.start :=
    (Placeholder.scanned_spans text).begins hspan
  exact pointsInto_of_eq_append (List.take_append_drop span.start text).symm rfl hbegins

lemma pointsInto_of_mem_ofLine {line : Nat} {text : Text} {r : Reference}
    (h : r ∈ ofLine line text) : r.PointsInto text := by
  cases hread : Directive.read? text with
  | none =>
    rw [ofLine_of_content hread] at h
    exact pointsInto_of_mem_search h
  | some d =>
    obtain ⟨s, rfl, -⟩ := Directive.read?_eq_some_iff.mp hread
    rw [ofLine_spelled] at h
    exact pointsInto_of_mem_spelling h

/-- The references with the number of a line are those of that line. -/
lemma filter_line_ofLines {line k : Nat} {ls : List Text} {text : Text} (h : ls[k]? = some text) :
    (ofLines line ls).filter (·.line == line + k) = ofLine (line + k) text := by
  induction ls generalizing line k with
  | nil => contradiction
  | cons first ls ih =>
    rw [ofLines, List.filter_append]
    cases k with
    | zero =>
      obtain rfl := Option.some.inj h
      have hfirst : (ofLine line first).filter (·.line == line + 0) = ofLine line first :=
        List.filter_eq_self.mpr fun r hr => beq_iff_eq.mpr (mem_ofLine hr).1
      have hrest : (ofLines (line + 1) ls).filter (·.line == line + 0) = [] := by
        refine List.filter_eq_nil_iff.mpr fun r hr heq => ?_
        have hle := le_line_of_mem_ofLines hr
        rw [eq_of_beq heq] at hle
        omega
      rw [hfirst, hrest, List.append_nil, Nat.add_zero]
    | succ k =>
      have hfirst : (ofLine line first).filter (·.line == line + (k + 1)) = [] := by
        refine List.filter_eq_nil_iff.mpr fun r hr heq => ?_
        have hline := (mem_ofLine hr).1
        rw [eq_of_beq heq] at hline
        omega
      rw [hfirst, List.nil_append, show line + (k + 1) = line + 1 + k by omega]
      exact ih h

lemma map_references {line : Nat} (s : Directive.Spelling) :
    (s.references line).map (fun r => (r.tag, r.kind, r.options)) =
      s.directive.tag?.toList.map (·, .condition, none) := by
  cases s with
  | closing a b c => rfl
  | otherwise a b => rfl
  | test alternate kind a b tag c d => cases alternate <;> rfl

/-- The references of a template are in order, and each of them points into its line. A line with a
directive has one reference if a tag is tested, namely a condition with that tag, behind all that
the directive is spelled with in front of the tag; on any other line there is one placeholder for
each match, with the tag and the options that the match keeps. -/
theorem references_are_complete_and_placed (template : Text) :
    (ofTemplate template).Pairwise Before ∧
      (∀ r ∈ ofTemplate template, ∃ k text, (lines template)[k]? = some text ∧ r.line = k + 1 ∧
        r.PointsInto text) ∧
      ∀ k text, (lines template)[k]? = some text →
        let here := (ofTemplate template).filter (·.line == k + 1)
        (∀ d, Directive.read? text = some d →
          here.map (fun r => (r.tag, r.kind, r.options)) =
            d.tag?.toList.map (·, .condition, none)) ∧
        (∀ s : Directive.Spelling, s.text = text → here = s.references (k + 1)) ∧
        (Directive.read? text = none →
          here = (Placeholder.pattern.search 0 text).map (ofMatch (k + 1) text)) := by
  refine ⟨before_ofLines 1 (lines template), fun r hr => ?_, fun k text hk => ?_⟩
  · obtain ⟨k, text, hk, hmem⟩ := mem_ofLines_iff.mp hr
    refine ⟨k, text, hk, ?_, pointsInto_of_mem_ofLine hmem⟩
    rw [(mem_ofLine hmem).1, Nat.add_comm]
  · have hhere : (ofTemplate template).filter (·.line == k + 1) = ofLine (k + 1) text := by
      rw [Nat.add_comm k]
      exact filter_line_ofLines hk
    simp only [hhere]
    refine ⟨fun d hd => ?_, fun s hs => ?_, fun hcontent => ofLine_of_content hcontent (k + 1)⟩
    · obtain ⟨s, rfl, rfl⟩ := Directive.read?_eq_some_iff.mp hd
      rw [ofLine_spelled, map_references]
    · rw [← hs, ofLine_spelled]

-- The tag is also the first letter of `empty`, and the blank in front of it has three bytes.
example : ofTemplate "!!ifempty:\u3000e!!\n!!endif!!".toList = [⟨['e'], .condition, 1, 14, none⟩] := by
  decide +kernel

end Reference

end LineTemplate
