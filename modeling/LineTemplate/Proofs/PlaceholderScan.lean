import LineTemplate.Proofs.PlaceholderPattern
import LineTemplate.Proofs.TagNames

/-!
# Scanning for placeholders

A scanner goes through a text with a cursor. The next placeholder is the one at the first place from
the cursor on where one is spelled, and the cursor moves behind it. What is spelled at a place is
settled without going back, and still the scanner finds the matches of the pattern of placeholders.
-/
namespace LineTemplate.Placeholder

/-- Where a placeholder stands in a text. -/
structure Span where
  start : Nat
  stop : Nat
  placeholder : Placeholder
  deriving DecidableEq, Repr

def Span.toMatch (span : Span) : Pattern.Match := ⟨span.start, span.stop, span.placeholder.groups⟩

/-- The spans of the occurrences behind some place. -/
def spansFrom (cursor : Nat) : List Occurrence → List Span
  | [] => []
  | o :: rest =>
    let start := cursor + o.gap.length
    let stop := start + o.source.length
    ⟨start, stop, o.placeholder⟩ :: spansFrom stop rest

/-- Where the placeholders stand at which a text is divided. -/
def spans (text : Text) : List Span := spansFrom 0 (cut text).occurrences

/-- What a scanner finds from a cursor on. -/
inductive Scanned (text : Text) : Nat → List Span → Prop
  | done {cursor : Nat}
    (never : ∀ place found, cursor ≤ place → ¬ Spelled (text.drop place) found) :
    Scanned text cursor []
  | next {cursor place : Nat} {found : Found} {behind : List Span} (ahead : cursor ≤ place)
    (first : ∀ before found, cursor ≤ before → before < place →
      ¬ Spelled (text.drop before) found)
    (here : Spelled (text.drop place) found)
    (more : Scanned text (place + found.source.length) behind) :
    Scanned text cursor (⟨place, place + found.source.length, found.placeholder⟩ :: behind)

theorem search_pattern (cursor : Nat) (gap text : Text) :
    pattern.search (cursor + gap.length) text =
      (spansFrom cursor (cutFrom gap text).occurrences).map Span.toMatch := by
  induction gap, text using cutFrom.induct generalizing cursor with
  | case1 gap => rw [cutFrom, Pattern.search]; rfl
  | case2 gap c text h ih =>
    rw [cutFrom, h, Pattern.search, first?_pattern, h, Option.map_none]
    exact ih cursor
  | case3 gap c text found h ih =>
    have hlt : found.way.rest.length < (c :: text).length := length_rest_lt h
    have hrest := ih (cursor + gap.length + found.source.length)
    rw [cutFrom, h, Pattern.search, first?_pattern, h, Option.map_some]
    simp only [spansFrom, List.length_reverse, List.map_cons]
    rw [if_pos hlt, ← hrest]
    rfl

lemma search_spans (text : Text) : pattern.search 0 text = (spans text).map Span.toMatch :=
  search_pattern 0 [] text

/-- A scanner has no choice. -/
theorem Scanned.unique {text : Text} {cursor : Nat} {a b : List Span} (ha : Scanned text cursor a)
    (hb : Scanned text cursor b) : a = b := by
  induction ha generalizing b with
  | done never =>
    cases hb with
    | done => rfl
    | next ahead first here more => exact absurd here (never _ _ ahead)
  | @next cursor place found behind ahead first here more ih =>
    cases hb with
    | done never => exact absurd here (never _ _ ahead)
    | @next _ place' found' behind' ahead' first' here' more' =>
      obtain rfl : place = place' := by
        rcases Nat.lt_trichotomy place place' with h | h | h
        · exact absurd here (first' _ _ ahead h)
        · exact h
        · exact absurd here' (first _ _ ahead' h)
      obtain rfl : found = found' :=
        Option.some.inj ((read?_eq_some_iff.mpr here).symm.trans (read?_eq_some_iff.mpr here'))
      rw [ih more']

lemma scanned_spansFrom {whole gap text : Text} {cursor : Nat}
    (htext : whole.drop (cursor + gap.length) = text)
    (hpassed : ∀ before found, cursor ≤ before → before < cursor + gap.length →
      ¬ Spelled (whole.drop before) found) :
    Scanned whole cursor (spansFrom cursor (cutFrom gap text).occurrences) := by
  induction gap, text using cutFrom.induct generalizing cursor with
  | case1 gap =>
    rw [cutFrom]
    refine .done fun place found hplace hspelled => ?_
    by_cases h : place < cursor + gap.length
    · exact hpassed place found hplace h hspelled
    · have hnil : whole.drop place = [] := by
        rw [List.drop_eq_nil_iff] at htext ⊢
        omega
      rw [hnil, ← read?_eq_some_iff] at hspelled
      contradiction
  | case2 gap c text h ih =>
    rw [cutFrom, h]
    refine ih ?_ fun before found hbefore hlt => ?_
    · rw [List.length_cons, ← Nat.add_assoc, ← List.drop_drop, htext]
      rfl
    · by_cases heq : before = cursor + gap.length
      · rw [heq, htext, ← read?_eq_some_iff, h]
        exact (Option.some_ne_none found).symm
      · refine hpassed before found hbefore ?_
        rw [List.length_cons] at hlt
        omega
  | case3 gap c text found h ih =>
    have hspelled : Spelled (whole.drop (cursor + gap.length)) found := by
      rw [htext]
      exact read?_eq_some_iff.mp h
    rw [cutFrom, h]
    simp only [spansFrom, List.length_reverse]
    refine .next (Nat.le_add_right _ _) hpassed hspelled (ih ?_ ?_)
    · rw [List.length_nil, Nat.add_zero, ← List.drop_drop, htext, ← source_append_rest h,
        List.drop_left]
    · intro before found' hle hlt
      rw [List.length_nil] at hlt
      omega

lemma Spelled.exists_opens {text : Text} {found : Found} (h : Spelled text found) :
    ∃ gap behind, Opens text found.placeholder.tag gap behind := by
  cases h with
  | bare opens => exact ⟨_, _, opens⟩
  | options opens => exact ⟨_, _, opens⟩
  | lastBlank opens => exact ⟨_, _, opens⟩

/-- Whatever a scanner finds stands behind the cursor, and what it finds later stands behind it. -/
lemma Scanned.ordered {text : Text} {cursor : Nat} {found : List Span}
    (h : Scanned text cursor found) :
    (∀ span ∈ found, cursor ≤ span.start) ∧ found.Pairwise (·.stop ≤ ·.start) := by
  induction h with
  | done => simp
  | @next cursor place found behind ahead first here more ih =>
    obtain ⟨hstart, hordered⟩ := ih
    refine ⟨List.forall_mem_cons.mpr ⟨ahead, fun span hspan => ?_⟩,
      List.pairwise_cons.mpr ⟨hstart, hordered⟩⟩
    have := hstart span hspan
    omega

lemma Scanned.exists_spelled {text : Text} {cursor : Nat} {found : List Span}
    (h : Scanned text cursor found) {span : Span} (hspan : span ∈ found) :
    ∃ here, Spelled (text.drop span.start) here ∧ span.placeholder = here.placeholder ∧
      span.stop = span.start + here.source.length := by
  induction h with
  | done => contradiction
  | next ahead first here more ih =>
    rcases List.mem_cons.mp hspan with rfl | hspan
    · exact ⟨_, here, rfl, rfl⟩
    · exact ih hspan

lemma scanned_spans (text : Text) : Scanned text 0 (spans text) :=
  scanned_spansFrom rfl fun before _ _ hlt => absurd hlt (Nat.not_lt_zero before)

/-- What is found begins with the marker and a tag. -/
lemma Scanned.begins {text : Text} {cursor : Nat} {found : List Span}
    (h : Scanned text cursor found) {span : Span} (hspan : span ∈ found) :
    marker ++ span.placeholder.tag <+: text.drop span.start := by
  obtain ⟨here, hspelled, hplaceholder, -⟩ := h.exists_spelled hspan
  obtain ⟨gap, behind, hopens⟩ := hspelled.exists_opens
  rw [hplaceholder, hopens.text_eq, List.append_assoc _ gap]
  exact List.prefix_append _ _

/-- The placeholders of a text are the matches of their pattern, and they are what a scanner finds
that never goes back. They are apart and in order, and each of them begins with the marker and a
name. -/
theorem placeholders_are_pattern_matches (text : Text) :
    pattern.search 0 text = (spans text).map Span.toMatch ∧
      (∀ found, Scanned text 0 found ↔ found = spans text) ∧
      (spans text).Pairwise (·.stop ≤ ·.start) ∧
      ∀ span ∈ spans text, span.start < span.stop ∧ span.stop ≤ text.length ∧
        Text.isName span.placeholder.tag = true ∧
        marker ++ span.placeholder.tag <+: text.drop span.start := by
  have hscanned : Scanned text 0 (spans text) :=
    scanned_spansFrom rfl fun before _ _ hlt => absurd hlt (Nat.not_lt_zero before)
  refine ⟨search_pattern 0 [] text, fun found => ⟨fun h => h.unique hscanned, ?_⟩,
    hscanned.ordered.2, fun span hspan => ?_⟩
  · rintro rfl
    exact hscanned
  · obtain ⟨here, hspelled, hplaceholder, hstop⟩ := hscanned.exists_spelled hspan
    obtain ⟨gap, behind, hopens⟩ := hspelled.exists_opens
    have hread := read?_eq_some_iff.mpr hspelled
    have hlength := congrArg List.length (source_append_rest hread)
    have hlt := length_rest_lt hread
    rw [List.length_append, List.length_drop] at hlength
    rw [List.length_drop] at hlt
    rw [hplaceholder, hstop]
    refine ⟨by omega, by omega, Text.isName_iff.mpr ⟨hopens.tag_ne_nil, hopens.word.all⟩, ?_⟩
    rw [hopens.text_eq, List.append_assoc _ gap]
    exact List.prefix_append _ _

-- No marker is left that could end options, so the blank between the colon and the marker is them.
example : spans "a%%A: %%b".toList = [⟨1, 8, ⟨"A".toList, some " ".toList⟩⟩] := by decide +kernel

end LineTemplate.Placeholder
