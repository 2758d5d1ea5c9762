import LineTemplate.Placeholder
import Mathlib.Data.List.Infix
import Mathlib.Data.List.TakeWhile
import Mathlib.Tactic.Common

/-!
# Where the options of a placeholder end

Options take at least one character, whichever it is, and end at the first marker behind it. A
marker directly behind the colon and its white space is therefore the beginning of options, which
run on to the next marker of the line; options come to hold a marker in no other way.
-/
namespace LineTemplate.Placeholder

/-- With a marker behind it, a text is clear if no other marker begins in it. -/
def Clear (text : Text) : Prop := ¬ marker <:+: text ++ ['%']

instance (text : Text) : Decidable (Clear text) := inferInstanceAs (Decidable (¬ _))

lemma marker_prefix_cons {c : Char} {text : Text} :
    marker <+: c :: text ↔ c = '%' ∧ text.head? = some '%' := by
  cases text with
  | nil => simp [marker]
  | cons d text => simp [marker, eq_comm]

lemma clear_nil : Clear [] := by decide

lemma clear_cons {c : Char} {text : Text} :
    Clear (c :: text) ↔ ¬ marker <+: c :: (text ++ ['%']) ∧ Clear text := by
  rw [Clear, List.cons_append, List.infix_cons_iff, not_or, Clear]

/-- The search for the end of the options stops at the first marker; a line feed before it makes it
fail. -/
theorem closeFrom_eq_some_iff {taken text options rest : Text} :
    closeFrom taken text = some (options, rest) ↔
      ∃ body, options = taken.reverse ++ body ∧ text = body ++ marker ++ rest ∧ '\n' ∉ body ∧
        Clear body := by
  induction taken, text using closeFrom.induct with
  | case1 taken => simp [closeFrom, marker]
  | case2 taken text =>
    constructor
    · intro h
      simp only [closeFrom, Option.some.injEq, Prod.mk.injEq] at h
      obtain ⟨rfl, rfl⟩ := h
      exact ⟨[], by simp, rfl, by simp, clear_nil⟩
    · rintro ⟨body, rfl, ht, -, hclear⟩
      cases body with
      | nil => simp_all [closeFrom, marker]
      | cons c body =>
        obtain ⟨rfl, ht⟩ := List.cons.inj ht
        have hnext := (clear_cons.mp hclear).1
        cases body <;> simp_all [marker]
  | case3 taken text hm =>
    refine ⟨fun h => by simp_all [closeFrom], ?_⟩
    rintro ⟨body, -, ht, hfeed, -⟩
    cases body <;> simp_all [marker]
  | case4 taken c text hm hc ih =>
    rw [closeFrom, if_neg hc, ih]
    · constructor
      · rintro ⟨body, rfl, rfl, hfeed, hclear⟩
        refine ⟨c :: body, by simp, rfl, by simp [Ne.symm hc, hfeed], clear_cons.mpr ⟨?_, hclear⟩⟩
        intro hmarker
        obtain ⟨hpercent, hhead⟩ := marker_prefix_cons.mp hmarker
        cases body <;> simp_all [marker]
      · rintro ⟨body, rfl, ht, hfeed, hclear⟩
        cases body with
        | nil => simp_all [marker]
        | cons d body =>
          obtain ⟨rfl, rfl⟩ := List.cons.inj ht
          exact ⟨body, by simp, rfl, by simp_all, (clear_cons.mp hclear).2⟩
    · exact hm

/-- Options take their first character as it is, and end at the first marker behind it. -/
theorem close?_eq_some_iff {text options rest : Text} :
    close? text = some (options, rest) ↔
      text = options ++ marker ++ rest ∧ options ≠ [] ∧ '\n' ∉ options ∧ Clear options.tail := by
  cases text with
  | nil => simp [close?, marker]
  | cons c text =>
    by_cases hc : c = '\n'
    · simp only [close?, if_pos hc, reduceCtorEq, false_iff]
      rintro ⟨ht, hne, hfeed, -⟩
      obtain ⟨d, body, rfl⟩ := List.exists_cons_of_ne_nil hne
      obtain ⟨rfl, -⟩ := List.cons.inj ht
      exact hfeed (hc ▸ List.mem_cons_self)
    · rw [close?, if_neg hc, closeFrom_eq_some_iff]
      constructor
      · rintro ⟨body, rfl, rfl, hfeed, hclear⟩
        exact ⟨rfl, by simp, by simp [Ne.symm hc, hfeed], hclear⟩
      · rintro ⟨ht, hne, hfeed, hclear⟩
        obtain ⟨d, body, rfl⟩ := List.exists_cons_of_ne_nil hne
        obtain ⟨rfl, rfl⟩ := List.cons.inj ht
        exact ⟨body, rfl, rfl, fun h => hfeed (List.mem_cons_of_mem _ h), hclear⟩

/-- Behind a colon there are white space and options that are clear behind their first character. -/
lemma clear_of_readOptions? {text lead options rest : Text}
    (h : readOptions? text = some (lead, options, rest)) :
    (∀ c ∈ lead, Text.isBlank c = true) ∧ options ≠ [] ∧ Clear options.tail := by
  rcases readOptions?_cases h with ⟨rfl, hclose⟩ | ⟨last, -, -, hlead, -, rfl⟩
  · obtain ⟨-, hne, -, hclear⟩ := close?_eq_some_iff.mp hclose
    exact ⟨fun c hc => List.mem_takeWhile_imp hc, hne, hclear⟩
  · refine ⟨fun c hc => ?_, List.cons_ne_nil _ _, clear_nil⟩
    have hmem : c ∈ Text.indentation text := hlead ▸ List.mem_append_left _ hc
    exact List.mem_takeWhile_imp hmem

/-- The spelling of a placeholder with options, which are clear behind their first character. -/
lemma clear_of_read? {text : Text} {found : Found} (h : read? text = some found) {options : Text}
    (ho : found.placeholder.options = some options) :
    ∃ gap lead, found.source =
        marker ++ found.placeholder.tag ++ gap ++ ':' :: (lead ++ options ++ marker) ∧
      (∀ c ∈ gap ++ lead, Text.isBlank c = true) ∧ options ≠ [] ∧ Clear options.tail := by
  obtain ⟨body, tag, gap, behind, -, -, rfl, -, -, hcases⟩ := read?_cases h
  rcases hcases with ⟨rest, -, rfl⟩ | ⟨list, lead, options', rest, -, hread, rfl⟩
  · contradiction
  · obtain rfl : options' = options := Option.some.inj ho
    obtain ⟨hlead, hne, hclear⟩ := clear_of_readOptions? hread
    refine ⟨Text.indentation (body.dropWhile Text.isWord), lead, by simp, fun c hc => ?_, hne,
      hclear⟩
    rcases List.mem_append.mp hc with hc | hc
    · exact List.mem_takeWhile_imp hc
    · exact hlead c hc

/-- Each occurrence in a text was read at some place of it. -/
lemma read?_of_mem_cutFrom {gap text : Text} {o : Occurrence}
    (h : o ∈ (cutFrom gap text).occurrences) :
    ∃ here found, read? here = some found ∧ found.placeholder = o.placeholder ∧
      found.source = o.source := by
  induction gap, text using cutFrom.induct with
  | case1 gap => simp [cutFrom] at h
  | case2 gap c text hr ih =>
    rw [cutFrom, hr] at h
    exact ih h
  | case3 gap c text found hr ih =>
    rw [cutFrom, hr] at h
    rcases List.mem_cons.mp h with rfl | h
    · exact ⟨_, found, hr, rfl, rfl⟩
    · exact ih h

lemma clear_append_of_blank {lead text : Text} (h : ∀ c ∈ lead, Text.isBlank c = true) :
    Clear (lead ++ text) ↔ Clear text := by
  induction lead with
  | nil => rfl
  | cons c lead ih =>
    have hc : c ≠ '%' := by
      rintro rfl
      exact absurd (h '%' List.mem_cons_self) (by decide)
    rw [List.cons_append, clear_cons, ih fun d hd => h d (List.mem_cons_of_mem _ hd)]
    simp [marker_prefix_cons, hc]

lemma clear_iff_of_clear_tail {text : Text} (hne : text ≠ []) (h : Clear text.tail) :
    Clear text ↔ ¬ marker <+: text ++ ['%'] := by
  obtain ⟨c, body, rfl⟩ := List.exists_cons_of_ne_nil hne
  rw [clear_cons, List.cons_append, and_iff_left (show Clear body from h)]

lemma marker_infix_iff_of_clear_tail {text : Text} (hne : text ≠ []) (h : Clear text.tail) :
    marker <:+: text ↔ marker <+: text := by
  obtain ⟨c, body, rfl⟩ := List.exists_cons_of_ne_nil hne
  have hbody : ¬ marker <:+: body := fun hm =>
    h (hm.trans (List.prefix_append body ['%']).isInfix)
  rw [List.infix_cons_iff, or_iff_left hbody]

/-- The options of a placeholder end at the first marker behind their first character. This is the
first marker behind the colon unless one begins with the options themselves, and the options hold a
marker exactly if they begin with one. -/
theorem options_clear_behind_first {text : Text} {o : Occurrence}
    (ho : o ∈ (cut text).occurrences) {options : Text} (h : o.placeholder.options = some options) :
    ∃ gap lead,
      o.source = marker ++ o.placeholder.tag ++ gap ++ ':' :: (lead ++ options ++ marker) ∧
      (∀ c ∈ gap ++ lead, Text.isBlank c = true) ∧ options ≠ [] ∧ Clear options.tail ∧
      (Clear (lead ++ options) ↔ ¬ marker <+: options ++ ['%']) ∧
      (marker <:+: options ↔ marker <+: options) := by
  obtain ⟨here, found, hr, hp, hs⟩ := read?_of_mem_cutFrom ho
  rw [← hp] at h
  obtain ⟨gap, lead, hsource, hblank, hne, hclear⟩ := clear_of_read? hr h
  rw [hs, hp] at hsource
  refine ⟨gap, lead, hsource, hblank, hne, hclear, ?_, marker_infix_iff_of_clear_tail hne hclear⟩
  rw [clear_append_of_blank fun c hc => hblank c (List.mem_append_right _ hc)]
  exact clear_iff_of_clear_tail hne hclear

/-- Two placeholders with options on a line, white space standing in front of those of the first. -/
theorem two_lists_clear_behind_first :
    let options := "x% ".toList
    let o : Occurrence := ⟨[], ⟨['A'], some options⟩, "%%A: x% %%".toList⟩
    o ∈ (cut "%%A: x% %%, %%B:y%%".toList).occurrences ∧ o.placeholder.options = some options ∧
      ∃ gap lead,
        o.source = marker ++ o.placeholder.tag ++ gap ++ ':' :: (lead ++ options ++ marker) ∧
        (∀ c ∈ gap ++ lead, Text.isBlank c = true) ∧ options ≠ [] ∧ Clear options.tail ∧
        (Clear (lead ++ options) ↔ ¬ marker <+: options ++ ['%']) ∧
        (marker <:+: options ↔ marker <+: options) := by
  intro options o
  have ho : o ∈ (cut "%%A: x% %%, %%B:y%%".toList).occurrences := by decide +kernel
  exact ⟨ho, rfl, options_clear_behind_first ho rfl⟩

/-- A marker directly behind the colon begins the options, which then run on into the next
placeholder of the line. -/
theorem options_run_into_next_placeholder :
    ¬ ∀ (line : Text) (o : Occurrence) (options : Text), '\n' ∉ line → '\r' ∉ line →
      o ∈ (cut line).occurrences → o.placeholder.options = some options →
        ¬ marker <:+: options := by
  intro h
  let line := "%%A:%%, %%B%%".toList
  let options := "%%, ".toList
  let o : Occurrence := ⟨[], ⟨['A'], some options⟩, "%%A:%%, %%".toList⟩
  have ho : o ∈ (cut line).occurrences := by decide +kernel
  have hmarker : marker <:+: options := by decide +kernel
  exact h line o options (by decide) (by decide) ho rfl hmarker

end LineTemplate.Placeholder
