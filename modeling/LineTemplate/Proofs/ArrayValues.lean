import LineTemplate.Proofs.NameUses
import LineTemplate.Proofs.TagObjects

/-!
# Values of several lines

The strings of an array are stored as one text, with a line feed between any two of them. The lines
of that text are the strings again, but for a last one that is empty: behind the last line feed no
further line starts. So a value has no lines if the array is empty or holds one empty string.
-/
namespace LineTemplate

/-- What is left of some lines when the last one does not count if it is empty. -/
def keptLines (ls : List Text) : List Text := if ls.getLast? = some [] then ls.dropLast else ls

@[simp] lemma keptLines_concat (ls : List Text) (line : Text) :
    keptLines (ls ++ [line]) = if line = [] then ls else ls ++ [line] := by
  simp [keptLines]

lemma intercalate_concat (ls : List Text) (line : Text) :
    ['\n'].intercalate (ls ++ [line]) = unlines .lf ls ++ line := by
  have hended : unlines .lf ls ++ line ++ ['\n'] = ['\n'].intercalate (ls ++ [line]) ++ ['\n'] := by
    have hne : ls ++ [line] ≠ [] := by simp
    rw [← LineEnding.text, ← unlines_eq_intercalate .lf hne, unlines, unlines, List.flatMap_append]
    simp
  exact (List.append_cancel_right hended).symm

lemma unlines_eq_nil_iff {ending : LineEnding} {ls : List Text} :
    unlines ending ls = [] ↔ ls = [] := by
  cases ls with
  | nil => simp
  | cons line ls => cases ending <;> simp [LineEnding.text]

lemma ended_unlines (ending : LineEnding) (ls : List Text) : Ended (unlines ending ls) := by
  rcases unlines_eq_nil_or_append ending ls with h | ⟨front, h⟩
  · exact h ▸ ended_nil
  · exact h ▸ ending.ended_append_text front

/-- The lines between which line feeds stand are read back, but for an empty one at the end. -/
theorem lines_intercalate {ls : List Text} (h : ∀ line ∈ ls, Unbroken line) :
    lines (['\n'].intercalate ls) = keptLines ls := by
  rcases List.eq_nil_or_concat' ls with rfl | ⟨front, line, rfl⟩
  · exact lines_nil
  · obtain ⟨hfront, hline⟩ := List.forall_mem_append.mp h
    have hunbroken := hline line (List.mem_singleton_self line)
    have hapart : ¬ Fuses (unlines .lf front) line :=
      fun hfuses => hunbroken.head?_ne_feed hfuses.2
    rw [intercalate_concat, lines_append (ended_unlines .lf front) hapart, lines_unlines hfront,
      keptLines_concat]
    split_ifs with hempty
    · rw [hempty, lines_nil, List.append_nil]
    · rw [lines_of_unbroken hempty hunbroken]

lemma intercalate_eq_nil_iff {ls : List Text} :
    ['\n'].intercalate ls = [] ↔ ls = [] ∨ ls = [[]] := by
  rcases List.eq_nil_or_concat' ls with rfl | ⟨front, line, rfl⟩
  · simp
  · have hnil : front ++ [line] ≠ [] := by simp
    have hone : front ++ [line] = [[]] ↔ front = [] ∧ line = [] := by
      rw [List.append_eq_singleton_iff]
      simp
    rw [intercalate_concat, List.append_eq_nil_iff, unlines_eq_nil_iff, hone, or_iff_right hnil]

/-- A test for emptiness begins a branch that is emitted exactly if the tag has no value. -/
lemma Conditional.emits_ifEmpty (hasValue : Text → Bool) (line : Nat) (name : Text) :
    ∃ c, Conditional.start.step hasValue line (.opening ⟨.empty, name⟩) = .ok c ∧
      (c.emits = true ↔ hasValue name = false) := by
  refine ⟨_, rfl, ?_⟩
  cases hasValue name <;> simp [emits, settle, push, Test.holds]

lemma Dictionary.hasValue_eq_false_of_get? {d : Dictionary} {name value : Text}
    (h : d.get? name = some value) : d.hasValue name = false ↔ value = [] := by
  simp [hasValue, h]

/-- The strings of an array come out line by line, but for an empty one at the end. A placeholder of
the tag is expanded to them, or to a blank line if there are none, and the tag counts as empty
exactly if the array is empty or holds one empty string. -/
theorem arrays_come_out_line_by_line {name : Text} (hname : Text.isName name = true)
    {ls : List Text} (hls : ∀ line ∈ ls, Unbroken line) :
    (∃ d, Dictionary.ofJson (.object [(name, .array (ls.map .string))]) = .ok d) ∧
      ∀ members d, (members.map Prod.fst).Nodup → (name, .array (ls.map .string)) ∈ members →
        Dictionary.ofJson (.object members) = .ok d →
          ∃ value, d.get? name = some value ∧ lines value = keptLines ls ∧
            (∀ e : Expander, e.tags.get? name = some value →
              e.expand (Placeholder.bare name) =
                .ok ⟨unlines e.ending (if keptLines ls = [] then [[]] else keptLines ls), []⟩) ∧
            ∃ condition, Directive.read? ("!!ifempty: ".toList ++ name ++ "!!".toList) =
                some (.opening condition) ∧
              ∀ k, ∃ c, Conditional.start.step d.hasValue k (.opening condition) = .ok c ∧
                (c.emits = true ↔ ls = [] ∨ ls = [[]]) := by
  have hlines := lines_intercalate hls
  refine ⟨Dictionary.exists_addMembers_iff.mpr ?_, fun members d hnodup hmem hd => ?_⟩
  · intro member hmember
    obtain rfl := List.mem_singleton.mp hmember
    exact ⟨hname, _, .lines ls⟩
  · have hget : d.get? name = some (['\n'].intercalate ls) :=
      (Dictionary.get?_eq_some_iff_of_addMembers hd hnodup).mpr ⟨_, hmem, .lines ls⟩
    refine ⟨_, hget, hlines, fun e he => ?_, _, Directive.read?_ifEmpty hname, fun k => ?_⟩
    · have hempty : ['\n'].intercalate ls = [] ↔ keptLines ls = [] := by
        rw [← hlines, lines_eq_nil_iff]
      rw [e.expand_bare hname he, hlines, if_congr hempty rfl rfl]
    · obtain ⟨c, hstep, hemits⟩ := Conditional.emits_ifEmpty d.hasValue k name
      refine ⟨c, hstep, ?_⟩
      rw [hemits, Dictionary.hasValue_eq_false_of_get? hget, intercalate_eq_nil_iff]

/-- Of two empty strings at the end of an array one is lost. -/
theorem one_empty_string_is_lost :
    ∃ d, Dictionary.ofJson
        (.object [(['A'], .array [.string ['x'], .string [], .string []])]) = .ok d ∧
      ∃ value, d.get? ['A'] = some value ∧ lines value = [['x'], []] ∧
        ∀ e : Expander, e.tags = d → e.ending = .lf →
          e.expand "%%A%%".toList = .ok ⟨"x\n\n".toList, []⟩ := by
  have hname : Text.isName ['A'] = true := by decide +kernel
  have hls : ∀ line ∈ [['x'], [], []], Unbroken line := by simp [Unbroken, isBreak]
  obtain ⟨⟨d, hd⟩, hout⟩ := arrays_come_out_line_by_line hname hls
  obtain ⟨value, hget, hlines, hexpand, -⟩ :=
    hout [_] d (List.nodup_singleton _) (List.mem_singleton_self _) hd
  refine ⟨d, hd, value, hget, hlines, fun e htags hending => ?_⟩
  have hexpanded := hexpand e (htags ▸ hget)
  rw [hending] at hexpanded
  exact hexpanded

end LineTemplate
