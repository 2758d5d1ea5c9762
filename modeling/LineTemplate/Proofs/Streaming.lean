import LineTemplate.Proofs.Balance
import LineTemplate.Proofs.Course
import LineTemplate.Proofs.LineBreaks

/-!
# What is written on the way

An expansion goes through its template once, from top to bottom. What becomes of a line depends on
the lines above it and is never taken back, so the first lines of a template write the beginning of
what the whole template writes. A fault at some line ends the output with the lines above it, and a
block that is never closed is noticed only when all lines are through.
-/
namespace LineTemplate

def Fate.text? : Fate → Option Text
  | emitted text => some text
  | directive => none
  | suppressed => none
  | skipped => none

/-- A run writes the texts of the emitted lines, each with its ending. -/
lemma Run.written_eq_unlines (ending : LineEnding) (run : Run) :
    run.written ending.text = unlines ending (run.fates.filterMap Fate.text?) := by
  rw [written]
  induction run.fates with
  | nil => rfl
  | cons fate fates ih =>
    rw [List.flatMap_cons, ih, List.filterMap_cons]
    cases fate <;> simp [Fate.written, Fate.text?]

namespace Fault

/-- Whether a fault ends a run at a line: by the options of a placeholder on it, or by a branch or
an end of a block that stands there and belongs to no block. -/
def StopsAt (line : Nat) (fault : Fault) : Prop :=
  fault.InOptions line ∨
    ∃ (d : Directive) (imbalance : Imbalance), d.stray? = some imbalance ∧
      fault = .unbalanced line imbalance

def IsUnclosed (fault : Fault) : Prop :=
  ∃ line depth, fault = .unbalanced line (.unclosed depth)

lemma StopsAt.line?_eq {line : Nat} {fault : Fault} (h : fault.StopsAt line) :
    fault.line? = some line := by
  obtain hoptions | ⟨d, imbalance, -, rfl⟩ := h
  · cases fault with
    | badWidth l option cause => exact congrArg some hoptions
    | indentTooWide l option => exact congrArg some hoptions
    | _ => contradiction
  · rfl

lemma StopsAt.not_isUnclosed {line : Nat} {fault : Fault} (h : fault.StopsAt line) :
    ¬ fault.IsUnclosed := by
  rintro ⟨l, depth, rfl⟩
  obtain hoptions | ⟨d, imbalance, hstray, hfault⟩ := h
  · contradiction
  · obtain ⟨-, rfl⟩ := Fault.unbalanced.inj hfault
    cases d <;> simp [Directive.stray?] at hstray

end Fault

namespace Conditional

/-- No directive is refused but one that belongs to no block. -/
lemma stray?_of_react {c : Conditional} {line : Nat} {d : Directive} {imbalance : Imbalance}
    (h : c.react line d = .refused imbalance) : d.stray? = some imbalance := by
  cases d with
  | opening condition =>
    simp only [react, opening, test] at h
    split_ifs at h
  | alternative condition =>
    simp only [react, alternative, test] at h
    split_ifs at h
    obtain rfl := Reaction.refused.inj h
    rfl
  | otherwise =>
    simp only [react, otherwise] at h
    split_ifs at h
    · obtain rfl := Reaction.refused.inj h
      rfl
    · split at h <;> contradiction
  | closing =>
    simp only [react, closing] at h
    split at h
    · obtain rfl := Reaction.refused.inj h
      rfl
    · contradiction

lemma stopsAt_of_step {c : Conditional} {hasValue : Text → Bool} {line : Nat} {d : Directive}
    {fault : Fault} (h : c.step hasValue line d = .error fault) : fault.StopsAt line := by
  unfold step at h
  cases hreact : c.react line d with
  | refused imbalance =>
    rw [hreact] at h
    exact .inr ⟨d, imbalance, stray?_of_react hreact, (Except.error.inj h).symm⟩
  | settled next =>
    rw [hreact] at h
    contradiction
  | asks tag next =>
    rw [hreact] at h
    contradiction

lemma isUnclosed_of_unclosed? {c : Conditional} {fault : Fault} (h : c.unclosed? = some fault) :
    fault.IsUnclosed := by
  unfold unclosed? at h
  split at h
  · contradiction
  · exact ⟨_, _, (Option.some.inj h).symm⟩

end Conditional

namespace Expander

variable (e : Expander)

/-- The state of the conditional blocks behind some lines, the first of them having number `line`
and standing in state `c`. -/
def blocksFrom (line : Nat) (c : Conditional) (es : List Entry) : Conditional :=
  Follower.compact.after c (Entry.moves e.tags.hasValue line es)

lemma blocksFrom_cons (line : Nat) (c : Conditional) (entry : Entry) (es : List Entry) :
    e.blocksFrom line c (entry :: es) =
      e.blocksFrom (line + 1) (e.blocksFrom line c [entry]) es := by
  cases entry <;> rfl

lemma blocksFrom_directive {line : Nat} {c after : Conditional} {d : Directive}
    (h : c.step e.tags.hasValue line d = .ok after) :
    e.blocksFrom line c [.directive d] = after := by
  have hnext : Follower.compact.next c ⟨line, d, e.tags.hasValue⟩ = after := by
    simp only [Follower.next, Follower.compact, h]
  exact hnext

/-- What becomes of a line, the blocks in front of it being in state `c`. -/
inductive Becomes (line : Nat) (c : Conditional) (text : Text) : Fate → Prop
  | directive {d : Directive} (read : Directive.read? text = some d) : Becomes line c text .directive
  | suppressed (content : Directive.read? text = none) (dead : c.emits = false) :
    Becomes line c text .suppressed
  | skipped (content : Directive.read? text = none) (live : c.emits = true)
    (drops : (substitute e.tags e.ending.text text line).result = .ok .skip) :
    Becomes line c text .skipped
  | emitted {written : Text} (content : Directive.read? text = none) (live : c.emits = true)
    (gives : (substitute e.tags e.ending.text text line).result = .ok (.line written)) :
    Becomes line c text (.emitted written)

/-- A run ends at its first line, or something becomes of this line and the run goes on behind it,
whatever follows. -/
theorem runFrom_cons (line : Nat) (c : Conditional) (text : Text) :
    (∃ warnings fault, fault.StopsAt line ∧
        ∀ rest, e.runFrom line c (text :: rest) = ⟨[], warnings, some fault⟩) ∨
      ∃ fate warnings, e.Becomes line c text fate ∧ ∀ rest, e.runFrom line c (text :: rest) =
        (e.runFrom (line + 1) (e.blocksFrom line c [Entry.read text]) rest).after fate warnings := by
  cases hd : Directive.read? text with
  | some d =>
    cases hs : c.step e.tags.hasValue line d with
    | error fault =>
      refine .inl ⟨[], fault, Conditional.stopsAt_of_step hs, fun rest => ?_⟩
      simp only [runFrom, hd, hs, Run.stop]
    | ok after =>
      refine .inr ⟨.directive, [], .directive hd, fun rest => ?_⟩
      simp only [runFrom, hd, hs, Entry.read, e.blocksFrom_directive hs]
  | none =>
    have hblocks : e.blocksFrom line c [Entry.read text] = c := by
      rw [Entry.read, hd]
      rfl
    simp only [runFrom, hd, hblocks]
    cases hl : c.emits with
    | false => exact .inr ⟨.suppressed, [], .suppressed hd hl, fun rest => rfl⟩
    | true =>
      simp only [if_true]
      cases hr : (substitute e.tags e.ending.text text line).result with
      | error fault =>
        exact .inl ⟨_, fault, .inl (inOptions_of_substituteAll hr), fun rest => rfl⟩
      | ok substitution =>
        cases substitution with
        | skip => exact .inr ⟨.skipped, _, .skipped hd hl hr, fun rest => rfl⟩
        | line written => exact .inr ⟨.emitted written, _, .emitted hd hl hr, fun rest => rfl⟩

/-- Where only the first lines are gone through, the same becomes of them. -/
theorem fates_runFrom_take (line : Nat) (c : Conditional) (ls : List Text) (k : Nat) :
    (e.runFrom line c (ls.take k)).fates = (e.runFrom line c ls).fates.take k := by
  induction ls generalizing line c k with
  | nil => rw [List.take_nil, runFrom, Run.stop, List.take_nil]
  | cons text ls ih =>
    cases k with
    | zero => rfl
    | succ k =>
      rw [List.take_succ_cons]
      obtain ⟨warnings, fault, -, hrun⟩ | ⟨fate, warnings, -, hrun⟩ := e.runFrom_cons line c text
      · rw [hrun, hrun, List.take_nil]
      · rw [hrun, hrun, Run.after, Run.after, List.take_succ_cons, ih]

/-- A run ends at a line and nothing becomes of it, or all lines are gone through. -/
theorem length_fates_runFrom (line : Nat) (c : Conditional) (ls : List Text) :
    let run := e.runFrom line c ls
    (run.fates.length < ls.length ∧
        ∃ fault, run.fault = some fault ∧ fault.StopsAt (line + run.fates.length)) ∨
      run.fates.length = ls.length ∧ ∀ fault, run.fault = some fault → fault.IsUnclosed := by
  induction ls generalizing line c with
  | nil => exact .inr ⟨rfl, fun fault h => Conditional.isUnclosed_of_unclosed? h⟩
  | cons text ls ih =>
    obtain ⟨warnings, fault, hstops, hrun⟩ | ⟨fate, warnings, -, hrun⟩ := e.runFrom_cons line c text
    · rw [hrun]
      exact .inl ⟨Nat.succ_pos _, fault, rfl, hstops⟩
    · rw [hrun]
      simp only [Run.after, List.length_cons]
      obtain ⟨hlt, fault, hfault, hstops⟩ | ⟨heq, hunclosed⟩ :=
        ih (line + 1) (e.blocksFrom line c [Entry.read text])
      · refine .inl ⟨by omega, fault, hfault, ?_⟩
        rwa [← Nat.add_assoc, Nat.add_right_comm]
      · exact .inr ⟨by omega, hunclosed⟩

/-- What becomes of a line is told by itself and by the blocks in front of it. -/
theorem becomes_of_fates_runFrom {line : Nat} {c : Conditional} {ls : List Text} {k : Nat}
    {fate : Fate} (h : (e.runFrom line c ls).fates[k]? = some fate) :
    ∃ text, ls[k]? = some text ∧
      e.Becomes (line + k) (e.blocksFrom line c ((ls.map Entry.read).take k)) text fate := by
  induction ls generalizing line c k with
  | nil => contradiction
  | cons text ls ih =>
    obtain ⟨warnings, fault, -, hrun⟩ | ⟨first, warnings, hfirst, hrun⟩ := e.runFrom_cons line c text
    · rw [hrun] at h
      contradiction
    · rw [hrun, Run.after] at h
      cases k with
      | zero =>
        obtain rfl := Option.some.inj h
        exact ⟨text, rfl, hfirst⟩
      | succ k =>
        rw [List.map_cons, List.take_succ_cons, blocksFrom_cons, ← Nat.add_assoc,
          Nat.add_right_comm]
        exact ih h

/-- What is written of a template is what becomes of its first `n` lines: the emitted ones among
them, as a whole and each with its ending. -/
def WritesFirst (template : Text) (n : Nat) : Prop :=
  ∃ fates : List Fate, fates.length = n ∧
    (∀ k fate, fates[k]? = some fate → ∃ text, (lines template)[k]? = some text ∧
      e.Becomes (k + 1) (e.blocksBehind ((Entry.ofTemplate template).take k)) text fate) ∧
    e.written template = unlines e.ending (fates.filterMap Fate.text?)

variable {e} {template : Text}

lemma writesFirst_length_fates : e.WritesFirst template (e.run template).fates.length := by
  refine ⟨(e.run template).fates, rfl, fun k fate hfate => ?_, Run.written_eq_unlines _ _⟩
  rw [Nat.add_comm k 1]
  exact e.becomes_of_fates_runFrom hfate

lemma fates_run_of_lines {front : Text} {k : Nat} (h : lines front = (lines template).take k) :
    (e.run front).fates = (e.run template).fates.take k := by
  rw [run, h, fates_runFrom_take]
  rfl

lemma written_prefix_of_lines {front : Text} {k : Nat} (h : lines front = (lines template).take k) :
    e.written front <+: e.written template := by
  have hfates : (e.run template).fates =
      (e.run front).fates ++ (e.run template).fates.drop k := by
    rw [fates_run_of_lines h, List.take_append_drop]
  rw [written, written, Run.written, Run.written, hfates, List.flatMap_append]
  exact List.prefix_append _ _

lemma written_eq_of_lines {front : Text}
    (h : lines front = (lines template).take (e.run template).fates.length) :
    e.written template = e.written front := by
  rw [written, written, Run.written, Run.written, fates_run_of_lines h, List.take_length]

lemma check_eq_error_iff_fault_run {fault : Fault} :
    e.check template = .error fault ↔ (e.run template).fault = some fault := by
  rw [check, Run.outcome]
  cases (e.run template).fault <;> simp

lemma length_fates_run (e : Expander) (template : Text) :
    let run := e.run template
    (run.fates.length < (lines template).length ∧
        ∃ fault, run.fault = some fault ∧ fault.StopsAt (run.fates.length + 1)) ∨
      run.fates.length = (lines template).length ∧
        ∀ fault, run.fault = some fault → fault.IsUnclosed := by
  have h := e.length_fates_runFrom 1 .start (lines template)
  simp only [Nat.add_comm 1] at h
  exact h

/-- The first lines of a template write the beginning of what all of it writes. If an expansion
fails at a line, the lines above it have written what they write alone; if a block is never closed,
or if the expansion succeeds, then all lines have. What is written are whole lines in any case, each
as it is substituted and with its ending. -/
theorem expansion_streams_whole_lines (e : Expander) (template : Text) :
    let ls := lines template
    (∀ k, lines (unlines e.ending (ls.take k)) = ls.take k) ∧
    (∀ k front, lines front = ls.take k → e.written front <+: e.written template) ∧
    (∀ fault, e.check template = .error fault →
      (∃ k, fault.StopsAt (k + 1)) ∨ fault.IsUnclosed) ∧
    (∀ k fault, e.check template = .error fault → fault.StopsAt (k + 1) →
      k < ls.length ∧ e.WritesFirst template k ∧
        ∀ front, lines front = ls.take k → e.written template = e.written front) ∧
    (∀ fault, e.check template = .error fault → fault.IsUnclosed →
      e.WritesFirst template ls.length) ∧
    ∀ output warnings, e.expand template = .ok ⟨output, warnings⟩ →
      e.written template = output ∧ e.WritesFirst template ls.length := by
  intro ls
  have hwrites : e.WritesFirst template (e.run template).fates.length := writesFirst_length_fates
  have hlength := e.length_fates_run template
  refine ⟨fun k => lines_unlines (fun line hline => ?_) e.ending,
    fun k front hfront => written_prefix_of_lines hfront, fun fault hcheck => ?_,
    fun k fault hcheck hstops => ?_, fun fault hcheck hunclosed => ?_,
    fun output warnings hexpand => ?_⟩
  · exact unbroken_of_mem_lines (List.mem_of_mem_take hline)
  · have hfault := check_eq_error_iff_fault_run.mp hcheck
    obtain ⟨-, fault', hfault', hstops⟩ | ⟨-, hunclosed⟩ := hlength
    · obtain rfl := Option.some.inj (hfault'.symm.trans hfault)
      exact .inl ⟨_, hstops⟩
    · exact .inr (hunclosed fault hfault)
  · have hfault := check_eq_error_iff_fault_run.mp hcheck
    obtain ⟨hlt, fault', hfault', hstops'⟩ | ⟨-, hunclosed⟩ := hlength
    · obtain rfl := Option.some.inj (hfault'.symm.trans hfault)
      have hline := Option.some.inj (hstops'.line?_eq.symm.trans hstops.line?_eq)
      obtain rfl : (e.run template).fates.length = k := by omega
      exact ⟨hlt, hwrites, fun front hfront => written_eq_of_lines hfront⟩
    · exact absurd (hunclosed fault hfault) hstops.not_isUnclosed
  · have hfault := check_eq_error_iff_fault_run.mp hcheck
    obtain ⟨-, fault', hfault', hstops⟩ | ⟨hall, -⟩ := hlength
    · obtain rfl := Option.some.inj (hfault'.symm.trans hfault)
      exact absurd hunclosed hstops.not_isUnclosed
    · exact hall ▸ hwrites
  · obtain ⟨houtput, hcheck⟩ := e.expand_eq_ok_iff.mp hexpand
    obtain ⟨-, fault, hfault, -⟩ | ⟨hall, -⟩ := hlength
    · have herror := check_eq_error_iff_fault_run.mpr hfault
      rw [hcheck] at herror
      contradiction
    · exact ⟨houtput, hall ▸ hwrites⟩

-- The second line fails in its middle, and nothing of it is written.
example :
    let e : Expander := ⟨.ofPairs [(['A'], ['v'])], .lf⟩
    e.written "a\n%%A%%%%A:tabindent=x%%\n!!else!!".toList = "a\n".toList := by
  decide +kernel

end Expander

end LineTemplate
