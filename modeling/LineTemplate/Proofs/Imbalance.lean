import LineTemplate.Proofs.Balance
import LineTemplate.Proofs.Production
import Mathlib.Data.List.Induction

/-!
# Where blocks fail to balance

Whether an expansion ends with a structure fault, and with which one, is decided by the directives
alone: by the first branch or end of a block that stands where no block is open, or else by the last
block that is opened and not closed. The dictionary has a say only in so far as a fault in the
options of a placeholder may come first.
-/
namespace LineTemplate

/-- The number of blocks that are opened in some lines less the number of those that are closed. -/
def nesting (es : List Entry) : Int := level (es.filterMap Entry.directive?)

@[simp] theorem nesting_append (es es' : List Entry) :
    nesting (es ++ es') = nesting es + nesting es' := by
  simp [nesting]

/-- The line behind the first `k` lines is a branch or an end of a block, and no block is open. -/
def Stray (es : List Entry) (k : Nat) (imbalance : Imbalance) : Prop :=
  (∃ d, es[k]? = some (.directive d) ∧ d.stray? = some imbalance) ∧ nesting (es.take k) = 0

/-- The line behind the first `k` lines is stray, and none before it is. -/
def FirstStray (es : List Entry) (k : Nat) (imbalance : Imbalance) : Prop :=
  Stray es k imbalance ∧ ∀ j < k, ∀ imbalance', ¬ Stray es j imbalance'

/-- The line behind the first `k` lines opens a block, and the block is open from there on. -/
def Unmatched (es : List Entry) (k : Nat) : Prop :=
  (∃ condition, es[k]? = some (.directive (.opening condition))) ∧
    ∀ j, k < j → j ≤ es.length → nesting (es.take k) < nesting (es.take j)

/-- The line behind the first `k` lines opens a block that stays open; none further down does. -/
def LastUnmatched (es : List Entry) (k : Nat) : Prop :=
  Unmatched es k ∧ ∀ j, k < j → ¬ Unmatched es j

/-- The lines that opened the blocks that are open in the end, innermost first. -/
def openLines (line : Nat) (stack : List Nat) : List Entry → List Nat
  | [] => stack
  | .content _ :: es => openLines (line + 1) stack es
  | .directive d :: es =>
    if d.opens then openLines (line + 1) (line :: stack) es
    else if d.closes then openLines (line + 1) stack.tail es
    else openLines (line + 1) stack es

lemma openLines_append (line : Nat) (stack : List Nat) (es es' : List Entry) :
    openLines line stack (es ++ es') =
      openLines (line + es.length) (openLines line stack es) es' := by
  induction es generalizing line stack with
  | nil => rfl
  | cons entry es ih =>
    rw [Entry.add_length_cons]
    cases entry with
    | content text => exact ih _ _
    | directive d =>
      simp only [List.cons_append, openLines]
      split_ifs
      · exact ih _ _
      · exact ih _ _
      · exact ih _ _

/-- Whether the lines on a stack opened the blocks that stay open, each inside of the next. -/
def Tracks (es : List Entry) : List Nat → Prop
  | [] => True
  | line :: stack =>
    (∃ k, line = k + 1 ∧ Unmatched es k ∧ nesting (es.take k) = stack.length) ∧ Tracks es stack

lemma Unmatched.lt_length {es : List Entry} {k : Nat} (h : Unmatched es k) : k < es.length := by
  obtain ⟨⟨condition, hk⟩, -⟩ := h
  exact (List.getElem?_eq_some_iff.mp hk).1

lemma Unmatched.snoc {es : List Entry} {k : Nat} (h : Unmatched es k) {entry : Entry}
    (hn : nesting (es.take k) < nesting (es ++ [entry])) : Unmatched (es ++ [entry]) k := by
  have hk := h.lt_length
  obtain ⟨⟨condition, hc⟩, hj⟩ := h
  have ht : (es ++ [entry]).take k = es.take k := List.take_append_of_le_length (by omega)
  refine ⟨⟨condition, by rw [List.getElem?_append_left hk, hc]⟩, fun j hkj hle => ?_⟩
  rw [ht]
  by_cases hjl : j ≤ es.length
  · rw [List.take_append_of_le_length hjl]
    exact hj j hkj hjl
  · have hfull : (es ++ [entry]).take j = es ++ [entry] := by
      apply List.take_of_length_le
      rw [List.length_append, List.length_singleton]
      omega
    rw [hfull]
    exact hn

lemma unmatched_snoc_opening (es : List Entry) (condition : Condition) :
    Unmatched (es ++ [.directive (.opening condition)]) es.length := by
  refine ⟨⟨condition, List.getElem?_concat_length⟩, fun j hj hle => ?_⟩
  have hfull : (es ++ [Entry.directive (.opening condition)]).length ≤ j := by
    rw [List.length_append, List.length_singleton]
    omega
  rw [List.take_left, List.take_of_length_le hfull, nesting_append]
  exact Int.lt_add_one_of_le (Int.le_refl _)

/-- The blocks on a stack stay open as long as the number of open blocks does not fall below its
height. -/
lemma Tracks.snoc {es : List Entry} {stack : List Nat} (h : Tracks es stack) {entry : Entry}
    (hn : stack.length ≤ nesting (es ++ [entry])) : Tracks (es ++ [entry]) stack := by
  induction stack with
  | nil => exact True.intro
  | cons line stack ih =>
    obtain ⟨⟨k, rfl, hu, hk⟩, hs⟩ := h
    rw [List.length_cons] at hn
    refine ⟨⟨k, rfl, hu.snoc (by omega), ?_⟩, ih hs (by omega)⟩
    rw [List.take_append_of_le_length (Nat.le_of_lt hu.lt_length), hk]

/-- The lines on the stack are those of the blocks that stay open, and there are no more of them. -/
theorem tracks_openLines {es : List Entry} (h : Sheltered 0 (es.filterMap Entry.directive?)) :
    Tracks es (openLines 1 [] es) ∧ (openLines 1 [] es).length = nesting es := by
  induction es using List.reverseRecOn with
  | nil => exact ⟨True.intro, rfl⟩
  | append_singleton es entry ih =>
    rw [List.filterMap_append] at h
    obtain ⟨ht, hl⟩ := ih h.left
    rw [openLines_append]
    -- A line that neither opens nor closes a block leaves the stack and its height as they are.
    have hkeep (hn : nesting [entry] = 0) : Tracks (es ++ [entry]) (openLines 1 [] es) ∧
        (openLines 1 [] es).length = nesting (es ++ [entry]) := by
      rw [nesting_append, hn, hl]
      exact ⟨ht.snoc (by rw [nesting_append, hn]; omega), by omega⟩
    cases entry with
    | content text => exact hkeep rfl
    | directive d =>
      cases d with
      | alternative condition => exact hkeep rfl
      | otherwise => exact hkeep rfl
      | opening condition =>
        have hn : nesting (es ++ [.directive (.opening condition)]) = nesting es + 1 := by
          rw [nesting_append]
          rfl
        have hu := unmatched_snoc_opening es condition
        refine ⟨⟨⟨es.length, Nat.add_comm _ _, hu, ?_⟩, ht.snoc (by omega)⟩, ?_⟩
        · rw [List.take_left, hl]
        · simp only [openLines, Directive.opens, if_true, List.length_cons]
          omega
      | closing =>
        have hn : nesting (es ++ [.directive .closing]) = nesting es - 1 := by
          rw [nesting_append]
          rfl
        have hpos : nesting es ≠ 0 := by
          have := h (es.filterMap Entry.directive?) .closing [] rfl rfl
          simpa [nesting] using this
        simp only [openLines, Directive.opens, Directive.closes, Bool.false_eq_true, if_false,
          if_true]
        cases hs : openLines 1 [] es with
        | nil => rw [hs] at hl; exact absurd hl.symm hpos
        | cons line stack =>
          rw [hs] at ht hl
          rw [List.length_cons] at hl
          exact ⟨ht.2.snoc (by omega), by rw [List.tail_cons]; omega⟩

/-- On top of the stack there is the last line that opens a block which stays open. -/
lemma Tracks.lastUnmatched {es : List Entry} {line : Nat} {stack : List Nat}
    (h : Tracks es (line :: stack)) (hl : (line :: stack).length = nesting es) :
    ∃ k, line = k + 1 ∧ LastUnmatched es k := by
  obtain ⟨⟨k, rfl, hu, hk⟩, -⟩ := h
  refine ⟨k, rfl, hu, fun j hkj hj => ?_⟩
  rw [List.length_cons] at hl
  have hjl := hj.lt_length
  have habove := hu.2 j hkj (Nat.le_of_lt hjl)
  have hbelow := hj.2 es.length hjl (Nat.le_refl _)
  rw [List.take_length] at hbelow
  omega

lemma Stray.of_take {es : List Entry} {j k : Nat} {imbalance : Imbalance}
    (h : Stray (es.take k) j imbalance) : j < k ∧ Stray es j imbalance := by
  obtain ⟨⟨d, hd, hs⟩, hn⟩ := h
  rw [List.getElem?_take] at hd
  split_ifs at hd with hjk
  rw [List.take_take, Nat.min_eq_left (Nat.le_of_lt hjk)] at hn
  exact ⟨hjk, ⟨d, hd, hs⟩, hn⟩

lemma sheltered_of_no_stray {es : List Entry} (h : ∀ k imbalance, ¬ Stray es k imbalance) :
    Sheltered 0 (es.filterMap Entry.directive?) := by
  intro before d after hds ho hzero
  obtain ⟨front, back, rfl, rfl, hback⟩ := List.filterMap_eq_append_iff.mp hds
  obtain ⟨gap, entry, tail, rfl, hgap, hentry, -⟩ := List.filterMap_eq_cons_iff.mp hback
  obtain ⟨imbalance, hs⟩ : ∃ imbalance, d.stray? = some imbalance := by
    cases d with
    | opening condition => contradiction
    | alternative condition => exact ⟨_, rfl⟩
    | otherwise => exact ⟨_, rfl⟩
    | closing => exact ⟨_, rfl⟩
  have he : entry = .directive d := by
    cases entry with
    | content text => contradiction
    | directive d' => exact congrArg Entry.directive (Option.some.inj hentry)
  refine h (front ++ gap).length imbalance ⟨⟨d, ?_, hs⟩, ?_⟩
  · rw [← List.append_assoc, List.getElem?_append_right (Nat.le_refl _), Nat.sub_self, he]
    rfl
  · rw [← List.append_assoc, List.take_left, nesting, List.filterMap_append,
      List.filterMap_eq_nil_iff.mpr hgap, List.append_nil]
    simpa using hzero

lemma exists_firstStray {es : List Entry} (h : ∃ k imbalance, Stray es k imbalance) :
    ∃ k imbalance, FirstStray es k imbalance := by
  obtain ⟨k, imbalance, h⟩ := h
  induction k using Nat.strongRecOn generalizing imbalance with
  | ind k ih =>
    by_cases hbefore : ∃ j < k, ∃ imbalance', Stray es j imbalance'
    · obtain ⟨j, hj, imbalance', h'⟩ := hbefore
      exact ih j hj imbalance' h'
    · refine ⟨k, imbalance, h, fun j hj imbalance' h' => ?_⟩
      exact hbefore ⟨j, hj, imbalance', h'⟩

lemma exists_lastUnmatched {es : List Entry} (h : ∀ k imbalance, ¬ Stray es k imbalance)
    (hpos : 0 < nesting es) :
    ∃ k stack, openLines 1 [] es = (k + 1) :: stack ∧ LastUnmatched es k := by
  obtain ⟨ht, hl⟩ := tracks_openLines (sheltered_of_no_stray h)
  cases hs : openLines 1 [] es with
  | nil =>
    rw [hs, List.length_nil] at hl
    omega
  | cons line stack =>
    rw [hs] at ht hl
    obtain ⟨k, rfl, hk⟩ := ht.lastUnmatched hl
    exact ⟨k, stack, rfl, hk⟩

lemma openLines_eq_nil {es : List Entry} (h : ∀ k imbalance, ¬ Stray es k imbalance)
    (hpos : ¬ 0 < nesting es) : openLines 1 [] es = [] := by
  have hl := (tracks_openLines (sheltered_of_no_stray h)).2
  apply List.length_eq_zero_iff.mp
  omega

/-- A directive that needs no more blocks than are open changes their number by its weight, and the
lines that opened them as it does on a stack of lines. -/
lemma Frames.step_sheltered {frames : Frames} {d : Directive}
    (h : d.opens = false → frames.length ≠ 0) (hasValue : Text → Bool) (line : Nat) :
    ∃ after : Frames, frames.step hasValue line d = .ok after ∧
      (after.length : Int) = frames.length + d.weight ∧
      after.map Frame.openedAt = openLines line (frames.map Frame.openedAt) [.directive d] := by
  cases hb : d.branches with
  | true =>
    have ho : d.opens = false ∧ d.closes = false ∧ d.weight = 0 := by
      cases d <;> first | contradiction | exact ⟨rfl, rfl, rfl⟩
    obtain ⟨f, outer, rfl⟩ := List.exists_cons_of_ne_nil
      (fun hn => h ho.1 (List.length_eq_zero_iff.mpr hn))
    obtain ⟨g, hg, hs⟩ := Frames.step_branch hasValue line hb f outer
    refine ⟨g :: outer, hs, ?_, ?_⟩
    · rw [List.length_cons, List.length_cons, ho.2.2, Int.add_zero]
    · simp [openLines, ho, hg]
  | false =>
    cases d with
    | opening condition =>
      obtain ⟨f, hf, hs⟩ := Frames.step_opening hasValue line frames condition
      exact ⟨f :: frames, hs, rfl, by rw [List.map_cons, hf]; rfl⟩
    | closing =>
      obtain ⟨f, outer, rfl⟩ := List.exists_cons_of_ne_nil
        (fun hn => h rfl (List.length_eq_zero_iff.mpr hn))
      refine ⟨outer, Frames.step_closing hasValue line f outer, ?_, rfl⟩
      rw [List.length_cons, Directive.weight]
      omega
    | alternative condition => contradiction
    | otherwise => contradiction

namespace Expander

variable (e : Expander)

/-- The lines of a sheltered stretch end in the blocks that bracket counting says, unless an option
on one of them is at fault. -/
lemma produce_sheltered {frames : Frames} {es : List Entry}
    (h : Sheltered frames.length (es.filterMap Entry.directive?)) (line : Nat)
    (rest : List Entry) :
    (∃ fault, (e.produce line frames (es ++ rest)).fault = some fault ∧
        ∃ l < line + es.length, fault.InOptions l) ∨
      ∃ after : Frames, after.map Frame.openedAt =
          openLines line (frames.map Frame.openedAt) es ∧
        (e.produce line frames (es ++ rest)).fault =
          (e.produce (line + es.length) after rest).fault := by
  induction es generalizing line frames with
  | nil => exact .inr ⟨frames, rfl, rfl⟩
  | cons entry es ih =>
    rw [Entry.add_length_cons]
    cases entry with
    | content text =>
      have hrest := ih h (line + 1)
      cases hl : frames.live with
      | false =>
        rw [List.cons_append, produce_content_dead e hl]
        exact hrest
      | true =>
        rw [List.cons_append, produce_content_live e hl]
        cases hf : (e.produceLine line text).fault with
        | some fault =>
          refine .inl ⟨fault, ?_, line, by omega, e.inOptions_of_produceLine hf⟩
          rw [Produced.andThen, hf]
          exact hf
        | none =>
          rw [Produced.andThen, hf]
          exact hrest
    | directive d =>
      obtain ⟨hd, opened, hw, h⟩ := sheltered_cons.mp h
      obtain ⟨after, hs, hl, ha⟩ := Frames.step_sheltered hd e.tags.hasValue line
      obtain rfl : opened = after.length := by omega
      have hopen := openLines_append line (frames.map Frame.openedAt) [.directive d] es
      rw [List.cons_append, produce_directive e hs, ← List.singleton_append, hopen, ← ha]
      exact ih h (line + 1)

lemma firstStray_fault {template : Text} {k : Nat} {imbalance : Imbalance}
    (h : FirstStray (Entry.ofTemplate template) k imbalance) :
    ∃ fault, e.check template = .error fault ∧
      ((∃ l < k + 1, fault.InOptions l) ∨ fault = .unbalanced (k + 1) imbalance) := by
  obtain ⟨⟨⟨d, hd, hs⟩, hn⟩, hfirst⟩ := h
  set es := Entry.ofTemplate template
  obtain ⟨hk, hget⟩ := List.getElem?_eq_some_iff.mp hd
  have hsplit : es = es.take k ++ .directive d :: es.drop (k + 1) := by
    rw [← hget, ← List.drop_eq_getElem_cons hk, List.take_append_drop]
  have hlen : (es.take k).length = k := List.length_take_of_le (Nat.le_of_lt hk)
  have hsheltered : Sheltered ([] : Frames).length ((es.take k).filterMap Entry.directive?) :=
    sheltered_of_no_stray fun j imbalance' hj => hfirst j hj.of_take.1 imbalance' hj.of_take.2
  have hprod : e.production template =
      e.produce 1 [] (es.take k ++ .directive d :: es.drop (k + 1)) := by
    rw [← hsplit, production]
  rcases e.produce_sheltered hsheltered 1 (.directive d :: es.drop (k + 1)) with
    ⟨fault, hf, l, hl, ho⟩ | ⟨after, ha, hf⟩
  · exact ⟨fault, e.check_eq_error_iff.mpr (hprod ▸ hf), .inl ⟨l, by omega, ho⟩⟩
  · have hstack := (tracks_openLines hsheltered).2
    rw [hn] at hstack
    have hnone : openLines 1 [] (es.take k) = [] :=
      List.length_eq_zero_iff.mp (by exact_mod_cast hstack)
    obtain rfl : after = [] := List.map_eq_nil_iff.mp (ha.trans hnone)
    refine ⟨_, e.check_eq_error_iff.mpr ?_, .inr rfl⟩
    rw [hprod, hf, produce_directive_error e (Frames.step_stray _ _ hs), hlen, Nat.add_comm]
    rfl

lemma no_stray_fault {template : Text}
    (h : ∀ k imbalance, ¬ Stray (Entry.ofTemplate template) k imbalance) :
    (∃ fault l, e.check template = .error fault ∧ fault.InOptions l) ∨
      ∃ after : Frames, after.map Frame.openedAt = openLines 1 [] (Entry.ofTemplate template) ∧
        ∀ fault, e.check template = .error fault ↔ after.unclosed? = some fault := by
  have hsheltered : Sheltered ([] : Frames).length
      ((Entry.ofTemplate template).filterMap Entry.directive?) := sheltered_of_no_stray h
  have hprod : e.production template = e.produce 1 [] (Entry.ofTemplate template ++ []) := by
    rw [List.append_nil, production]
  rcases e.produce_sheltered hsheltered 1 [] with ⟨fault, hf, l, -, ho⟩ | ⟨after, ha, hf⟩
  · exact .inl ⟨fault, l, e.check_eq_error_iff.mpr (hprod ▸ hf), ho⟩
  · refine .inr ⟨after, ha, fun fault => ?_⟩
    rw [check_eq_error_iff, hprod, hf]
    rfl

lemma unclosed_fault {template : Text}
    (h : ∀ k imbalance, ¬ Stray (Entry.ofTemplate template) k imbalance) {k : Nat}
    {stack : List Nat} (hstack : openLines 1 [] (Entry.ofTemplate template) = (k + 1) :: stack) :
    ∃ fault, e.check template = .error fault ∧ ((∃ l, fault.InOptions l) ∨
      fault = .unbalanced (k + 1) (.unclosed (nesting (Entry.ofTemplate template)).toNat)) := by
  have hn := (tracks_openLines (sheltered_of_no_stray h)).2
  rcases e.no_stray_fault h with ⟨fault, l, hf, ho⟩ | ⟨after, ha, hf⟩
  · exact ⟨fault, hf, .inl ⟨l, ho⟩⟩
  · rw [← hn, ← ha, List.length_map, Int.toNat_natCast]
    rw [hstack] at ha
    cases after with
    | nil => contradiction
    | cons f outer =>
      obtain ⟨hopened, -⟩ := List.cons.inj ha
      exact ⟨_, (hf _).mpr rfl, .inr (by rw [hopened])⟩

lemma closed_fault {template : Text}
    (h : ∀ k imbalance, ¬ Stray (Entry.ofTemplate template) k imbalance)
    (hstack : openLines 1 [] (Entry.ofTemplate template) = []) {fault : Fault}
    (hf : e.check template = .error fault) : ∃ l, fault.InOptions l := by
  rcases e.no_stray_fault h with ⟨fault', l, hf', ho⟩ | ⟨after, ha, hf'⟩
  · obtain rfl : fault = fault' := Except.error.inj (hf.symm.trans hf')
    exact ⟨l, ho⟩
  · obtain rfl : after = [] := List.map_eq_nil_iff.mp (ha.trans hstack)
    exact absurd ((hf' fault).mp hf) (by simp [Frames.unclosed?])

/-- An expansion that fails by a certain fault or by an option, and not by an option, fails by that
fault. -/
lemma check_eq_of_fault {template : Text} {fault : Fault}
    (h : ∃ fault', e.check template = .error fault' ∧
      ((∃ l, fault'.InOptions l) ∨ fault' = fault))
    (ho : ∀ fault', e.check template = .error fault' → ∀ l, ¬ fault'.InOptions l) :
    e.check template = .error fault := by
  obtain ⟨fault', hf, ⟨l, hl⟩ | rfl⟩ := h
  · exact absurd hl (ho fault' hf l)
  · exact hf

/-- Two expansions that do not fail by an option fail by the same structure fault or not at all. -/
lemma same_structure_fault {template : Text} {e e' : Expander}
    (ho : ∀ fault, e.check template = .error fault → ∀ l, ¬ fault.InOptions l)
    (ho' : ∀ fault, e'.check template = .error fault → ∀ l, ¬ fault.InOptions l) :
    (∃ line imbalance, e.check template = .error (.unbalanced line imbalance) ∧
      e'.check template = .error (.unbalanced line imbalance)) ∨
    ∀ fault, e.check template ≠ .error fault ∧ e'.check template ≠ .error fault := by
  by_cases h : ∃ k imbalance, Stray (Entry.ofTemplate template) k imbalance
  · obtain ⟨k, imbalance, hk⟩ := exists_firstStray h
    have hfault (e : Expander) : ∃ fault, e.check template = .error fault ∧
        ((∃ l, fault.InOptions l) ∨ fault = .unbalanced (k + 1) imbalance) := by
      obtain ⟨fault, hf, ⟨l, -, hl⟩ | rfl⟩ := e.firstStray_fault hk
      · exact ⟨fault, hf, .inl ⟨l, hl⟩⟩
      · exact ⟨_, hf, .inr rfl⟩
    left
    exact ⟨k + 1, imbalance, e.check_eq_of_fault (hfault e) ho,
      e'.check_eq_of_fault (hfault e') ho'⟩
  · have hnone : ∀ k imbalance, ¬ Stray (Entry.ofTemplate template) k imbalance := by
      intro k imbalance hk
      exact h ⟨k, imbalance, hk⟩
    by_cases hpos : 0 < nesting (Entry.ofTemplate template)
    · obtain ⟨k, stack, hstack, -⟩ := exists_lastUnmatched hnone hpos
      left
      exact ⟨k + 1, _, e.check_eq_of_fault (e.unclosed_fault hnone hstack) ho,
        e'.check_eq_of_fault (e'.unclosed_fault hnone hstack) ho'⟩
    · right
      intro fault
      have hnil := openLines_eq_nil hnone hpos
      constructor
      · intro hf
        obtain ⟨l, hl⟩ := e.closed_fault hnone hnil hf
        exact ho fault hf l hl
      · intro hf
        obtain ⟨l, hl⟩ := e'.closed_fault hnone hnil hf
        exact ho' fault hf l hl

/-- The structure faults of a template. If some branch or end of a block stands where no block is
open, each expansion fails by the first of these or by an option before it; otherwise, if some block
stays open, by the last of these or by an option; otherwise by an option if at all. So two
expansions without a fault in an option have the same structure fault or none. -/
theorem structure_fault_of_nesting (template : Text) :
    let es := Entry.ofTemplate template
    (∀ (e : Expander) fault, e.expand template = .error fault ↔
      e.check template = .error fault) ∧
    ((∃ k imbalance, Stray es k imbalance) →
      ∃ k imbalance, FirstStray es k imbalance ∧ ∀ e : Expander,
        ∃ fault, e.check template = .error fault ∧
          ((∃ l < k + 1, fault.InOptions l) ∨ fault = .unbalanced (k + 1) imbalance)) ∧
    ((∀ k imbalance, ¬ Stray es k imbalance) → 0 < nesting es →
      ∃ k, LastUnmatched es k ∧ ∀ e : Expander,
        ∃ fault, e.check template = .error fault ∧
          ((∃ l, fault.InOptions l) ∨
            fault = .unbalanced (k + 1) (.unclosed (nesting es).toNat))) ∧
    ((∀ k imbalance, ¬ Stray es k imbalance) → ¬ 0 < nesting es →
      ∀ (e : Expander) fault, e.check template = .error fault → ∃ l, fault.InOptions l) ∧
    ∀ e e' : Expander,
      (∀ fault, e.check template = .error fault ∨ e'.check template = .error fault →
        ∀ l, ¬ fault.InOptions l) →
        (∃ line imbalance, e.check template = .error (.unbalanced line imbalance) ∧
          e'.check template = .error (.unbalanced line imbalance)) ∨
        ∀ fault, e.check template ≠ .error fault ∧ e'.check template ≠ .error fault := by
  intro es
  refine ⟨fun e fault => e.expand_eq_error_iff, fun h => ?_, fun h hpos => ?_,
    fun h hpos e fault hf => ?_, fun e e' ho => ?_⟩
  · obtain ⟨k, imbalance, hk⟩ := exists_firstStray h
    exact ⟨k, imbalance, hk, fun e => e.firstStray_fault hk⟩
  · obtain ⟨k, stack, hstack, hk⟩ := exists_lastUnmatched h hpos
    exact ⟨k, hk, fun e => e.unclosed_fault h hstack⟩
  · exact e.closed_fault h (openLines_eq_nil h hpos) hf
  · exact same_structure_fault (fun fault hf => ho fault (.inl hf))
      (fun fault hf => ho fault (.inr hf))

/-- An `else` outside of every block, and a block with an `else` that is never closed. -/
theorem stray_and_unclosed_faults :
    let stray := "a\n!!else!!".toList
    let unclosed := "!!ifempty: A!!\n!!else!!".toList
    (∃ k imbalance, FirstStray (Entry.ofTemplate stray) k imbalance ∧ ∀ e : Expander,
      ∃ fault, e.check stray = .error fault ∧
        ((∃ l < k + 1, fault.InOptions l) ∨ fault = .unbalanced (k + 1) imbalance)) ∧
    ∃ k, LastUnmatched (Entry.ofTemplate unclosed) k ∧ ∀ e : Expander,
      ∃ fault, e.check unclosed = .error fault ∧
        ((∃ l, fault.InOptions l) ∨
          fault = .unbalanced (k + 1)
            (.unclosed (nesting (Entry.ofTemplate unclosed)).toNat)) := by
  intro stray unclosed
  have hstray : Stray (Entry.ofTemplate stray) 1 .strayElse :=
    ⟨⟨.otherwise, by decide +kernel, rfl⟩, by decide +kernel⟩
  have hes : Entry.ofTemplate unclosed =
      [.directive (.opening ⟨.empty, ['A']⟩), .directive .otherwise] := by decide +kernel
  have hnone : ∀ k imbalance, ¬ Stray (Entry.ofTemplate unclosed) k imbalance := by
    rw [hes]
    rintro (_ | _ | k) imbalance ⟨⟨d, hd, hs⟩, hn⟩
    · obtain rfl := Entry.directive.inj (Option.some.inj hd)
      contradiction
    · contradiction
    · contradiction
  have hpos : 0 < nesting (Entry.ofTemplate unclosed) := by
    rw [hes]
    decide
  exact ⟨(structure_fault_of_nesting stray).2.1 ⟨1, _, hstray⟩,
    (structure_fault_of_nesting unclosed).2.2.1 hnone hpos⟩

end Expander

end LineTemplate
