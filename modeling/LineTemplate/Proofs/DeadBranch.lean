import LineTemplate.Proofs.Course
import LineTemplate.Proofs.Imbalance
import LineTemplate.Proofs.Meaning

/-!
# Branches that are not taken

A branch of a block stands between two directives of the block. Whatever it opens it closes, so that
where no lines are emitted it is passed over without a trace: any other lines that balance may stand
in its place.
-/
namespace LineTemplate

/-- The line that opened the block which the line behind the first `k` lines belongs to, if that
line is a directive of an open block. -/
def blockOf? (es : List Entry) (k : Nat) : Option Nat :=
  match es[k]? with
  | some (.directive d) => if d.opens then some (k + 1) else (openLines 1 [] (es.take k)).head?
  | _ => none

lemma blockOf?_of_prefix {front es : List Entry} {d : Directive}
    (h : front ++ [.directive d] <+: es) (ho : d.opens = false) :
    blockOf? es front.length = (openLines 1 [] front).head? := by
  obtain ⟨back, rfl⟩ := h
  rw [List.append_assoc, List.singleton_append, blockOf?,
    List.getElem?_append_right (Nat.le_refl _), Nat.sub_self, List.take_left]
  simp [ho]

lemma blockOf?_eq_some {es : List Entry} {k opened : Nat} (h : blockOf? es k = some opened) :
    ∃ d, es.take (k + 1) = es.take k ++ [.directive d] ∧ (es.take k).length = k ∧
      (d.opens = true ∧ opened = k + 1 ∨
        d.opens = false ∧ (openLines 1 [] (es.take k)).head? = some opened) := by
  unfold blockOf? at h
  split at h
  · rename_i d hd
    obtain ⟨hk, -⟩ := List.getElem?_eq_some_iff.mp hd
    refine ⟨d, by rw [List.take_add_one, hd, Option.toList_some],
      List.length_take_of_le (Nat.le_of_lt hk), ?_⟩
    cases ho : d.opens with
    | true => exact .inl ⟨rfl, by simpa [ho] using h.symm⟩
    | false => exact .inr ⟨rfl, by simpa [ho] using h⟩
  · contradiction

/-- The lines behind the first `i` and behind the first `j` lines are directives of one block, with
no directive of this block between them. So the lines between them are one branch of the block. -/
structure Branch (es : List Entry) (i j : Nat) : Prop where
  lt : i < j
  consecutive : ∃ opened, blockOf? es i = some opened ∧ blockOf? es j = some opened ∧
    ∀ k < j, i < k → blockOf? es k ≠ some opened

/-- The lines on a stack are numbered upwards, with smaller numbers than the lines to come. -/
def Ascending (line : Nat) (stack : List Nat) : Prop :=
  stack.Pairwise (· > ·) ∧ ∀ opened ∈ stack, opened < line

lemma ascending_openLines {line : Nat} {stack : List Nat} (h : Ascending line stack)
    (es : List Entry) : Ascending (line + es.length) (openLines line stack es) := by
  induction es generalizing line stack with
  | nil => exact h
  | cons entry es ih =>
    have hkeep : Ascending (line + 1) stack := ⟨h.1, fun x hx => Nat.lt_succ_of_lt (h.2 x hx)⟩
    rw [Entry.add_length_cons]
    cases entry with
    | content text => exact ih hkeep
    | directive d =>
      rw [openLines]
      split_ifs
      · refine ih ⟨List.pairwise_cons.mpr ⟨h.2, h.1⟩, ?_⟩
        exact List.forall_mem_cons.mpr ⟨Nat.lt_succ_self line, hkeep.2⟩
      · exact ih ⟨hkeep.1.tail, fun x hx => hkeep.2 x (List.mem_of_mem_tail hx)⟩
      · exact ih hkeep

lemma mem_openLines {line opened : Nat} {stack : List Nat} {es : List Entry}
    (h : opened ∈ openLines line stack es) : opened ∈ stack ∨ line ≤ opened := by
  induction es generalizing line stack with
  | nil => exact .inl h
  | cons entry es ih =>
    cases entry with
    | content text => exact (ih h).imp_right Nat.le_of_succ_le
    | directive d =>
      rw [openLines] at h
      split_ifs at h
      · rcases ih h with hstack | hle
        · rcases List.mem_cons.mp hstack with rfl | hstack
          · exact .inr (Nat.le_refl _)
          · exact .inl hstack
        · exact .inr (Nat.le_of_succ_le hle)
      · exact (ih h).imp List.mem_of_mem_tail Nat.le_of_succ_le
      · exact (ih h).imp_right Nat.le_of_succ_le

lemma openLines_branch {d : Directive} (h : d.branches = true) (line : Nat) (stack : List Nat)
    (es : List Entry) :
    openLines line stack (.directive d :: es) = openLines (line + 1) stack es := by
  cases d with
  | opening condition => contradiction
  | closing => contradiction
  | alternative condition => rfl
  | otherwise => rfl

/-- Lines behind which the block `opened` is innermost again, and that hold no directive of it,
close just the blocks that are open inside of it. -/
lemma balancedFrom_of_apart {opened line : Nat} {inner outer : List Nat} {es : List Entry}
    (hline : opened < line) (hinner : opened ∉ inner)
    (hlast : (openLines line (inner ++ opened :: outer) es).head? = some opened)
    (hapart : ∀ before d after, es = before ++ .directive d :: after → d.opens = false →
      (openLines line (inner ++ opened :: outer) before).head? ≠ some opened) :
    BalancedFrom inner.length (es.filterMap Entry.directive?) := by
  induction es generalizing line inner with
  | nil =>
    cases inner with
    | nil => exact balancedFrom_nil.mpr rfl
    | cons top inner =>
      obtain rfl := Option.some.inj hlast
      exact absurd List.mem_cons_self hinner
  | cons entry es ih =>
    have hline' : opened < line + 1 := Nat.lt_succ_of_lt hline
    cases entry with
    | content text =>
      refine ih hline' hinner hlast fun before d after hes ho => ?_
      exact hapart (.content text :: before) d after (by rw [hes, List.cons_append]) ho
    | directive d =>
      have hrest (before : List Entry) (d' : Directive) (after : List Entry)
          (hes : es = before ++ .directive d' :: after) (ho : d'.opens = false) :
          (openLines line (inner ++ opened :: outer) (.directive d :: before)).head? ≠
            some opened :=
        hapart (.directive d :: before) d' after (by rw [hes, List.cons_append]) ho
      have hne (ho : d.opens = false) : 0 < inner.length := by
        have hhead := hapart [] d es rfl ho
        cases inner with
        | nil => exact absurd rfl hhead
        | cons top inner => exact Nat.succ_pos _
      cases hb : d.branches with
      | true =>
        rw [openLines_branch hb] at hlast
        refine (balancedFrom_branch_cons hb).mpr
          ⟨hne (Directive.opens_eq_false_of_branches hb), ih hline' hinner hlast ?_⟩
        intro before d' after hes ho
        rw [← openLines_branch hb]
        exact hrest before d' after hes ho
      | false =>
        cases d with
        | alternative condition => contradiction
        | otherwise => contradiction
        | opening condition =>
          have hfresh : opened ∉ line :: inner := fun hmem =>
            (List.mem_cons.mp hmem).elim (fun heq => Nat.ne_of_lt hline heq) hinner
          have hinside : BalancedFrom (line :: inner).length (es.filterMap Entry.directive?) :=
            ih hline' hfresh hlast hrest
          exact balancedFrom_opening_cons.mpr hinside
        | closing =>
          obtain ⟨top, inner, rfl⟩ := List.exists_cons_of_length_pos (hne rfl)
          have hfresh : opened ∉ inner := fun hmem => hinner (List.mem_cons_of_mem _ hmem)
          have hinside : BalancedFrom inner.length (es.filterMap Entry.directive?) :=
            ih hline' hfresh hlast hrest
          exact balancedFrom_closing_cons.mpr ⟨hne rfl, hinside⟩

/-- Behind a directive its own block is innermost, unless the directive closes it. -/
lemma openLines_of_blockOf? {es : List Entry} {i opened : Nat} (h : blockOf? es i = some opened) :
    opened < 1 + (i + 1) ∧ (opened ∉ openLines 1 [] (es.take (i + 1)) ∨
      ∃ outer, openLines 1 [] (es.take (i + 1)) = opened :: outer) := by
  obtain ⟨d, htake, hlength, hd⟩ := blockOf?_eq_some h
  have hsorted : Ascending (1 + i) (openLines 1 [] (es.take i)) := by
    have hall : Ascending (1 + (es.take i).length) (openLines 1 [] (es.take i)) :=
      ascending_openLines ⟨.nil, fun _ hx => absurd hx List.not_mem_nil⟩ (es.take i)
    rwa [hlength] at hall
  rw [htake, openLines_append, hlength]
  generalize openLines 1 [] (es.take i) = stack at hd hsorted
  rcases hd with ⟨ho, rfl⟩ | ⟨ho, hhead⟩
  · refine ⟨by omega, .inr ⟨stack, ?_⟩⟩
    rw [openLines, if_pos ho, Nat.add_comm 1 i]
    rfl
  · obtain ⟨outer, rfl⟩ := List.head?_eq_some_iff.mp hhead
    have hlt := hsorted.2 opened List.mem_cons_self
    refine ⟨by omega, ?_⟩
    rw [openLines, if_neg (ne_true_of_eq_false ho)]
    split_ifs
    · refine .inl fun hmem => ?_
      exact Nat.lt_irrefl opened ((List.pairwise_cons.mp hsorted.1).1 opened hmem)
    · exact .inr ⟨outer, rfl⟩

lemma take_eq_append_drop (es : List Entry) {i j : Nat} (h : i ≤ j) :
    es.take j = es.take i ++ (es.take j).drop i := by
  conv_lhs => rw [← List.take_append_drop i (es.take j), List.take_take, Nat.min_eq_left h]

/-- A branch closes the blocks that it opens, and no others. -/
theorem Branch.balanced {es : List Entry} {i j : Nat} (h : Branch es i j) :
    Balanced (((es.take j).drop (i + 1)).filterMap Entry.directive?) := by
  obtain ⟨hlt, opened, hopened, hclosed, hbetween⟩ := h
  obtain ⟨hline, hstack⟩ := openLines_of_blockOf? hopened
  obtain ⟨d, -, hj, hd⟩ := blockOf?_eq_some hclosed
  have htake := take_eq_append_drop es hlt
  set head := es.take (i + 1)
  set body := (es.take j).drop (i + 1)
  have hlength : head.length = i + 1 := by
    have hall := congrArg List.length (List.take_append_drop j es)
    rw [List.length_append, hj] at hall
    exact List.length_take_of_le (by omega)
  have hlast : (openLines (1 + (i + 1)) (openLines 1 [] head) body).head? = some opened := by
    rcases hd with ⟨-, rfl⟩ | ⟨-, hhead⟩
    · omega
    · rwa [htake, openLines_append, hlength] at hhead
  have hapart (before : List Entry) (d : Directive) (after : List Entry)
      (hes : body = before ++ .directive d :: after) (ho : d.opens = false) :
      (openLines (1 + (i + 1)) (openLines 1 [] head) before).head? ≠ some opened := by
    have hstart : (head ++ before) ++ [.directive d] <+: es.take j := by
      rw [htake, hes]
      exact ⟨after, by simp⟩
    have hbefore := hstart.length_le
    simp only [hj, List.length_append, List.length_singleton, hlength] at hbefore
    have hk := hbetween (i + 1 + before.length) (by omega) (by omega)
    rw [← hlength, ← List.length_append,
      blockOf?_of_prefix (hstart.trans (List.take_prefix j es)) ho, openLines_append, hlength] at hk
    exact hk
  rcases hstack with hnot | ⟨outer, houter⟩
  · rcases mem_openLines (List.mem_of_head? hlast) with hmem | hle
    · exact absurd hmem hnot
    · omega
  · rw [houter] at hlast hapart
    have hnil : opened ∉ ([] : List Nat) := List.not_mem_nil
    exact balancedFrom_of_apart hline hnil hlast hapart

lemma Branch.length_body {es : List Entry} {i j : Nat} (h : Branch es i j) :
    ((es.take j).drop (i + 1)).length = j - (i + 1) := by
  obtain ⟨-, opened, -, hclosed, -⟩ := h
  obtain ⟨d, -, hj, -⟩ := blockOf?_eq_some hclosed
  rw [List.length_drop, hj]

namespace Expander

variable (e : Expander)

/-- Where no lines are emitted, balanced lines produce nothing and leave the blocks as they are. -/
lemma produce_balanced_dead {frames : Frames} (h : frames.live = false) {es : List Entry}
    (hes : Balanced (es.filterMap Entry.directive?)) (line : Nat) (rest : List Entry) :
    e.produce line frames (es ++ rest) = e.produce (line + es.length) frames rest := by
  obtain ⟨forest, hforest⟩ := Forest.ofEntries?_of_balanced hes
  obtain rfl := Forest.ofEntries?_eq_some_iff.mp hforest
  exact e.produce_forest_dead h rest line forest

/-- A branch that is not taken may hold anything. If no lines are emitted where a branch of some
block begins, any other lines may stand in its place, as many of them and balanced in themselves:
the output, the warnings and the fault of the expansion are the same. -/
theorem dead_branch_is_inert {template template' : Text} {i j : Nat}
    (hbranch : Branch (Entry.ofTemplate template) i j)
    (hdead : (e.blocksBehind ((Entry.ofTemplate template).take (i + 1))).emits = false)
    {body : List Text} (hlength : body.length = j - (i + 1))
    (hbody : Balanced ((body.map Entry.read).filterMap Entry.directive?))
    (htemplate : lines template' =
      (lines template).take (i + 1) ++ body ++ (lines template).drop j) :
    e.written template' = e.written template ∧ e.check template' = e.check template := by
  have hbalanced := hbranch.balanced
  have hold := hbranch.length_body
  have hlt := hbranch.lt
  have hentries : Entry.ofTemplate template' = (Entry.ofTemplate template).take (i + 1) ++
      (body.map Entry.read ++ (Entry.ofTemplate template).drop j) := by
    simp only [Entry.ofTemplate, htemplate, List.map_append, List.map_take, List.map_drop,
      List.append_assoc]
  set es := Entry.ofTemplate template
  have hes : es = es.take (i + 1) ++ ((es.take j).drop (i + 1) ++ es.drop j) := by
    rw [← List.append_assoc, ← take_eq_append_drop es hlt, List.take_append_drop]
  have hframes : (e.framesBehind 1 [] (es.take (i + 1))).live = false := by
    rw [← emits_blocksBehind, hdead]
  have hproduction : e.production template' = e.production template := by
    rw [production, production, hentries]
    conv_rhs => rw [show Entry.ofTemplate template = _ from hes]
    apply e.produce_append_congr
    rw [e.produce_balanced_dead hframes hbody, e.produce_balanced_dead hframes hbalanced, hold,
      List.length_map, hlength]
  rw [written_eq, written_eq, check_eq, check_eq, hproduction]
  exact ⟨rfl, rfl⟩

/-- The `else` of a block whose first branch is taken, in which a block with a malformed option
takes the place of a placeholder whose tag is not defined. -/
theorem malformed_option_in_else :
    let e : Expander := ⟨.ofPairs [(['C'], ['c'])], .lf⟩
    let template := "!!ifempty: A!!\na\n!!else!!\n%%B%%\n\nb\n!!endif!!\n%%C%%".toList
    let body := ["!!ifnotempty: C!!".toList, "%%C:tabindent=x%%".toList, "!!endif!!".toList]
    let template' :=
      "!!ifempty: A!!\na\n!!else!!\n".toList ++ unlines .lf body ++ "!!endif!!\n%%C%%".toList
    (Branch (Entry.ofTemplate template) 2 6 ∧
      (e.blocksBehind ((Entry.ofTemplate template).take 3)).emits = false ∧
      body.length = 6 - 3 ∧
      Balanced ((body.map Entry.read).filterMap Entry.directive?) ∧
      lines template' = (lines template).take 3 ++ body ++ (lines template).drop 6) ∧
    e.written template' = e.written template ∧ e.check template' = e.check template := by
  intro e template body template'
  have hes : Entry.ofTemplate template =
      [.directive (.opening ⟨.empty, ['A']⟩), .content ['a'], .directive .otherwise,
        .content "%%B%%".toList, .content [], .content ['b'], .directive .closing,
        .content "%%C%%".toList] := by decide +kernel
  have hbranch : Branch (Entry.ofTemplate template) 2 6 := by
    rw [hes]
    exact ⟨by decide, 1, by decide, by decide, by decide⟩
  have hdead : (e.blocksBehind ((Entry.ofTemplate template).take 3)).emits = false := by
    rw [hes]
    rfl
  have hbody : Balanced ((body.map Entry.read).filterMap Entry.directive?) := by decide +kernel
  have htemplate :
      lines template' = (lines template).take 3 ++ body ++ (lines template).drop 6 := by
    decide +kernel
  exact ⟨⟨hbranch, hdead, rfl, hbody, htemplate⟩,
    e.dead_branch_is_inert hbranch hdead rfl hbody htemplate⟩

end Expander

end LineTemplate
