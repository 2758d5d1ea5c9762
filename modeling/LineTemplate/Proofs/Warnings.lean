import LineTemplate.Proofs.Course
import LineTemplate.Proofs.OptionSpan
import LineTemplate.Reference

/-!
# The warnings of an expansion

Whether a reference is reported can be told without an expansion: it has to be a placeholder on a
line that is emitted, of a tag that is not defined, and no placeholder further left may drop the
line. The references of a template are listed from top to bottom and from left to right, and the
warnings are those that are reported, in this order.
-/
namespace LineTemplate

/-- The option by which a line is dropped for an empty value. -/
def Options.skipText : Text := "skipempty".toList

lemma OptionItem.ofText_eq_skipEmpty_iff {text : Text} :
    ofText text = skipEmpty ↔ text = Options.skipText := by
  constructor
  · intro h
    unfold ofText at h
    split at h
    · contradiction
    · contradiction
    · split_ifs at h with hkeep hskip
      exact hskip
  · rintro rfl
    rfl

namespace Options

lemma skipsEmpty_of_apply {lineIndent : Text} {line : Nat} {options next : Options} {option : Text}
    (h : apply lineIndent line options option = .ok next) :
    next.skipsEmpty = (options.skipsEmpty || option == skipText) := by
  have hne (hitem : OptionItem.ofText option ≠ .skipEmpty) : (option == skipText) = false :=
    beq_false_of_ne (mt OptionItem.ofText_eq_skipEmpty_iff.mpr hitem)
  rcases apply_cases h with ⟨unit, text, n, hitem, -, rfl⟩ | ⟨hitem, rfl⟩ | ⟨hitem, rfl⟩ |
    ⟨hitem, rfl⟩
  · rw [hne (by rw [hitem]; exact nofun), Bool.or_false]
  · rw [hne (by rw [hitem]; exact nofun), Bool.or_false]
  · rw [OptionItem.ofText_eq_skipEmpty_iff.mp hitem, beq_self_eq_true, Bool.or_true]
  · rw [hne (by rw [hitem]; exact nofun), Bool.or_false]

lemma skipsEmpty_of_ofPieces {lineIndent : Text} {line : Nat} {options last : Options}
    {pieces : List Text} (h : ofPieces lineIndent line options pieces = .ok last) :
    last.skipsEmpty = (options.skipsEmpty || pieces.contains skipText) := by
  induction pieces generalizing options with
  | nil =>
    obtain rfl := Except.ok.inj h
    simp
  | cons option pieces ih =>
    unfold ofPieces at h
    split at h
    · contradiction
    · rename_i next hnext
      rw [ih h, skipsEmpty_of_apply hnext, List.contains_cons, Bool.or_assoc,
        Bool.beq_comm (a := option)]

end Options

lemma Placeholder.skipsEmpty_of_readOptions {placeholder : Placeholder} {lineIndent : Text}
    {line : Nat} {options : Options} (h : placeholder.readOptions lineIndent line = .ok options) :
    options.skipsEmpty =
      (placeholder.options.elim [] Options.pieces).contains Options.skipText := by
  rw [readOptions_eq] at h
  rw [Options.skipsEmpty_of_ofPieces h]
  rfl

lemma Placeholder.byteLength_source_pos {text : Text} {o : Occurrence}
    (h : o ∈ (cut text).occurrences) : 0 < Text.byteLength o.source := by
  obtain ⟨here, found, hr, -, hs⟩ := read?_of_mem_cutFrom h
  have hlength := length_rest_lt hr
  have hsource := congrArg List.length (source_append_rest hr)
  rw [List.length_append] at hsource
  rw [← hs]
  cases hfound : found.source with
  | nil =>
    rw [hfound, List.length_nil] at hsource
    omega
  | cons c rest =>
    have hc := c.utf8Size_pos
    rw [Text.byteLength_cons]
    omega

namespace Reference

def warning (r : Reference) : Warning := ⟨r.line, r.tag⟩

def isUndefined (tags : Dictionary) (r : Reference) : Bool := (tags.get? r.tag).isNone

/-- Whether a placeholder drops its line: the value of its tag is empty, and one of its options asks
for it. -/
def dropsLine (tags : Dictionary) (r : Reference) : Bool :=
  tags.get? r.tag == some [] && (r.options.elim [] Options.pieces).contains Options.skipText

/-- One place stands before another one on the same line. -/
def leftOf (r s : Reference) : Bool := r.line == s.line && decide (r.column < s.column)

/-- Whether no place of a list drops the line in front of a place. -/
def isReached (tags : Dictionary) (rs : List Reference) (r : Reference) : Bool :=
  rs.all fun s => !(s.leftOf r && s.dropsLine tags)

/-- One place stands before another one in the template. -/
def Before (r s : Reference) : Prop := r.line < s.line ∨ r.line = s.line ∧ r.column < s.column

lemma mem_ofOccurrences {line column : Nat} {os : List Placeholder.Occurrence} {r : Reference}
    (h : r ∈ ofOccurrences line column os) :
    r.line = line ∧ r.kind = .placeholder ∧ column ≤ r.column := by
  induction os generalizing column with
  | nil => contradiction
  | cons o os ih =>
    rcases List.mem_cons.mp h with rfl | h
    · exact ⟨rfl, rfl, Nat.le_add_right _ _⟩
    · obtain ⟨hline, hkind, hcolumn⟩ := ih h
      exact ⟨hline, hkind, by omega⟩

lemma before_ofOccurrences {os : List Placeholder.Occurrence}
    (h : ∀ o ∈ os, 0 < Text.byteLength o.source) (line column : Nat) :
    (ofOccurrences line column os).Pairwise Before := by
  induction os generalizing column with
  | nil => exact .nil
  | cons o os ih =>
    obtain ⟨ho, hos⟩ := List.forall_mem_cons.mp h
    refine List.pairwise_cons.mpr ⟨fun r hr => ?_, ih hos _⟩
    obtain ⟨hline, -, hcolumn⟩ := mem_ofOccurrences hr
    exact .inr ⟨hline.symm, by dsimp only; omega⟩

lemma mem_ofLine {line : Nat} {text : Text} {r : Reference} (h : r ∈ ofLine line text) :
    r.line = line ∧
      r.kind = if (Directive.read? text).isSome then .condition else .placeholder := by
  unfold ofLine at h
  split at h
  · rename_i d hd
    split at h
    · obtain rfl := List.mem_singleton.mp h
      exact ⟨rfl, by rw [hd]; rfl⟩
    · contradiction
  · rename_i hd
    obtain ⟨hline, hkind, -⟩ := mem_ofOccurrences h
    exact ⟨hline, by rw [hkind, hd]; rfl⟩

lemma before_ofLine (line : Nat) (text : Text) : (ofLine line text).Pairwise Before := by
  unfold ofLine
  split
  · split
    · exact List.pairwise_singleton _ _
    · exact .nil
  · exact before_ofOccurrences (fun o ho => Placeholder.byteLength_source_pos ho) line 1

lemma le_line_of_mem_ofLines {line : Nat} {ls : List Text} {r : Reference}
    (h : r ∈ ofLines line ls) : line ≤ r.line := by
  induction ls generalizing line with
  | nil => contradiction
  | cons text ls ih =>
    rcases List.mem_append.mp h with h | h
    · exact Nat.le_of_eq (mem_ofLine h).1.symm
    · exact Nat.le_of_succ_le (ih h)

/-- References are listed from top to bottom and from left to right, each place once. -/
theorem before_ofLines (line : Nat) (ls : List Text) : (ofLines line ls).Pairwise Before := by
  induction ls generalizing line with
  | nil => exact .nil
  | cons text ls ih =>
    refine List.pairwise_append.mpr ⟨before_ofLine line text, ih (line + 1), fun r hr s hs => ?_⟩
    have hline := (mem_ofLine hr).1
    have hle := le_line_of_mem_ofLines hs
    exact .inl (by omega)

lemma kind_eq_of_line_eq {line : Nat} {ls : List Text} {r s : Reference}
    (hr : r ∈ ofLines line ls) (hs : s ∈ ofLines line ls) (h : r.line = s.line) :
    r.kind = s.kind := by
  induction ls generalizing line with
  | nil => contradiction
  | cons text ls ih =>
    rcases List.mem_append.mp hr with hr | hr
    · rcases List.mem_append.mp hs with hs | hs
      · rw [(mem_ofLine hr).2, (mem_ofLine hs).2]
      · have hline := (mem_ofLine hr).1
        have hle := le_line_of_mem_ofLines hs
        omega
    · rcases List.mem_append.mp hs with hs | hs
      · have hline := (mem_ofLine hs).1
        have hle := le_line_of_mem_ofLines hr
        omega
      · exact ih hr hs

lemma isUndefined_eq_false_of_dropsLine {tags : Dictionary} {r : Reference}
    (h : r.dropsLine tags = true) : r.isUndefined tags = false := by
  have hvalue := eq_of_beq (Bool.and_eq_true_iff.mp h).1
  rw [isUndefined, hvalue]
  rfl

@[simp] theorem isReached_append (tags : Dictionary) (rs rs' : List Reference) (r : Reference) :
    isReached tags (rs ++ rs') r = (isReached tags rs r && isReached tags rs' r) :=
  List.all_append

lemma isReached_of_line_ne {tags : Dictionary} {rs : List Reference} {r : Reference}
    (h : ∀ s ∈ rs, s.line ≠ r.line) : isReached tags rs r = true := by
  refine List.all_eq_true.mpr fun s hs => ?_
  simp [leftOf, h s hs]

/-- The undefined references in front of the first one that drops the line are those in front of
which none does. -/
lemma filter_takeWhile {tags : Dictionary} {line : Nat} {rs : List Reference}
    (hline : ∀ r ∈ rs, r.line = line) (h : rs.Pairwise Before) :
    (rs.takeWhile (!·.dropsLine tags)).filter (isUndefined tags) =
      rs.filter fun r => r.isUndefined tags && isReached tags rs r := by
  induction rs with
  | nil => rfl
  | cons first rs ih =>
    obtain ⟨hfirst, hrs⟩ := List.forall_mem_cons.mp hline
    obtain ⟨hbefore, h⟩ := List.pairwise_cons.mp h
    have hcolumn : ∀ r ∈ rs, first.column < r.column := by
      intro r hr
      rcases hbefore r hr with hlt | ⟨-, hlt⟩
      · rw [hfirst, hrs r hr] at hlt
        exact absurd hlt (Nat.lt_irrefl line)
      · exact hlt
    have hreached : isReached tags (first :: rs) first = true := by
      refine List.all_eq_true.mpr (List.forall_mem_cons.mpr ⟨by simp [leftOf], fun s hs => ?_⟩)
      have hle := Nat.le_of_lt (hcolumn s hs)
      simp [leftOf, Nat.not_lt.mpr hle]
    have hrest : ∀ r ∈ rs, isReached tags (first :: rs) r =
        (!first.dropsLine tags && isReached tags rs r) := by
      intro r hr
      have hleft : first.leftOf r = true := by simp [leftOf, hfirst, hrs r hr, hcolumn r hr]
      rw [isReached, List.all_cons, hleft, Bool.true_and]
      rfl
    cases hd : first.dropsLine tags with
    | true =>
      have hnone : ∀ r ∈ rs, ¬ (r.isUndefined tags && isReached tags (first :: rs) r) = true := by
        intro r hr
        simp [hrest r hr, hd]
      rw [List.takeWhile_cons_of_neg (by simp [hd]), List.filter_cons_of_neg,
        List.filter_eq_nil_iff.mpr hnone, List.filter_nil]
      simp [isUndefined_eq_false_of_dropsLine hd]
    | false =>
      have hsame : rs.filter (fun r => r.isUndefined tags && isReached tags (first :: rs) r) =
          rs.filter fun r => r.isUndefined tags && isReached tags rs r :=
        List.filter_congr fun r hr => by simp [hrest r hr, hd]
      rw [List.takeWhile_cons_of_pos (by simp [hd]), List.filter_cons, List.filter_cons,
        hreached, Bool.and_true, hsame, ih hrs h]

end Reference

/-- The warnings of a line that does not fail are about its undefined placeholders, up to the first
one that drops the line. -/
lemma warnings_substituteAll {tags : Dictionary} {newline lineIndent tail : Text} {line : Nat}
    {os : List Placeholder.Occurrence} (column : Nat)
    (h : ∀ fault, (substituteAll tags newline line lineIndent tail os).result ≠ .error fault) :
    (substituteAll tags newline line lineIndent tail os).warnings =
      (((Reference.ofOccurrences line column os).takeWhile (!·.dropsLine tags)).filter
        (·.isUndefined tags)).map Reference.warning := by
  induction os generalizing column with
  | nil => rfl
  | cons o os ih =>
    let r : Reference := ⟨o.placeholder.tag, .placeholder, line, column + Text.byteLength o.gap,
      o.placeholder.options⟩
    have hlist : Reference.ofOccurrences line column (o :: os) =
        r :: Reference.ofOccurrences line (r.column + Text.byteLength o.source) os := rfl
    rw [hlist]
    unfold substituteAll at h ⊢
    cases hg : tags.get? o.placeholder.tag with
    | none =>
      have hu : r.isUndefined tags = true := by rw [Reference.isUndefined, hg]; rfl
      have hd : r.dropsLine tags = false := by rw [Reference.dropsLine, hg]; rfl
      rw [hg] at h
      rw [List.takeWhile_cons_of_pos (by rw [hd]; rfl), List.filter_cons_of_pos hu, List.map_cons,
        ← ih _ fun fault hr => h fault (Substituted.result_prepend_eq_error_iff.mpr hr)]
      rfl
    | some value =>
      have hu : ¬ r.isUndefined tags = true := by rw [Reference.isUndefined, hg]; simp
      simp only [hg] at h ⊢
      cases ho : o.placeholder.readOptions lineIndent line with
      | error fault =>
        rw [ho] at h
        exact absurd rfl (h fault)
      | ok options =>
        have hskips : (options.skipsEmpty && value.isEmpty) = r.dropsLine tags := by
          rw [Reference.dropsLine, hg, Placeholder.skipsEmpty_of_readOptions ho, Bool.and_comm]
          cases value <;> rfl
        simp only [ho, hskips] at h ⊢
        cases hd : r.dropsLine tags with
        | true =>
          rw [List.takeWhile_cons_of_neg (by rw [hd]; decide)]
          rfl
        | false =>
          rw [hd] at h
          rw [List.takeWhile_cons_of_pos (by rw [hd]; rfl), List.filter_cons_of_neg hu,
            ← ih _ fun fault hr => h fault (Substituted.result_prepend_eq_error_iff.mpr hr)]
          rfl

namespace Expander

variable (e : Expander)

/-- Whether a reference among lines that begin inside of some blocks, the first of them having
number `line`, is reported. -/
def reportsFrom (line : Nat) (frames : Frames) (ls : List Text) (r : Reference) : Bool :=
  r.kind == .placeholder &&
    (e.framesBehind line frames ((ls.map Entry.read).take (r.line - line))).live &&
    r.isUndefined e.tags && Reference.isReached e.tags (Reference.ofLines line ls) r

/-- Behind a line the references are reported that are reported from the blocks behind it. -/
lemma filter_reportsFrom_behind {line : Nat} {frames after : Frames} {text : Text}
    (h : ∀ es, e.framesBehind line frames (Entry.read text :: es) =
      e.framesBehind (line + 1) after es) (ls : List Text) :
    (Reference.ofLines (line + 1) ls).filter (e.reportsFrom line frames (text :: ls)) =
      (Reference.ofLines (line + 1) ls).filter (e.reportsFrom (line + 1) after ls) := by
  refine List.filter_congr fun r hr => ?_
  have hle := Reference.le_line_of_mem_ofLines hr
  have htake : ((text :: ls).map Entry.read).take (r.line - line) =
      Entry.read text :: (ls.map Entry.read).take (r.line - (line + 1)) := by
    rw [List.map_cons, show r.line - line = r.line - (line + 1) + 1 by omega, List.take_succ_cons]
  have hfirst : Reference.isReached e.tags (Reference.ofLine line text) r = true := by
    refine Reference.isReached_of_line_ne fun s hs => ?_
    rw [(Reference.mem_ofLine hs).1]
    omega
  rw [reportsFrom, reportsFrom, htake, h, Reference.ofLines, Reference.isReached_append, hfirst,
    Bool.true_and]

/-- The references of the first line are reported as those of this line alone. -/
lemma filter_reportsFrom_first (line : Nat) (frames : Frames) (text : Text) (ls : List Text) :
    (Reference.ofLine line text).filter (e.reportsFrom line frames (text :: ls)) =
      if (Directive.read? text).isNone && frames.live then
        (Reference.ofLine line text).filter fun r =>
          r.isUndefined e.tags && Reference.isReached e.tags (Reference.ofLine line text) r
      else [] := by
  have hreports : ∀ r ∈ Reference.ofLine line text, e.reportsFrom line frames (text :: ls) r =
      ((Directive.read? text).isNone && frames.live &&
        (r.isUndefined e.tags && Reference.isReached e.tags (Reference.ofLine line text) r)) := by
    intro r hr
    obtain ⟨hline, hkind⟩ := Reference.mem_ofLine hr
    have hlater : Reference.isReached e.tags (Reference.ofLines (line + 1) ls) r = true := by
      refine Reference.isReached_of_line_ne fun s hs => ?_
      have hle := Reference.le_line_of_mem_ofLines hs
      omega
    have hplaceholder : (r.kind == .placeholder) = (Directive.read? text).isNone := by
      rw [hkind]
      cases Directive.read? text <;> rfl
    rw [reportsFrom, hplaceholder, hline, Nat.sub_self, List.take_zero, framesBehind_nil,
      Reference.ofLines, Reference.isReached_append, hlater, Bool.and_true, Bool.and_assoc,
      Bool.and_assoc]
  rw [List.filter_congr hreports]
  split_ifs with h
  · simp only [h, Bool.true_and]
  · simp [h]

lemma warnings_produceLine {line : Nat} {text : Text} (hd : Directive.read? text = none)
    (h : (e.produceLine line text).fault = none) :
    (e.produceLine line text).warnings =
      ((Reference.ofLine line text).filter fun r =>
        r.isUndefined e.tags && Reference.isReached e.tags (Reference.ofLine line text) r).map
          Reference.warning := by
  have hok : ∀ fault, (substitute e.tags e.ending.text text line).result ≠ .error fault := by
    intro fault hr
    simp [produceLine, hr] at h
  have hwarnings : (e.produceLine line text).warnings =
      (substitute e.tags e.ending.text text line).warnings := by
    rw [produceLine]
    split <;> rfl
  have hline : ∀ r ∈ Reference.ofLine line text, r.line = line :=
    fun _ hr => (Reference.mem_ofLine hr).1
  rw [hwarnings, ← Reference.filter_takeWhile hline (Reference.before_ofLine line text),
    Reference.ofLine, hd]
  exact warnings_substituteAll 1 hok

lemma warnings_produce {line : Nat} {frames : Frames} {ls : List Text}
    (h : (e.produce line frames (ls.map Entry.read)).fault = none) :
    (e.produce line frames (ls.map Entry.read)).warnings =
      ((Reference.ofLines line ls).filter (e.reportsFrom line frames ls)).map
        Reference.warning := by
  induction ls generalizing line frames with
  | nil => rfl
  | cons text ls ih =>
    rw [List.map_cons] at h ⊢
    rw [Reference.ofLines, List.filter_append, List.map_append, filter_reportsFrom_first]
    cases hd : Directive.read? text with
    | some d =>
      have hread : Entry.read text = .directive d := by rw [Entry.read, hd]
      rw [hread] at h ⊢
      cases hs : frames.step e.tags.hasValue line d with
      | error fault =>
        rw [produce_directive_error e hs] at h
        contradiction
      | ok after =>
        rw [produce_directive e hs] at h ⊢
        rw [filter_reportsFrom_behind e (fun es => by rw [hread, framesBehind_directive e hs]) ls]
        exact ih h
    | none =>
      have hread : Entry.read text = .content text := by rw [Entry.read, hd]
      rw [filter_reportsFrom_behind e (fun es => by rw [hread, framesBehind_content]) ls]
      rw [hread] at h ⊢
      cases hl : frames.live with
      | false =>
        rw [produce_content_dead e hl] at h ⊢
        exact ih h
      | true =>
        rw [produce_content_live e hl] at h ⊢
        obtain ⟨hline, hrest⟩ := Produced.fault_andThen_eq_none_iff.mp h
        rw [Produced.warnings_andThen hline, ih hrest, warnings_produceLine e hd hline]
        rfl

/-- Whether a reference of a template is reported: it is a placeholder on a line that is emitted,
its tag is not defined, and no placeholder further left drops the line. -/
def reports (template : Text) (r : Reference) : Bool :=
  r.kind == .placeholder &&
    (e.blocksBehind ((Entry.ofTemplate template).take (r.line - 1))).emits &&
    r.isUndefined e.tags && Reference.isReached e.tags (Reference.ofTemplate template) r

/-- The warnings of an expansion that succeeds are about the references that are reported, in the
order in which the references of a template are listed: from top to bottom and from left to right,
each place once. No warning is about a condition. -/
theorem warnings_are_reported_references {template output : Text} {warnings : List Warning}
    (h : e.expand template = .ok ⟨output, warnings⟩) :
    warnings =
        ((Reference.ofTemplate template).filter (e.reports template)).map Reference.warning ∧
      (Reference.ofTemplate template).Pairwise Reference.Before ∧
      ∀ r ∈ Reference.ofTemplate template, r.kind = .condition → r.warning ∉ warnings := by
  obtain ⟨hfault, hwarnings⟩ := e.check_eq_ok_iff.mp (e.expand_eq_ok_iff.mp h).2
  have hreports : e.reportsFrom 1 [] (lines template) = e.reports template := by
    funext r
    rw [reportsFrom, reports, emits_blocksBehind]
    rfl
  have heq : warnings =
      ((Reference.ofTemplate template).filter (e.reports template)).map Reference.warning := by
    rw [← hwarnings, ← hreports]
    exact e.warnings_produce hfault
  refine ⟨heq, Reference.before_ofLines 1 (lines template), fun r hr hk hw => ?_⟩
  rw [heq] at hw
  obtain ⟨s, hs, hsr⟩ := List.mem_map.mp hw
  obtain ⟨hmem, hreported⟩ := List.mem_filter.mp hs
  have hline : s.line = r.line := congrArg Warning.line hsr
  have hkind : s.kind = .condition := (Reference.kind_eq_of_line_eq hmem hr hline).trans hk
  simp [reports, hkind] at hreported

/-- Undefined placeholders in front of one that drops the line, behind it, and in a branch that is
not taken. -/
theorem undefined_behind_skip_is_not_reported :
    let e : Expander := ⟨.ofPairs [(['E'], [])], .lf⟩
    let template :=
      "%%A%% %%E:x: skipempty %% %%B%%\n!!ifnotempty: C!!\n%%D%%\n!!endif!!\n%%E%%%%A%%".toList
    let warnings : List Warning := [⟨1, ['A']⟩, ⟨5, ['A']⟩]
    e.expand template = .ok ⟨"\n".toList, warnings⟩ ∧
      warnings =
        ((Reference.ofTemplate template).filter (e.reports template)).map Reference.warning ∧
      (Reference.ofTemplate template).Pairwise Reference.Before ∧
      ∀ r ∈ Reference.ofTemplate template, r.kind = .condition → r.warning ∉ warnings := by
  intro e template warnings
  have h : e.expand template = .ok ⟨"\n".toList, warnings⟩ := by decide +kernel
  exact ⟨h, e.warnings_are_reported_references h⟩

end Expander

end LineTemplate
