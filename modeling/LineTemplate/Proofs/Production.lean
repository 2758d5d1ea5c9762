import LineTemplate.Expansion
import LineTemplate.Proofs.Frames

/-!
# What a stretch of lines produces

The output, the warnings and the fault of a run are put together from what its lines produce, one
after the other. Seen in this way a run needs no more of the conditional blocks than their frames.
-/
namespace LineTemplate

/-- Whether a fault lies in the options of a placeholder on a line. -/
def Fault.InOptions (line : Nat) : Fault → Prop
  | .badWidth l _ _ => l = line
  | .indentTooWide l _ => l = line
  | _ => False

lemma Options.inOptions_of_width {line : Nat} {option text : Text} {fault : Fault}
    (h : width line option text = .error fault) : fault.InOptions line := by
  unfold width at h
  split at h
  · obtain rfl := Except.error.inj h
    rfl
  · split at h
    · contradiction
    · obtain rfl := Except.error.inj h
      rfl

lemma Options.inOptions_of_apply {lineIndent option : Text} {line : Nat} {options : Options}
    {fault : Fault} (h : apply lineIndent line options option = .error fault) :
    fault.InOptions line := by
  unfold apply at h
  split at h
  · split at h
    · obtain rfl := Except.error.inj h
      exact inOptions_of_width ‹_›
    · contradiction
  all_goals contradiction

lemma Options.inOptions_of_ofPieces {lineIndent : Text} {line : Nat} {options : Options}
    {pieces : List Text} {fault : Fault}
    (h : ofPieces lineIndent line options pieces = .error fault) : fault.InOptions line := by
  induction pieces generalizing options with
  | nil => contradiction
  | cons option rest ih =>
    unfold ofPieces at h
    split at h
    · obtain rfl := Except.error.inj h
      exact inOptions_of_apply ‹_›
    · exact ih h

theorem Substituted.result_prepend_eq_error_iff {text : Text} {s : Substituted} {fault : Fault} :
    (s.prepend text).result = .error fault ↔ s.result = .error fault := by
  obtain ⟨warnings, result⟩ := s
  cases result <;> simp [prepend, Except.map]

lemma inOptions_of_substituteAll {tags : Dictionary} {newline lineIndent tail : Text} {line : Nat}
    {os : List Placeholder.Occurrence} {fault : Fault}
    (h : (substituteAll tags newline line lineIndent tail os).result = .error fault) :
    fault.InOptions line := by
  induction os with
  | nil => contradiction
  | cons o rest ih =>
    unfold substituteAll at h
    split at h
    · exact ih (Substituted.result_prepend_eq_error_iff.mp h)
    · split at h
      · obtain rfl := Except.error.inj h
        rename_i fault ho
        rw [Placeholder.readOptions_eq] at ho
        exact Options.inOptions_of_ofPieces ho
      · split at h
        · contradiction
        · exact ih (Substituted.result_prepend_eq_error_iff.mp h)

/-- What some lines produce; a fault ends the run there. -/
structure Produced where
  text : Text
  warnings : List Warning
  fault : Option Fault
  deriving DecidableEq, Repr

namespace Produced

def nothing : Produced := ⟨[], [], none⟩

def failure (fault : Fault) : Produced := ⟨[], [], some fault⟩

/-- What some lines and then other ones produce; after a fault there are no other ones. -/
def andThen (p q : Produced) : Produced :=
  match p.fault with
  | some _ => p
  | none => ⟨p.text ++ q.text, p.warnings ++ q.warnings, q.fault⟩

def outcome (p : Produced) : Except Fault (List Warning) :=
  match p.fault with
  | some fault => .error fault
  | none => .ok p.warnings

@[simp] theorem nothing_andThen (p : Produced) : nothing.andThen p = p := by
  simp [nothing, andThen]

@[simp] theorem andThen_nothing (p : Produced) : p.andThen nothing = p := by
  obtain ⟨text, warnings, fault⟩ := p
  cases fault <;> simp [nothing, andThen]

theorem fault_andThen_eq_none_iff {p q : Produced} :
    (p.andThen q).fault = none ↔ p.fault = none ∧ q.fault = none := by
  obtain ⟨text, warnings, fault⟩ := p
  cases fault <;> simp [andThen]

theorem warnings_andThen {p : Produced} (h : p.fault = none) (q : Produced) :
    (p.andThen q).warnings = p.warnings ++ q.warnings := by
  rw [andThen, h]

theorem andThen_assoc (p q r : Produced) : (p.andThen q).andThen r = p.andThen (q.andThen r) := by
  obtain ⟨text, warnings, fault⟩ := p
  obtain ⟨text', warnings', fault'⟩ := q
  cases fault <;> cases fault' <;> simp [andThen]

end Produced

/-- What a run has produced in the end. -/
def Run.produced (newline : Text) (run : Run) : Produced :=
  ⟨run.written newline, run.warnings, run.fault⟩

namespace Run

@[simp] theorem outcome_produced (newline : Text) (run : Run) :
    (run.produced newline).outcome = run.outcome := rfl

@[simp] theorem produced_stop (newline : Text) (fault : Option Fault) :
    (stop fault).produced newline = ⟨[], [], fault⟩ := rfl

@[simp] theorem produced_after (newline : Text) (fate : Fate) (warnings : List Warning)
    (run : Run) :
    (run.after fate warnings).produced newline =
      Produced.andThen ⟨fate.written newline, warnings, none⟩ (run.produced newline) := by
  simp [produced, after, written, Produced.andThen]

end Run

/-- A template line, read. -/
inductive Entry where
  | content (text : Text)
  | directive (directive : Directive)
  deriving DecidableEq, Repr

namespace Entry

/-- Any line that is no directive is content. -/
def read (line : Text) : Entry :=
  match Directive.read? line with
  | some d => directive d
  | none => content line

def ofTemplate (template : Text) : List Entry := (lines template).map read

lemma add_length_cons (line : Nat) (entry : Entry) (es : List Entry) :
    line + (entry :: es).length = line + 1 + es.length := by
  rw [List.length_cons]
  omega

def directive? : Entry → Option Directive
  | content _ => none
  | directive d => some d

end Entry

namespace Expander

variable (e : Expander)

/-- What a content line produces where lines are emitted. -/
def produceLine (line : Nat) (text : Text) : Produced :=
  let s := substitute e.tags e.ending.text text line
  match s.result with
  | .error fault => ⟨[], s.warnings, some fault⟩
  | .ok .skip => ⟨[], s.warnings, none⟩
  | .ok (.line text) => ⟨text ++ e.ending.text, s.warnings, none⟩

/-- A content line fails only by the options of a placeholder on it. -/
lemma inOptions_of_produceLine {line : Nat} {text : Text} {fault : Fault}
    (h : (e.produceLine line text).fault = some fault) : fault.InOptions line := by
  unfold produceLine at h
  dsimp only at h
  split at h
  · obtain rfl := Option.some.inj h
    exact inOptions_of_substituteAll ‹_›
  all_goals contradiction

/-- What the lines from number `line` on produce inside of some blocks. -/
def produce (line : Nat) (frames : Frames) : List Entry → Produced
  | [] => ⟨[], [], frames.unclosed?⟩
  | .content text :: rest =>
    if frames.live then (e.produceLine line text).andThen (produce (line + 1) frames rest)
    else produce (line + 1) frames rest
  | .directive d :: rest =>
    match frames.step e.tags.hasValue line d with
    | .error fault => .failure fault
    | .ok frames => produce (line + 1) frames rest

lemma produce_content_live {frames : Frames} (h : frames.live = true) (line : Nat) (text : Text)
    (rest : List Entry) :
    e.produce line frames (.content text :: rest) =
      (e.produceLine line text).andThen (e.produce (line + 1) frames rest) := by
  simp only [produce, h, if_true]

lemma produce_content_dead {frames : Frames} (h : frames.live = false) (line : Nat) (text : Text)
    (rest : List Entry) :
    e.produce line frames (.content text :: rest) = e.produce (line + 1) frames rest := by
  simp only [produce, h, Bool.false_eq_true, if_false]

lemma produce_directive {frames after : Frames} {line : Nat} {d : Directive}
    (h : frames.step e.tags.hasValue line d = .ok after) (rest : List Entry) :
    e.produce line frames (.directive d :: rest) = e.produce (line + 1) after rest := by
  simp only [produce, h]

lemma produce_directive_error {frames : Frames} {line : Nat} {d : Directive} {fault : Fault}
    (h : frames.step e.tags.hasValue line d = .error fault) (rest : List Entry) :
    e.produce line frames (.directive d :: rest) = .failure fault := by
  simp only [produce, h]

def production (template : Text) : Produced :=
  e.produce 1 [] (Entry.ofTemplate template)

theorem produced_runFrom {frames : Frames} (h : frames.Nested) (line : Nat) (ls : List Text) :
    (e.runFrom line frames.compact ls).produced e.ending.text =
      e.produce line frames (ls.map Entry.read) := by
  induction ls generalizing line frames with
  | nil => simp [runFrom, produce]
  | cons text rest ih =>
    rw [runFrom, List.map_cons, Entry.read]
    cases hd : Directive.read? text with
    | some d =>
      simp only [produce, Frames.step_compact h]
      cases hs : frames.step e.tags.hasValue line d with
      | error fault => rfl
      | ok after =>
        have hrest := ih (Frames.step_nested h hs) (line + 1)
        simpa [Except.map, Fate.written, Produced.andThen] using hrest
    | none =>
      simp only [produce, (Frames.compact_coherent h).2]
      cases hl : frames.live with
      | false => simp [ih h, Fate.written, Produced.andThen]
      | true =>
        simp only [if_true, produceLine]
        cases hr : (substitute e.tags e.ending.text text line).result with
        | error fault => rfl
        | ok substitution => cases substitution <;> simp [ih h, Fate.written]

theorem produced_run (template : Text) :
    (e.run template).produced e.ending.text = e.production template :=
  e.produced_runFrom Frames.nested_nil 1 (lines template)

theorem written_eq (template : Text) : e.written template = (e.production template).text :=
  congrArg Produced.text (e.produced_run template)

theorem check_eq (template : Text) : e.check template = (e.production template).outcome := by
  rw [← produced_run, Run.outcome_produced]
  rfl

lemma check_eq_error_iff {template : Text} {fault : Fault} :
    e.check template = .error fault ↔ (e.production template).fault = some fault := by
  rw [check_eq, Produced.outcome]
  cases hf : (e.production template).fault <;> simp

lemma check_eq_ok_iff {template : Text} {warnings : List Warning} :
    e.check template = .ok warnings ↔
      (e.production template).fault = none ∧ (e.production template).warnings = warnings := by
  rw [check_eq, Produced.outcome]
  cases hf : (e.production template).fault <;> simp

lemma expand_eq_error_iff {template : Text} {fault : Fault} :
    e.expand template = .error fault ↔ e.check template = .error fault := by
  rw [expand]
  cases e.check template <;> simp [Except.map]

lemma expand_eq_ok_iff {template output : Text} {warnings : List Warning} :
    e.expand template = .ok ⟨output, warnings⟩ ↔
      e.written template = output ∧ e.check template = .ok warnings := by
  rw [expand]
  cases e.check template <;> simp [Except.map]

end Expander

end LineTemplate
