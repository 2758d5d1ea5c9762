import LineTemplate.Proofs.Sessions

/-!
# Checking and strict expansion

A check throws the expanded text away as it goes, and a strict expansion holds it back until nothing
is undefined. Both come to the same verdict on the same inputs, and where they refuse a template
they give the same reasons: the one fault of the template, or all of its undefined placeholders.
-/
namespace LineTemplate.CommandLine

def isErrorLine (message : Text) : Bool :=
  "ERROR ".toList.isPrefixOf message || "Error: ".toList.isPrefixOf message

def Report.errorLines (report : Report) : List Text := report.messages.filter isErrorLine

/-- Just the errors are shown in every session. -/
lemma Event.isErrorLine_text (w : Wording) (event : Event) :
    isErrorLine (event.text w) = event.isShown .quiet := by
  cases event <;> rfl

lemma Event.isShown_of_quiet {event : Event} (h : event.isShown .quiet = true)
    (verbosity : Verbosity) : event.isShown verbosity = true := by
  unfold isShown at h ⊢
  cases hlevel : event.level <;> simp_all

/-- How many reports are shown makes no difference to the errors among them. -/
theorem Outcome.errorLines_report (w : Wording) (outcome : Outcome) (verbosity : Verbosity) :
    (outcome.report w verbosity).errorLines =
      (outcome.events.filter (·.isShown .quiet)).map (Event.text w) := by
  have hline : isErrorLine ∘ Event.text w = (·.isShown .quiet) :=
    funext (Event.isErrorLine_text w)
  rw [Report.errorLines, Outcome.report, List.filter_map, hline, List.filter_filter]
  refine congrArg (List.map (Event.text w)) (List.filter_congr fun event _ => ?_)
  cases hquiet : event.isShown .quiet with
  | false => rfl
  | true => simp [Event.isShown_of_quiet hquiet verbosity]

variable {e : Expander} {template : Text}

lemma checkOutcome_of_error {fault : Fault} (h : e.check template = .error fault) :
    checkOutcome e template =
      Plan.fail (.checking :: (e.run template).warnings.map .undefinedTag) fault := by
  rw [Expander.check, Run.outcome] at h
  cases hfault : (e.run template).fault with
  | none => simp [hfault] at h
  | some found =>
    rw [hfault] at h
    obtain rfl := Except.error.inj h
    simp only [checkOutcome, hfault]

lemma checkOutcome_of_ok {warnings : List Warning} (h : e.check template = .ok warnings) :
    checkOutcome e template =
      ⟨.checking :: warnings.map .undefinedTag,
        printed (checkReport (Reference.ofTemplate template) warnings),
        if warnings = [] then 0 else 1⟩ := by
  rw [Expander.check, Run.outcome] at h
  cases hfault : (e.run template).fault with
  | some found => simp [hfault] at h
  | none =>
    rw [hfault] at h
    obtain rfl := Except.ok.inj h
    simp only [checkOutcome, hfault]

/-- The error messages of a session that fails for a fault. -/
def faultLines (w : Wording) (fault : Fault) : List Text :=
  ["ERROR ".toList ++ Text.escapeControls (fault.message w), "Error: ".toList ++ fault.message w]

/-- The error messages of a session that holds an expansion back, one for each undefined
placeholder. -/
def undefinedLines (warnings : List Warning) : List Text :=
  warnings.map (fun w =>
      "ERROR tag is not defined line=".toList ++ Text.ofNat w.line ++ " tag=".toList ++ w.tag)
    ++ ["Error: ".toList ++ Text.ofNat warnings.length
      ++ " undefined tag reference(s), no output written".toList]

@[simp] theorem filter_undefinedTag (warnings : List Warning) :
    (warnings.map Event.undefinedTag).filter (·.isShown .quiet) = [] := by
  induction warnings with
  | nil => rfl
  | cons w warnings ih => exact ih

lemma map_text_undefinedError (w : Wording) (warnings : List Warning) :
    ((warnings.map Event.undefinedError ++ [Event.abortedUndefined warnings.length]).filter
      (·.isShown .quiet)).map (Event.text w) = undefinedLines warnings := by
  have hall : ∀ event ∈ warnings.map .undefinedError ++ [Event.abortedUndefined warnings.length],
      event.isShown .quiet = true := by
    intro event h
    rcases List.mem_append.mp h with h | h
    · obtain ⟨warning, -, rfl⟩ := List.mem_map.mp h
      rfl
    · obtain rfl := List.mem_singleton.mp h
      rfl
  rw [List.filter_eq_self.mpr hall, List.map_append, List.map_map]
  rfl

variable (w : Wording) {arguments : List Text} {environment : Environment} {i : Invocation}
  {tree : FileTree} {input : Bytes} {text : Text}

/-- How a session ends: its exit code, what it prints, and its error messages. -/
structure Ending where
  exitCode : Nat
  output : Text
  errors : List Text
  deriving DecidableEq, Repr

def Report.ending (report : Report) : Ending :=
  ⟨report.exitCode, report.output, report.errorLines⟩

def checkEnding (w : Wording) (references : List Reference) :
    Except Fault (List Warning) → Ending
  | .error fault => ⟨1, [], faultLines w fault⟩
  | .ok [] => ⟨0, printed (checkReport references []), []⟩
  | .ok warnings => ⟨1, printed (checkReport references warnings), []⟩

/-- The ending of a strict expansion to standard output, given what it finds. -/
def strictEnding (w : Wording) (expanded : Text) : Except Fault (List Warning) → Ending
  | .error fault => ⟨1, [], faultLines w fault⟩
  | .ok [] => ⟨0, expanded, []⟩
  | .ok warnings => ⟨1, [], undefinedLines warnings⟩

lemma ending_of_done (hi : readInvocation arguments environment = .ok i)
    (h : i.SetsUp e (Utf8.encode text) tree input) {outcome : Outcome}
    (hplan : planTask e (Utf8.stripMark text) i.task = .done outcome) :
    (run w arguments environment tree input).1.ending =
        ⟨outcome.exitCode, outcome.output,
          (outcome.events.filter (·.isShown .quiet)).map (Event.text w)⟩ ∧
      (run w arguments environment tree input).2 = tree := by
  have hreading : ¬ i.reading.isShown .quiet = true := by
    rw [Invocation.reading]
    split_ifs <;> exact Bool.false_ne_true
  rw [run_of_readInvocation hi, h.perform_of_done hplan, Report.ending,
    Outcome.errorLines_report]
  dsimp only
  rw [List.filter_cons_of_neg hreading]
  exact ⟨rfl, rfl⟩

lemma errors_of_fail {events : List Event} (h : events.filter (·.isShown .quiet) = [])
    (fault : Fault) :
    ((Plan.fail events fault).events.filter (·.isShown .quiet)).map (Event.text w) =
      faultLines w fault := by
  rw [Plan.fail, List.filter_append, h]
  rfl

theorem ending_of_check (hi : readInvocation arguments environment = .ok i)
    (htask : i.task = .check) (h : i.SetsUp e (Utf8.encode text) tree input) :
    (run w arguments environment tree input).1.ending =
        checkEnding w (Reference.ofTemplate (Utf8.stripMark text))
          (e.check (Utf8.stripMark text)) ∧
      (run w arguments environment tree input).2 = tree := by
  have hplan : planTask e (Utf8.stripMark text) i.task =
      .done (checkOutcome e (Utf8.stripMark text)) := by
    rw [htask, planTask]
  have hsilent (warnings : List Warning) :
      (Event.checking :: warnings.map .undefinedTag).filter (·.isShown .quiet) = [] :=
    filter_undefinedTag warnings
  obtain ⟨hending, htree⟩ := ending_of_done w hi h hplan
  refine ⟨?_, htree⟩
  rw [hending]
  cases hresult : e.check (Utf8.stripMark text) with
  | error fault =>
    rw [checkOutcome_of_error hresult, errors_of_fail w (hsilent _)]
    rfl
  | ok warnings =>
    rw [checkOutcome_of_ok hresult, hsilent]
    cases warnings <;> rfl

theorem ending_of_strict (hi : readInvocation arguments environment = .ok i)
    (htask : i.task = .expand none true) (h : i.SetsUp e (Utf8.encode text) tree input) :
    (run w arguments environment tree input).1.ending =
        strictEnding w (e.written (Utf8.stripMark text)) (e.check (Utf8.stripMark text)) ∧
      (run w arguments environment tree input).2 = tree := by
  have hplan : planTask e (Utf8.stripMark text) i.task =
      planExpansion e (Utf8.stripMark text) none true := by
    rw [htask, planTask]
  cases hresult : e.check (Utf8.stripMark text) with
  | error fault =>
    rw [planExpansion_of_error (e.expand_eq_error_iff.mpr hresult)] at hplan
    obtain ⟨hending, htree⟩ := ending_of_done w hi h hplan
    rw [hending, errors_of_fail w (filter_undefinedTag _)]
    exact ⟨rfl, htree⟩
  | ok warnings =>
    have hexpand := e.expand_eq_ok_iff.mpr ⟨rfl, hresult⟩
    cases warnings with
    | nil =>
      rw [planExpansion_of_accepted hexpand (by simp)] at hplan
      obtain ⟨hending, htree⟩ := ending_of_done w hi h hplan
      rw [hending]
      exact ⟨rfl, htree⟩
    | cons first warnings =>
      rw [planExpansion_of_refused hexpand ⟨rfl, List.cons_ne_nil first warnings⟩] at hplan
      obtain ⟨hending, htree⟩ := ending_of_done w hi h hplan
      rw [hending, List.append_assoc, List.filter_append, filter_undefinedTag, List.nil_append,
        map_text_undefinedError]
      exact ⟨rfl, htree⟩

lemma exitCode_strictEnding (expanded : Text) (references : List Reference)
    (result : Except Fault (List Warning)) :
    (strictEnding w expanded result).exitCode = (checkEnding w references result).exitCode := by
  rcases result with fault | warnings
  · rfl
  · cases warnings <;> rfl

/-- A session that does not get to its task ends in the same way whatever the task is. -/
lemma run_of_not_setsUp (h : ∀ e text, ¬ i.SetsUp e (Utf8.encode text) tree input) :
    ∃ code, ∀ w arguments environment task verbosity,
      readInvocation arguments environment = .ok { i with task, verbosity } →
        (run w arguments environment tree input).1.exitCode = code ∧
          (run w arguments environment tree input).2 = tree := by
  by_cases hread : ∃ text, i.source? tree input = some (Utf8.encode text)
  · obtain ⟨text, hread⟩ := hread
    have hbad (tags : Dictionary) : i.tags (i.tagFiles.map tree.readText) ≠ .ok tags :=
      fun hgood => h ⟨tags, i.ending⟩ text ⟨hread, ⟨tags, hgood, fun _ => rfl⟩, rfl⟩
    refine ⟨2, fun w arguments environment task verbosity hi => ?_⟩
    obtain ⟨events, hperform⟩ := perform_of_bad_tags (i := { i with task, verbosity }) hread hbad
    rw [run_of_readInvocation hi, hperform]
    exact ⟨rfl, rfl⟩
  · refine ⟨1, fun w arguments environment task verbosity hi => ?_⟩
    obtain ⟨events, hperform⟩ :=
      perform_of_unreadable (i := { i with task, verbosity }) (not_exists.mp hread)
    rw [run_of_readInvocation hi, hperform]
    exact ⟨rfl, rfl⟩

/-- On the same inputs a check and a strict expansion to standard output end with the same exit
code, and neither changes a file. If the template has a fault, both end with 1, print nothing and
give the same error messages, which tell the fault. Without a fault both end with 0 exactly if
nothing is undefined; else both end with 1, the check prints no more than its report, the strict
expansion prints nothing, and both name the same undefined placeholders, in the same order and with
the same count. -/
theorem check_agrees_with_strict_expansion (w : Wording) {arguments arguments' : List Text}
    {environment environment' : Environment} {i : Invocation} {verbosity : Verbosity}
    (hcheck : readInvocation arguments environment = .ok { i with task := .check })
    (hstrict : readInvocation arguments' environment' =
      .ok { i with task := .expand none true, verbosity })
    (tree : FileTree) (input : Bytes) :
    let checked := run w arguments environment tree input
    let expanded := run w arguments' environment' tree input
    checked.1.exitCode = expanded.1.exitCode ∧ checked.2 = tree ∧ expanded.2 = tree ∧
      ∀ e text, i.SetsUp e (Utf8.encode text) tree input →
        let template := Utf8.stripMark text
        (∀ fault, e.check template = .error fault →
          checked.1.exitCode = 1 ∧ checked.1.output = [] ∧ expanded.1.output = [] ∧
            checked.1.errorLines = faultLines w fault ∧
            expanded.1.errorLines = faultLines w fault) ∧
        ∀ warnings, e.check template = .ok warnings →
          (checked.1.exitCode = 0 ↔ warnings = []) ∧
          (warnings ≠ [] →
            checked.1.exitCode = 1 ∧ checked.1.errorLines = [] ∧
              checked.1.output = unlines .lf
                (("Summary: ".toList ++ Text.ofNat (Reference.ofTemplate template).length
                    ++ " tag references, conditional blocks balanced".toList)
                  :: ("  ✗ ".toList ++ Text.ofNat warnings.length
                    ++ " undefined placeholder(s)".toList)
                  :: warnings.map fun warning =>
                    "    line ".toList ++ Text.ofNat warning.line ++ ": ".toList
                      ++ warning.tag) ∧
              expanded.1.output = [] ∧ expanded.1.errorLines = undefinedLines warnings) := by
  intro checked expanded
  have hchecked {e : Expander} {text : Text} (h : i.SetsUp e (Utf8.encode text) tree input) :=
    ending_of_check w hcheck rfl ⟨h.source, h.tags, h.ending⟩
  have hexpanded {e : Expander} {text : Text} (h : i.SetsUp e (Utf8.encode text) tree input) :=
    ending_of_strict w hstrict rfl ⟨h.source, h.tags, h.ending⟩
  have hcommon : checked.1.exitCode = expanded.1.exitCode ∧ checked.2 = tree ∧
      expanded.2 = tree := by
    by_cases hset : ∃ e text, i.SetsUp e (Utf8.encode text) tree input
    · obtain ⟨e, text, hset⟩ := hset
      obtain ⟨hchecked, htree⟩ := hchecked hset
      obtain ⟨hexpanded, htree'⟩ := hexpanded hset
      refine ⟨?_, htree, htree'⟩
      calc checked.1.exitCode
        _ = (checkEnding w _ _).exitCode := congrArg Ending.exitCode hchecked
        _ = (strictEnding w _ _).exitCode := (exitCode_strictEnding w _ _ _).symm
        _ = expanded.1.exitCode := (congrArg Ending.exitCode hexpanded).symm
    · obtain ⟨code, hcode⟩ := run_of_not_setsUp (by simpa using hset)
      obtain ⟨hchecked, htree⟩ := hcode w _ _ _ _ hcheck
      obtain ⟨hexpanded, htree'⟩ := hcode w _ _ _ _ hstrict
      exact ⟨hchecked.trans hexpanded.symm, htree, htree'⟩
  refine ⟨hcommon.1, hcommon.2.1, hcommon.2.2, fun e text hset => ?_⟩
  obtain ⟨hchecked, -⟩ := hchecked hset
  obtain ⟨hexpanded, -⟩ := hexpanded hset
  refine ⟨fun fault hfault => ?_, fun warnings hwarnings => ?_⟩
  · rw [hfault] at hchecked hexpanded
    obtain ⟨hcode, houtput, herrors⟩ := Ending.mk.inj hchecked
    obtain ⟨-, houtput', herrors'⟩ := Ending.mk.inj hexpanded
    exact ⟨hcode, houtput, houtput', herrors, herrors'⟩
  · rw [hwarnings] at hchecked hexpanded
    cases warnings with
    | nil =>
      obtain ⟨hcode, -, -⟩ := Ending.mk.inj hchecked
      exact ⟨iff_of_true hcode rfl, fun hne => absurd rfl hne⟩
    | cons first warnings =>
      obtain ⟨hcode, houtput, herrors⟩ := Ending.mk.inj hchecked
      obtain ⟨-, houtput', herrors'⟩ := Ending.mk.inj hexpanded
      refine ⟨iff_of_false (fun h => ?_) (List.cons_ne_nil first warnings), fun _ => ?_⟩
      · rw [hcode] at h
        contradiction
      · exact ⟨hcode, herrors, houtput, houtput', herrors'⟩

/-- Two undefined placeholders, named by a check and by a strict expansion that is quiet. -/
theorem two_undefined_placeholders_are_named :
    let checked := ["--check".toList, "-DB=x".toList, "t".toList]
    let expanded := ["-q".toList, "t".toList, "--strict".toList, "--define".toList, "B=x".toList]
    let environment : Environment := ⟨none, none⟩
    let w : Wording := default
    let template := "%%A%%%%B%%\n!!ifempty: B!!\n%%D%%\n!!endif!!\n%%C%%".toList
    let tree := FileTree.ofFiles ["work".toList] [("t".toList, Utf8.encode template)]
    let i : Invocation := ⟨"t".toList, [], ["B=x".toList], .lf, .check, .normal⟩
    readInvocation checked environment = .ok { i with task := .check } ∧
      readInvocation expanded environment =
        .ok { i with task := .expand none true, verbosity := .quiet } ∧
      (run w checked environment tree []).1.exitCode = 1 ∧
      (run w checked environment tree []).1.output =
        ("Summary: 5 tag references, conditional blocks balanced\n" ++
          "  ✗ 2 undefined placeholder(s)\n    line 1: A\n    line 5: C\n").toList ∧
      (run w expanded environment tree []).1.exitCode = 1 ∧
      (run w expanded environment tree []).1.output = [] ∧
      (run w expanded environment tree []).1.errorLines =
        ["ERROR tag is not defined line=1 tag=A".toList,
          "ERROR tag is not defined line=5 tag=C".toList,
          "Error: 2 undefined tag reference(s), no output written".toList] := by
  intro checked expanded environment w template tree i
  have hcheck : readInvocation checked environment = .ok { i with task := .check } := by
    decide +kernel
  have hstrict : readInvocation expanded environment =
      .ok { i with task := .expand none true, verbosity := .quiet } := by decide +kernel
  let e : Expander := ⟨.insert .empty "B".toList "x".toList, .lf⟩
  have hset : i.SetsUp e (Utf8.encode template) tree [] :=
    ⟨by decide +kernel, ⟨e.tags, rfl, fun _ => rfl⟩, rfl⟩
  have hwarnings : e.check template = .ok [⟨1, "A".toList⟩, ⟨5, "C".toList⟩] := by decide +kernel
  obtain ⟨hcode, -, -, hagree⟩ := check_agrees_with_strict_expansion w hcheck hstrict tree []
  obtain ⟨hone, -, houtput, hnothing, herrors⟩ :=
    ((hagree e template hset).2 _ hwarnings).2 (by simp)
  refine ⟨hcheck, hstrict, hone, houtput.trans ?_, hcode ▸ hone, hnothing, herrors.trans ?_⟩
  · decide +kernel
  · decide +kernel

end LineTemplate.CommandLine
