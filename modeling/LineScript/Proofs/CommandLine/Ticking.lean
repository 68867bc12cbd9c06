import LineScript.CommandLine
import LineScript.Proofs.Session.Stepping

/-!
# Ticking and running at once

With `-s` the command runs its script one statement a tick, and shows every tick. Apart from that
nothing changes: it attempts the same statements, and each of them does what it does without `-s`.

* `launch`: what the command does before the first statement. It does not look at `-s`, and the
  filter of the log decides only which of its lines are written (`launch_eq_of_filter`);
* `attempts`: the statements that the command attempts, in order, with what they did;
* `runScript_ticking`: the two ways of running a script, side by side and **for every filter of the
  log**. Which filter the environment asks for is a matter of the lines that are written, and of
  nothing that is compared here;
* `AddsTicks`: **ticking writes what running at once writes, and a line for a tick after the output
  of each statement**. Standard error and the exit code are the same;
* `parse_cons_step`: `-s` in front of other arguments asks for ticks and for nothing else;
* `run_ticking`: the two ways of running agree, and so do a session that is stepped for a while and
  one that is not.
-/

namespace LineScript.CommandLine

/-! ### The option -/

/-- The options, with ticks asked for. -/
def Options.ticking (o : Options) : Options :=
  { o with step := true }

/-- The arguments, with ticks asked for. -/
def Arguments.ticking (a : Arguments) : Arguments :=
  { a with step := true }

/-- Asking for ticks and filling an option do not meet. -/
@[simp]
theorem Options.fill_ticking (o : Options) (value : String) (slot : Slot) :
    o.ticking.fill value slot = (o.fill value slot).ticking := by
  cases slot <;> rfl

/-- Nor does taking a value. -/
theorem Options.takeValue_ticking (o : Options) (rest : List Char) (slot : Slot) :
    o.ticking.takeValue rest slot =
      ((o.takeValue rest slot).1.ticking, (o.takeValue rest slot).2) := by
  unfold takeValue
  split
  · rfl
  · rw [fill_ticking]

/-- Letters are read as they are without ticks, and the request for ticks stays. -/
theorem readLetters_ticking (o : Options) (letters : List Char) :
    readLetters o.ticking letters = (readLetters o letters).map fun r => (r.1.ticking, r.2) := by
  fun_induction readLetters o letters with
  | case1 o => rfl
  | case2 o rest ih => exact ih
  | case3 o rest ih => exact ih
  | case4 o rest ih => exact ih
  | case5 o rest => exact congrArg Except.ok (o.takeValue_ticking rest .root)
  | case6 o rest => exact congrArg Except.ok (o.takeValue_ticking rest .properties)
  | case7 o letter rest h_d h_x h_s h_L h_p =>
    rw [readLetters]
    · rfl
    all_goals assumption

/-- Ticks that were asked for change nothing about how the other arguments are read. -/
theorem readArguments_ticking (o : Options) (awaited : Option Slot)
    (positional arguments : List String) :
    readArguments o.ticking awaited positional arguments =
      (readArguments o awaited positional arguments).map fun r => (r.1.ticking, r.2) := by
  induction arguments generalizing o awaited positional with
  | nil => cases awaited <;> rfl
  | cons argument rest ih =>
    cases awaited with
    | some slot =>
      rw [readArguments, readArguments, Options.fill_ticking]
      exact ih _ _ _
    | none =>
      rw [readArguments, readArguments]
      -- what kind of argument it is depends on its text alone, so both readings take the same case
      split
      · rfl
      · split
        · rw [readLetters_ticking]
          cases readLetters o _ with
          | error e => rfl
          | ok r => exact ih _ _ _
        · exact ih _ _ _

/-- `-s` in front of other arguments asks for ticks and does nothing else. -/
theorem parse_cons_step (arguments : List String) :
    Arguments.parse ("-s" :: arguments) = (Arguments.parse arguments).map Arguments.ticking := by
  have h_first : readArguments {} none [] ("-s" :: arguments) =
      readArguments (Options.ticking {}) none [] arguments := by
    rw [readArguments]
    rfl
  rw [Arguments.parse, Arguments.parse, h_first, readArguments_ticking]
  cases readArguments {} none [] arguments with
  | error e => rfl
  | ok r =>
    obtain ⟨o, positional⟩ := r
    match positional with
    | [] => rfl
    | [script] => rfl
    | _ :: _ :: _ => rfl

/-! ### Before the first statement -/

/-- Reads the properties and starts the script: the session with it, and the lines written
meanwhile. -/
def launch (w : World) (a : Arguments) (filter : Log.Filter) :
    Except Error (Session (CommandTable String)) × List Output :=
  match loadProperties w filter (openSession a) a.properties with
  | .error e => (.error e, [])
  | .ok (session, warnings) =>
    let started := session.start (host w (w.scriptRoot a.root)) a.script
    (started.result.map fun _ => started.session,
      warnings ++ log filter (.reading (Path.join (w.scriptRoot a.root) a.script)) ++
        started.events.flatMap (write filter))

/-- Running a script is starting it and then driving it, and only the second part looks at `-s`. -/
theorem runScript_eq_launch (w : World) (a : Arguments) (filter : Log.Filter) :
    runScript w a filter =
      match launch w a filter with
      | (.error e, lines) => (.error e, lines)
      | (.ok s, lines) =>
        let driven := drive (host w (w.scriptRoot a.root)) a.step s
        (driven.result, lines ++ driven.events.flatMap (write filter)) := by
  unfold runScript launch
  cases loadProperties w filter (openSession a) a.properties with
  | error e => rfl
  | ok loaded =>
    dsimp only
    cases (loaded.1.start (host w (w.scriptRoot a.root)) a.script).result with
    | error e => rfl
    | ok _ => rfl

/-- The filter decides which lines are written, not how the script starts. -/
theorem launch_eq_of_filter (w : World) (a : Arguments) (filter filter' : Log.Filter) :
    (launch w a filter).1 = (launch w a filter').1 := by
  -- only the log lines for bad properties are filtered, and they stand beside the session
  unfold launch loadProperties
  cases a.properties with
  | none => rfl
  | some file =>
    dsimp only
    cases w.readText file with
    | error reason => rfl
    | ok text => rfl

/-- A script that was started is the current run, and nothing of it was carried out. -/
theorem exists_current_of_launch {w : World} {a : Arguments} {filter : Log.Filter}
    {s : Session (CommandTable String)} (h : (launch w a filter).1 = .ok s) :
    ∃ statements scope policy, s.current = some (Run.ofStatements statements scope policy) := by
  unfold launch at h
  cases h_loaded : loadProperties w filter (openSession a) a.properties with
  | error e =>
    rw [h_loaded] at h
    cases h
  | ok loaded =>
    rw [h_loaded] at h
    dsimp only at h
    cases h_result : (loaded.1.start (host w (w.scriptRoot a.root)) a.script).result with
    | error e =>
      rw [h_result] at h
      cases h
    | ok _ =>
      rw [h_result] at h
      cases h
      exact Session.exists_current_of_start h_result

/-! ### Statement by statement -/

/-- The statements that the command attempts, in order, with what they did. If the script cannot be
started there are none. -/
def attempts (w : World) (a : Arguments) : List (Advance (CommandTable String) String) :=
  match (launch w a (logFilter w a.debug)).1 with
  | .error _ => []
  | .ok s => s.current.elim [] fun r => r.attempts CommandTable.dispatch s.state

/-- What the statements write that the command attempts, under a filter of the log. -/
def statementOutputs (w : World) (a : Arguments) (filter : Log.Filter) : List (List Output) :=
  (attempts w a).map fun attempt => attempt.events.flatMap (write filter)

/-- Outputs with a line for a tick after each. Ticks are counted from one. -/
def withTicks (outputs : List (List Output)) : List Output :=
  (outputs.zipIdx 1).flatMap fun (output, k) => output ++ [.out ("-- tick " ++ k.repr)]

/-- The exit code for a result. -/
def exitCode : Except Error Report → Nat
  | .error _ => 1
  | .ok report => if report.isClean then 0 else 1

/-- The last lines about a result. -/
def farewell : Except Error Report → List Output
  | .error e => [complain e.message]
  | .ok report => if report.isClean then [] else summary report

/-- What a command with good arguments comes to: the lines of the script, and the last lines about
its result. -/
theorem run_of_parse (w : World) {arguments : List String} {a : Arguments}
    (h : Arguments.parse arguments = .ok a) :
    run w arguments =
      { code := exitCode (runScript w a (logFilter w a.debug)).1
        output := (runScript w a (logFilter w a.debug)).2 ++
          farewell (runScript w a (logFilter w a.debug)).1 } := by
  rw [run, h]
  dsimp only
  cases (runScript w a (logFilter w a.debug)).1 with
  | error e => rfl
  | ok report =>
    unfold exitCode farewell
    dsimp only
    split
    · rw [List.append_nil]
    · rfl

/-- The lines on standard error. -/
def errorLines (output : List Output) : List String :=
  output.filterMap fun
    | .err line => some line
    | .out _ => none

/-- Lines are written one after the other. -/
theorem errorLines_append (output more : List Output) :
    errorLines (output ++ more) = errorLines output ++ errorLines more :=
  List.filterMap_append

/-- How a run with ticks differs from a run at once. -/
structure AddsTicks (w : World) (a : Arguments) (batch ticking : Outcome) : Prop where
  /-- The exit code is the same. -/
  code_eq : ticking.code = batch.code
  /-- So is what is written to standard error. -/
  errorLines_eq : errorLines ticking.output = errorLines batch.output
  /-- A line for a tick comes after the output of each statement. -/
  output_eq : ∃ opening closing,
    batch.output = opening ++ (statementOutputs w a (logFilter w a.debug)).flatten ++ closing ∧
    ticking.output = opening ++ withTicks (statementOutputs w a (logFilter w a.debug)) ++ closing
  /-- There are as many ticks as the report has statements. -/
  length_attempts : ∀ report, (runScript w a (logFilter w a.debug)).1 = .ok report →
    (attempts w a).length = report.executed + report.failures.length
  /-- Handlers and the fallback do the same, statement by statement. -/
  events_eq : ∀ s, (launch w a (logFilter w a.debug)).1 = .ok s → ∃ report,
    (drive (host w (w.scriptRoot a.root)) false s).events =
      (attempts w a).flatMap Advance.events ++ [.finished report] ∧
    (drive (host w (w.scriptRoot a.root)) true s).events =
      ((attempts w a).zipIdx 1).flatMap (fun (attempt, k) => attempt.events ++ [tick k]) ++
        [.finished report]

/-- Ticks go to standard output. -/
theorem errorLines_withTicks (outputs : List (List Output)) :
    errorLines (withTicks outputs) = errorLines outputs.flatten := by
  unfold withTicks
  -- the numbers of the ticks do not matter, and have to be free for the induction
  generalize 1 = first
  induction outputs generalizing first with
  | nil => rfl
  | cons output outputs ih =>
    rw [List.zipIdx_cons, List.flatMap_cons, List.flatten_cons, errorLines_append,
      errorLines_append, errorLines_append, ih]
    exact congrArg (· ++ _) (List.append_nil _)

/-- The lines of statements with a tick after each. -/
theorem flatMap_write_ticks (filter : Log.Filter)
    (attempts : List (Advance (CommandTable String) String)) :
    ((attempts.zipIdx 1).flatMap fun (attempt, k) => attempt.events ++ [tick k]).flatMap
        (write filter) =
      withTicks (attempts.map fun attempt => attempt.events.flatMap (write filter)) := by
  rw [withTicks, List.zipIdx_map, List.flatMap_assoc, List.flatMap_map]
  simp [write, tick]

/-- The lines of statements without ticks. -/
theorem flatMap_write_events (filter : Log.Filter)
    (attempts : List (Advance (CommandTable String) String)) :
    (attempts.flatMap Advance.events).flatMap (write filter) =
      (attempts.map fun attempt => attempt.events.flatMap (write filter)).flatten := by
  rw [List.flatMap_assoc, List.flatMap_def]

/-- What is driven, with ticks and without, once the script has started. -/
theorem drive_eq_attempts {w : World} {a : Arguments} {filter : Log.Filter}
    {s : Session (CommandTable String)} (h : (launch w a filter).1 = .ok s) :
    ∃ report : Report, (attempts w a).length = report.executed + report.failures.length ∧
      (drive (host w (w.scriptRoot a.root)) false s).result = .ok report ∧
      (drive (host w (w.scriptRoot a.root)) true s).result = .ok report ∧
      (drive (host w (w.scriptRoot a.root)) false s).events =
        (attempts w a).flatMap Advance.events ++ [.finished report] ∧
      (drive (host w (w.scriptRoot a.root)) true s).events =
        ((attempts w a).zipIdx 1).flatMap (fun (attempt, k) => attempt.events ++ [tick k]) ++
          [.finished report] := by
  obtain ⟨statements, scope, policy, h_current⟩ := exists_current_of_launch h
  have h_attempts : attempts w a =
      (Run.ofStatements statements scope policy).attempts CommandTable.dispatch s.state := by
    rw [attempts, launch_eq_of_filter w a _ filter, h]
    dsimp only
    rw [h_current]
    rfl
  have h_batch := s.finish_of_current (host w (w.scriptRoot a.root)) h_current
  have h_ticking :=
    s.tickThrough_andThen_finish (host w (w.scriptRoot a.root)) h_current tick
  -- both ways of driving report on the same statements, the attempted ones
  have h_length := (Run.finish_eq_attempts CommandTable.dispatch
    (Run.ofStatements statements scope policy) s.state).2.1
  rw [h_attempts, drive, drive, if_neg Bool.false_ne_true, if_pos rfl, h_batch, h_ticking]
  refine ⟨_, ?_, rfl, rfl, rfl, rfl⟩
  -- nothing was attempted before the start
  exact (h_length.trans (Nat.zero_add _)).symm

/-- **Under every filter of the log the script comes to the same result with ticks and without**,
and its lines are those of the statements. -/
theorem runScript_ticking {w : World} {a : Arguments} (filter : Log.Filter)
    (h_step : a.step = false) :
    ∃ result opening closing,
      runScript w a filter =
        (result, opening ++ (statementOutputs w a filter).flatten ++ closing) ∧
      runScript w a.ticking filter =
        (result, opening ++ withTicks (statementOutputs w a filter) ++ closing) ∧
      ∀ report, result = .ok report →
        (attempts w a).length = report.executed + report.failures.length := by
  have h_batch := runScript_eq_launch w a filter
  have h_ticking : runScript w a.ticking filter = _ := runScript_eq_launch w a.ticking filter
  have h_launch : launch w a.ticking filter = launch w a filter := rfl
  rw [h_launch] at h_ticking
  rw [h_batch, h_ticking]
  cases h : launch w a filter with
  | mk started lines =>
    have h_started : (launch w a filter).1 = started := congrArg Prod.fst h
    cases started with
    | error e =>
      -- a script that does not start attempts nothing, so there is nothing to tick
      have h_none : attempts w a = [] := by
        rw [attempts, launch_eq_of_filter w a _ filter, h_started]
      refine ⟨.error e, lines, [], ?_, ?_, ?_⟩
      · simp [statementOutputs, h_none]
      · simp [statementOutputs, h_none, withTicks]
      · rintro report ⟨⟩
    | ok s =>
      obtain ⟨report, h_length, h_result, h_result', h_events, h_events'⟩ :=
        drive_eq_attempts h_started
      -- the lines before the first statement and those after the last are the same in both
      refine ⟨.ok report, lines, write filter (.finished report), ?_, ?_, ?_⟩
      · rw [h_step]
        dsimp only
        rw [h_result, h_events, List.flatMap_append, flatMap_write_events, ← List.append_assoc,
          List.flatMap_singleton]
        rfl
      · change ((drive (host w (w.scriptRoot a.root)) true s).result,
          lines ++ (drive (host w (w.scriptRoot a.root)) true s).events.flatMap _) = _
        rw [h_result', h_events', List.flatMap_append, flatMap_write_ticks, ← List.append_assoc,
          List.flatMap_singleton]
        rfl
      · rintro _ ⟨⟩
        exact h_length

/-- Two command lines that differ in `-s` only. -/
theorem addsTicks (w : World) {batch ticking : List String} {a : Arguments}
    (h_batch : Arguments.parse batch = .ok a) (h_step : a.step = false)
    (h_ticking : Arguments.parse ticking = .ok a.ticking) :
    AddsTicks w a (run w batch) (run w ticking) := by
  obtain ⟨result, opening, closing, h_at_once, h_ticked, h_length⟩ :=
    runScript_ticking (w := w) (logFilter w a.debug) h_step
  have h_run := run_of_parse w h_batch
  have h_run' : run w ticking =
      { code := exitCode (runScript w a.ticking (logFilter w a.debug)).1
        output := (runScript w a.ticking (logFilter w a.debug)).2 ++
          farewell (runScript w a.ticking (logFilter w a.debug)).1 } := run_of_parse w h_ticking
  rw [h_at_once] at h_run
  rw [h_ticked] at h_run'
  refine ⟨?_, ?_, ⟨opening, closing ++ farewell result, ?_, ?_⟩, ?_, ?_⟩
  · rw [h_run, h_run']
  · rw [h_run, h_run']
    simp only [errorLines_append, errorLines_withTicks]
  · rw [h_run]
    exact List.append_assoc _ _ _
  · rw [h_run']
    exact List.append_assoc _ _ _
  · intro report h_report
    rw [h_at_once] at h_report
    exact h_length report h_report
  · intro s h_launch
    obtain ⟨report, -, -, -, h_events, h_events'⟩ := drive_eq_attempts h_launch
    exact ⟨report, h_events, h_events'⟩

/-- **The two ways of running agree.** Whatever files and variables there are, `-s` in front of
arguments that do not ask for ticks adds the ticks and changes nothing else; nor does it matter
where among the arguments it stands. And however often a session is stepped before it is finished,
it gives the same report and leaves the dispatcher in the same state. -/
theorem run_ticking (w : World) {arguments : List String}
    (h : ∀ a, Arguments.parse arguments = .ok a → a.step = false) :
    (∀ e, Arguments.parse arguments = .error e → run w ("-s" :: arguments) = run w arguments) ∧
    (∀ a, Arguments.parse arguments = .ok a →
      AddsTicks w a (run w arguments) (run w ("-s" :: arguments)) ∧
      ∀ ticking, Arguments.parse ticking = .ok a.ticking →
        run w ticking = run w ("-s" :: arguments)) ∧
    ∀ (δ ε : Type) (h : Host δ ε) (s : Session δ) (k : Nat),
      ((s.stepped h k).finish h).result = (s.finish h).result ∧
        ((s.stepped h k).finish h).session = (s.finish h).session := by
  refine ⟨?_, ?_, fun _ _ host s k => s.finish_stepped host k⟩
  · intro e h_error
    rw [run, run, parse_cons_step, h_error]
    rfl
  · intro a h_ok
    have h_step : Arguments.parse ("-s" :: arguments) = .ok a.ticking := by
      rw [parse_cons_step, h_ok]
      rfl
    refine ⟨addsTicks w h_ok (h a h_ok) h_step, ?_⟩
    intro ticking h_ticking
    rw [run, run, h_ticking, h_step]

/-- A world in which every file holds a command and an assignment that fails. -/
def shoutingWorld : World where
  environment _ := none
  readText _ := .ok "shout\nx = nope"
  isDirectory _ := false

/-- The fallback answers the command, and the assignment that fails ends the run. -/
theorem run_ticking_shouting :
    Arguments.parse ["-x", "demo"] = .ok { abortOnError := true, script := "demo" } ∧
      AddsTicks shoutingWorld { abortOnError := true, script := "demo" }
        (run shoutingWorld ["-x", "demo"]) (run shoutingWorld ["-s", "-x", "demo"]) := by
  have h_parse : Arguments.parse ["-x", "demo"] =
      .ok { abortOnError := true, script := "demo" } := rfl
  have h_step : ∀ a, Arguments.parse ["-x", "demo"] = .ok a → a.step = false := by
    intro a h_a
    rw [h_parse] at h_a
    cases h_a
    rfl
  exact ⟨h_parse, ((run_ticking shoutingWorld h_step).2.1 _ h_parse).1⟩

end LineScript.CommandLine
