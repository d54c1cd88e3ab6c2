import RobotBench.Proofs.CommandLine.Notices
import RobotBench.Proofs.CommandLine.Stages
import RobotBench.Proofs.Config.ReadBack
import RobotBench.Proofs.Pattern
import RobotBench.Proofs.Report

/-!
# What a run promises

A run that cleans up nothing and has a seed depends on its files and its command line alone.
`run_contract` says for all of them what settings it has, when it succeeds, what it prints, what
report it leaves behind and which of two failures it shows. Whether the pattern of the markers
compiles is left to the compiler. `large_marker_is_refused` has settings that pass all checks and
whose pattern is too large for one.
-/

namespace RobotBench

/-- A trial does not fail without a message. -/
theorem TrialFault.messages_ne_nil (fault : TrialFault) : fault.messages ≠ [] := by
  cases fault with
  | unreadable fault => exact List.cons_ne_nil _ _
  | faulted fault => exact List.append_ne_nil_of_right_ne_nil _ (List.cons_ne_nil _ _)
  | endless => exact List.cons_ne_nil _ _

namespace CommandLine

/-- The trial of a control program under settings. -/
def trialOf (c : Config) (source : String) (seed : UInt64) :
    Except TrialFault Unit × Machine (Bench Simulator) :=
  Trial.simulate seed c.maxSteps c.entryPoint (payloadOf c source)

/-- The report of that trial. -/
def reportOf (c : Config) (source : String) (seed : UInt64) : String :=
  Report.text c.target (payloadOf c source) (trialOf c source seed).1 (trialOf c source seed).2

/-- The report of a trial is a document that says whether the trial succeeded. -/
theorem report_of_reads (c : Config) (source : String) (seed : UInt64) :
    ∃ report, Json.read (reportOf c source seed).toUTF8.data.toList = .ok report ∧
      (report.field? "succeeded" = some (.bool true) ↔ (trialOf c source seed).1 = .ok ()) := by
  refine ⟨_, Json.read_pretty _, ?_⟩
  rw [Report.document_shown, Report.field_of_read]
  generalize trialOf c source seed = run
  obtain ⟨result, machine⟩ := run
  obtain ⟨-, -, -, hsucceeded, -⟩ :=
    Report.read_fields_lookup c.target (payloadOf c source) result machine
  rw [hsucceeded]
  cases result <;> simp [Except.isOk, Except.toBool]

section

variable {around : Surroundings (StateM Tree)} {t : Tree} {o : RunOptions}

/-- What becomes of the report that a run is asked for. -/
def reported (around : Surroundings (StateM Tree)) (t : Tree) (o : RunOptions) (text : String) :
    Except Messages Unit × Tree :=
  match o.report with
  | none => (.ok (), t)
  | some path => (writeReport around path text).run t

/-- How a run ends: as its payload does, or else as the writing of the report does. -/
def outcomeOf (result : Except TrialFault Unit) (written : Except Messages Unit) :
    Except Messages Unit :=
  match result with
  | .error fault => .error fault.messages
  | .ok () => written

/-- A payload is run, and its report is written whatever became of it. -/
theorem run_payload_with {c : Config} {payload : Payload} {seed : UInt64}
    (hseed : c.seed = some seed) {result : Except TrialFault Unit}
    {machine : Machine (Bench Simulator)}
    (hrun : Trial.simulate seed c.maxSteps c.entryPoint payload = (result, machine)) :
    runPayload around o c payload t =
      let written := reported around t o
        (Report.text c.target payload result machine)
      ((machine.world.sink.bytes, outcomeOf result written.1), written.2) := by
  simp only [runPayload, hseed, pure_bind, hrun, reported]
  cases o.report with
  | none => cases result <;> rfl
  | some path => cases result <;> rfl

/-- What a run shows that has run its payload. -/
def shownOf (output : ByteArray) : Except Messages Unit → Shown
  | .ok () => ⟨0, output, ""⟩
  | .error messages => ⟨1, output, failureNotice messages⟩

/-- A run shows why its preparation fails. -/
theorem run_command_failed {messages : Messages}
    (h : (preparation around o).Yields t (.error messages) t) :
    runCommand around o t = (⟨1, .empty, failureNotice messages⟩, t) := by
  rw [run_command_eq]
  show StateT.bind (preparation _ o).run _ t = _
  rw [StateT.bind, h]
  rfl

/-- A run that does not come to its payload prints nothing and writes nothing. -/
theorem run_command_stopped (hfiles : around.files = Tree.files)
    (hquiet : IsQuiet t around.directory o)
    (h : ∀ c source, ¬ Launches around.compile t around.directory o c source) :
    ∃ messages, messages ≠ [] ∧
      runCommand around o t = (⟨1, .empty, failureNotice messages⟩, t) := by
  obtain ⟨messages, hmessages, hprepare⟩ := preparation_error hfiles hquiet h
  exact ⟨messages, hmessages, run_command_failed hprepare⟩

/-- A run that comes to its payload shows what that printed and how it ended. -/
theorem run_command_launched (hfiles : around.files = Tree.files)
    (hquiet : IsQuiet t around.directory o) {c : Config} {source : String}
    (h : Launches around.compile t around.directory o c source) {seed : UInt64}
    (hseed : c.seed = some seed) {result : Except TrialFault Unit}
    {machine : Machine (Bench Simulator)} (hrun : trialOf c source seed = (result, machine)) :
    runCommand around o t =
      let written := reported around t o
        (Report.text c.target (payloadOf c source) result machine)
      (shownOf machine.world.sink.bytes (outcomeOf result written.1), written.2) := by
  have hprepare := preparation_ok hfiles hquiet h
  have hpayload : runPayload around o c (payloadOf c source) t = _ := run_payload_with hseed hrun
  rw [run_command_eq]
  show StateT.bind (preparation _ o).run _ t = _
  rw [StateT.bind, hprepare]
  show StateT.bind (runPayload _ o c (payloadOf c source)) _ t = _
  rw [StateT.bind, hpayload]
  dsimp only
  cases outcomeOf result _ <;> rfl

/-- A run that is asked for no report writes none. -/
theorem reported_none (h : o.report = none) (text : String) :
    reported around t o text = (.ok (), t) := by
  rw [reported, h]

/-- A report whose path can be written is written. -/
theorem reported_ok (hfiles : around.files = Tree.files) {path : String}
    (h : o.report = some path) (hpath : t.Writable path) (text : String) :
    ∃ t', reported around t o text = (.ok (), t') ∧ t'.read path = .ok text.toUTF8 := by
  rw [reported, h]
  exact write_report_ok hfiles hpath text

/-- A report whose path cannot be written is a failure with messages. -/
theorem reported_error (hfiles : around.files = Tree.files) {path : String}
    (h : o.report = some path) (hpath : ¬ t.Writable path) (text : String) :
    ∃ messages t', messages ≠ [] ∧ reported around t o text = (.error messages, t') := by
  obtain ⟨t', messages, hmessages, hfails⟩ := write_report_error hfiles hpath text
  rw [reported, h]
  exact ⟨messages, t', hmessages, hfails⟩

/-- A report is written exactly if the run is asked for none or its path can be written. -/
theorem reported_ok_iff (hfiles : around.files = Tree.files) (text : String) :
    (reported around t o text).1 = .ok () ↔ ∀ path, o.report = some path → t.Writable path := by
  cases hreport : o.report with
  | none =>
      rw [reported_none hreport]
      exact ⟨fun _ _ h => (nomatch h), fun _ => rfl⟩
  | some path =>
      by_cases hpath : t.Writable path
      · obtain ⟨t', hwritten, -⟩ := reported_ok hfiles hreport hpath text
        rw [hwritten]
        exact ⟨fun _ _ h => Option.some.inj h ▸ hpath, fun _ => rfl⟩
      · obtain ⟨messages, t', -, hfailed⟩ := reported_error hfiles hreport hpath text
        rw [hfailed]
        exact ⟨fun h => (nomatch h), fun h => absurd (h path rfl) hpath⟩

/-- A run does not fail without a message. -/
theorem outcome_messages (hfiles : around.files = Tree.files) {result : Except TrialFault Unit}
    {text : String} {messages : Messages}
    (h : outcomeOf result (reported around t o text).1 = .error messages) : messages ≠ [] := by
  cases result with
  | error fault => exact Except.error.inj h ▸ fault.messages_ne_nil
  | ok _ =>
      have hreported : (reported around t o text).1 = .error messages := h
      cases hreport : o.report with
      | none =>
          rw [reported_none hreport] at hreported
          cases hreported
      | some path =>
          by_cases hpath : t.Writable path
          · obtain ⟨t', hwritten, -⟩ := reported_ok hfiles hreport hpath text
            rw [hwritten] at hreported
            cases hreported
          · obtain ⟨others, t', hothers, hfailed⟩ := reported_error hfiles hreport hpath text
            rw [hfailed] at hreported
            exact Except.error.inj hreported ▸ hothers

/-- A run ends with zero exactly if it succeeds. -/
theorem exit_of_shown (output : ByteArray) (outcome : Except Messages Unit) :
    (shownOf output outcome).exit = 0 ↔ outcome = .ok () := by
  cases outcome with
  | ok _ => exact ⟨fun _ => rfl, fun _ => rfl⟩
  | error messages => exact ⟨fun h => absurd h (by decide : ¬ (1 : UInt32) = 0), fun h => nomatch h⟩

/-- A run succeeds exactly if its payload does and its report is written. -/
theorem outcome_of_ok_iff {result : Except TrialFault Unit} {written : Except Messages Unit} :
    outcomeOf result written = .ok () ↔ result = .ok () ∧ written = .ok () := by
  cases result with
  | ok _ => exact ⟨fun h => ⟨rfl, h⟩, fun h => h.2⟩
  | error fault => exact ⟨fun h => (nomatch h), fun h => (nomatch h.1)⟩

/-! ## The contract -/

/-- What a run delivers that comes to its payload: what the payload printed, nothing but the
report that it is asked for if its path can be written, and a notice exactly when it fails, which
is that of the payload if the payload fails, whatever becomes of the report. -/
structure Delivers (t : Tree) (o : RunOptions)
    (run : Except TrialFault Unit × Machine (Bench Simulator)) (text : String) (shown : Shown)
    (t' : Tree) : Prop where
  output : shown.output = run.2.world.sink.bytes
  exit_iff : shown.exit = 0 ↔ run.1 = .ok () ∧ ∀ path, o.report = some path → t.Writable path
  unasked : o.report = none → t' = t
  written : ∀ path, o.report = some path → t.Writable path → t'.read path = .ok text.toUTF8
  report : ∃ report, Json.read text.toUTF8.data.toList = .ok report ∧
    (report.field? "succeeded" = some (.bool true) ↔ run.1 = .ok ())
  silent : shown.exit = 0 → shown.notice = ""
  failed : shown.exit ≠ 0 → ∃ messages, IsNotice messages shown.notice
  notice : ∀ fault, run.1 = .error fault → IsNotice fault.messages shown.notice

/-- What is shown of a payload and its report is what a run delivers. -/
theorem shown_delivers (hfiles : around.files = Tree.files)
    (run : Except TrialFault Unit × Machine (Bench Simulator)) {text : String}
    (hreads : ∃ report, Json.read text.toUTF8.data.toList = .ok report ∧
      (report.field? "succeeded" = some (.bool true) ↔ run.1 = .ok ())) :
    Delivers t o run text
      (shownOf run.2.world.sink.bytes (outcomeOf run.1 (reported around t o text).1))
      (reported around t o text).2 := by
  constructor
  case output => cases outcomeOf run.1 (reported around t o text).1 <;> rfl
  case exit_iff => rw [exit_of_shown, outcome_of_ok_iff, reported_ok_iff hfiles]
  case unasked =>
    intro hnone
    rw [reported_none hnone]
  case written =>
    intro path hpath hwritable
    obtain ⟨t', hwritten, hread⟩ := reported_ok hfiles hpath hwritable text
    rw [hwritten]
    exact hread
  case report => exact hreads
  case silent =>
    intro hexit
    rw [(exit_of_shown _ _).1 hexit]
    rfl
  case failed =>
    intro hexit
    cases houtcome : outcomeOf run.1 (reported around t o text).1 with
    | ok _ => exact absurd ((exit_of_shown _ _).2 houtcome) hexit
    | error messages =>
        exact ⟨messages, is_notice_iff.2 ⟨outcome_messages hfiles houtcome, rfl⟩⟩
  case notice =>
    intro fault hfault
    rw [hfault]
    exact is_notice_iff.2 ⟨fault.messages_ne_nil, rfl⟩

/-- A run that comes to its payload delivers. -/
theorem run_command_delivers (hfiles : around.files = Tree.files)
    (hquiet : IsQuiet t around.directory o) {c : Config} {source : String}
    (h : Launches around.compile t around.directory o c source) {seed : UInt64}
    (hseed : c.seed = some seed) :
    Delivers t o (trialOf c source seed) (reportOf c source seed) (runCommand around o t).1
      (runCommand around o t).2 := by
  have hreads := report_of_reads c source seed
  have hshown (run) (hrun : trialOf c source seed = run) :=
    run_command_launched hfiles hquiet h hseed (hrun.trans Prod.mk.eta.symm)
  rw [reportOf] at hreads ⊢
  generalize trialOf c source seed = run at hreads hshown ⊢
  rw [hshown run rfl]
  exact shown_delivers hfiles run hreads

/-- A command line that reads as a run is one. -/
theorem perform_run {words : List String} (h : read words = some (.run o)) :
    perform around words t = (some (runCommand around o t).1, (runCommand around o t).2) := by
  rw [perform, h]
  rfl

end

/-- A run that has no process to clean up and a seed to run with depends on nothing but its files
and its command line. Its settings are those that it finds, with what the command line sets. It
succeeds exactly if everything before the payload passes, the payload runs to its end and the
report that it is asked for can be written. When something before the payload fails, it prints
nothing, leaves the files alone and shows why. Otherwise it prints what the payload prints, a
report whose path can be written is written and says whether the payload succeeded, and the failure
of the payload is the one that is shown. After the settings have passed, markers are refused
exactly if their pattern does not compile. -/
theorem run_contract {words : List String} {o : RunOptions} (hread : read words = some (.run o))
    {t : Tree} {directory : String} (hquiet : IsQuiet t directory o)
    (hseed : ∀ found, Config.found t o.source.config directory = .ok found →
      (o.override found).seed ≠ none)
    (cleanUp : String → UInt64 → StateM Tree (Except (List String) (List Int)))
    (chance : StateM Tree UInt64) (compile : Pattern.Compiler) :
    ∃ shown t',
      perform ⟨Tree.files, directory, cleanUp, chance, compile⟩ words t = (some shown, t') ∧
      (shown.exit = 0 ↔ ∃ c source seed, Launches compile t directory o c source ∧
        c.seed = some seed ∧ (trialOf c source seed).1 = .ok () ∧
        ∀ path, o.report = some path → t.Writable path) ∧
      ((∀ c source, ¬ Launches compile t directory o c source) →
        shown.output = .empty ∧ t' = t ∧ ∃ messages, IsNotice messages shown.notice) ∧
      (∀ c source seed, Launches compile t directory o c source → c.seed = some seed →
        Delivers t o (trialOf c source seed) (reportOf c source seed) shown t') ∧
      ∀ c : Config, c.check = .ok () → Markers.ofList c.markers compile =
        ((compile (Pattern.anyOf c.markers)).mapError .badPattern).map fun _ => ⟨c.markers⟩ := by
  obtain ⟨around, haround⟩ : ∃ around : Surroundings (StateM Tree),
      ⟨Tree.files, directory, cleanUp, chance, compile⟩ = around := ⟨_, rfl⟩
  have hfiles : around.files = Tree.files := by rw [← haround]
  obtain rfl : around.directory = directory := by rw [← haround]
  obtain rfl : around.compile = compile := by rw [← haround]
  rw [haround]
  have hdelivers {c : Config} {source : String} {seed : UInt64}
      (h : Launches around.compile t around.directory o c source) (hc : c.seed = some seed) :
      Delivers t o (trialOf c source seed) (reportOf c source seed) (runCommand around o t).1
        (runCommand around o t).2 :=
    run_command_delivers hfiles hquiet h hc
  refine ⟨_, _, perform_run hread, ⟨fun hexit => ?_, fun h => ?_⟩, fun hnone => ?_,
    fun c source seed h hc => hdelivers h hc, fun c hc => Config.markers_of_check hc _⟩
  · -- a run that ends with zero has come to its payload, for one that is stopped ends with one
    by_cases hlaunch : ∃ c source, Launches around.compile t around.directory o c source
    · obtain ⟨c, source, h⟩ := hlaunch
      obtain ⟨found, hfound, rfl⟩ := h.settings
      obtain ⟨seed, hc⟩ := Option.ne_none_iff_exists'.1 (hseed found hfound)
      exact ⟨_, source, seed, h, hc, (hdelivers h hc).exit_iff.1 hexit⟩
    · obtain ⟨messages, -, hstopped⟩ := run_command_stopped hfiles hquiet
        fun c source h => hlaunch ⟨c, source, h⟩
      rw [hstopped] at hexit
      exact absurd hexit (by decide : ¬ (1 : UInt32) = 0)
  · obtain ⟨c, source, seed, hlaunch, hc, hrun, hwritable⟩ := h
    exact (hdelivers hlaunch hc).exit_iff.2 ⟨hrun, hwritable⟩
  · obtain ⟨messages, hmessages, hstopped⟩ := run_command_stopped hfiles hquiet hnone
    rw [hstopped]
    exact ⟨rfl, rfl, messages, is_notice_iff.2 ⟨hmessages, rfl⟩⟩

/-- A payload with an open quote, a seed on the command line, and a report in a directory that is
not there yet. -/
theorem run_contract_open_quote :
    ∃ shown t', perform ⟨Tree.files, "/", fun _ _ => pure (.ok []), pure 7, Pattern.bounded⟩
        ["run", "--skip-cleanup", "--seed", "3", "--report", "out/report.json"]
        ⟨[(["transbot.ctl"], .file "import x\nsay 'it".toUTF8)], []⟩ = (some shown, t') ∧
      shown.exit ≠ 0 ∧
      shown.notice = "Error: parse payload\n\nCaused by:\n    0: line 2: tokenize\n" ++
        "    1: missing closing quote\n" ∧
      ∃ (text : String) (report : Json), t'.read "out/report.json" = .ok text.toUTF8 ∧
        Json.read text.toUTF8.data.toList = .ok report ∧
        report.field? "succeeded" ≠ some (.bool true) := by
  have htarget : (⟨[(["transbot.ctl"], .file "import x\nsay 'it".toUTF8)], []⟩ : Tree).read
      "transbot.ctl" = .ok "import x\nsay 'it".toUTF8 := by rfl
  have hcut : (Program.ofText "import x\nsay 'it").payload ⟨["import"]⟩ =
      ⟨some 0, 2, "say 'it"⟩ := by rfl
  have hparse : Script.ofText "say 'it" 2 = .error ⟨2, .unclosedQuote⟩ := by rfl
  let t : Tree := ⟨[(["transbot.ctl"], .file "import x\nsay 'it".toUTF8)], []⟩
  let o : RunOptions := { seed := some 3, skipCleanup := true, report := some "out/report.json" }
  have hread : read ["run", "--skip-cleanup", "--seed", "3", "--report", "out/report.json"] =
      some (.run o) := by decide +kernel
  have hquiet : IsQuiet t "/" o := fun _ _ => .inl rfl
  have hlaunch : Launches Pattern.bounded t "/" o (o.override Config.standard)
      "import x\nsay 'it" :=
    ⟨⟨_, rfl, rfl⟩, by decide, by decide, _, htarget, dif_pos "import x\nsay 'it".isValidUTF8⟩
  have hwritable : t.Writable "out/report.json" := ⟨_, .empty, _, rfl, rfl⟩
  have hrun : (trialOf (o.override Config.standard) "import x\nsay 'it" 3).1 =
      .error (.unreadable ⟨2, .unclosedQuote⟩) := by
    have hpayload : payloadOf (o.override Config.standard) "import x\nsay 'it" =
        ⟨some 0, 2, "say 'it"⟩ := hcut
    rw [trialOf, hpayload, Trial.simulate, Trial.run, hparse]
  obtain ⟨shown, t', hperform, -, -, hdelivers, -⟩ := run_contract hread hquiet
    (fun _ _ => Option.some_ne_none 3) (fun _ _ => pure (.ok [])) (pure 7) Pattern.bounded
  have h := hdelivers _ "import x\nsay 'it" 3 hlaunch rfl
  obtain ⟨report, hreport, hsucceeded⟩ := h.report
  have htext : failureNotice (TrialFault.unreadable ⟨2, .unclosedQuote⟩).messages =
      "Error: parse payload\n\nCaused by:\n    0: line 2: tokenize\n" ++
        "    1: missing closing quote\n" := by decide +kernel
  have hnotice := (is_notice_iff.1 (h.notice _ hrun)).2.trans htext
  refine ⟨shown, t', hperform, fun hexit => ?_, hnotice, _, report,
    h.written _ rfl hwritable, hreport, fun htrue => ?_⟩
  · have hok := (h.exit_iff.1 hexit).1
    rw [hrun] at hok
    cases hok
  · have hok := hsucceeded.1 htrue
    rw [hrun] at hok
    cases hok

/-! ## A marker that is refused -/

/-- A run whose settings pass all checks shows why the pattern of their markers is refused. -/
theorem perform_refused {around : Surroundings (StateM Tree)} {words : List String}
    {o : RunOptions} (hwords : read words = some (.run o)) {t : Tree}
    (hfiles : around.files = Tree.files) (hquiet : IsQuiet t around.directory o) {found : Config}
    (hfound : Config.found t o.source.config around.directory = .ok found)
    (hcheck : (o.override found).check = .ok ()) {cause : String}
    (hcompile : around.compile (Pattern.anyOf (o.override found).markers) = .error cause) :
    perform around words t =
      (some ⟨1, .empty, failureNotice ["compile import marker pattern", cause]⟩, t) := by
  have hfailed : runCommand around o t =
      (⟨1, .empty, failureNotice ["compile import marker pattern", cause]⟩, t) :=
    run_command_failed (preparation_refused hfiles hquiet hfound hcheck hcompile)
  rw [perform_run hwords, hfailed]

/-- Standard settings with another marker pass all checks unless it is blank. -/
theorem marker_check {marker : String} (hblank : Text.allBlank marker = false)
    (seed : Option UInt64) :
    { Config.standard with markers := [marker], seed }.check = .ok () := by
  have hengine : (some "NAR").filter (fun name => !Config.isBareName name) = none := by decide
  simp [Config.check, Config.fault?, Config.standard, hblank, hengine]

/-- Settings that pass all checks are found in the standard file that holds their text. -/
theorem found_in_file {t : Tree} {directory : String} {c : Config} (hcheck : c.check = .ok ())
    (hfile : t.isFile (Config.standardPath directory) = true)
    (hread : t.read (Config.standardPath directory) = .ok c.text.toUTF8) :
    Config.found t none directory = .ok c := by
  rw [Config.found, if_pos hfile, Config.inFile, hread]
  dsimp only
  rw [Config.ofDocument, Config.read_text]
  dsimp only
  rw [hcheck]

/-- A program that lacks a letter of each marker is all payload. -/
theorem payload_of_lacking {c : Config} {source : String}
    (h : ∀ marker ∈ c.markers, ∃ letter ∈ marker.toList, letter ∉ source.toList) :
    payloadOf c source = ⟨none, 1, source⟩ := by
  refine Program.payload_unmarked ⟨c.markers⟩ fun line hline => ?_
  rw [← Bool.not_eq_true, Markers.match_chars_iff]
  rintro ⟨marker, hmarker, hpart⟩
  obtain ⟨letter, hletter, hlacking⟩ := h marker hmarker
  have hflat := Text.flatten_pieces source.toList
  exact hlacking (hflat ▸ List.mem_flatten.2 ⟨line, hline, hpart.subset hletter⟩)

/-- Whatever the seed, a program that only stops the robot runs to its end. -/
theorem trial_stop {c : Config}
    (hlacking : ∀ marker ∈ c.markers, ∃ letter ∈ marker.toList, letter ∉ "stop\n".toList)
    (hsteps : c.maxSteps = none) (hentry : c.entryPoint = none) (seed : UInt64) :
    (trialOf c "stop\n" seed).1 = .ok () := by
  rw [trialOf, payload_of_lacking hlacking, hsteps, hentry]
  rfl

/-- Half a million letters are a marker that passes all checks and is refused all the same, for a
program that would run to its end. -/
theorem large_marker_is_refused :
    let c : Config :=
      { Config.standard with markers := [String.ofList (List.replicate 500000 'a')] }
    let t : Tree :=
      ⟨[(["mockbot.json"], .file c.text.toUTF8), (["transbot.ctl"], .file "stop\n".toUTF8)], []⟩
    Config.found t none "/" = .ok c ∧ { c with seed := some 3 }.check = .ok () ∧
      t.read c.target = .ok "stop\n".toUTF8 ∧
      (trialOf { c with seed := some 3 } "stop\n" 3).1 = .ok () ∧
      Markers.ofList c.markers Pattern.bounded =
        .error (.badPattern "Compiled regex exceeds size limit of 10485760 bytes.") ∧
      perform ⟨Tree.files, "/", fun _ _ => pure (.ok []), pure 7, Pattern.bounded⟩
        ["run", "--skip-cleanup", "--seed", "3"] t =
        (some ⟨1, .empty, "Error: compile import marker pattern\n\nCaused by:\n    " ++
          "Compiled regex exceeds size limit of 10485760 bytes.\n"⟩, t) := by
  -- of the marker only these three facts are used
  obtain ⟨marker, hmarker⟩ : ∃ marker, marker = String.ofList (List.replicate 500000 'a') :=
    ⟨_, rfl⟩
  have hblank : Text.allBlank marker = false := by
    rw [hmarker, Text.allBlank, String.toList_ofList, List.all_replicate]
    decide
  have hbytes : marker.utf8ByteSize = 500000 := by
    rw [hmarker, Pattern.bytes_replicate]
    rfl
  have hfront : marker.toList.head? = some 'a' := by
    rw [hmarker, String.toList_ofList, List.head?_replicate]
    rfl
  rw [← hmarker]
  clear hmarker
  have hfiles (settings program : ByteArray) :
      let t : Tree := ⟨[(["mockbot.json"], .file settings), (["transbot.ctl"], .file program)], []⟩
      t.isFile (Config.standardPath "/") = true ∧
        t.read (Config.standardPath "/") = .ok settings ∧ t.read "transbot.ctl" = .ok program :=
    ⟨by rfl, by rfl, by rfl⟩
  intro c t
  obtain ⟨hfile, hsettings, hprogram⟩ := hfiles c.text.toUTF8 "stop\n".toUTF8
  have hfound : Config.found t none "/" = .ok c :=
    found_in_file (marker_check hblank none) hfile hsettings
  have hcheck : { c with seed := some 3 }.check = .ok () := marker_check hblank (some 3)
  have hcompile : Pattern.bounded (Pattern.anyOf c.markers) =
      .error "Compiled regex exceeds size limit of 10485760 bytes." := by
    refine Pattern.bounded_any_of_error ?_
    rw [String.join_cons, String.join_nil, String.append_empty, hbytes]
    decide
  have hmarkers : Markers.ofList c.markers Pattern.bounded =
      .error (.badPattern "Compiled regex exceeds size limit of 10485760 bytes.") := by
    rw [Config.markers_of_check (marker_check hblank none), hcompile]
    rfl
  have hlacking : ∀ other ∈ [marker], ∃ letter ∈ other.toList, letter ∉ "stop\n".toList :=
    List.forall_mem_singleton.2 ⟨'a', List.mem_of_mem_head? hfront, by decide⟩
  refine ⟨hfound, hcheck, hprogram, trial_stop hlacking rfl rfl 3, hmarkers, ?_⟩
  clear_value c t
  have hwords : read ["run", "--skip-cleanup", "--seed", "3"] =
      some (.run { seed := some 3, skipCleanup := true }) := by decide +kernel
  have hnotice : failureNotice ["compile import marker pattern",
        "Compiled regex exceeds size limit of 10485760 bytes."] =
      "Error: compile import marker pattern\n\nCaused by:\n    " ++
        "Compiled regex exceeds size limit of 10485760 bytes.\n" := by decide +kernel
  rw [← hnotice]
  exact @perform_refused ⟨Tree.files, "/", fun _ _ => pure (.ok []), pure 7, Pattern.bounded⟩
    _ _ hwords t rfl (fun _ _ => .inl rfl) c hfound hcheck _ hcompile

end CommandLine

end RobotBench
