import RobotBench.Proofs.Json.Document
import RobotBench.Proofs.SimulatedWorld
import RobotBench.Proofs.Splicing
import RobotBench.Report

/-!
# What a report says

The text of a report is read back as a document that says of a run what was the case, whether
it succeeded or failed and wherever it failed: `Report.Describes` lists it, and
`report_describes_run` is about every program, all markers and every run.
-/

namespace RobotBench

/-- The value of a field of an object. -/
def Json.field? (key : String) : Json → Option Json
  | .object fields => Table.lookup key fields
  | _ => none

/-! ## Tables as objects -/

namespace Report

/-- The fields that a table is shown as. -/
def tableFields {α : Type} (write : α → Json) (t : Table α) : List (String × Json) :=
  t.entries.map fun entry => (entry.1, (write entry.2).shown)

variable {α : Type} (write : α → Json) (t : Table α)

theorem table_shown : (table write t).shown = .object (tableFields write t) := by
  rw [table, Json.shown, Json.shown_fields_eq, List.map_map]
  rfl

theorem table_fields_names : (tableFields write t).map Prod.fst = t.names := by
  rw [tableFields, List.map_map]
  rfl

theorem lookup_table_fields (name : String) :
    Table.lookup name (tableFields write t) = (t.find? name).map fun a => (write a).shown :=
  Table.lookup_map (fun a => (write a).shown) name t.entries

/-! ## What is to be told -/

/-- The document says of a run what was the case: which program was run and how its lines
divide, whether the run succeeded and with what messages it failed, what the robot was told how
often, what became of it, and which names were bound to what. -/
structure Describes (source target : String) (result : Except TrialFault Unit)
    (machine : Machine (Bench Simulator)) (told : List Command) (report : Json) : Prop where
  keys : ∃ fields, report = .object fields ∧ (fields.map Prod.fst).Nodup
  target : report.field? "target" = some (.text target)
  succeeded : report.field? "succeeded" = some (.bool result.isOk)
  error_iff : (report.field? "error").isSome = true ↔
    report.field? "succeeded" = some (.bool false)
  error : ∀ fault, result = .error fault →
    report.field? "error" = some (.text (": ".intercalate fault.messages))
  lines : ∃ count, report.field? "payload_lines" = some (.natural count) ∧
    (report.field? "cut_index" = some .null ∧ 0 + count = (Program.ofText source).lineCount ∨
      ∃ index, report.field? "cut_index" = some (.natural index) ∧
        index + 1 + count = (Program.ofText source).lineCount)
  calls : ∃ fields, report.field? "calls" = some (.object fields) ∧
    (fields.map Prod.fst).Pairwise (· < ·) ∧
    ∀ name, Table.lookup name fields =
      if told.countP (·.name = name) = 0 then none
      else some (.natural (told.countP (·.name = name)))
  situation : ∃ final, report.field? "final_state" = some final ∧
    final.field? "grasped" = some (.bool machine.world.robot.situation.grasped) ∧
    final.field? "pending_arrival" = some (.bool machine.world.robot.situation.pendingArrival)
  bindings : ∃ fields, report.field? "variables" = some (.object fields) ∧
    (fields.map Prod.fst).Pairwise (· < ·) ∧
    (∀ name, name ∈ fields.map Prod.fst ↔ machine.names.values.contains name = true) ∧
    (∀ name value, machine.names.values.find? name = some value →
      Table.lookup name fields = some value.document.shown) ∧
    (∀ name s, machine.names.values.find? name = some (.text s) →
      Table.lookup name fields = some (.text s)) ∧
    ∀ name o, machine.names.values.find? name = some (.observation o) →
      ∃ seen, (Table.lookup name fields).bind (Json.field? "detections") = some (.array seen) ∧
        seen.map (Json.field? "label") = o.detections.map fun d => some (.text d.label)
  procedures : ∃ names : List String, report.field? "procedures" = some (.array (names.map .text)) ∧
    names.Pairwise (· < ·) ∧
    ∀ name, name ∈ names ↔ machine.names.procedures.contains name = true

/-! ## What is told -/

/-- The fields of a report as they are read. -/
def readFields (target : String) (payload : Payload) (result : Except TrialFault Unit)
    (machine : Machine (Bench Simulator)) : List (String × Json) :=
  [("schema_version", .natural schema), ("target", .text target),
    ("cut_index", match payload.cutIndex with
      | some k => .natural k
      | none => .null),
    ("payload_lines", .natural payload.lineCount)] ++
  outcome result ++
  [("final_state", situation machine.world.robot.situation),
    ("calls", .object (tableFields .natural machine.world.robot.calls)),
    ("variables", .object (tableFields Value.document machine.names.values)),
    ("procedures", .array (machine.names.procedures.names.map .text))]

theorem document_shown (target : String) (payload : Payload) (result : Except TrialFault Unit)
    (machine : Machine (Bench Simulator)) :
    (document target payload result machine).shown =
      .object (readFields target payload result machine) := by
  have houtcome : (outcome result).map (fun field => (field.1, field.2.shown)) =
      outcome result := by
    cases result <;> rfl
  have hnames : (Json.array (machine.names.procedures.names.map .text)).shown =
      .array (machine.names.procedures.names.map .text) := by
    rw [Json.shown, Json.shown_items_eq, List.map_map]
    rfl
  rw [document, Json.shown, Json.shown_fields_eq, List.map_append, List.map_append, houtcome]
  simp only [List.map_cons, List.map_nil, hnames, table_shown]
  obtain ⟨cutIndex, firstLine, text⟩ := payload
  cases cutIndex <;> rfl

section

variable (target : String) (payload : Payload) (result : Except TrialFault Unit)
  (machine : Machine (Bench Simulator))

theorem field_of_read (key : String) :
    (Json.object (readFields target payload result machine)).field? key =
      Table.lookup key (readFields target payload result machine) := rfl

theorem read_fields_keys : ((readFields target payload result machine).map Prod.fst).Nodup := by
  cases result <;> simp [readFields, outcome]

/-- The fields of a report, by their keys. -/
theorem read_fields_lookup :
    let fields := readFields target payload result machine
    Table.lookup "target" fields = some (.text target) ∧
    Table.lookup "cut_index" fields = some (match payload.cutIndex with
      | some k => .natural k
      | none => .null) ∧
    Table.lookup "payload_lines" fields = some (.natural payload.lineCount) ∧
    Table.lookup "succeeded" fields = some (.bool result.isOk) ∧
    Table.lookup "error" fields = (match result with
      | .ok () => none
      | .error fault => some (.text (joined fault.messages))) ∧
    Table.lookup "final_state" fields = some (situation machine.world.robot.situation) ∧
    Table.lookup "calls" fields =
      some (.object (tableFields .natural machine.world.robot.calls)) ∧
    Table.lookup "variables" fields =
      some (.object (tableFields Value.document machine.names.values)) ∧
    Table.lookup "procedures" fields =
      some (.array (machine.names.procedures.names.map .text)) := by
  cases result <;> simp [readFields, outcome, Table.lookup, Except.isOk, Except.toBool]

/-- The lines of a program are those before its payload and those of its payload. -/
theorem line_count_eq (m : Markers) (source : String) :
    (Program.ofText source).start m + ((Program.ofText source).payload m).lineCount =
      (Program.ofText source).lineCount := by
  have hle := Program.start_le m (Program.ofText source)
  have hcount : (Program.ofText source).lineCount = (Text.pieces source.toList).length := rfl
  rw [Program.ofText] at hle
  rw [hcount, Payload.lineCount, Text.lines, Program.pieces_payload, List.length_map,
    List.length_drop]
  exact Nat.add_sub_cancel' hle

/-- The labels of what was seen are read one by one. -/
theorem labels_read (o : Observation) :
    ∃ seen, o.document.shown.field? "detections" = some (.array seen) ∧
      seen.map (Json.field? "label") = o.detections.map fun d => some (.text d.label) := by
  refine ⟨Json.shownItems (o.detections.map Detection.document), ?_, ?_⟩
  · rw [Observation.document, Json.shown, Json.shown_fields_eq]
    rfl
  · rw [Json.shown_items_eq, List.map_map, List.map_map]
    refine List.map_congr_left fun d _ => ?_
    rw [Function.comp, Function.comp, Detection.document, Json.shown, Json.shown_fields_eq]
    rfl

end

/-- A report describes the run of its payload when its robot counted what it was told. -/
theorem describes_read (m : Markers) (source target : String) (result : Except TrialFault Unit)
    {machine : Machine (Bench Simulator)} {told : List Command}
    (hcalls : ∀ name, machine.world.robot.calls.find? name =
      if told.countP (·.name = name) = 0 then none else some (told.countP (·.name = name))) :
    Describes source target result machine told
      (.object (readFields target ((Program.ofText source).payload m) result machine)) := by
  have hcount := line_count_eq m source
  -- of the payload only its cut and its length matter from here on, and these are tied to the text
  -- by `hcount` and `hstart`
  have hstart : (Program.ofText source).start m =
      ((Program.ofText source).payload m).cutIndex.elim 0 (· + 1) := by
    rw [Program.start, Program.first_line_eq]
    show _ = ((Program.ofText source).lastMarker? m).elim 0 (· + 1)
    cases (Program.ofText source).lastMarker? m <;> rfl
  generalize (Program.ofText source).payload m = payload at hcount hstart
  obtain ⟨htarget, hcut, hlines, hsucceeded, herror, hsituation, hcallsField, hvariables,
    hprocedures⟩ := read_fields_lookup target payload result machine
  constructor
  case keys => exact ⟨_, rfl, read_fields_keys target payload result machine⟩
  case target => exact htarget
  case succeeded => exact hsucceeded
  case error_iff =>
    rw [field_of_read, field_of_read, herror, hsucceeded]
    cases result <;> simp [Except.isOk, Except.toBool]
  case error =>
    rintro fault rfl
    exact herror
  case lines =>
    refine ⟨payload.lineCount, hlines, ?_⟩
    rw [field_of_read, hcut]
    cases hindex : payload.cutIndex with
    | none =>
        rw [hindex] at hstart
        refine .inl ⟨rfl, ?_⟩
        rw [← hcount, hstart]
        rfl
    | some index =>
        rw [hindex] at hstart
        refine .inr ⟨index, rfl, ?_⟩
        rw [← hcount, hstart]
        rfl
  case calls =>
    refine ⟨_, hcallsField, ?_, fun name => ?_⟩
    · rw [table_fields_names]
      exact machine.world.robot.calls.sorted
    · rw [lookup_table_fields, hcalls]
      split <;> rfl
  case situation =>
    exact ⟨_, hsituation, rfl, rfl⟩
  case bindings =>
    have hlookup {name : String} {value : Value}
        (h : machine.names.values.find? name = some value) :
        Table.lookup name (tableFields Value.document machine.names.values) =
          some value.document.shown := by
      rw [lookup_table_fields, h, Option.map_some]
    refine ⟨_, hvariables, ?_, fun name => ?_, fun name value => hlookup, fun name s => hlookup,
      fun name o h => ?_⟩
    · rw [table_fields_names]
      exact machine.names.values.sorted
    · rw [table_fields_names]
      exact Table.mem_names_iff
    · rw [hlookup h]
      exact labels_read o
  case procedures =>
    exact ⟨_, hprocedures, machine.names.procedures.sorted, fun name => Table.mem_names_iff⟩

theorem transcript_commands {σ : Type} (robot : Robot σ) (s : σ) (commands : List Command) :
    (robot.transcript s commands).map Sigma.fst = commands := by
  induction commands generalizing s with
  | nil => rfl
  | cons c more ih => rw [Robot.transcript, List.map_cons, ih]

/-- A report describes a run with a transcript by the commands in there. -/
theorem describes_told (m : Markers) (source target : String) (result : Except TrialFault Unit)
    {seed : UInt64} {machine : Machine (Bench (Simulator × List Exchange))}
    (h : Simulator.robot.Told (.ofSeed seed) machine.world) :
    Describes source target result (machine.project (Bench.withRobot Prod.fst))
      (machine.world.robot.2.map Sigma.fst)
      (.object (readFields target ((Program.ofText source).payload m) result
        (machine.project (Bench.withRobot Prod.fst)))) := by
  obtain ⟨commands, htold⟩ := h
  refine describes_read m source target result fun name => ?_
  have hrobot : (machine.project (Bench.withRobot Prod.fst)).world.robot =
      machine.world.robot.1 := rfl
  rw [hrobot, htold, transcript_commands, Simulator.after_calls]

end Report

/-- Every program with any markers is run, or fails to run, as the report of the run says. The
text of the report is a JSON text; read back, it describes how the run ended, and it counts what
the robot was told, which a robot with a transcript notes down. Nothing depends on where the
script prints to. -/
theorem report_describes_run (m : Markers) (source target : String) (seed : UInt64)
    (maxSteps : Option Nat) (entryPoint : Option String) (sink : Sink) :
    let payload := (Program.ofText source).payload m
    let run := Trial.run Simulator.robot maxSteps entryPoint payload ⟨.ofSeed seed, sink⟩
    let heard := Trial.run Simulator.robot.transcribed maxSteps entryPoint payload
      ⟨(.ofSeed seed, []), sink⟩
    run = (heard.1, heard.2.project (Bench.withRobot Prod.fst)) ∧
      ∃ report,
        Json.read (Report.text target payload run.1 run.2).toUTF8.data.toList = .ok report ∧
        Report.Describes source target run.1 run.2
          (heard.2.world.robot.2.map Sigma.fst) report := by
  intro payload
  have htrial := transcribed_trial Simulator.robot maxSteps entryPoint payload (.ofSeed seed) sink
  -- nothing else is used of the two runs
  generalize Trial.run Simulator.robot maxSteps entryPoint payload ⟨.ofSeed seed, sink⟩ = run
    at htrial ⊢
  generalize Trial.run Simulator.robot.transcribed maxSteps entryPoint payload
    ⟨(.ofSeed seed, []), sink⟩ = heard at htrial ⊢
  obtain ⟨rfl, htold⟩ := htrial
  refine ⟨rfl, _, Json.read_pretty _, ?_⟩
  rw [Report.document_shown]
  exact Report.describes_told m source target heard.1 htold

end RobotBench
