import RobotBench.Script.Document
import RobotBench.Trial

/-!
# Reports

The report of a trial as a JSON document: what was run, how it ended, and what it left
behind on the simulated robot and in the names of the script.
-/

namespace RobotBench

namespace Report

/-- The version of reports. -/
def schema : Nat := 1

/-- Messages of a chain in one line. -/
def joined (messages : List String) : String := ": ".intercalate messages

/-- The situation of the simulated robot as a document. -/
def situation (s : Situation) : Json :=
  .object [("grasped", .bool s.grasped), ("pending_arrival", .bool s.pendingArrival)]

/-- A table as an object with a field for each binding. -/
def table {α : Type} (write : α → Json) (t : Table α) : Json :=
  .object (t.entries.map fun (key, value) => (key, write value))

/-- Whether the trial succeeded, and the chain of messages if it did not. -/
def outcome : Except TrialFault Unit → List (String × Json)
  | .ok () => [("succeeded", .bool true)]
  | .error fault =>
    [("succeeded", .bool false), ("error", .text (joined fault.messages))]

/-- The report of a trial. -/
def document (target : String) (payload : Payload) (result : Except TrialFault Unit)
    (machine : Machine (Bench Simulator)) : Json :=
  .object ([("schema_version", .natural schema), ("target", .text target),
      ("cut_index", match payload.cutIndex with
        | some k => .natural k
        | none => .null),
      ("payload_lines", .natural payload.lineCount)] ++
    outcome result ++
    [("final_state", situation machine.world.robot.situation),
      ("calls", table .natural machine.world.robot.calls),
      ("variables", table Value.document machine.names.values),
      ("procedures", .array (machine.names.procedures.names.map .text))])

/-- The text of a report. -/
def text (target : String) (payload : Payload) (result : Except TrialFault Unit)
    (machine : Machine (Bench Simulator)) : String :=
  (document target payload result machine).pretty

end Report

end RobotBench
