import RobotBench.Proofs.Script.Arguments
import RobotBench.Proofs.SimulatedWorld

/-!
# Calls of robot operations

Which command the arguments of an operation make, said without the checks: `Command.MadeBy`.
The checks find exactly this command (`Binding.reader_iff`), so that a call of an operation
either tells the robot this one command and gives its answer, or leaves the robot alone:
`operations_all_or_nothing`. For a drive `drive_arguments_exact` says in full which arguments
are accepted and what they come to.
-/

namespace RobotBench

/-! ## Commands and what they are made from -/

/-- The command has no parameters. -/
def Command.IsBare : Command → Prop
  | goTo _ => False
  | showFrame _ => False
  | waitKey _ => False
  | _ => True

/-- The text of the frame that a call of `go_to` names, or that of the map. -/
def Arguments.frameText (a : Arguments) : String :=
  match a.keyword.find? "frame", a.keyword.find? "frame_id", a.positional[4]? with
  | some frame, _, _ => frame.render
  | .none, some frame, _ => frame.render
  | .none, .none, some frame => frame.render
  | .none, .none, .none => "map"

/-- The arguments of a call of `go_to` name the goal. -/
structure Goal.NamedBy (goal : Goal) (a : Arguments) : Prop where
  fits : a.Fits 5 ["x", "y", "z", "w", "frame", "frame_id"]
  x : a.Supplies 0 "x" goal.x
  y : a.Supplies 1 "y" goal.y
  z : a.SuppliesOr 2 "z" 0 goal.z
  w : a.SuppliesOr 3 "w" 1 goal.w
  frame : goal.frame = a.frameText

/-- A call of the command's operation with the arguments is a call for the command. -/
inductive Command.MadeBy (a : Arguments) : Command → Prop
  | bare {c : Command} : c.IsBare → a.Fits 0 [] → MadeBy a c
  | goTo {goal : Goal} : goal.NamedBy a → MadeBy a (.goTo goal)
  | showFrame {window : String} : a.Fits 2 ["window", "frame"] →
      window = (a.given? 0 "window").elim "" Value.render → MadeBy a (.showFrame window)
  | waitKey {delay : Number} : a.Fits 1 ["delay"] → a.SuppliesOr 0 "delay" 0 delay →
      delay.isFinite → MadeBy a (.waitKey (.ofInt delay.truncate))

/-- The value tells the answer to the command: what a sensor reported, how the gripper closed
or which key was pressed, and nothing for the commands that only act. -/
inductive Command.Tells : (c : Command) → c.Answer → Value → Prop
  | observation (o : Observation) : Tells .detectObjects o (.observation o)
  | pose (p : Pose) : Tells .getPose p (.pose p)
  | collision (c : Collision) : Tells .getCollision c (.collision c)
  | grip (closed : Bool) : Tells .closeGripper closed (.bool closed)
  | key (delay key : Int64) : Tells (.waitKey delay) key (.number (.ofInt key.toInt))
  | move (motion : Motion) (done : Unit) : Tells (.move motion) done .nil
  | drop (done : Unit) : Tells .drop done .nil
  | goTo (goal : Goal) (done : Unit) : Tells (.goTo goal) done .nil
  | showFrame (window : String) (done : Unit) : Tells (.showFrame window) done .nil

namespace Binding

/-! ## The checks of each operation -/

section

variable {a : Arguments} {c : Command} {name : String}

/-- The frame of a drive is looked up under its place and its names; without one it is the map. -/
theorem get_frame (a : Arguments) :
    ((a.get? 4 ["frame", "frame_id"]).map Value.render).getD mapFrame = a.frameText := by
  rw [Arguments.get?, Arguments.frameText, List.findSome?_cons, List.findSome?_cons,
    List.findSome?_nil]
  cases a.keyword.find? "frame" with
  | some frame => rfl
  | none =>
      cases a.keyword.find? "frame_id" with
      | some frame => rfl
      | none => cases a.positional[4]? <;> rfl

/-- A drive is made exactly from the goal that the arguments name. -/
theorem go_to_iff : goTo a = .ok c ↔ ∃ goal : Goal, c = .goTo goal ∧ goal.NamedBy a := by
  simp only [goTo, get_frame, Except.bind_eq_ok_iff, Arguments.number_iff,
    Arguments.number_default_iff]
  constructor
  · rintro ⟨⟨⟩, hfits, x, hx, y, hy, z, hz, w, hw, h⟩
    cases h
    exact ⟨⟨x, y, z, w, a.frameText⟩, rfl, Arguments.expect_at_most_iff.1 hfits, hx, hy, hz, hw,
      rfl⟩
  · rintro ⟨⟨x, y, z, w, frame⟩, rfl, hfits, hx, hy, hz, hw, hframe⟩
    obtain rfl : frame = a.frameText := hframe
    exact ⟨(), Arguments.expect_at_most_iff.2 hfits, x, hx, y, hy, z, hz, w, hw, rfl⟩

/-- A window is shown under the name that is given, or under an empty one. -/
theorem show_frame_iff : showFrame a = .ok c ↔ a.Fits 2 ["window", "frame"] ∧
    c = .showFrame ((a.given? 0 "window").elim "" Value.render) := by
  have hwindow : ((a.given? 0 "window").map Value.render).getD "" =
      (a.given? 0 "window").elim "" Value.render := by
    cases a.given? 0 "window" <;> rfl
  simp only [showFrame, Arguments.get_single, hwindow, Except.bind_eq_ok_iff]
  constructor
  · rintro ⟨⟨⟩, hfits, h⟩
    cases h
    exact ⟨Arguments.expect_at_most_iff.1 hfits, rfl⟩
  · rintro ⟨hfits, rfl⟩
    exact ⟨(), Arguments.expect_at_most_iff.2 hfits, rfl⟩

/-- The delay of a key is a finite number, cut to a whole one. -/
theorem wait_key_iff : waitKey a = .ok c ↔ ∃ delay : Number, a.Fits 1 ["delay"] ∧
    a.SuppliesOr 0 "delay" 0 delay ∧ delay.isFinite ∧ c = .waitKey (.ofInt delay.truncate) := by
  simp only [waitKey, Except.bind_eq_ok_iff, Arguments.number_default_iff]
  constructor
  · rintro ⟨⟨⟩, hfits, delay, hdelay, h⟩
    split at h
    · rename_i hfinite
      cases h
      exact ⟨delay, Arguments.expect_at_most_iff.1 hfits, hdelay, hfinite, rfl⟩
    · cases h
  · rintro ⟨delay, hfits, hdelay, hfinite, rfl⟩
    exact ⟨(), Arguments.expect_at_most_iff.2 hfits, delay, hdelay, if_pos hfinite⟩

/-! ## All operations -/

/-- The table of commands without parameters lists all of them. -/
theorem mem_bare_iff : c ∈ bare ↔ c.IsBare := by
  cases c with
  | move motion => cases motion <;> simp [bare, Command.IsBare]
  | _ => simp [bare, Command.IsBare]

/-- A command without parameters is found under its own name only. -/
theorem find_bare_iff : (bare.find? fun c => c.name = name) = some c ↔
    c.IsBare ∧ c.name = name := by
  constructor
  · intro h
    exact ⟨mem_bare_iff.1 (List.mem_of_find?_eq_some h), by simpa using List.find?_some h⟩
  · rintro ⟨hbare, rfl⟩
    cases c with
    | move motion => cases motion <;> decide
    | goTo | showFrame | waitKey => exact False.elim hbare
    | _ => decide

/-- A command without data is read from no arguments. -/
theorem reader_bare (hbare : c.IsBare) :
    reader? c.name = some fun a => (a.expectNone c.name).map fun _ => c := by
  rw [reader?, find_bare_iff.2 ⟨hbare, rfl⟩]

theorem reader_go_to : reader? "go_to" = some goTo := rfl

theorem reader_show_frame : reader? "show_frame" = some showFrame := rfl

theorem reader_wait_key : reader? "wait_key" = some waitKey := rfl

/-- What reads the arguments of an operation is that of a command without parameters, or one
of the three readers. -/
theorem reader_cases {read : Arguments → Except Cause Command} (h : reader? name = some read) :
    (∃ c : Command, c.IsBare ∧ c.name = name ∧
        read = fun a => (a.expectNone name).map fun _ => c) ∨
      (name = "go_to" ∧ read = goTo) ∨ (name = "show_frame" ∧ read = showFrame) ∨
      (name = "wait_key" ∧ read = waitKey) := by
  rw [reader?] at h
  split at h
  · rename_i c hfind
    obtain ⟨hbare, hname⟩ := find_bare_iff.1 hfind
    exact .inl ⟨c, hbare, hname, (Option.some.inj h).symm⟩
  · split at h
    · rename_i hname
      exact .inr (.inl ⟨hname, (Option.some.inj h).symm⟩)
    · split at h
      · rename_i hname
        exact .inr (.inr (.inl ⟨hname, (Option.some.inj h).symm⟩))
      · split at h
        · rename_i hname
          exact .inr (.inr (.inr ⟨hname, (Option.some.inj h).symm⟩))
        · cases h

/-- The list of names is that of the commands without parameters, and then the three others. -/
theorem names_eq : names = bare.map Command.name ++ ["go_to", "show_frame", "wait_key"] := rfl

/-- The names of the operations are those under which arguments are read. -/
theorem reader_some_iff : (∃ read, reader? name = some read) ↔ name ∈ names := by
  rw [names_eq]
  constructor
  · rintro ⟨read, h⟩
    rcases reader_cases h with ⟨c, hbare, rfl, -⟩ | ⟨rfl, -⟩ | ⟨rfl, -⟩ | ⟨rfl, -⟩
    · exact List.mem_append_left _ (List.mem_map_of_mem (mem_bare_iff.2 hbare))
    · decide
    · decide
    · decide
  · intro h
    rcases List.mem_append.1 h with h | h
    · obtain ⟨c, hc, rfl⟩ := List.mem_map.1 h
      exact ⟨_, reader_bare (mem_bare_iff.1 hc)⟩
    · simp only [List.mem_cons, List.not_mem_nil, or_false] at h
      rcases h with rfl | rfl | rfl
      · exact ⟨goTo, reader_go_to⟩
      · exact ⟨showFrame, reader_show_frame⟩
      · exact ⟨waitKey, reader_wait_key⟩

/-- Reading arguments finds exactly the command that a call of the operation with them is a
call for. -/
theorem reader_iff {read : Arguments → Except Cause Command} (h : reader? name = some read) :
    read a = .ok c ↔ c.name = name ∧ c.MadeBy a := by
  constructor
  · intro hread
    rcases reader_cases h with ⟨d, hbare, rfl, rfl⟩ | ⟨rfl, rfl⟩ | ⟨rfl, rfl⟩ | ⟨rfl, rfl⟩
    · obtain ⟨⟨⟩, hnone, rfl⟩ := map_ok_iff.1 hread
      exact ⟨rfl, .bare hbare (Arguments.expect_none_iff.1 hnone)⟩
    · obtain ⟨goal, rfl, hnamed⟩ := go_to_iff.1 hread
      exact ⟨rfl, .goTo hnamed⟩
    · obtain ⟨hfits, rfl⟩ := show_frame_iff.1 hread
      exact ⟨rfl, .showFrame hfits rfl⟩
    · obtain ⟨delay, hfits, hdelay, hfinite, rfl⟩ := wait_key_iff.1 hread
      exact ⟨rfl, .waitKey hfits hdelay hfinite⟩
  · rintro ⟨rfl, hmade⟩
    cases hmade with
    | bare hbare hfits =>
        obtain rfl := Option.some.inj ((reader_bare hbare).symm.trans h)
        exact map_ok_iff.2 ⟨(), Arguments.expect_none_iff.2 hfits, rfl⟩
    | goTo hnamed =>
        obtain rfl := Option.some.inj (reader_go_to.symm.trans h)
        exact go_to_iff.2 ⟨_, rfl, hnamed⟩
    | showFrame hfits hwindow =>
        obtain rfl := Option.some.inj (reader_show_frame.symm.trans h)
        exact show_frame_iff.2 ⟨hfits, congrArg _ hwindow⟩
    | waitKey hfits hdelay hfinite =>
        obtain rfl := Option.some.inj (reader_wait_key.symm.trans h)
        exact wait_key_iff.2 ⟨_, hfits, hdelay, hfinite, rfl⟩

/-- The value of an operation tells the robot's answer. -/
theorem wrap_tells (c : Command) (answer : c.Answer) : c.Tells answer (wrap c answer) := by
  cases c with
  | detectObjects => exact .observation answer
  | getPose => exact .pose answer
  | getCollision => exact .collision answer
  | move motion => exact .move motion answer
  | closeGripper => exact .grip answer
  | drop => exact .drop answer
  | goTo goal => exact .goTo goal answer
  | showFrame window => exact .showFrame window answer
  | waitKey delay => exact .key delay answer

end

/-! ## Calls -/

section

variable {σ : Type} (robot : Robot σ) (s : σ) (told : List Command) {name : String}
  {a : Arguments}

/-- What a call of an operation gives, with the robot afterwards and all commands that it was
told; nothing when there is no operation of the name. -/
def call? (robot : Robot σ) (name : String) (a : Arguments) (s : σ) (told : List Command) :
    Option (Except Cause Value × σ × List Command) :=
  (operation? robot.recorded name).map fun act => act a (s, told)

/-- A name that is no operation of the robot is not called. -/
theorem call_none (h : name ∉ names) : call? robot name a s told = none := by
  have hread : reader? name = none :=
    Option.eq_none_iff_forall_ne_some.2 fun read hread => h (reader_some_iff.1 ⟨read, hread⟩)
  rw [call?, operation?, hread]
  rfl

/-- A call that is refused leaves the robot as it is and tells it nothing. -/
theorem call_refused {read : Arguments → Except Cause Command} (h : reader? name = some read)
    {cause : Cause} (hread : read a = .error cause) :
    call? robot name a s told = some (.error cause, s, told) := by
  rw [call?, operation?, h]
  show some (run robot.recorded read a (s, told)) = _
  rw [run, hread]

/-- A call that is accepted is a single command. -/
theorem call_made {c : Command} (hmade : c.MadeBy a) : call? robot c.name a s told =
    some (.ok (wrap c (robot.perform c s).1), (robot.perform c s).2, told ++ [c]) := by
  have hname : c.name ∈ names := by
    rw [names_eq]
    cases hmade with
    | bare hbare _ => exact List.mem_append_left _ (List.mem_map_of_mem (mem_bare_iff.2 hbare))
    | goTo | showFrame | waitKey => exact List.mem_append_right _ (by simp [Command.name])
  obtain ⟨read, h⟩ := reader_some_iff.2 hname
  have hread : read a = .ok c := (reader_iff h).2 ⟨rfl, hmade⟩
  rw [call?, operation?, h]
  show some (run robot.recorded read a (s, told)) = _
  rw [run, hread]
  rfl

end

end Binding

/-- What a call of a robot operation comes to is settled before the robot is asked for
anything, for all robots alike. If there is no operation of the name, nothing happens. If the
arguments make no command of the operation, the call fails for one cause, and the robot is
left as it was and told nothing. Otherwise the robot is told exactly one command, that of the
operation, which the arguments make, and the value of the call tells its answer. -/
theorem operations_all_or_nothing (name : String) (a : Arguments) :
    (name ∉ Binding.names ∧ ∀ {σ : Type} (robot : Robot σ) (s : σ) (told : List Command),
      Binding.call? robot name a s told = none) ∨
    (name ∈ Binding.names ∧ (∀ c : Command, c.name = name → ¬ c.MadeBy a) ∧
      ∃ cause, ∀ {σ : Type} (robot : Robot σ) (s : σ) (told : List Command),
        Binding.call? robot name a s told = some (.error cause, s, told)) ∨
    (name ∈ Binding.names ∧ ∃ c : Command, c.name = name ∧ c.MadeBy a ∧
      ∀ {σ : Type} (robot : Robot σ) (s : σ) (told : List Command),
        ∃ value, c.Tells (robot.perform c s).1 value ∧
          Binding.call? robot name a s told =
            some (.ok value, (robot.perform c s).2, told ++ [c])) := by
  by_cases hname : name ∈ Binding.names
  · obtain ⟨read, h⟩ := Binding.reader_some_iff.2 hname
    cases hread : read a with
    | error cause =>
        refine .inr (.inl ⟨hname, fun c hc hmade => ?_, cause, fun robot s told =>
          Binding.call_refused robot s told h hread⟩)
        rw [(Binding.reader_iff h).2 ⟨hc, hmade⟩] at hread
        cases hread
    | ok c =>
        obtain ⟨rfl, hmade⟩ := (Binding.reader_iff h).1 hread
        exact .inr (.inr ⟨hname, c, rfl, hmade, fun robot s told =>
          ⟨_, Binding.wrap_tells c _, Binding.call_made robot s told hmade⟩⟩)
  · exact .inl ⟨hname, fun robot s told => Binding.call_none robot s told hname⟩

/-! ## Drives -/

/-- A call of `go_to` is accepted exactly if what it gives for the position is there and is
numeric, and so is what it gives beyond that, and nothing else is given. -/
theorem Goal.exists_named_iff {a : Arguments} : (∃ goal : Goal, goal.NamedBy a) ↔
    a.Fits 5 ["x", "y", "z", "w", "frame", "frame_id"] ∧
      (∃ value, a.given? 0 "x" = some value ∧ value.number?.isSome) ∧
      (∃ value, a.given? 1 "y" = some value ∧ value.number?.isSome) ∧
      (∀ value, a.given? 2 "z" = some value → value.number?.isSome) ∧
      ∀ value, a.given? 3 "w" = some value → value.number?.isSome := by
  rw [← Arguments.exists_supplies, ← Arguments.exists_supplies,
    ← Arguments.exists_supplies_or 0, ← Arguments.exists_supplies_or 1]
  constructor
  · rintro ⟨goal, hfits, hx, hy, hz, hw, -⟩
    exact ⟨hfits, ⟨_, hx⟩, ⟨_, hy⟩, ⟨_, hz⟩, ⟨_, hw⟩⟩
  · rintro ⟨hfits, ⟨x, hx⟩, ⟨y, hy⟩, ⟨z, hz⟩, ⟨w, hw⟩⟩
    exact ⟨⟨x, y, z, w, a.frameText⟩, hfits, hx, hy, hz, hw, rfl⟩

/-- A drive succeeds exactly if its arguments name a goal, and then tells the robot to drive
there. -/
theorem Binding.call_go_to {σ : Type} {robot : Robot σ} {s : σ} {told : List Command}
    {a : Arguments} {value : Value} {after : σ × List Command} :
    call? robot "go_to" a s told = some (.ok value, after) ↔
      ∃ goal : Goal, goal.NamedBy a ∧ value = .nil ∧
        after = ((robot.perform (.goTo goal) s).2, told ++ [.goTo goal]) := by
  constructor
  · intro h
    cases hread : goTo a with
    | error cause =>
        rw [call_refused robot s told reader_go_to hread] at h
        cases h
    | ok c =>
        obtain ⟨goal, rfl, hnamed⟩ := go_to_iff.1 hread
        have hcall := call_made robot s told (.goTo hnamed)
        cases hcall.symm.trans h
        exact ⟨goal, hnamed, rfl, rfl⟩
  · rintro ⟨goal, hnamed, rfl, rfl⟩
    exact call_made robot s told (.goTo hnamed)

/-- A call of `go_to` succeeds exactly if it has at most five arguments without a key and no
keys but the six known ones, gives numeric values for `x` and `y`, and gives none for `z` and
`w` that are not numeric; a key goes before a position. Then the robot is told once to drive
to the goal that these values name, where `z` is zero and `w` is one if they are not given,
and the frame is the text given under `frame`, or else under `frame_id`, or else fifth, or else
the map. On a simulated robot an arrival waits afterwards exactly if one waited before or the
frame is the map. -/
theorem drive_arguments_exact (a : Arguments) :
    (∀ {σ : Type} (robot : Robot σ) (s : σ) (told : List Command),
      ((∃ value after, Binding.call? robot "go_to" a s told = some (.ok value, after)) ↔
        a.Fits 5 ["x", "y", "z", "w", "frame", "frame_id"] ∧
          (∃ value, a.given? 0 "x" = some value ∧ value.number?.isSome) ∧
          (∃ value, a.given? 1 "y" = some value ∧ value.number?.isSome) ∧
          (∀ value, a.given? 2 "z" = some value → value.number?.isSome) ∧
          ∀ value, a.given? 3 "w" = some value → value.number?.isSome) ∧
      ∀ value after, Binding.call? robot "go_to" a s told = some (.ok value, after) →
        ∃ goal : Goal, goal.NamedBy a ∧ value = .nil ∧
          after = ((robot.perform (.goTo goal) s).2, told ++ [.goTo goal])) ∧
    ∀ (s : Simulator) (told : List Command) (value : Value) (after : Simulator × List Command),
      Binding.call? Simulator.robot "go_to" a s told = some (.ok value, after) →
        (after.1.situation.pendingArrival = true ↔
          s.situation.pendingArrival = true ∨ a.frameText = "map") := by
  refine ⟨fun robot s told => ⟨?_, fun value after => Binding.call_go_to.1⟩,
    fun s told value after h => ?_⟩
  · rw [← Goal.exists_named_iff]
    constructor
    · rintro ⟨value, after, h⟩
      obtain ⟨goal, hnamed, -⟩ := Binding.call_go_to.1 h
      exact ⟨goal, hnamed⟩
    · rintro ⟨goal, hnamed⟩
      exact ⟨_, _, Binding.call_go_to.2 ⟨goal, hnamed, rfl, rfl⟩⟩
  · obtain ⟨goal, hnamed, -, rfl⟩ := Binding.call_go_to.1 h
    show (Simulator.perform (.goTo goal) s).2.situation.pendingArrival = true ↔ _
    have hgoal : (Command.goTo goal).isMapGoal = true ↔ a.frameText = "map" := by
      rw [← hnamed.frame]
      exact decide_eq_true_iff
    rw [Simulator.perform_pending, Bool.or_eq_true, hgoal, or_comm]
    simp

/-- A drive whose `x` is given twice, by its position and by its key. -/
theorem drive_arguments_exact_twice :
    let a : Arguments := ((Arguments.none.push none (.number 9)).push none (.number 2)).push
      (some "x") (.number 1)
    let start := Simulator.ofSeed 7
    ∃ after, Binding.call? Simulator.robot "go_to" a start [] = some (.ok .nil, after) ∧
      after.2 = [.goTo ⟨1, 2, 0, 1, "map"⟩] ∧ after.1.situation.pendingArrival = true := by
  intro a start
  obtain ⟨hexact, harrival⟩ := drive_arguments_exact a
  obtain ⟨haccepted, hdriven⟩ := hexact Simulator.robot start []
  have hfits : a.Fits 5 ["x", "y", "z", "w", "frame", "frame_id"] := ⟨by decide, by decide⟩
  have hx : a.given? 0 "x" = some (.number 1) := by
    unfold a
    rfl
  have hy : a.given? 1 "y" = some (.number 2) := by
    unfold a
    rfl
  have hz : a.given? 2 "z" = none := by
    unfold a
    rfl
  have hw : a.given? 3 "w" = none := by
    unfold a
    rfl
  have hframe : a.frameText = "map" := by
    unfold a
    rfl
  obtain ⟨value, after, h⟩ := haccepted.2
    ⟨hfits, ⟨_, hx, rfl⟩, ⟨_, hy, rfl⟩, by simp [hz], by simp [hw]⟩
  obtain ⟨goal, hnamed, rfl, rfl⟩ := hdriven value after h
  have hgoal : goal = ⟨1, 2, 0, 1, "map"⟩ := by
    show (⟨goal.x, goal.y, goal.z, goal.w, goal.frame⟩ : Goal) = _
    rw [hnamed.x.eq_given hx, hnamed.y.eq_given hy, hnamed.z.eq_default hz,
      hnamed.w.eq_default hw, hnamed.frame.trans hframe]
  exact ⟨_, h, congrArg (fun goal => [Command.goTo goal]) hgoal,
    (harrival start [] _ _ h).2 (.inr hframe)⟩

end RobotBench
