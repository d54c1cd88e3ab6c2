import Mathlib.Data.List.Induction
import RobotBench.Proofs.Robot.Draws
import RobotBench.Proofs.Robot.Transcript

/-!
# The simulated world

The state of the simulated robot is a function of the commands that it was given, in any
number and order. What one command does to each part of the state is said once
(`perform_grasped`, `perform_pending`, `perform_calls`), and what all of them do follows by
induction. Arrivals are counted by `arrivals_balance`: a drive to a goal on the map can be
reported once, and drives that were not reported before the next one are reported together.
`simulated_world` has all of this in one place, for robots that are given commands directly
and for those of trials.
-/

namespace RobotBench

/-- The command is a drive to a goal on the map. -/
def Command.isMapGoal : Command → Bool
  | goTo goal => goal.frame = mapFrame
  | _ => false

/-- A drive to a goal on the map has exactly this frame. -/
theorem Command.is_map_goal_iff {c : Command} :
    c.isMapGoal = true ↔ ∃ goal, c = .goTo goal ∧ goal.frame = "map" := by
  cases c with
  | goTo goal =>
      show decide (goal.frame = mapFrame) = true ↔ _
      rw [decide_eq_true_iff]
      simp [mapFrame]
  | _ => simp [isMapGoal]

/-- The command grasps an object or drops it. -/
def Command.isGrip : Command → Bool
  | closeGripper => true
  | drop => true
  | _ => false

/-- The observation is of one thing, with this label and at this column. -/
def Observation.Shows (o : Observation) (label : String) (x : Number) : Prop :=
  ∃ d, o.detections = [d] ∧ d.label = label ∧ d.x = x

/-- One thing is seen exactly if the labels and columns of all that is seen are its own. -/
theorem Observation.shows_iff {o : Observation} {label : String} {x : Number} :
    o.Shows label x ↔ o.detections.map (fun d => (d.label, d.x)) = [(label, x)] := by
  rw [List.map_eq_singleton_iff]
  simp only [Observation.Shows, Prod.mk.injEq]

instance {o : Observation} {label : String} {x : Number} : Decidable (o.Shows label x) :=
  decidable_of_iff _ Observation.shows_iff.symm

namespace Simulator

/-! ## One command -/

section

variable (c : Command) (s : Simulator)

/-- Looking for objects takes a waiting arrival and leaves the rest of the state. -/
theorem detect_changes : s.detect.2.situation = { s.situation with pendingArrival := false } ∧
    s.detect.2.calls = s.calls := by
  rw [detect]
  -- a draw tries too often to be unfolded, so it is taken apart before anything is compared
  rcases s.generator.index 3 with ⟨column, generator⟩
  cases hpending : s.situation.pendingArrival with
  | true => exact ⟨rfl, rfl⟩
  | false =>
      refine ⟨?_, rfl⟩
      show s.situation = { s.situation with pendingArrival := false }
      rw [← hpending]

/-- Looking for obstacles changes nothing but the source of chance. -/
theorem collide_changes : s.collide.2.situation = s.situation ∧ s.collide.2.calls = s.calls := by
  rw [collide]
  rcases s.generator.unit with ⟨chance, generator⟩
  dsimp only
  rcases generator.index 3 with ⟨side, after⟩
  cases chance.below freeChance with
  | true => exact ⟨rfl, rfl⟩
  | false => exact ⟨rfl, rfl⟩

theorem perform_detect : perform .detectObjects s = (s.record "detect_objects").detect := rfl

theorem perform_collide :
    perform .getCollision s = (s.record "get_collision_status").collide := rfl

/-- What one command does to the grasp. -/
theorem perform_grasped : (perform c s).2.situation.grasped =
    if c.isGrip then decide (c = .closeGripper) else s.situation.grasped := by
  cases c with
  | detectObjects =>
      rw [perform_detect, (detect_changes _).1]
      rfl
  | getCollision =>
      rw [perform_collide, (collide_changes _).1]
      rfl
  | goTo goal =>
      show (if goal.frame = mapFrame then _ else s.record "go_to").situation.grasped = _
      split <;> rfl
  | _ => rfl

/-- What one command does to a waiting arrival. -/
theorem perform_pending : (perform c s).2.situation.pendingArrival =
    (c.isMapGoal || (s.situation.pendingArrival && decide (c ≠ .detectObjects))) := by
  cases c with
  | detectObjects =>
      rw [perform_detect, (detect_changes _).1]
      simp [Command.isMapGoal]
  | getCollision =>
      rw [perform_collide, (collide_changes _).1]
      simp [record, Command.isMapGoal]
  | goTo goal =>
      show (if goal.frame = mapFrame then _ else s.record "go_to").situation.pendingArrival = _
      by_cases hframe : goal.frame = mapFrame <;> simp [record, hframe, Command.isMapGoal]
  | _ => simp [perform, respond, record, Command.isMapGoal]

/-- One command is one more call of its operation. -/
theorem perform_calls : (perform c s).2.calls =
    s.calls.set c.name ((s.calls.find? c.name).getD 0 + 1) := by
  cases c with
  | detectObjects =>
      rw [perform_detect, (detect_changes _).2]
      rfl
  | getCollision =>
      rw [perform_collide, (collide_changes _).2]
      rfl
  | goTo goal =>
      show (if goal.frame = mapFrame then _ else s.record "go_to").calls = _
      split <;> rfl
  | _ => rfl

/-! ## Arrivals -/

/-- Asked for objects, the robot sees a single person in the centre and draws nothing. -/
def ReportsArrival : Prop :=
  (perform .detectObjects s).1.Shows "person" 375 ∧
    (perform .detectObjects s).2.generator = s.generator

instance : Decidable s.ReportsArrival := inferInstanceAs (Decidable (_ ∧ _))

/-- What is seen without a waiting arrival, by the outcome of the draw for it. -/
theorem detect_drawn {s : Simulator} {column : Nat} {after : Generator}
    (h : s.situation.pendingArrival = false) (hdrawn : s.generator.index 3 = (column, after)) :
    s.detect = (.single (detection (if s.situation.grasped then "person" else "bottle")
      (columns column)), { s with generator := after }) := by
  have hfree : ¬ s.situation.pendingArrival = true := Bool.eq_false_iff.1 h
  rw [detect, if_neg hfree, hdrawn]

/-- What is seen with a waiting arrival. -/
theorem detect_waiting {s : Simulator} (h : s.situation.pendingArrival = true) :
    s.detect = (arrival, { s with situation.pendingArrival := false }) := by
  rw [detect, if_pos h]

/-- Without a waiting arrival a draw decides where the object that is looked for is seen. -/
theorem detect_free (h : s.situation.pendingArrival = false) :
    (∃ d, (perform .detectObjects s).1.detections = [d] ∧
      d.label = (if s.situation.grasped then "person" else "bottle") ∧ (d.x = 0 ∨ d.x = 375)) ∧
    (perform .detectObjects s).2.generator ≠ s.generator := by
  have hmoved := s.generator.index_three_ne
  rcases hdrawn : s.generator.index 3 with ⟨column, after⟩
  rw [hdrawn] at hmoved
  have hseen := @detect_drawn (s.record "detect_objects") _ _ h hdrawn
  rw [perform_detect, hseen]
  refine ⟨⟨_, rfl, rfl, ?_⟩, hmoved⟩
  cases column with
  | zero => exact .inl rfl
  | succ column => exact .inr rfl

/-- An arrival is reported exactly if one waits. -/
theorem reports_arrival_iff : s.ReportsArrival ↔ s.situation.pendingArrival = true := by
  constructor
  · intro hreport
    by_contra hfree
    exact (s.detect_free (Bool.eq_false_iff.2 hfree)).2 hreport.2
  · intro hpending
    have hrecorded : (s.record "detect_objects").situation.pendingArrival = true := hpending
    rw [ReportsArrival, perform_detect, detect_waiting hrecorded]
    exact ⟨⟨_, rfl, rfl, rfl⟩, rfl⟩

end

/-! ## All commands -/

/-- The last command is given to the robot that the others have made. -/
theorem after_concat (s : Simulator) (commands : List Command) (c : Command) :
    robot.after s (commands ++ [c]) = (perform c (robot.after s commands)).2 :=
  robot.after_append s commands [c]

variable (seed : UInt64)

/-- An object is held exactly if the last command to grasp or to drop was one to grasp. -/
theorem after_grasped (commands : List Command) :
    (robot.after (ofSeed seed) commands).situation.grasped = true ↔
      (commands.filter Command.isGrip).getLast? = some .closeGripper := by
  induction commands using List.reverseRecOn with
  | nil => simp [Robot.after, ofSeed]
  | append_singleton commands c ih =>
      rw [after_concat, perform_grasped, List.filter_append]
      cases hgrip : c.isGrip with
      | true => simp [hgrip]
      | false => simp [hgrip, ih]

/-- An arrival waits exactly if there was a drive on the map since the robot was last asked
for objects. -/
theorem after_pending (commands : List Command) :
    (robot.after (ofSeed seed) commands).situation.pendingArrival = true ↔
      ∃ before goal later, commands = before ++ .goTo goal :: later ∧ goal.frame = "map" ∧
        .detectObjects ∉ later := by
  induction commands using List.reverseRecOn with
  | nil => simp [Robot.after, ofSeed]
  | append_singleton commands c ih =>
      rw [after_concat, perform_pending, Bool.or_eq_true, Bool.and_eq_true, decide_eq_true_iff,
        Command.is_map_goal_iff, ih]
      constructor
      · rintro (⟨goal, rfl, hframe⟩ | ⟨⟨before, goal, later, rfl, hframe, hlater⟩, hc⟩)
        · exact ⟨commands, goal, [], rfl, hframe, List.not_mem_nil⟩
        · refine ⟨before, goal, later ++ [c], by simp, hframe, fun hmem => ?_⟩
          rcases List.mem_append.1 hmem with hmem | hmem
          · exact hlater hmem
          · exact hc (List.mem_singleton.1 hmem).symm
      · rintro ⟨before, goal, later, hsplit, hframe, hlater⟩
        rcases List.eq_nil_or_concat later with rfl | ⟨front, last, rfl⟩
        · obtain ⟨-, hc⟩ := List.append_inj' hsplit rfl
          exact .inl ⟨goal, List.singleton_inj.1 hc, hframe⟩
        · rw [List.concat_eq_append] at hsplit hlater
          rw [← List.cons_append, ← List.append_assoc] at hsplit
          obtain ⟨hcommands, hc⟩ := List.append_inj' hsplit rfl
          obtain rfl := List.singleton_inj.1 hc
          rw [List.mem_append, not_or] at hlater
          refine .inr ⟨⟨before, goal, front, hcommands, hframe, hlater.1⟩, fun hdetect => ?_⟩
          exact hlater.2 (List.mem_singleton.2 hdetect.symm)

/-- The count of an operation is the number of its calls. -/
theorem after_calls (commands : List Command) (name : String) :
    (robot.after (ofSeed seed) commands).calls.find? name =
      if commands.countP (·.name = name) = 0 then none
      else some (commands.countP (·.name = name)) := by
  induction commands using List.reverseRecOn with
  | nil => rfl
  | append_singleton commands c ih =>
      rw [after_concat, perform_calls, List.countP_append]
      by_cases hname : c.name = name
      · subst hname
        have hone : [c].countP (·.name = c.name) = 1 := by simp
        rw [Table.find?_set_self, ih, hone]
        cases commands.countP (·.name = c.name) with
        | zero => rfl
        | succ count => rfl
      · rw [Table.find?_set_of_ne _ _ (Ne.symm hname), ih]
        simp [hname]

/-- How often the robot reports an arrival while it gets commands. -/
def arrivals (s : Simulator) : List Command → Nat
  | [] => 0
  | c :: more =>
    (if c = .detectObjects ∧ s.ReportsArrival then 1 else 0) + arrivals (perform c s).2 more

/-- An arrival waits, as a number. -/
def waiting (s : Simulator) : Nat := if s.situation.pendingArrival then 1 else 0

/-- What is reported or still waits after a command was not there before or came with it. -/
theorem waiting_perform (c : Command) (s : Simulator) :
    (if c = .detectObjects ∧ s.ReportsArrival then 1 else 0) + (perform c s).2.waiting ≤
      (if c.isMapGoal then 1 else 0) + s.waiting := by
  simp only [waiting, perform_pending, reports_arrival_iff]
  by_cases hdetect : c = .detectObjects
  · subst hdetect
    simp [Command.isMapGoal]
  · cases c.isMapGoal <;> simp [hdetect]

/-- What is reported in two parts is reported in each of them. -/
theorem arrivals_append (s : Simulator) (first second : List Command) :
    s.arrivals (first ++ second) = s.arrivals first + (robot.after s first).arrivals second := by
  induction first generalizing s with
  | nil => exact (Nat.zero_add _).symm
  | cons c more ih =>
      have hmore := ih (perform c s).2
      rw [List.cons_append, arrivals, arrivals, hmore, Nat.add_assoc]
      rfl

/-- Every arrival that is reported or still waits was waiting before or is due to a drive on
the map of its own. -/
theorem arrivals_balance (s : Simulator) (commands : List Command) :
    s.arrivals commands + (robot.after s commands).waiting ≤
      commands.countP Command.isMapGoal + s.waiting := by
  induction commands generalizing s with
  | nil => exact Nat.le_refl _
  | cons c more ih =>
      have hmore := ih (perform c s).2
      have hfirst := waiting_perform c s
      rw [arrivals, List.countP_cons]
      show _ + (robot.after (perform c s).2 more).waiting ≤ _
      omega

/-- The robot reports nothing that it is not asked for. -/
theorem arrivals_unasked (s : Simulator) {commands : List Command}
    (h : .detectObjects ∉ commands) : s.arrivals commands = 0 := by
  induction commands generalizing s with
  | nil => rfl
  | cons c more ih =>
      rw [List.mem_cons, not_or] at h
      rw [arrivals, if_neg fun hreport => h.1 hreport.1.symm, Nat.zero_add]
      exact ih _ h.2

/-- Without another drive on the map at most the arrival that waits is reported. -/
theorem arrivals_quiet (s : Simulator) {commands : List Command}
    (h : ∀ c ∈ commands, ¬ c.isMapGoal) : s.arrivals commands ≤ s.waiting := by
  have hbalance := s.arrivals_balance commands
  rw [List.countP_eq_zero.2 h] at hbalance
  omega

/-- No more than one arrival waits. -/
theorem waiting_le_one (s : Simulator) : s.waiting ≤ 1 := by
  unfold waiting
  split <;> omega

/-- However many drives on the map there were before the robot is asked for objects, it
reports one arrival for them, and none afterwards. -/
theorem arrivals_once (before : List Command) {block quiet : List Command}
    (hblock : .detectObjects ∉ block) (hgoal : ∃ c ∈ block, c.isMapGoal)
    (hquiet : ∀ c ∈ quiet, ¬ c.isMapGoal) :
    (robot.after (ofSeed seed) before).arrivals (block ++ .detectObjects :: quiet) = 1 := by
  have hpending : (robot.after (robot.after (ofSeed seed) before) block).situation.pendingArrival =
      true := by
    obtain ⟨c, hc, hmap⟩ := hgoal
    obtain ⟨goal, rfl, hframe⟩ := Command.is_map_goal_iff.1 hmap
    obtain ⟨front, later, rfl⟩ := List.append_of_mem hc
    rw [← robot.after_append, after_pending]
    refine ⟨before ++ front, goal, later, by simp, hframe, fun hmem => hblock ?_⟩
    exact List.mem_append_right _ (List.mem_cons_of_mem _ hmem)
  generalize robot.after (ofSeed seed) before = s at hpending ⊢
  have hreport : (robot.after s block).ReportsArrival := (reports_arrival_iff _).2 hpending
  have htaken : (perform .detectObjects (robot.after s block)).2.waiting = 0 := by
    rw [waiting, perform_pending]
    simp [Command.isMapGoal]
  have hafter := arrivals_quiet (perform .detectObjects (robot.after s block)).2 hquiet
  rw [arrivals_append, arrivals_unasked s hblock, arrivals, if_pos ⟨rfl, hreport⟩]
  omega

end Simulator

/-! ## The world of every run -/

/-- What the simulated robot is after any commands, whatever the seed. It holds an object if
the last command to grasp or to drop was one to grasp; an arrival waits if there was a drive
on the map since it was last asked for objects; and it has counted the calls of each
operation. Asked for objects it sees a single person in the centre and draws nothing exactly if
an arrival waits. Otherwise it sees a single person if it holds an object and a single bottle if
not, and a draw decides whether in the centre or at the left edge. So it reports no
more arrivals than there were drives on the map, at most one before the next drive, and one
for several after which it is asked. In a trial the robot is told commands one after another,
too, and it answers and ends as it does when it is told them directly. -/
theorem simulated_world (seed : UInt64) :
    let start := Simulator.ofSeed seed
    let after := Simulator.robot.after start
    (∀ commands,
      let s := after commands
      (s.situation.grasped = true ↔
        (commands.filter Command.isGrip).getLast? = some .closeGripper) ∧
      (s.situation.pendingArrival = true ↔
        ∃ before goal later, commands = before ++ .goTo goal :: later ∧ goal.frame = "map" ∧
          .detectObjects ∉ later) ∧
      (∀ name, s.calls.find? name =
        if commands.countP (·.name = name) = 0 then none
        else some (commands.countP (·.name = name))) ∧
      ((∃ d, (Simulator.perform .detectObjects s).1.detections = [d] ∧ d.label = "person" ∧
          d.x = 375) ∧ (Simulator.perform .detectObjects s).2.generator = s.generator ↔
        s.situation.pendingArrival = true) ∧
      (s.situation.pendingArrival = false →
        (∃ d, (Simulator.perform .detectObjects s).1.detections = [d] ∧
          d.label = (if s.situation.grasped then "person" else "bottle") ∧
          (d.x = 0 ∨ d.x = 375)) ∧
        (Simulator.perform .detectObjects s).2.generator ≠ s.generator) ∧
      start.arrivals commands ≤ commands.countP Command.isMapGoal) ∧
    (∀ before quiet, (∀ c ∈ quiet, ¬ c.isMapGoal) → (after before).arrivals quiet ≤ 1) ∧
    (∀ before block quiet, .detectObjects ∉ block → (∃ c ∈ block, c.isMapGoal) →
      (∀ c ∈ quiet, ¬ c.isMapGoal) →
        (after before).arrivals (block ++ .detectObjects :: quiet) = 1) ∧
    ∀ maxSteps entryPoint payload,
      let run := Trial.run Simulator.robot.transcribed (maxSteps.map UInt64.toNat) entryPoint
        payload ⟨(start, []), .unbounded⟩
      Trial.simulate seed maxSteps entryPoint payload =
          (run.1, run.2.project (Bench.withRobot Prod.fst)) ∧
        Simulator.robot.Told start run.2.world := by
  intro start after
  refine ⟨fun commands => ?_, fun before quiet hquiet => ?_,
    fun before block quiet hblock hgoal hquiet =>
      Simulator.arrivals_once seed before hblock hgoal hquiet,
    fun maxSteps entryPoint payload =>
      transcribed_trial Simulator.robot _ entryPoint payload start .unbounded⟩
  · have hbalance := start.arrivals_balance commands
    have hfresh : start.waiting = 0 := rfl
    refine ⟨Simulator.after_grasped seed commands, Simulator.after_pending seed commands,
      Simulator.after_calls seed commands, Simulator.reports_arrival_iff _,
      Simulator.detect_free _, ?_⟩
    omega
  · exact Nat.le_trans (Simulator.arrivals_quiet _ hquiet) (Simulator.waiting_le_one _)

/-- Holding an object, the robot is sent to two goals on the map and asked for objects twice: it
sees a person in the centre, and after that a person somewhere. -/
theorem simulated_world_two_drives :
    let goal : Goal := ⟨1, 2, 0, 1, "map"⟩
    let s := Simulator.robot.after (.ofSeed 5) [.closeGripper]
    let driven := Simulator.robot.after (.ofSeed 5) [.closeGripper, .goTo goal, .goTo goal]
    s.situation.grasped = true ∧
      (∃ d, (Simulator.perform .detectObjects s).1.detections = [d] ∧ d.label = "person" ∧
        (d.x = 0 ∨ d.x = 375)) ∧
      (∃ d, (Simulator.perform .detectObjects driven).1.detections = [d] ∧ d.label = "person" ∧
        d.x = 375) ∧
      s.arrivals ([.goTo goal, .goTo goal] ++ .detectObjects :: [.detectObjects]) = 1 := by
  intro goal s driven
  obtain ⟨hstate, -, honce, -⟩ := simulated_world 5
  have hasked : Command.detectObjects ∉ [Command.goTo goal, .goTo goal] := by simp
  have hgoal : ∃ c ∈ [Command.goTo goal, .goTo goal], c.isMapGoal :=
    ⟨.goTo goal, List.mem_cons_self, Command.is_map_goal_iff.2 ⟨goal, rfl, rfl⟩⟩
  have hquiet : ∀ c ∈ [Command.detectObjects], ¬ c.isMapGoal := by simp [Command.isMapGoal]
  obtain ⟨hgrasped, -, -, -, hfree, -⟩ := hstate [.closeGripper]
  obtain ⟨-, -, -, hreport, -⟩ := hstate [.closeGripper, .goTo goal, .goTo goal]
  exact ⟨hgrasped.2 rfl, (hfree rfl).1, (hreport.2 rfl).1,
    honce [.closeGripper] [.goTo goal, .goTo goal] [.detectObjects] hasked hgoal hquiet⟩

end RobotBench
