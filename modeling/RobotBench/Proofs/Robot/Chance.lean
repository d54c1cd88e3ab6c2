import RobotBench.Proofs.SimulatedWorld

/-!
# What chance and idle commands can change

Chance decides only where an object is seen and what blocks the way: two simulated robots with
different seeds that are given the same commands agree in all else, `agree_after` and
`agree_answer`. Some commands change nothing but the calls that are counted, `perform_idle`, and
no answer depends on these, `perform_recounted`. So idle commands can be left out between others
without a trace, `transcript_kept`. `chance_and_idle_commands` has both.
-/

namespace RobotBench

/-- The observation with every object moved to the left edge. -/
def Observation.unplaced (o : Observation) : Observation :=
  { o with detections := o.detections.map fun d => { d with x := 0 } }

namespace Command

/-- Two answers to a command differ in nothing but what chance decides. An arrival is seen in
the centre always, so chance has no part in an answer that reports one. -/
def SameButChance (arrival : Bool) : (c : Command) → c.Answer → c.Answer → Prop
  | detectObjects, o, o' => if arrival then o = o' else o.unplaced = o'.unplaced
  | getCollision, _, _ => True
  | _, answer, answer' => answer = answer'

/-- The command does nothing to the simulated robot. -/
def isIdle : Command → Bool
  | getPose => true
  | move _ => true
  | showFrame _ => true
  | waitKey _ => true
  | goTo goal => goal.frame ≠ mapFrame
  | _ => false

end Command

/-- The items that are marked. -/
def kept {α : Type} (marked : List (α × Bool)) : List α := (marked.filter Prod.snd).map Prod.fst

namespace Simulator

/-! ## Chance -/

/-- The robots agree in all that chance has no part in. -/
def Agree (s t : Simulator) : Prop := s.situation = t.situation ∧ s.calls = t.calls

variable {s t : Simulator}

/-- Robots that agree before a command agree after it. -/
theorem agree_perform (h : s.Agree t) (c : Command) : (perform c s).2.Agree (perform c t).2 := by
  obtain ⟨hsituation, hcalls⟩ := h
  constructor
  · -- a situation is its two flags, and each is known after any command
    have hgrasped : (perform c s).2.situation.grasped = (perform c t).2.situation.grasped := by
      rw [perform_grasped, perform_grasped, hsituation]
    have hpending : (perform c s).2.situation.pendingArrival =
        (perform c t).2.situation.pendingArrival := by
      rw [perform_pending, perform_pending, hsituation]
    cases hs : (perform c s).2.situation
    cases ht : (perform c t).2.situation
    rw [hs, ht] at hgrasped hpending
    exact congrArg₂ Situation.mk hgrasped hpending
  · rw [perform_calls, perform_calls, hcalls]

theorem agree_after (h : s.Agree t) (commands : List Command) :
    (robot.after s commands).Agree (robot.after t commands) :=
  List.foldl_rel h fun c _ _ _ h => agree_perform h c

/-- What is seen without a waiting arrival, up to its place, depends on the grasp alone. -/
theorem detect_unplaced (h : s.situation.pendingArrival = false) : s.detect.1.unplaced =
    .single (detection (if s.situation.grasped then "person" else "bottle") 0) := by
  rcases hdrawn : s.generator.index 3 with ⟨column, after⟩
  rw [detect_drawn h hdrawn]
  simp only [Observation.unplaced, Observation.single, List.map_cons, List.map_nil, detection]

/-- Robots that agree give answers that differ in nothing but what chance decides. -/
theorem agree_answer (h : s.Agree t) (c : Command) :
    c.SameButChance s.situation.pendingArrival (perform c s).1 (perform c t).1 := by
  cases c with
  | detectObjects =>
      cases hpending : s.situation.pendingArrival with
      | true =>
          have hpending' : t.situation.pendingArrival = true := h.1 ▸ hpending
          have hs : (s.record "detect_objects").situation.pendingArrival = true := hpending
          have ht : (t.record "detect_objects").situation.pendingArrival = true := hpending'
          show (perform .detectObjects s).1 = (perform .detectObjects t).1
          rw [perform_detect, perform_detect, detect_waiting hs, detect_waiting ht]
      | false =>
          have hs : (s.record "detect_objects").situation.pendingArrival = false := hpending
          have ht : (t.record "detect_objects").situation.pendingArrival = false := h.1 ▸ hpending
          show (perform .detectObjects s).1.unplaced = (perform .detectObjects t).1.unplaced
          rw [perform_detect, perform_detect, detect_unplaced hs, detect_unplaced ht]
          exact congrArg (fun situation : Situation =>
            Observation.single (detection (if situation.grasped then "person" else "bottle") 0)) h.1
  | getCollision => exact trivial
  | _ => rfl

/-! ## Idle commands -/

/-- The robot with other counts of calls. -/
def recounted (calls : Table Nat) (s : Simulator) : Simulator := { s with calls }

/-- Seen without its counts, the robot is not changed by an idle command. -/
theorem perform_idle {c : Command} (h : c.isIdle = true) (s : Simulator) :
    ∃ calls, (perform c s).2 = s.recounted calls := by
  refine ⟨(s.record c.name).calls, ?_⟩
  cases c with
  | goTo goal =>
      have hframe : goal.frame ≠ mapFrame := of_decide_eq_true h
      show (if goal.frame = mapFrame then _ else s.record "go_to") = _
      rw [if_neg hframe]
      rfl
  | getPose | move | showFrame | waitKey => rfl
  | detectObjects | getCollision | closeGripper | drop => cases h

/-- Looking for objects neither reads nor sets the counts of calls. -/
theorem detect_recounted (s : Simulator) (calls : Table Nat) :
    (s.recounted calls).detect = (s.detect.1, s.detect.2.recounted calls) := by
  cases hpending : s.situation.pendingArrival with
  | true =>
      have hrecounted : (s.recounted calls).situation.pendingArrival = true := hpending
      rw [detect_waiting hpending, detect_waiting hrecounted]
      rfl
  | false =>
      have hrecounted : (s.recounted calls).situation.pendingArrival = false := hpending
      rcases hdrawn : s.generator.index 3 with ⟨column, after⟩
      rw [detect_drawn hpending hdrawn, detect_drawn hrecounted hdrawn]
      rfl

/-- Looking for obstacles neither reads nor sets the counts of calls. -/
theorem collide_recounted (s : Simulator) (calls : Table Nat) :
    (s.recounted calls).collide = (s.collide.1, s.collide.2.recounted calls) := by
  have hsame : (s.recounted calls).generator = s.generator := rfl
  rw [collide, collide, hsame]
  rcases s.generator.unit with ⟨chance, between⟩
  dsimp only
  rcases between.index 3 with ⟨side, after⟩
  cases chance.below freeChance with
  | true => rfl
  | false => rfl

/-- No answer depends on what has been counted. -/
theorem respond_recounted (c : Command) (s : Simulator) (calls : Table Nat) :
    respond c (s.recounted calls) = ((respond c s).1, (respond c s).2.recounted calls) := by
  cases c with
  | detectObjects => exact detect_recounted s calls
  | getCollision => exact collide_recounted s calls
  | goTo goal =>
      by_cases hframe : goal.frame = mapFrame
      · simp only [respond, if_pos hframe]
        rfl
      · simp only [respond, if_neg hframe]
  | _ => rfl

/-- No command depends on what has been counted. -/
theorem perform_recounted (c : Command) (s : Simulator) (calls : Table Nat) :
    ∃ after, perform c (s.recounted calls) =
      ((perform c s).1, (perform c s).2.recounted after) :=
  ⟨_, respond_recounted c (s.record c.name) ((s.recounted calls).record c.name).calls⟩

/-- Robots that are equal but for what they have counted answer alike and stay so. -/
theorem transcript_recounted (commands : List Command) (s : Simulator) (calls : Table Nat) :
    robot.transcript (s.recounted calls) commands = robot.transcript s commands ∧
      ∃ after,
        robot.after (s.recounted calls) commands = (robot.after s commands).recounted after := by
  induction commands generalizing s calls with
  | nil => exact ⟨rfl, calls, rfl⟩
  | cons c more ih =>
      obtain ⟨after, hperform⟩ := perform_recounted c s calls
      obtain ⟨hmore, hafter⟩ := ih (perform c s).2 after
      have hperform' : robot.perform c (s.recounted calls) = _ := hperform
      rw [Robot.transcript, hperform', hmore]
      show _ ∧ ∃ after, robot.after (robot.perform c (s.recounted calls)).2 more = _
      rw [hperform']
      exact ⟨rfl, hafter⟩

/-- Leaving out idle commands leaves out their answers and changes nothing else. -/
theorem transcript_kept {marked : List (Command × Bool)}
    (h : ∀ c, (c, false) ∈ marked → c.isIdle = true) (s : Simulator) :
    robot.transcript s (kept marked) =
        kept ((robot.transcript s (marked.map Prod.fst)).zip (marked.map Prod.snd)) ∧
      ∃ calls, robot.after s (marked.map Prod.fst) =
        (robot.after s (kept marked)).recounted calls := by
  induction marked generalizing s with
  | nil => exact ⟨rfl, s.calls, rfl⟩
  | cons first more ih =>
      obtain ⟨c, mark⟩ := first
      have hmore : ∀ c, (c, false) ∈ more → c.isIdle = true := fun c hc =>
        h c (List.mem_cons_of_mem _ hc)
      obtain ⟨hanswers, calls, hafter⟩ := ih hmore (perform c s).2
      cases mark with
      | true => exact ⟨congrArg (_ :: ·) hanswers, calls, hafter⟩
      | false =>
          obtain ⟨counted, hidle⟩ := perform_idle (h c List.mem_cons_self) s
          obtain ⟨hsame, after, hkept⟩ := transcript_recounted (kept more) s counted
          rw [← hidle] at hsame hkept
          refine ⟨hsame.symm.trans hanswers, calls, ?_⟩
          calc robot.after (perform c s).2 (more.map Prod.fst)
              = (robot.after (perform c s).2 (kept more)).recounted calls := hafter
            _ = (robot.after s (kept more)).recounted calls := by rw [hkept]; rfl

end Simulator

/-- What the seed and idle commands can change. Two simulated robots with any seeds that were
given the same commands are in the same situation with the same counts of calls, and every
command is answered alike by both, up to where a detection is seen that is no arrival and up
to what blocks the way. Leaving out any idle commands among others leaves the answers to
these, the source of chance and the situation as they were; the marks say which are kept. -/
theorem chance_and_idle_commands :
    (∀ first second before,
      let s := Simulator.robot.after (.ofSeed first) before
      let t := Simulator.robot.after (.ofSeed second) before
      s.situation = t.situation ∧ s.calls = t.calls ∧
        ∀ c : Command, c.SameButChance s.situation.pendingArrival
          (Simulator.perform c s).1 (Simulator.perform c t).1) ∧
    ∀ seed (marked : List (Command × Bool)),
      (∀ c, (c, false) ∈ marked → c.isIdle = true) →
      let full := marked.map Prod.fst
      let start := Simulator.ofSeed seed
      Simulator.robot.transcript start (kept marked) =
          kept ((Simulator.robot.transcript start full).zip (marked.map Prod.snd)) ∧
        (Simulator.robot.after start (kept marked)).generator =
          (Simulator.robot.after start full).generator ∧
        (Simulator.robot.after start (kept marked)).situation =
          (Simulator.robot.after start full).situation := by
  refine ⟨fun first second before => ?_, fun seed marked hidle => ?_⟩
  · have hagree : (Simulator.ofSeed first).Agree (.ofSeed second) := ⟨rfl, rfl⟩
    have hafter := Simulator.agree_after hagree before
    exact ⟨hafter.1, hafter.2, Simulator.agree_answer hafter⟩
  · obtain ⟨hanswers, calls, hafter⟩ := Simulator.transcript_kept hidle (.ofSeed seed)
    refine ⟨hanswers, ?_, ?_⟩
    · rw [hafter]
      rfl
    · rw [hafter]
      rfl

/-- A stop and a drive off the map are left out before the robot is asked for objects. -/
theorem chance_and_idle_commands_stop :
    let goal : Goal := ⟨1, 2, 0, 1, "odom"⟩
    let marked : List (Command × Bool) :=
      [(.closeGripper, true), (.move .stop, false), (.goTo goal, false), (.detectObjects, true)]
    (∀ c, (c, false) ∈ marked → c.isIdle = true) ∧
      Simulator.robot.transcript (.ofSeed 7) [.closeGripper, .detectObjects] =
        kept ((Simulator.robot.transcript (.ofSeed 7) (marked.map Prod.fst)).zip
          [true, false, false, true]) := by
  intro goal marked
  have hidle : ∀ c, (c, false) ∈ marked → c.isIdle = true := by
    intro c hc
    simp only [marked, List.mem_cons, Prod.mk.injEq, List.not_mem_nil, or_false] at hc
    rcases hc with ⟨-, h⟩ | ⟨rfl, -⟩ | ⟨rfl, -⟩ | ⟨-, h⟩
    · cases h
    · rfl
    · decide
    · cases h
  exact ⟨hidle, (chance_and_idle_commands.2 7 marked hidle).1⟩

end RobotBench
