import RobotBench.Proofs.Run.Flow
import RobotBench.Proofs.Run.Sequence
import RobotBench.Proofs.Run.StepLimit
import RobotBench.Proofs.Script.NumberWords

/-!
# Unrolled loops

A `repeat` with a count does what as many copies of its body do one after another:
`repeat_unrolls`. The loop and the copies are equal as executions but for how they end by
`break` (`times_copies`), and a body whose `break`s all belong to other loops does not end so.
What the loop adds is its own step and its own line on the path to a fault.
-/

namespace RobotBench

/-- The nodes as often as the count says, one copy after another. -/
def copies (count : Nat) (nodes : List Node) : List Node := (List.replicate count nodes).flatten

theorem copies_succ (count : Nat) (nodes : List Node) :
    copies (count + 1) nodes = nodes ++ copies count nodes := by
  rw [copies, List.replicate_succ, List.flatten_cons, copies]

theorem copies_add (count more : Nat) (nodes : List Node) :
    copies (count + more) nodes = copies count nodes ++ copies more nodes := by
  rw [copies, ← List.replicate_append_replicate, List.flatten_append, copies, copies]

/-! ## Bodies that keep their loop -/

mutual

/-- No `break` in the statement leaves a loop around the statement. -/
def Statement.KeepsLoop : Statement → Prop
  | .leave => False
  | .branch _ yes no => NodesKeepLoop yes ∧ NodesKeepLoop no
  | .assign _ _ | .call _ | .define _ _ | .repeated _ _ | .loop _ | .whilst _ _ | .answer _ => True
  termination_by structural statement => statement

/-- No `break` in the node leaves a loop around the node. -/
def Node.KeepsLoop : Node → Prop
  | .mk _ statement => statement.KeepsLoop
  termination_by structural node => node

/-- No `break` in the nodes leaves a loop around the nodes. -/
def NodesKeepLoop : List Node → Prop
  | [] => True
  | node :: more => node.KeepsLoop ∧ NodesKeepLoop more
  termination_by structural nodes => nodes

end

section

variable {ω : Type} (setting : Setting ω) (entry : Entry ω)

open Exec

/-- A round of a loop that is inside a procedure may end in any way. -/
theorem rounds_end (body : Exec ω Flow) : Ends (Scope.loop ⟨false, true, 0⟩).Allows body := by
  refine (ends_any body).mono fun flow _ => ?_
  cases flow with
  | next => trivial
  | leave => rfl
  | answer value => rfl

/-- However the rounds of a loop end, the loop does not end by `break`. -/
theorem times_keep (body : Exec ω Flow) (count : Nat) : Ends (· ≠ .leave) (times body count) :=
  (ends_times (rounds_end body) count).mono fun _ hflow => hflow.1

theorem whilst_keep (test : Exec ω Bool) (body : Exec ω Flow) (pause : Exec ω Unit)
    (rounds : Nat) : Ends (· ≠ .leave) (whilst test body pause rounds) :=
  (ends_whilst (rounds_end body) rounds).mono fun _ hflow => hflow.1

mutual

/-- A statement that keeps the loop around it does not end by `break`. -/
theorem Statement.keeps_loop (s : Statement) (h : s.KeepsLoop) :
    Ends (· ≠ .leave) (s.run setting entry) := by
  cases s with
  | assign name value =>
      exact ends_bind (ends_any _) fun _ _ => ends_bind (ends_any _) fun _ _ => ends_pure nofun
  | call c => exact ends_bind (ends_any _) fun _ _ => ends_pure nofun
  | define name body => exact ends_bind (ends_any _) fun _ _ => ends_pure nofun
  | repeated count body => exact ends_bind (ends_any _) fun count _ => times_keep _ count
  | loop body =>
      show Ends _ (Exec.forever _ _ _)
      rw [forever_eq_whilst]
      exact whilst_keep _ _ _ _
  | whilst condition body => exact whilst_keep _ _ _ _
  | branch condition yes no =>
      refine ends_bind (ends_any _) fun holds _ => ?_
      cases holds with
      | true => exact ends_between (nodes_keep_loop yes h.1)
      | false => exact ends_between (nodes_keep_loop no h.2)
  | leave => exact h.elim
  | answer value =>
      cases value with
      | none => exact ends_pure nofun
      | some operand => exact ends_bind (ends_any _) fun _ _ => ends_pure nofun
  termination_by structural s

/-- Nodes that keep the loop around them do not end by `break`. -/
theorem nodes_keep_loop (nodes : List Node) (h : NodesKeepLoop nodes) :
    Ends (· ≠ .leave) (runNodes setting entry nodes) := by
  cases nodes with
  | nil => exact ends_pure nofun
  | cons node more =>
      obtain ⟨line, s⟩ := node
      have hfirst := s.keeps_loop h.1
      have hmore := nodes_keep_loop more h.2
      refine ends_bind (ends_under _ (ends_bind (ends_any _) fun _ _ => hfirst))
        fun flow hflow => ?_
      cases flow with
      | next => exact hmore
      | leave => exact absurd rfl hflow
      | answer value => exact ends_pure nofun
  termination_by structural nodes

end

/-! ## A loop and the copies of its body -/

/-- A loop runs as the copies of its body do, and takes a `break` that they end by. -/
theorem times_copies (body : List Node) (count : Nat) :
    times (runNodes setting entry body) count =
      runNodes setting entry (copies count body) >>= fun flow => pure flow.afterLoop := by
  induction count with
  | zero => rfl
  | succ count ih =>
      rw [times_succ, copies_succ, run_nodes_append, ih]
      funext m
      rw [bind_apply, bind_apply, bind_apply]
      rcases runNodes setting entry body m with ⟨halt | flow, m₁⟩
      · rfl
      · cases flow with
        | next => exact bind_apply _ _ m₁
        | leave => rfl
        | answer value => rfl

/-- Copies of nodes that keep the loop around them do not end by `break`. -/
theorem copies_keep_loop {body : List Node} (h : NodesKeepLoop body) (count : Nat) :
    Ends (· ≠ .leave) (runNodes setting entry (copies count body)) := by
  induction count with
  | zero => exact ends_pure nofun
  | succ count ih =>
      rw [copies_succ, run_nodes_append]
      refine ends_bind (nodes_keep_loop setting entry body h) fun flow hflow => ?_
      cases flow with
      | next => exact ih
      | leave => exact absurd rfl hflow
      | answer value => exact ends_pure nofun

/-- A loop whose body keeps it is the copies of the body. -/
theorem times_of_keeps {body : List Node} (h : NodesKeepLoop body) (count : Nat) :
    times (runNodes setting entry body) count = runNodes setting entry (copies count body) := by
  rw [times_copies]
  funext m
  rw [bind_apply]
  cases hresult : runNodes setting entry (copies count body) m with
  | mk result m₁ =>
      cases result with
      | error halt => rfl
      | ok flow =>
          have hflow := copies_keep_loop setting entry h count m flow m₁ hresult
          cases flow with
          | next => rfl
          | leave => exact absurd rfl hflow
          | answer value => rfl

/-- A loop ends where its body ends by `break` for the first time. -/
theorem times_of_break {body : List Node} {m m₁ m₂ : Machine ω} {done count : Nat}
    (hcount : done < count)
    (hdone : runNodes setting entry (copies done body) m = (.ok .next, m₁))
    (hbreak : runNodes setting entry body m₁ = (.ok .leave, m₂)) :
    times (runNodes setting entry body) count m = (.ok .next, m₂) := by
  obtain ⟨more, rfl⟩ : ∃ more, count = done + (more + 1) := ⟨count - done - 1, by omega⟩
  have hlast : runNodes setting entry (copies (more + 1) body) m₁ = (.ok .leave, m₂) := by
    rw [copies_succ, run_nodes_append, bind_ok hbreak]
    rfl
  have hall : runNodes setting entry (copies (done + (more + 1)) body) m = (.ok .leave, m₂) := by
    rw [copies_add, run_nodes_append, bind_ok hdone]
    exact hlast
  rw [times_copies, bind_ok hall]
  rfl

end

/-! ## Counts -/

/-- A whole number is a count as long as it fits in 64 bits. -/
theorem Value.count_whole {value : Value} {x : Number} {n : Nat} (hvalue : value.number? = some x)
    (hx : x.toNat? = some n) (hn : n < 2 ^ 64) : value.count = .ok n := by
  have hfits : n ≤ maxCount := by
    show n ≤ UInt64.size - 1
    have hsize : UInt64.size = 2 ^ 64 := rfl
    omega
  rw [Value.count, hvalue]
  dsimp only
  rw [hx]
  dsimp only
  rw [Nat.min_eq_left hfits]

theorem Value.count_not_whole {value : Value} {x : Number} (hvalue : value.number? = some x)
    (hx : x.toNat? = none) : value.count = .error (.countNotWhole x) := by
  rw [Value.count, hvalue]
  dsimp only
  rw [hx]

theorem Value.count_not_number {value : Value} (h : value.number? = none) :
    value.count = .error (.countNotNumber value) := by
  rw [Value.count, h]

/-! ## The loop as a node -/

section

variable {ω : Type}

/-- Without a limit a `repeat` whose count has a value counts its own step and then goes through
its rounds, below its line. -/
theorem repeated_apply {host : Host ω} (hhost : ∀ event world, host.watch event world = world)
    {rounds depth line : Nat} {count : Atom} {body : List Node} {m m₀ : Machine ω} {value : Value}
    (hvalue : evaluate ⟨host, none, rounds⟩ (enter ⟨host, none, rounds⟩ depth) count m =
      (.ok value, m₀)) :
    let setting : Setting ω := ⟨host, none, rounds⟩
    let entry := enter setting depth
    let loop := (Exec.ofExcept value.count >>= Exec.times (runNodes setting entry body)) m₀
    (Node.mk line (.repeated count body)).run setting entry m =
      (loop.1.mapError (·.under (.line line)), loop.2.later 1) := by
  intro setting entry loop
  have sim : Simulation setting setting (fun _ => True) (CountsOn 1) :=
    CountsOn.simulation host rounds
  have hentry (name : String) (body : List Node) (_ : True) :=
    sim.enter depth name body trivial
  have hcount : evaluate setting entry count (m.later 1) = (.ok value, m₀.later 1) := by
    rw [sim.evaluate hentry count m, hvalue]
  have hblock : inBlock setting (runNodes setting entry body) = runNodes setting entry body :=
    run_body_unwatched hhost entry body
  -- the rounds go the same way after the step of the loop as they do without it
  have hloop : (Exec.ofExcept value.count >>= Exec.times (runNodes setting entry body))
      (m₀.later 1) = (loop.1, loop.2.later 1) :=
    sim.bind (sim.of_except (.count value))
      (fun n => sim.times (sim.nodes hentry body fun _ _ _ _ _ => trivial) n) m₀
  have hread : (readCount setting entry count >>=
      Exec.times (inBlock setting (runNodes setting entry body))) (m.later 1) =
        (loop.1, loop.2.later 1) := by
    rw [hblock, ← hloop, Exec.bind_apply, readCount, Exec.bind_ok hcount, ← Exec.bind_apply]
  show Exec.under (.line line) (countStep setting >>= fun _ =>
    readCount setting entry count >>=
      Exec.times (inBlock setting (runNodes setting entry body))) m = _
  rw [Exec.under_apply, Exec.bind_ok (count_step_unwatched hhost rounds m), hread]

end

/-- A `repeat` unrolls. Without a limit on steps, and whatever the robot, the sink, the names
and the procedures that are active: once its count has evaluated to a whole number that fits in
64 bits, a loop whose body keeps it does what as many copies of the body do, but for a step
more and its own line on the path of a fault, and a loop whose body ends by `break` in some round
ends there and then. A count that is no number, or no whole one, is refused before any round. The
numerals of the whole numbers below `2 ^ 53` are such counts, and evaluating them does nothing. -/
theorem repeat_unrolls {σ : Type} (robot : Robot σ) (rounds depth line : Nat) (count : Atom)
    (body : List Node) (m : Machine (Bench (σ × List Command))) :
    let setting : Setting (Bench (σ × List Command)) := ⟨Bench.host robot.recorded, none, rounds⟩
    let entry := enter setting depth
    let repeated := (Node.mk line (.repeated count body)).run setting entry m
    (∀ n < 2 ^ 53, count = .ofWord (Nat.repr n) →
      evaluate setting entry count m = (.ok (.number (.ofNat n)), m) ∧
      (Number.ofNat n).toNat? = some n) ∧
    ∀ value m₀, evaluate setting entry count m = (.ok value, m₀) →
      (∀ x n, value.number? = some x → x.toNat? = some n → n < 2 ^ 64 →
        (NodesKeepLoop body →
          let unrolled := runNodes setting entry (copies n body) m₀
          repeated = (unrolled.1.mapError (·.under (.line line)), unrolled.2.later 1)) ∧
        ∀ i < n, ∀ m₁ m₂, runNodes setting entry (copies i body) m₀ = (.ok .next, m₁) →
          runNodes setting entry body m₁ = (.ok .leave, m₂) →
          repeated = (.ok .next, m₂.later 1)) ∧
      (value.number? = none →
        repeated = (.error (.fault ⟨[.line line], .countNotNumber value⟩), m₀.later 1)) ∧
      ∀ x, value.number? = some x → x.NotCount →
        repeated = (.error (.fault ⟨[.line line], .countNotWhole x⟩), m₀.later 1) := by
  intro setting entry repeated
  constructor
  · rintro n hn rfl
    rw [Atom.of_word_number (read_number_repr n)]
    exact ⟨rfl, Number.to_nat_of_nat hn⟩
  · intro value m₀ hvalue
    have hrepeated : repeated = _ := repeated_apply (fun _ _ => rfl) hvalue
    refine ⟨fun x n hx hwhole hn => ?_, fun hnone => ?_, fun x hx hnot => ?_⟩
    · rw [Value.count_whole hx hwhole hn] at hrepeated
      have hloop : repeated =
          ((Exec.times (runNodes setting entry body) n m₀).1.mapError (·.under (.line line)),
            (Exec.times (runNodes setting entry body) n m₀).2.later 1) := hrepeated
      constructor
      · intro hkeeps
        rw [times_of_keeps setting entry hkeeps n] at hloop
        exact hloop
      · intro i hi m₁ m₂ hdone hbreak
        rw [times_of_break setting entry hi hdone hbreak] at hloop
        exact hloop
    · rw [Value.count_not_number hnone] at hrepeated
      exact hrepeated
    · rw [Value.count_not_whole hx hnot.to_nat] at hrepeated
      exact hrepeated

/-- A loop with two rounds, and the same loop with a `break` in its first round. -/
theorem repeat_unrolls_twice :
    let setting : Setting (Bench (Unit × List Command)) :=
      ⟨Bench.host Robot.idle.recorded, none, 9⟩
    let start : Machine (Bench (Unit × List Command)) := ⟨⟨((), []), .unbounded⟩, .empty, 0⟩
    let run (body : List Node) :=
      (Node.mk 1 (.repeated (.ofWord (Nat.repr 2)) body)).run setting (enter setting 4) start
    let stop : Node := .mk 2 (.call ⟨"stop", []⟩)
    (run [stop]).2.world.commands = [.move .stop, .move .stop] ∧ (run [stop]).2.steps = 3 ∧
      (run [stop, .mk 3 .leave]).1 = .ok .next ∧
      (run [stop, .mk 3 .leave]).2.world.commands = [.move .stop] ∧
      (run [stop, .mk 3 .leave]).2.steps = 3 := by
  intro setting start run stop
  have hunrolls (body : List Node) :=
    repeat_unrolls Robot.idle 9 4 1 (.ofWord (Nat.repr 2)) body start
  obtain ⟨hvalue, hwhole⟩ := (hunrolls []).1 2 (by decide) rfl
  have hcopies := (((hunrolls [stop]).2 _ _ hvalue).1 _ 2 rfl hwhole (by decide)).1
    ⟨trivial, trivial⟩
  have hbreak := (((hunrolls [stop, .mk 3 .leave]).2 _ _ hvalue).1 _ 2 rfl hwhole (by decide)).2
    0 (by decide) start _ rfl rfl
  have hcopies : run [stop] = (.ok .next, _) := hcopies
  have hbreak : run [stop, .mk 3 .leave] = (.ok .next, _) := hbreak
  rw [hcopies, hbreak]
  exact ⟨rfl, rfl, rfl, rfl, rfl⟩

end RobotBench
