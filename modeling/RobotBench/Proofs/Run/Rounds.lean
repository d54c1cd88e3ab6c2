import RobotBench.Bench
import RobotBench.Proofs.Run.StepLimit
import RobotBench.Proofs.Run.Stack

/-!
# Rounds and steps

A loop is charged for its rounds when each of them takes a step: `loop` and `while` count one
after every round, and `repeat` leaves that to the statements in its body. So a loop starts no
more rounds than the steps it takes, by `rounds_within_steps`, except for a `repeat` whose body
is empty, which takes one step however often it comes round: `repeat_outruns_limit`.
-/

namespace RobotBench

/-- The statement is a loop, and not one that repeats nothing. -/
def Statement.Charged : Statement → Prop
  | .repeated _ body => body ≠ []
  | .loop _ | .whilst _ _ => True
  | _ => False

section

variable {ω : Type}

namespace Exec

variable {α β : Type} {bound calls blocks : Nat}

/-- What the execution adds leaves nothing open, and the rounds that begin in it and the steps
satisfy a predicate together with how it ends. -/
def Rounds (bound : Nat) (P : Except Halt α → Nat → Nat → Prop) (x : Exec (Logged ω) α) : Prop :=
  Emits bound (fun r events =>
    stackAfter [] events = [] ∧ P r (roundsFrom [] events) (stepsIn events)) x

variable {P : Except Halt α → Nat → Nat → Prop} {x : Exec (Logged ω) α}

theorem Rounds.bind {f : α → Exec (Logged ω) β} {R : Except Halt β → Nat → Nat → Prop}
    {S : α → Except Halt β → Nat → Nat → Prop} (hx : Rounds bound P x)
    (hf : ∀ a, Rounds bound (S a) (f a))
    (hok : ∀ a n steps r n' steps', P (.ok a) n steps → S a r n' steps' →
      R r (n + n') (steps + steps'))
    (herror : ∀ halt n steps, P (.error halt) n steps → R (.error halt) n steps) :
    Rounds bound R (x >>= f) := by
  refine Emits.bind hx hf (fun a events r more hP hS => ?_) fun halt events hP =>
    ⟨hP.1, herror _ _ _ hP.2⟩
  rw [stack_after_append, rounds_from_append, steps_in_append, hP.1]
  exact ⟨hS.1, hok _ _ _ _ _ _ hP.2 hS.2⟩

theorem rounds_pure {a : α} (h : P (.ok a) 0 0) :
    Rounds bound P (pure a : Exec (Logged ω) α) :=
  emits_pure ⟨rfl, h⟩

theorem rounds_error {halt : Halt} (h : P (.error halt) 0 0) :
    Rounds bound P (throw halt : Exec (Logged ω) α) :=
  emits_error ⟨rfl, h⟩

/-- A step that does not fail is counted, and begins no round. -/
theorem rounds_step (setting : Setting ω) :
    Rounds bound (fun r n steps => n = 0 ∧ ((∃ done, r = .ok done) → steps = 1))
      (countStep setting.logged) :=
  (emits_step setting).mono fun _ _ h => by
    obtain ⟨rfl, rfl⟩ | ⟨⟨halt, rfl⟩, rfl⟩ := h
    · exact ⟨rfl, rfl, fun _ => rfl⟩
    · exact ⟨rfl, rfl, nofun⟩

/-- What a statement evaluates first begins no round. -/
theorem Visits.rounds (h : Visits bound calls blocks x) :
    Rounds bound (fun _ n _ => n = 0) x :=
  Emits.mono h fun _ _ hvisit => ⟨hvisit.settled.ends [], hvisit.rounds⟩

/-- A block is one round. -/
theorem Continues.round (setting : Setting ω) {x : Exec (Logged ω) Flow}
    (h : Continues bound calls blocks [] x) :
    Rounds bound (fun _ n _ => n = 1) (inBlock setting.logged x) :=
  Emits.between .openBlock .closeBlock h fun _ _ horder =>
    ⟨horder.of_block.settled.ends [], horder.rounds_of_block⟩

/-! ### Loops -/

/-- Every round that is completed has taken a step, so at most one has not: the last. -/
theorem rounds_times {body : Exec (Logged ω) Flow}
    (h : Rounds bound (fun r n steps => n = 1 ∧ ((∃ flow, r = .ok flow) → 1 ≤ steps)) body)
    (count : Nat) : Rounds bound (fun _ n steps => n ≤ steps + 1) (times body count) := by
  induction count with
  | zero => exact rounds_pure (Nat.zero_le _)
  | succ count ih =>
      rw [times_succ]
      refine h.bind (S := fun _ _ n steps => n ≤ steps + 1) (fun flow => ?_)
        (fun flow n steps r n' steps' hround hmore => ?_) fun halt n steps hround => ?_
      · cases flow with
        | next => exact ih
        | leave => exact rounds_pure (Nat.zero_le _)
        | answer value => exact rounds_pure (Nat.zero_le _)
      · have htaken := hround.2 ⟨flow, rfl⟩
        omega
      · omega

/-- A step is taken after every round that is completed, so at most one is without: the last. -/
theorem rounds_whilst (setting : Setting ω) {test : Exec (Logged ω) Bool}
    {body : Exec (Logged ω) Flow} (htest : Rounds bound (fun _ n _ => n = 0) test)
    (hbody : Rounds bound (fun _ n _ => n = 1) body) (rounds : Nat) :
    Rounds bound (fun _ n steps => n ≤ steps + 1)
      (whilst test body (countStep setting.logged) rounds) := by
  induction rounds with
  | zero => exact rounds_error (Nat.zero_le _)
  | succ rounds ih =>
      -- behind a round others come only after a step
      have hpaused : Rounds bound (fun _ n steps => n ≤ steps)
          (countStep setting.logged >>= fun _ =>
            whilst test body (countStep setting.logged) rounds) := by
        refine (rounds_step setting).bind (fun _ => ih)
          (fun _ n steps r n' steps' hstep hmore => ?_) fun halt n steps hstep => ?_
        · have htaken := hstep.2 ⟨_, rfl⟩
          omega
        · omega
      rw [whilst_succ]
      refine htest.bind (S := fun _ _ n steps => n ≤ steps + 1) (fun holds => ?_)
        (fun _ _ _ _ _ _ hnone hmore => by omega) fun _ _ _ hnone => by omega
      cases holds with
      | false => exact rounds_pure (Nat.zero_le _)
      | true =>
          refine hbody.bind (S := fun _ _ n steps => n ≤ steps) (fun flow => ?_)
            (fun _ _ _ _ _ _ hone hmore => by omega) fun _ _ _ hone => by omega
          cases flow with
          | next => exact hpaused
          | leave => exact rounds_pure (Nat.le_refl _)
          | answer value => exact rounds_pure (Nat.le_refl _)

end Exec

/-! ## Statements -/

open Exec

variable (setting : Setting ω) {bound calls base : Nat} {entry : Entry (Logged ω)}
  (hentry : EntersWithin bound calls base entry)
include hentry

/-- Where there are nodes, a step is taken unless they fail. -/
theorem nodes_take_step (nodes : List Node) (hnodes : nodes ≠ [])
    (h : nodesNesting nodes ≤ bound + 1) :
    Emits bound (fun r events => (∃ flow, r = .ok flow) → 1 ≤ stepsIn events)
      (runNodes setting.logged entry nodes) := by
  cases nodes with
  | nil => exact absurd rfl hnodes
  | cons node more =>
      obtain ⟨line, s⟩ := node
      obtain ⟨hs, hmore⟩ := Nat.max_le.1 h
      -- the step is the first thing that the first of the nodes does
      have hnode : Emits bound (fun r events => (∃ flow, r = .ok flow) → 1 ≤ stepsIn events)
          (countStep setting.logged >>= fun _ => s.run setting.logged entry) := by
        refine (emits_step setting).bind (fun _ => s.orderly setting hentry hs)
          (fun _ events r rest hstep _ _ => ?_) fun halt events _ hok => ?_
        · obtain ⟨-, rfl⟩ | ⟨⟨halt, hfailed⟩, -⟩ := hstep
          · rw [steps_in_append]
            exact Nat.le_add_right 1 _
          · cases hfailed
        · obtain ⟨flow, hflow⟩ := hok
          cases hflow
      refine Emits.bind (P := fun r events => (∃ flow, r = .ok flow) → 1 ≤ stepsIn events)
        (S := fun _ _ _ => True) (hnode.under (.line line) fun r events hP hok => ?_)
        (fun flow => ?_) (fun flow events r rest hP _ _ => ?_) fun halt events _ hok => ?_
      · obtain ⟨flow, hflow⟩ := hok
        cases r with
        | ok other => exact hP ⟨other, rfl⟩
        | error halt => cases hflow
      · cases flow with
        | next => exact Emits.mono (nodes_orderly setting hentry more hmore) fun _ _ _ => trivial
        | leave => exact emits_pure trivial
        | answer value => exact emits_pure trivial
      · rw [steps_in_append]
        exact Nat.le_trans (hP ⟨flow, rfl⟩) (Nat.le_add_right _ _)
      · obtain ⟨flow, hflow⟩ := hok
        cases hflow

/-- A loop that is charged for its rounds starts at most one more of them than it takes steps,
besides its own. -/
theorem Statement.rounds (s : Statement) (hs : s.Charged) (h : s.nesting ≤ bound + 1) :
    Rounds bound (fun _ n steps => n ≤ steps + 1) (s.run setting.logged entry) := by
  cases s with
  | repeated count body =>
      have hbody : nodesNesting body ≤ bound + 1 := Nat.le_of_succ_le h
      have hround : Rounds bound (fun r n steps => n = 1 ∧ ((∃ flow, r = .ok flow) → 1 ≤ steps))
          (inBlock setting.logged (runNodes setting.logged entry body)) :=
        Emits.between .openBlock .closeBlock
          (Emits.and (nodes_orderly setting hentry body hbody)
            (nodes_take_step setting hentry body hs hbody))
          fun r events hP => by
            refine ⟨hP.1.of_block.settled.ends [], hP.1.rounds_of_block, fun hok => ?_⟩
            have htaken := hP.2 hok
            simpa [Event.isStep] using htaken
      exact (read_count_visits setting hentry count).rounds.bind
        (fun count => rounds_times hround count)
        (fun _ _ _ _ _ _ hnone hmore => by omega) fun _ _ _ hnone => by omega
  | loop body =>
      rw [Statement.run, forever_eq_whilst]
      exact rounds_whilst setting (rounds_pure rfl)
        ((nodes_orderly setting hentry body (Nat.le_of_succ_le h)).round setting) setting.rounds
  | whilst condition body =>
      exact rounds_whilst setting (test_visits setting hentry condition).rounds
        ((nodes_orderly setting hentry body (Nat.le_of_succ_le h)).round setting) setting.rounds
  | _ => exact hs.elim

omit hentry

/-- A loop that is charged for its rounds, wherever it is executed, starts no more rounds than
steps are counted meanwhile, its own included; so a limit on steps limits the rounds of each
of its executions to what is left of it. -/
theorem rounds_within_steps (depth line : Nat) (s : Statement) (hs : s.Charged)
    (m : Machine (Logged ω)) :
    ∃ events,
      ((Node.mk line s).run setting.logged (enter setting.logged depth) m).2.world.log =
        m.world.log ++ events ∧
      roundsFrom [] events ≤ stepsIn events ∧
      ∀ limit, setting.maxSteps = some limit → stepsIn events ≤ limit - m.steps := by
  obtain ⟨bound, hnesting, hnames⟩ := m.names.exists_nesting s.nesting
  -- the step of the loop itself pays for the round that may be left over
  have hrounds : Rounds bound (fun _ n steps => n ≤ steps)
      (countStep setting.logged >>= fun _ => s.run setting.logged (enter setting.logged depth)) :=
    (rounds_step setting).bind
      (fun _ => s.rounds setting (enter_within setting depth) hs (Nat.le_succ_of_le hnesting))
      (fun _ n steps r n' steps' hstep hmore => by
        have htaken := hstep.2 ⟨_, rfl⟩
        omega)
      fun halt n steps hstep => by omega
  have sim := (tally_account setting).simulation
  have htally : Exec.Keeps (Tallied setting.maxSteps) (countStep setting.logged >>= fun _ =>
      s.run setting.logged (enter setting.logged depth)) _ :=
    sim.bind sim.step fun _ => sim.statement (sim.enter depth) s (fun _ _ _ => trivial)
      fun _ _ _ _ _ => trivial
  obtain ⟨-, events, hlog, hpaid⟩ := hrounds m hnames
  obtain ⟨-, events', hlog', htallied⟩ := htally m trivial
  obtain rfl := List.append_cancel_left (hlog.symm.trans hlog')
  rw [Node.run, under_apply]
  exact ⟨events, hlog, hpaid.2, htallied.within⟩

/-- A loop that calls an operation in every round, with five steps left. -/
theorem rounds_within_steps_operation :
    let s : Statement := .loop [.mk 2 (.call ⟨"stop", []⟩)]
    let setting := Bench.setting Robot.idle (some 7)
    let m : Machine (Logged (Bench Unit)) := ⟨⟨⟨(), .unbounded⟩, []⟩, .empty, 2⟩
    s.Charged ∧ ∃ events,
      ((Node.mk 1 s).run setting.logged (enter setting.logged maxCallDepth) m).2.world.log =
        m.world.log ++ events ∧
      roundsFrom [] events ≤ stepsIn events ∧ stepsIn events ≤ 5 := by
  intro s setting m
  obtain ⟨events, hlog, hrounds, hwithin⟩ :=
    rounds_within_steps setting maxCallDepth 1 s trivial m
  exact ⟨trivial, events, hlog, hrounds, hwithin 7 rfl⟩

/-- Repeating an empty body comes round as often as it is asked to and takes no step. -/
theorem times_nothing (entry : Entry (Logged ω)) (count : Nat) (m : Machine (Logged ω)) :
    ∃ world events,
      Exec.times (inBlock setting.logged (runNodes setting.logged entry [])) count m =
        (.ok .next, ⟨⟨world, m.world.log ++ events⟩, m.names, m.steps⟩) ∧
      stackAfter [] events = [] ∧ roundsFrom [] events = count ∧ stepsIn events = 0 := by
  induction count generalizing m with
  | zero => exact ⟨m.world.world, [], by rw [List.append_nil]; rfl, rfl, rfl, rfl⟩
  | succ count ih =>
      let m₁ := (m.watched setting.logged.host .openBlock).watched setting.logged.host .closeBlock
      have hround : inBlock setting.logged (runNodes setting.logged entry []) m = (.ok .next, m₁) :=
        rfl
      obtain ⟨world, events, htimes, hstack, hrounds, hsteps⟩ := ih m₁
      refine ⟨world, .openBlock :: .closeBlock :: events, ?_, hstack, ?_, ?_⟩
      · rw [times_succ, bind_ok hround, List.append_cons, List.append_cons]
        exact htimes
      · rw [← hrounds]
        rfl
      · rw [steps_in_cons, steps_in_cons, hsteps]
        rfl

end

/-- A `repeat` whose body is empty starts a thousand rounds in the one step that it takes, and
a limit of ten steps does not stop the run. -/
theorem repeat_outruns_limit :
    let setting := Bench.setting Robot.idle (some 10)
    let count := Atom.ofWord "1000"
    let script : Script := [.mk 1 (.repeated count [])]
    let start : Machine (Logged (Bench Unit)) := ⟨⟨⟨(), .unbounded⟩, []⟩, .empty, 0⟩
    Script.ofText "repeat 1000\nend\n" 1 = .ok script ∧
      ∃ m events, script.run setting.logged start = (.ok (), m) ∧ m.steps = 1 ∧
        m.world.log = .openBlock :: events ++ [.closeBlock] ∧
        roundsFrom [] events = 1000 ∧ stepsIn events = 1 := by
  intro setting count script start
  let entry := enter setting.logged maxCallDepth
  let value : Value := .number (.ofInt 1000)
  have hword : count = .literal value := by decide +kernel
  have hwhole : (Number.ofInt 1000).toNat? = some 1000 := by decide +kernel
  have hcount : value.count = .ok 1000 := by
    simp only [value, Value.count, Value.number?, hwhole]
    rfl
  let m : Machine (Logged (Bench Unit)) := ⟨⟨⟨(), .unbounded⟩, [.openBlock, .step]⟩, .empty, 1⟩
  have hstep : countStep setting.logged (start.watched setting.logged.host .openBlock) =
      (.ok (), m) := rfl
  have hvalue : evaluate setting.logged entry count m = (.ok value, m) := by
    rw [hword]
    rfl
  have hread : readCount setting.logged entry count m = (.ok 1000, m) := by
    rw [readCount, Exec.bind_ok hvalue, hcount]
    rfl
  obtain ⟨world, events, htimes, hstack, hrounds, hsteps⟩ := times_nothing setting entry 1000 m
  let after : Machine (Logged (Bench Unit)) := ⟨⟨world, m.world.log ++ events⟩, m.names, m.steps⟩
  have hnode : (Node.mk 1 (.repeated count [])).run setting.logged entry
      (start.watched setting.logged.host .openBlock) = (.ok .next, after) := by
    rw [Node.run, Exec.under_apply, Exec.bind_ok hstep, Statement.run, Exec.bind_ok hread, htimes]
    rfl
  have hbody : runBody setting.logged entry script start =
      (.ok .next, after.watched setting.logged.host .closeBlock) := by
    rw [runBody, inBlock, Exec.between_apply, runNodes, Exec.bind_ok hnode]
    rfl
  refine ⟨rfl, after.watched setting.logged.host .closeBlock, .step :: events, ?_, rfl, rfl,
    hrounds, ?_⟩
  · rw [Script.run, Exec.bind_ok hbody]
    rfl
  · rw [steps_in_cons, hsteps]
    rfl

end RobotBench
