import RobotBench.Proofs.Run.Recording

/-!
# A limit on steps cuts runs off

Two runs of the same script on the same machine, of which the first may take `limit` steps
and the second as many or more. `CutOff` says what their parts have in common: they end
alike, or the first fails at step `limit + 1`, and what it has done to the world by then is
extended by what the second does in all. `cut_off_simulation` says that whole runs have this
in common when their parts do. A loop needs no more rounds than steps are left, which is why
`CutOff` knows how many steps have been taken at least.
-/

namespace RobotBench

/-- The execution was stopped from outside, for want of steps or of rounds. -/
def Halt.IsBound : Halt → Prop
  | .fault f => f.cause.IsStepLimit
  | .endless => True

/-- The host watches nothing, and its operations only extend the world and do not fail for
want of steps. -/
structure Host.Grows {ω : Type} (host : Host ω) (Extends : ω → ω → Prop) : Prop where
  refl (world : ω) : Extends world world
  trans {first second third : ω} :
    Extends first second → Extends second third → Extends first third
  watch (event : Event) (world : ω) : host.watch event world = world
  operation {name : String} {act : Arguments → ω → Except Cause Value × ω} :
    host.operation? name = some act → ∀ arguments world,
      Extends world (act arguments world).2 ∧ NotForSteps (act arguments world).1

/-- How an execution ends that may take `limit` steps, and how it ends when it may take
more: alike, with at least `low` steps taken if it succeeds, or only the first is cut off. -/
inductive Ending {ω α : Type} (Extends : ω → ω → Prop) (limit low : Nat) :
    Except Halt α × Machine ω → Except Halt α × Machine ω → Prop
  | done {a : α} {m : Machine ω} (hlow : low ≤ m.steps) (hlimit : m.steps ≤ limit) :
      Ending Extends limit low (.ok a, m) (.ok a, m)
  | failed {halt : Halt} {m : Machine ω} (hhalt : ¬ halt.IsBound) (hlimit : m.steps ≤ limit) :
      Ending Extends limit low (.error halt, m) (.error halt, m)
  | cut {path : List Frame} {m : Machine ω} {other : Except Halt α × Machine ω}
      (hsteps : m.steps = limit + 1) (hworld : Extends m.world other.2.world) :
      Ending Extends limit low (.error (.fault ⟨path, .stepLimit limit⟩), m) other

/-- The first execution is the second one, cut off after `limit` steps, on every machine
that has taken `low` steps or more; where both succeed, `high` have been taken. -/
structure CutOff {ω α : Type} (Extends : ω → ω → Prop) (limit low high : Nat)
    (x y : Exec ω α) : Prop where
  grows (m : Machine ω) : Extends m.world (y m).2.world
  ending (m : Machine ω) :
    low ≤ m.steps → m.steps ≤ limit → Ending Extends limit high (x m) (y m)

namespace CutOff

variable {ω α β : Type} {Extends : ω → ω → Prop} {host : Host ω} (hhost : host.Grows Extends)
  {limit low mid high : Nat} {x y : Exec ω α}

/-- Fewer steps than are known to be taken are taken. -/
theorem weaken (h : CutOff Extends limit low high x y) (hle : mid ≤ high) :
    CutOff Extends limit low mid x y := by
  refine ⟨h.grows, fun m hlow hlimit => ?_⟩
  have hending := h.ending m hlow hlimit
  generalize x m = p at hending
  generalize y m = q at hending
  cases hending with
  | done hhigh hlimit => exact .done (Nat.le_trans hle hhigh) hlimit
  | failed hhalt hlimit => exact .failed hhalt hlimit
  | cut hsteps hworld => exact .cut hsteps hworld

theorem under (frame : Frame) (h : CutOff Extends limit low high x y) :
    CutOff Extends limit low high (x.under frame) (y.under frame) := by
  refine ⟨fun m => ?_, fun m hlow hlimit => ?_⟩
  · rw [Exec.under_apply]
    exact h.grows m
  · have hending := h.ending m hlow hlimit
    rw [Exec.under_apply, Exec.under_apply]
    generalize x m = p at hending
    generalize y m = q at hending
    cases hending with
    | done hhigh hlimit => exact .done hhigh hlimit
    | @failed halt m hhalt hlimit =>
        cases halt with
        | fault f => exact .failed hhalt hlimit
        | endless => exact absurd trivial hhalt
    | cut hsteps hworld => exact .cut hsteps hworld

include hhost

theorem pure (a : α) : CutOff Extends limit low low (pure a) (pure a) :=
  ⟨fun m => hhost.refl m.world, fun _ hlow hlimit => .done hlow hlimit⟩

theorem fail {cause : Cause} (h : ¬ cause.IsStepLimit) :
    CutOff Extends limit low high (Exec.fail cause : Exec ω α) (Exec.fail cause) :=
  ⟨fun m => hhost.refl m.world, fun _ _ hlimit => .failed h hlimit⟩

theorem modify {change : Machine ω → Machine ω} (hworld : ∀ m, (change m).world = m.world)
    (hsteps : ∀ m, (change m).steps = m.steps) :
    CutOff Extends limit low low (modify change : Exec ω Unit) (modify change) := by
  refine ⟨fun m => ?_, fun m hlow hlimit => ?_⟩
  · rw [Exec.modify_apply, hworld]
    exact hhost.refl m.world
  · rw [← hsteps m] at hlow hlimit
    exact .done hlow hlimit

theorem bind {f g : α → Exec ω β} (hx : CutOff Extends limit low mid x y)
    (hf : ∀ a, CutOff Extends limit mid high (f a) (g a)) :
    CutOff Extends limit low high (x >>= f) (y >>= g) := by
  have hgrows (m : Machine ω) : Extends (y m).2.world ((y >>= g) m).2.world := by
    rw [Exec.bind_apply]
    rcases y m with ⟨_ | a, m₁⟩
    · exact hhost.refl m₁.world
    · exact (hf a).grows m₁
  refine ⟨fun m => hhost.trans (hx.grows m) (hgrows m), fun m hlow hlimit => ?_⟩
  have hgrows := hgrows m
  have hending := hx.ending m hlow hlimit
  rw [Exec.bind_apply, Exec.bind_apply] at *
  generalize x m = p at hending
  generalize y m = q at hending hgrows
  cases hending with
  | done hmid hlimit => exact (hf _).ending _ hmid hlimit
  | failed hhalt hlimit => exact .failed hhalt hlimit
  | cut hsteps hworld => exact .cut hsteps (hhost.trans hworld hgrows)

theorem between (first last : Event) (h : CutOff Extends limit low high x y) :
    CutOff Extends limit low high (Exec.between host first last x)
      (Exec.between host first last y) := by
  rw [Exec.between_unwatched hhost.watch, Exec.between_unwatched hhost.watch]
  exact h

/-- A step that is counted has been taken; the step after the last one cuts off. -/
theorem step {more : Option Nat} (hmore : ∀ n, more = some n → limit ≤ n) (rounds : Nat) :
    CutOff Extends limit low (low + 1) (countStep ⟨host, some limit, rounds⟩)
      (countStep ⟨host, more, rounds⟩) := by
  have hworld (m : Machine ω) :
      (countStep (⟨host, more, rounds⟩ : Setting ω) m).2.world = m.world := by
    rcases count_step_cases ⟨host, more, rounds⟩ m with ⟨_, hcount⟩ | ⟨_, _, _, hcount⟩
    · rw [hcount]
      exact hhost.watch .step m.world
    · rw [hcount]
  refine ⟨fun m => ?_, fun m hlow hlimit => ?_⟩
  · rw [hworld]
    exact hhost.refl m.world
  · -- there is room for the step under both limits, or it is the one too many under the
    -- first, whatever the second says
    rcases Nat.lt_or_eq_of_le hlimit with hroom | hfull
    · rw [count_step_ok (by rintro _ ⟨⟩; exact hroom),
        count_step_ok fun n hn => Nat.lt_of_lt_of_le hroom (hmore n hn)]
      exact .done (Nat.succ_le_succ hlow) hroom
    · rw [count_step_over rfl (Nat.le_of_eq hfull.symm)]
      refine .cut (congrArg (· + 1) hfull) ?_
      rw [hworld]
      exact hhost.refl m.world

theorem operation {setting setting' : Setting ω} (hsame : setting.host = host)
    (hsame' : setting'.host = host) {name : String}
    {act : Arguments → ω → Except Cause Value × ω} (arguments : Arguments)
    (hact : host.operation? name = some act) :
    CutOff Extends limit low low (runOperation setting name act arguments)
      (runOperation setting' name act arguments) := by
  refine ⟨fun m => ?_, fun m hlow hlimit => ?_⟩
  · rw [run_operation_apply, hsame', hhost.watch]
    exact (hhost.operation hact arguments m.world).1
  · obtain ⟨-, hcause⟩ := hhost.operation hact arguments m.world
    rw [run_operation_apply, run_operation_apply, hsame, hsame', hhost.watch]
    cases hresult : (act arguments m.world).1 with
    | ok value => exact .done hlow hlimit
    | error cause => exact .failed (hcause cause hresult) hlimit

/-- A loop ends before its rounds are up when every round takes a step and no more steps
are left than rounds. The induction is on the rounds. -/
theorem whilst {test test' : Exec ω Bool} {body body' : Exec ω Flow}
    {pause pause' : Exec ω Unit}
    (htest : ∀ low, CutOff Extends limit low low test test')
    (hbody : ∀ low, CutOff Extends limit low low body body')
    (hpause : ∀ low, CutOff Extends limit low (low + 1) pause pause') (rounds : Nat) :
    ∀ low, limit < low + rounds → CutOff Extends limit low low
      (Exec.whilst test body pause rounds) (Exec.whilst test' body' pause' rounds) := by
  induction rounds with
  | zero =>
      -- no machine with room for a step has taken that many
      refine fun low hrounds => ⟨fun m => hhost.refl m.world, fun m hlow hlimit => ?_⟩
      exact absurd (Nat.le_trans hlow hlimit) (Nat.not_le.2 hrounds)
  | succ rounds ih =>
      intro low hrounds
      have hrest : limit < low + 1 + rounds := by omega
      rw [Exec.whilst_succ, Exec.whilst_succ]
      refine bind hhost (htest low) fun holds => ?_
      cases holds with
      | false => exact pure hhost _
      | true =>
          refine bind hhost (hbody low) fun flow => ?_
          cases flow with
          | next =>
              -- the pause takes a step, which pays for the round
              have hloop := (ih (low + 1) hrest).weaken (Nat.le_succ low)
              exact bind hhost (hpause low) fun _ => hloop
          | leave => exact pure hhost _
          | answer value => exact pure hhost _

end CutOff

/-- The parts of a run that may take `limit` steps are those of a run that may take more,
cut off. Loops are followed for more rounds than that. -/
theorem cut_off_simulation {ω : Type} {Extends : ω → ω → Prop} {host : Host ω}
    (hhost : host.Grows Extends) {limit rounds : Nat} (hrounds : limit < rounds)
    {more : Option Nat} (hmore : ∀ n, more = some n → limit ≤ n) :
    Simulation ⟨host, some limit, rounds⟩ ⟨host, more, rounds⟩ (fun _ => True)
      fun x y => ∀ low, CutOff Extends limit low low x y where
  pure a low := .pure hhost a
  bind hx hf low := .bind hhost (hx low) fun a => hf a low
  fail h low := .fail hhost h
  under frame x x' h low := .under frame (h low)
  block h low := .between hhost _ _ (h low)
  procedure name body _ _ h low := .between hhost _ _ (h low)
  names h low := ⟨fun m => (h m m rfl (fun _ _ _ => trivial) low).grows m,
    fun m => (h m m rfl (fun _ _ _ => trivial) low).ending m⟩
  assign name value low := .modify hhost (fun m => rfl) fun m => rfl
  define name body _ low := .modify hhost (fun m => rfl) fun m => rfl
  step low := (CutOff.step hhost hmore rounds).weaken (Nat.le_succ low)
  operation? name := rfl
  operation arguments hact hact' low := by
    cases hact.symm.trans hact'
    exact .operation hhost rfl rfl arguments hact
  whilst htest hbody low := by
    have hlow : limit < low + rounds := Nat.lt_of_lt_of_le hrounds (Nat.le_add_left rounds low)
    exact .whilst hhost htest hbody (fun low => .step hhost hmore rounds) rounds low hlow
  nested _ _ _ _ _ _ := trivial

/-! ## Benches -/

/-- The bytes printed so far. -/
def Sink.printed (s : Sink) : List UInt8 := s.bytes.data.toList

/-- Printing adds to what has been printed, also when not all of it fits. -/
theorem Sink.printed_write (s : Sink) (bytes : ByteArray) :
    s.printed <+: (s.write bytes).2.printed := by
  unfold write printed
  dsimp only
  split
  · simp
  · simp

theorem Builtin.printed_invoke (b : Builtin) (a : Arguments) (s : Sink) :
    s.printed <+: (b.invoke a s).2.printed := by
  unfold invoke
  split
  · exact List.prefix_rfl
  · rename_i line _
    have hwrite := s.printed_write line.toUTF8
    split
    · rename_i after heq
      rw [heq] at hwrite
      exact hwrite
    · rename_i after heq
      rw [heq] at hwrite
      exact hwrite

/-- A robot operation gives the robot one command or none. -/
theorem Binding.commands_run {σ : Type} (robot : Robot σ)
    (read : Arguments → Except Cause Command) (a : Arguments) (s : σ × List Command) :
    s.2 <+: (Binding.run robot.recorded read a s).2.2 := by
  unfold run
  split
  · exact List.prefix_rfl
  · exact List.prefix_append s.2 _

/-- The second bench has been given the commands of the first and maybe more, and has
printed what the first has and maybe more. -/
def Bench.Extends {σ : Type} (first second : Bench (σ × List Command)) : Prop :=
  first.commands <+: second.commands ∧ first.sink.printed <+: second.sink.printed

/-- What happens on a recorded bench adds to it. -/
theorem Bench.grows {σ : Type} (robot : Robot σ) :
    (Bench.host robot.recorded).Grows Bench.Extends where
  refl bench := ⟨List.prefix_rfl, List.prefix_rfl⟩
  trans h h' := ⟨h.1.trans h'.1, h.2.trans h'.2⟩
  watch event bench := rfl
  operation {name act} hact a bench := by
    refine ⟨?_, Bench.operation_not_for_steps hact a bench⟩
    rcases Bench.operation_cases hact with ⟨b, -, rfl⟩ | ⟨read, _, rfl⟩
    · exact ⟨List.prefix_rfl, b.printed_invoke a bench.sink⟩
    · exact ⟨Binding.commands_run robot read a bench.robot, List.prefix_rfl⟩

/-- The steps ran out at a limit. -/
def ExceedsLimit {α : Type} (limit : Nat) (result : Except Halt α) : Prop :=
  ∃ path, result = .error (.fault ⟨path, .stepLimit limit⟩)

/-- A limit on steps is a mere cut-off: a run that does not exceed it takes no more steps,
and is the run under any other limit that is not less, or under none, with the same result
or fault, commands, output, names and steps. A run that exceeds it has been stopped at the
next step, and its commands and its output begin those of the other run. -/
theorem step_limit_cuts_off {σ : Type} (robot : Robot σ) (script : Script) (state : σ)
    (sink : Sink) (names : Namespace) (limit : UInt64) {more : Option UInt64}
    (hmore : ∀ n, more = some n → limit ≤ n) :
    let start : Machine (Bench (σ × List Command)) := ⟨⟨(state, []), sink⟩, names, 0⟩
    let short := script.run (Bench.setting robot.recorded (some limit.toNat)) start
    let long := script.run (Bench.setting robot.recorded (more.map UInt64.toNat)) start
    (¬ ExceedsLimit limit.toNat short.1 →
      long = short ∧ short.2.steps ≤ limit.toNat ∧ short.1 ≠ .error .endless) ∧
    (ExceedsLimit limit.toNat short.1 →
      short.2.steps = limit.toNat + 1 ∧
      short.2.world.commands <+: long.2.world.commands ∧
      short.2.world.sink.printed <+: long.2.world.sink.printed) := by
  intro start short long
  have hrounds : limit.toNat < Bench.endlessRounds := limit.toNat_lt_size
  have hmore' : ∀ n, more.map UInt64.toNat = some n → limit.toNat ≤ n := by
    intro n hn
    obtain ⟨n', hn', rfl⟩ := Option.map_eq_some_iff.1 hn
    exact hmore n' hn'
  have sim := cut_off_simulation (Bench.grows robot) hrounds hmore'
  have hending := (sim.script script (fun _ _ _ _ _ => trivial) 0).ending start
    (Nat.zero_le _) (Nat.zero_le _)
  change Ending Bench.Extends limit.toNat 0 short long at hending
  generalize short = p at hending
  generalize long = q at hending
  cases hending with
  | done hlow hlimit => exact ⟨fun _ => ⟨rfl, hlimit, nofun⟩, nofun⟩
  | failed hhalt hlimit =>
      refine ⟨fun _ => ⟨rfl, hlimit, ?_⟩, ?_⟩
      · rintro ⟨⟩
        exact hhalt trivial
      · rintro ⟨path, ⟨⟩⟩
        exact absurd trivial hhalt
  | @cut path m other hsteps hworld =>
      exact ⟨fun h => absurd ⟨path, rfl⟩ h, fun _ => ⟨hsteps, hworld⟩⟩

/-- A robot around which nothing is and nothing happens. -/
def Robot.idle : Robot Unit where
  perform
    | .detectObjects, s => (⟨[], ""⟩, s)
    | .getPose, s => (⟨0, 0, 0, 0, 0, 0, 1⟩, s)
    | .getCollision, s => (.free, s)
    | .closeGripper, s => (false, s)
    | .waitKey _, s => (-1, s)
    | .move _, s | .drop, s | .goTo _, s | .showFrame _, s => ((), s)

/-- A loop without end, cut off after three steps and after seven. -/
theorem step_limit_cuts_off_loop :
    let script : Script := [.mk 1 (.loop [.mk 2 (.call ⟨"stop", []⟩)])]
    let run (most : UInt64) :=
      script.run (Bench.setting Robot.idle.recorded (some most.toNat))
        ⟨⟨((), []), .unbounded⟩, .empty, 0⟩
    (run 3).1 = .error (.fault ⟨[.line 1, .line 2], .stepLimit 3⟩) ∧ (run 3).2.steps = 4 ∧
      (run 3).2.world.commands = [.move .stop] ∧
      (run 3).2.world.commands <+: (run 7).2.world.commands := by
  intro script run
  have hmore : ∀ n, some 7 = some n → (3 : UInt64) ≤ n := by
    intro n hn
    cases hn
    decide
  have hshort : (run 3).1 = .error (.fault ⟨[.line 1, .line 2], .stepLimit 3⟩) := by rfl
  have hcommands : (run 3).2.world.commands = [.move .stop] := by rfl
  have hcut := step_limit_cuts_off Robot.idle script () .unbounded .empty 3 hmore
  rw [Option.map_some] at hcut
  obtain ⟨hsteps, hlog, -⟩ := hcut.2 ⟨_, hshort⟩
  refine ⟨hshort, hsteps, hcommands, ?_⟩
  simp only [run]
  exact hlog

end RobotBench
