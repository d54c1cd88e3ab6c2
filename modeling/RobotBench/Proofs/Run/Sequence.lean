import RobotBench.Proofs.Run.Simulation

/-!
# One script after another

The run of joined scripts is the run of the first and then that of the second:
`Script.run_append`. The second does not begin with fresh steps, but without a limit nobody
asks how many have been taken, so that it runs as if they were fresh: `CountsOn.script`.
-/

namespace RobotBench

variable {ω : Type}

/-- Joined nodes run one after another, as long as the first ones do not end early. -/
theorem run_nodes_append (setting : Setting ω) (entry : Entry ω) (first second : List Node) :
    runNodes setting entry (first ++ second) = runNodes setting entry first >>= fun
      | .next => runNodes setting entry second
      | flow => pure flow := by
  induction first with
  | nil => rfl
  | cons node more ih =>
      funext m
      rw [List.cons_append, runNodes, runNodes, ih, Exec.bind_apply, Exec.bind_apply,
        Exec.bind_apply]
      rcases node.run setting entry m with ⟨halt | flow, m₁⟩
      · rfl
      · cases flow with
        | next => exact Exec.bind_apply _ _ m₁
        | leave => rfl
        | answer value => rfl

/-- Where no blocks are watched, a block of its own runs as its nodes do. -/
theorem run_body_unwatched {setting : Setting ω}
    (h : ∀ event world, setting.host.watch event world = world) (entry : Entry ω)
    (nodes : List Node) : runBody setting entry nodes = runNodes setting entry nodes :=
  Exec.between_unwatched h _ _ _

/-- Where no blocks are watched, joined scripts run one after another. -/
theorem Script.run_append {setting : Setting ω}
    (h : ∀ event world, setting.host.watch event world = world) (first second : Script) :
    Script.run setting (first ++ second) =
      first.run setting >>= fun _ => second.run setting := by
  funext m
  rw [Script.run, run_body_unwatched h, run_nodes_append, Exec.bind_apply, Exec.bind_apply,
    Exec.bind_apply, Script.run, Script.run, run_body_unwatched h, run_body_unwatched h,
    Exec.bind_apply]
  rcases runNodes setting (enter setting maxCallDepth) first m with ⟨halt | flow, m₁⟩
  · rfl
  · cases flow with
    | next => exact (Exec.bind_apply _ _ m₁).symm
    | leave => rfl
    | answer value => rfl

/-! ## Steps that were taken before -/

/-- The machine when a number of steps were taken before. -/
def Machine.later (taken : Nat) (m : Machine ω) : Machine ω :=
  { m with steps := taken + m.steps }

/-- Without a limit, and where nothing is watched, a step only counts. -/
theorem count_step_unwatched {host : Host ω}
    (h : ∀ event world, host.watch event world = world) (rounds : Nat) (m : Machine ω) :
    countStep ⟨host, none, rounds⟩ m = (.ok (), m.later 1) := by
  have hfree : ∀ limit, none = some limit → m.steps < limit := nofun
  rw [count_step_ok hfree, h, Nat.add_comm]
  rfl

theorem Machine.later_watched (taken : Nat) (host : Host ω) (event : Event) (m : Machine ω) :
    (m.later taken).watched host event = (m.watched host event).later taken := rfl

/-- The execution goes the same way, whatever number of steps were taken before. -/
def CountsOn (taken : Nat) {α : Type} (x y : Exec ω α) : Prop :=
  ∀ m, y (m.later taken) = ((x m).1, (x m).2.later taken)

namespace CountsOn

variable {taken : Nat}

theorem bind {α β : Type} {x y : Exec ω α} {f g : α → Exec ω β} (hx : CountsOn taken x y)
    (hf : ∀ a, CountsOn taken (f a) (g a)) : CountsOn taken (x >>= f) (y >>= g) := by
  intro m
  rw [Exec.bind_apply, Exec.bind_apply, hx m]
  rcases x m with ⟨halt | a, m₁⟩
  · rfl
  · exact hf a m₁

theorem between {α : Type} {x y : Exec ω α} (hx : CountsOn taken x y) (host : Host ω)
    (first last : Event) :
    CountsOn taken (Exec.between host first last x) (Exec.between host first last y) := by
  intro m
  rw [Exec.between_apply, Exec.between_apply, Machine.later_watched, hx]
  rfl

theorem step (host : Host ω) (rounds : Nat) :
    CountsOn taken (countStep ⟨host, none, rounds⟩) (countStep ⟨host, none, rounds⟩) := by
  intro m
  have hfree (m : Machine ω) : countStep ⟨host, none, rounds⟩ m =
      (.ok (), ⟨host.watch .step m.world, m.names, m.steps + 1⟩) :=
    count_step_ok fun _ hlimit => absurd hlimit (by simp)
  rw [hfree, hfree]
  rfl

/-- Without a limit, no part of a run depends on the steps that were taken before. -/
theorem simulation (host : Host ω) (rounds : Nat) :
    Simulation ⟨host, none, rounds⟩ ⟨host, none, rounds⟩ (fun _ => True)
      (CountsOn taken) where
  pure a m := rfl
  bind hx hf := hx.bind hf
  fail _ m := rfl
  under frame x y hx m := by rw [Exec.under_apply, Exec.under_apply, hx m]
  block hx := hx.between host _ _
  procedure name body _ _ hx := hx.between host _ _
  names hf m := hf m (m.later taken) rfl (fun _ _ _ => trivial) m
  assign name value m := rfl
  define name body _ m := rfl
  step := .step host rounds
  operation? name := rfl
  operation {name act act'} arguments hact hact' m := by
    cases hact.symm.trans hact'
    rw [run_operation_apply, run_operation_apply]
    rfl
  whilst htest hbody := Exec.whilst_related (fun _ _ => rfl) (fun hx hf => hx.bind hf)
    (fun _ => rfl) htest hbody (.step host rounds) rounds
  nested _ _ _ _ _ _ := trivial

/-- Without a limit, a script runs as if no steps had been taken before. -/
theorem script (host : Host ω) (rounds taken : Nat) (script : Script) :
    CountsOn taken (script.run ⟨host, none, rounds⟩) (script.run ⟨host, none, rounds⟩) :=
  (simulation host rounds).script script fun _ _ _ _ _ => trivial

end CountsOn

end RobotBench
