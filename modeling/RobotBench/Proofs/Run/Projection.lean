import RobotBench.Proofs.Run.Simulation

/-!
# Hosts over a part of the world

A host that acts on a part of its world only runs scripts as the host of that part does: what
else there is in the world is a record beside the run and does not change it. This is what
lets a run be watched, by a robot that keeps its commands or by a host that keeps a log.
`projection_simulation` says so for every part of a run.
-/

namespace RobotBench

section

variable {ω ω' : Type}

/-- A host with a larger world does to a part of it what the host of that part does. -/
structure Host.Projects (part : ω' → ω) (host' : Host ω') (host : Host ω) : Prop where
  watch (event : Event) (world : ω') :
    part (host'.watch event world) = host.watch event (part world)
  operation? (name : String) :
    (host'.operation? name).isSome = (host.operation? name).isSome
  operation {name : String} {act' : Arguments → ω' → Except Cause Value × ω'}
    {act : Arguments → ω → Except Cause Value × ω} :
    host'.operation? name = some act' → host.operation? name = some act →
      ∀ arguments world, act arguments (part world) =
        ((act' arguments world).1, part (act' arguments world).2)

/-- The machine with a part of its world only. -/
def Machine.project (part : ω' → ω) (m : Machine ω') : Machine ω :=
  ⟨part m.world, m.names, m.steps⟩

/-- The first execution does to the part what the second one does. -/
def Projected (part : ω' → ω) {α : Type} (x : Exec ω' α) (y : Exec ω α) : Prop :=
  ∀ m, y (m.project part) = ((x m).1, (x m).2.project part)

variable {part : ω' → ω} {host' : Host ω'} {host : Host ω}

/-- A host of a part of the world as one of the whole world, which keeps a watch of its own. -/
def Host.onPart (host : Host ω) (part : ω' → ω) (replace : ω → ω' → ω')
    (watch : Event → ω' → ω') : Host ω' where
  operation? name := (host.operation? name).map fun act arguments world =>
    ((act arguments (part world)).1, replace (act arguments (part world)).2 world)
  watch := watch

/-- It does to the part what the host of the part does. -/
theorem Host.onPart_projects (host : Host ω) {part : ω' → ω} {replace : ω → ω' → ω'}
    {watch : Event → ω' → ω'} (hreplace : ∀ new world, part (replace new world) = new)
    (hwatch : ∀ event world, part (watch event world) = host.watch event (part world)) :
    (host.onPart part replace watch).Projects part host where
  watch := hwatch
  operation? name := Option.isSome_map
  operation {name act' act} hact' hact arguments world := by
    obtain ⟨act₀, hact₀, rfl⟩ := Option.map_eq_some_iff.1 hact'
    cases hact₀.symm.trans hact
    simp only [hreplace]

theorem Host.Projects.project_watched (h : host'.Projects part host) (event : Event)
    (m : Machine ω') :
    (m.watched host' event).project part = (m.project part).watched host event := by
  simp only [Machine.project, Machine.watched, h.watch]

theorem Projected.bind {α β : Type} {x : Exec ω' α} {y : Exec ω α} {f : α → Exec ω' β}
    {g : α → Exec ω β} (hx : Projected part x y) (hf : ∀ a, Projected part (f a) (g a)) :
    Projected part (x >>= f) (y >>= g) := by
  intro m
  have hfirst := hx m
  rw [Exec.bind_apply, Exec.bind_apply, hfirst]
  rcases x m with ⟨halt | a, m₁⟩
  · rfl
  · exact hf a m₁

theorem Projected.between {α : Type} {x : Exec ω' α} {y : Exec ω α} (hx : Projected part x y)
    (h : host'.Projects part host) (first last : Event) :
    Projected part (Exec.between host' first last x) (Exec.between host first last y) := by
  intro m
  rw [Exec.between_apply, Exec.between_apply, ← h.project_watched, hx, h.project_watched]

theorem Projected.step (h : host'.Projects part host) (maxSteps : Option Nat) (rounds : Nat) :
    Projected part (countStep ⟨host', maxSteps, rounds⟩)
      (countStep ⟨host, maxSteps, rounds⟩) := by
  intro m
  rcases count_step_cases ⟨host', maxSteps, rounds⟩ m with
    ⟨hroom, hcount⟩ | ⟨limit, hlimit, hover, hcount⟩
  · rw [hcount]
    have hsame : countStep ⟨host, maxSteps, rounds⟩ (m.project part) = _ := count_step_ok hroom
    rw [hsame]
    simp only [Machine.project, h.watch]
  · rw [hcount]
    exact count_step_over hlimit hover

/-- The parts of a run under the larger host are those of the run under the smaller one. -/
theorem projection_simulation (h : host'.Projects part host) (maxSteps : Option Nat)
    (rounds : Nat) :
    Simulation ⟨host', maxSteps, rounds⟩ ⟨host, maxSteps, rounds⟩ (fun _ => True)
      (Projected part) where
  pure a m := rfl
  bind hx hf := hx.bind hf
  fail _ m := rfl
  under frame x x' h m := by rw [Exec.under_apply, Exec.under_apply, h m]
  block hx := hx.between h _ _
  procedure name body _ _ hx := hx.between h _ _
  names h m := h m (m.project part) rfl (fun _ _ _ => trivial) m
  assign name value m := rfl
  define name body _ m := rfl
  step := .step h maxSteps rounds
  operation? := h.operation?
  operation {name act act'} arguments hact hact' m := by
    have hsame := h.operation hact hact' arguments (host'.watch (.operation name) m.world)
    rw [h.watch] at hsame
    rw [run_operation_apply, run_operation_apply]
    show _ = (_, Machine.project part _)
    rw [Machine.project, Machine.project, hsame]
  whilst htest hbody := Exec.whilst_related (fun _ _ => rfl) (fun hx hf => hx.bind hf)
    (fun _ => rfl) htest hbody (.step h maxSteps rounds) rounds
  nested _ _ _ _ _ _ := trivial

end

end RobotBench
