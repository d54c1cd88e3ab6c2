import RobotBench.Proofs.Run.Projection

/-!
# Logged runs

A logged host keeps the events that it watches, and scripts do not notice: `logged_run`. So
what holds of the logs of logged runs is a fact about every run. `Exec.Adds` says what an
execution adds to a log, and `tally_account` relates the steps in the log to those that the
machine has taken and to their limit.
-/

namespace RobotBench

/-- A world and the events watched in it, in their order. -/
structure Logged (ω : Type) where
  world : ω
  log : List Event

section

variable {ω : Type}

/-- The host, which also keeps a log of the events that it watches. -/
def Host.logged (host : Host ω) : Host (Logged ω) :=
  host.onPart Logged.world (fun world w => { w with world })
    fun event w => ⟨host.watch event w.world, w.log ++ [event]⟩

/-- The setting with a log. -/
def Setting.logged (setting : Setting ω) : Setting (Logged ω) :=
  ⟨setting.host.logged, setting.maxSteps, setting.rounds⟩

/-- A logged host is the host with a log. -/
theorem Host.logged_projects (host : Host ω) : host.logged.Projects Logged.world host :=
  host.onPart_projects (fun _ _ => rfl) fun _ _ => rfl

/-- The machine after a script was run and procedures were called one after another, whatever
became of the script and of the calls before. -/
def lifetime (run : Exec ω Unit) (call : String → Exec ω Value) (calls : List String)
    (m : Machine ω) : Machine ω :=
  calls.foldl (fun m name => (call name m).2) (run m).2

/-- What the run and every call preserve holds at the end. -/
theorem lifetime_induction {P : Machine ω → Prop} {run : Exec ω Unit}
    {call : String → Exec ω Value} (hrun : ∀ m, P m → P (run m).2)
    (hcall : ∀ name m, P m → P (call name m).2) (calls : List String) {m : Machine ω}
    (h : P m) : P (lifetime run call calls m) :=
  List.foldlRecOn calls _ (hrun m h) fun m hm name _ => hcall name m hm

/-- Where everything is done to a part of the world only, so is the whole lifetime. -/
theorem Projected.lifetime {ω' : Type} {part : ω' → ω} {run : Exec ω' Unit} {run' : Exec ω Unit}
    {call : String → Exec ω' Value} {call' : String → Exec ω Value}
    (hrun : Projected part run run') (hcall : ∀ name, Projected part (call name) (call' name))
    (calls : List String) (m : Machine ω') :
    RobotBench.lifetime run' call' calls (m.project part) =
      (RobotBench.lifetime run call calls m).project part := by
  rw [RobotBench.lifetime, RobotBench.lifetime, hrun]
  exact List.foldl_hom (Machine.project part) fun m name => by rw [hcall]

/-- A logged run is the run, with the log beside it. -/
theorem logged_run (setting : Setting ω) (script : Script) :
    Projected Logged.world (script.run setting.logged) (script.run setting) :=
  (projection_simulation setting.host.logged_projects setting.maxSteps setting.rounds).script
    script (fun _ _ _ _ _ => trivial)

/-- A logged call is the call, with the log beside it. -/
theorem logged_call (setting : Setting ω) (name : String) :
    Projected Logged.world (callProcedure setting.logged name) (callProcedure setting name) :=
  (projection_simulation setting.host.logged_projects setting.maxSteps
    setting.rounds).call_procedure name

/-! ## What is in a log -/

/-- The event is a step that was counted. -/
def Event.isStep : Event → Bool
  | .step => true
  | _ => false

/-- The event is the beginning of an operation. -/
def Event.isOperation : Event → Bool
  | .operation _ => true
  | _ => false

/-- How many steps were counted. -/
def stepsIn (events : List Event) : Nat := events.countP Event.isStep

/-- How many operations were begun. -/
def operationsIn (events : List Event) : Nat := events.countP Event.isOperation

@[simp] theorem steps_in_nil : stepsIn [] = 0 := rfl

@[simp] theorem steps_in_append (events more : List Event) :
    stepsIn (events ++ more) = stepsIn events + stepsIn more := List.countP_append

@[simp] theorem steps_in_cons (event : Event) (events : List Event) :
    stepsIn (event :: events) = stepsIn events + if event.isStep then 1 else 0 :=
  List.countP_cons

@[simp] theorem operations_in_nil : operationsIn [] = 0 := rfl

@[simp] theorem operations_in_append (events more : List Event) :
    operationsIn (events ++ more) = operationsIn events + operationsIn more :=
  List.countP_append

@[simp] theorem operations_in_cons (event : Event) (events : List Event) :
    operationsIn (event :: events) =
      operationsIn events + if event.isOperation then 1 else 0 :=
  List.countP_cons

/-! ## What executions add to a log -/

namespace Exec

variable {α β : Type}

/-- Where the names satisfy an invariant, the execution keeps that, and what it adds to the log
satisfies a predicate together with how it ends and the machines before and after it. -/
def Adds (Inv : Namespace → Prop)
    (P : Machine (Logged ω) → Except Halt α → List Event → Machine (Logged ω) → Prop)
    (x : Exec (Logged ω) α) : Prop :=
  ∀ m, Inv m.names → Inv (x m).2.names ∧
    ∃ events, (x m).2.world.log = m.world.log ++ events ∧ P m (x m).1 events (x m).2

variable {Inv : Namespace → Prop}
  {P Q : Machine (Logged ω) → Except Halt α → List Event → Machine (Logged ω) → Prop}
  {R : Machine (Logged ω) → Except Halt β → List Event → Machine (Logged ω) → Prop}
  {x : Exec (Logged ω) α}

/-- What is added satisfies every weaker predicate. -/
theorem Adds.mono (h : Adds Inv P x)
    (hPQ : ∀ m r events m', P m r events m' → Q m r events m') : Adds Inv Q x := by
  intro m hm
  obtain ⟨hkept, events, hlog, hP⟩ := h m hm
  exact ⟨hkept, events, hlog, hPQ _ _ _ _ hP⟩

/-- Two facts about what an execution adds are about the same events. -/
theorem Adds.and (h : Adds Inv P x) (h' : Adds Inv Q x) :
    Adds Inv (fun m r events m' => P m r events m' ∧ Q m r events m') x := by
  intro m hm
  obtain ⟨hkept, events, hlog, hP⟩ := h m hm
  obtain ⟨-, events', hlog', hQ⟩ := h' m hm
  obtain rfl := List.append_cancel_left (hlog.symm.trans hlog')
  exact ⟨hkept, events, hlog, hP, hQ⟩

/-- An execution that leaves the names and the log alone. -/
theorem adds_nothing (hnames : ∀ m, (x m).2.names = m.names)
    (hlog : ∀ m, (x m).2.world.log = m.world.log) (hP : ∀ m, P m (x m).1 [] (x m).2) :
    Adds Inv P x :=
  fun m hm => ⟨(hnames m).symm ▸ hm, [], (hlog m).trans (List.append_nil _).symm, hP m⟩

/-- What two executions in a row add is what the first adds, and after a value also what the second
does. -/
theorem Adds.bind {f : α → Exec (Logged ω) β}
    {S : α → Machine (Logged ω) → Except Halt β → List Event → Machine (Logged ω) → Prop}
    (hx : Adds Inv P x) (hf : ∀ a, Adds Inv (S a) (f a))
    (hok : ∀ m a events m₁ r more m₂, P m (.ok a) events m₁ → S a m₁ r more m₂ →
      R m r (events ++ more) m₂)
    (herror : ∀ m halt events m₁, P m (.error halt) events m₁ → R m (.error halt) events m₁) :
    Adds Inv R (x >>= f) := by
  intro m hm
  obtain ⟨hkept, events, hlog, hP⟩ := hx m hm
  rw [bind_apply]
  rcases hresult : x m with ⟨halt | a, m₁⟩
  · rw [hresult] at hkept hlog hP
    exact ⟨hkept, events, hlog, herror _ _ _ _ hP⟩
  · rw [hresult] at hkept hlog hP
    obtain ⟨hkept', more, hmore, hS⟩ := hf a m₁ hkept
    refine ⟨hkept', events ++ more, ?_, hok _ _ _ _ _ _ _ hP hS⟩
    rw [hmore, hlog, List.append_assoc]

/-- What is known of the names may be used for what is added. -/
theorem adds_names {f : Machine (Logged ω) → Exec (Logged ω) α}
    (h : ∀ m, Inv m.names → Adds Inv P (f m)) : Adds Inv P (get >>= f) :=
  fun m hm => h m hm m hm

/-- A frame changes the failure and not what is added. -/
theorem Adds.under (frame : Frame) (h : Adds Inv P x)
    (hP : ∀ m r events m', P m r events m' → Q m (r.mapError (·.under frame)) events m') :
    Adds Inv Q (x.under frame) := by
  intro m hm
  obtain ⟨hkept, events, hlog, hP'⟩ := h m hm
  rw [under_apply]
  exact ⟨hkept, events, hlog, hP _ _ _ _ hP'⟩

/-- The events before and after an execution enclose what it adds. -/
theorem Adds.between {host : Host ω} (first last : Event) (h : Adds Inv P x)
    (hP : ∀ (m : Machine (Logged ω)) r events (m' : Machine (Logged ω)),
      P (m.watched host.logged first) r events m' →
        Q m r (first :: events ++ [last]) (m'.watched host.logged last)) :
    Adds Inv Q (Exec.between host.logged first last x) := by
  intro m hm
  obtain ⟨hkept, events, hlog, hP'⟩ := h (m.watched host.logged first) hm
  refine ⟨hkept, first :: events ++ [last], ?_, hP m _ events _ hP'⟩
  show (x (m.watched host.logged first)).2.world.log ++ [last] = _
  rw [hlog]
  show m.world.log ++ [first] ++ events ++ [last] = _
  simp

/-- A step is in the log when it is within the limit, and fails otherwise. -/
theorem adds_step (setting : Setting ω) :
    Adds Inv (fun m r events m' => m'.steps = m.steps + 1 ∧
      (r = .ok () ∧ events = [.step] ∧
          (∀ limit, setting.maxSteps = some limit → m.steps < limit) ∨
        (∃ halt, r = .error halt) ∧ events = []))
      (countStep setting.logged) := by
  intro m hm
  rcases count_step_cases setting.logged m with ⟨hroom, hcount⟩ | ⟨limit, _, _, hcount⟩
  · rw [hcount]
    exact ⟨hm, [.step], rfl, rfl, .inl ⟨rfl, rfl, hroom⟩⟩
  · rw [hcount]
    exact ⟨hm, [], (List.append_nil _).symm, rfl, .inr ⟨⟨_, rfl⟩, rfl⟩⟩

/-- An operation adds its own event and no other. -/
theorem adds_operation (setting : Setting ω) {name : String}
    {act : Arguments → Logged ω → Except Cause Value × Logged ω} (arguments : Arguments)
    (hact : setting.logged.host.operation? name = some act) :
    Adds Inv (fun m _ events m' => events = [.operation name] ∧ m'.steps = m.steps)
      (runOperation setting.logged name act arguments) := by
  obtain ⟨act₀, _, rfl⟩ := Option.map_eq_some_iff.1 hact
  intro m hm
  rw [run_operation_apply]
  exact ⟨hm, [.operation name], rfl, rfl, rfl⟩

end Exec

/-! ## Accounts -/

/-- The events that begin and end something: a block, or a procedure. -/
inductive Event.Brackets : Event → Event → Prop
  | block : Brackets .openBlock .closeBlock
  | procedure (name : String) (body : List Node) : Brackets (.enter name body) (.exit name)

/-- A predicate on what executions add to the log that respects the parts of the meaning of
scripts. -/
structure Account (setting : Setting ω)
    (P : {α : Type} → Machine (Logged ω) → Except Halt α → List Event → Machine (Logged ω) →
      Prop) : Prop where
  nothing {α : Type} (result : Except Halt α) {m m' : Machine (Logged ω)} :
    m'.world = m.world → m'.steps = m.steps → P m result [] m'
  append {α β : Type} {a : α} {result : Except Halt β} {events more : List Event}
    {m m₁ m₂ : Machine (Logged ω)} :
    P m (.ok a) events m₁ → P m₁ result more m₂ → P m result (events ++ more) m₂
  /-- Why an execution fails does not matter. -/
  failed {α β : Type} {halt : Halt} (halt' : Halt) {events : List Event}
    {m m' : Machine (Logged ω)} :
    P m (.error halt : Except Halt α) events m' → P m (.error halt' : Except Halt β) events m'
  between {α : Type} {first last : Event} {result : Except Halt α} {events : List Event}
    {m m' : Machine (Logged ω)} : first.Brackets last →
    P (m.watched setting.logged.host first) result events m' →
      P m result (first :: events ++ [last]) (m'.watched setting.logged.host last)
  step (Inv : Namespace → Prop) : Exec.Adds Inv P (countStep setting.logged)
  operation (Inv : Namespace → Prop) {name : String}
    {act : Arguments → Logged ω → Except Cause Value × Logged ω} (arguments : Arguments) :
    setting.logged.host.operation? name = some act →
      Exec.Adds Inv P (runOperation setting.logged name act arguments)

/-- What an execution adds to the log satisfies an account. The second execution, for which
simulations have a place, is of no importance. -/
def Exec.Keeps (P : {α : Type} → Machine (Logged ω) → Except Halt α → List Event →
    Machine (Logged ω) → Prop) {α : Type} (x _ : Exec (Logged ω) α) : Prop :=
  Adds (fun _ => True) P x

section

variable {setting : Setting ω}
  {P : {α : Type} → Machine (Logged ω) → Except Halt α → List Event → Machine (Logged ω) → Prop}
  (account : Account setting P)
include account

/-- What changes neither the world nor the count of steps keeps every account. -/
theorem Account.keeps_nothing {α : Type} {x x' : Exec (Logged ω) α}
    (hworld : ∀ m, (x m).2.world = m.world) (hsteps : ∀ m, (x m).2.steps = m.steps) :
    Exec.Keeps P x x' := by
  intro m _
  refine ⟨trivial, [], ?_, account.nothing _ (hworld m) (hsteps m)⟩
  rw [hworld, List.append_nil]

/-- Executions in a row keep an account when each of them does. -/
theorem Account.bind {α β : Type} {x x' : Exec (Logged ω) α} {f f' : α → Exec (Logged ω) β}
    (hx : Exec.Keeps P x x') (hf : ∀ a, Exec.Keeps P (f a) (f' a)) :
    Exec.Keeps P (x >>= f) (x' >>= f') :=
  Exec.Adds.bind hx hf (fun _ _ _ _ _ _ _ h h' => account.append h h')
    fun _ halt _ _ h => account.failed halt h

/-- Every part of a run satisfies an account. -/
theorem Account.simulation :
    Simulation setting.logged setting.logged (fun _ => True) (Exec.Keeps P) where
  pure a := account.keeps_nothing (fun _ => rfl) fun _ => rfl
  bind hx hf := account.bind hx hf
  fail _ := account.keeps_nothing (fun _ => rfl) fun _ => rfl
  under frame x _ h := Exec.Adds.under frame h fun m r events m' h => by
    cases r with
    | ok a => exact h
    | error halt => exact account.failed _ h
  block h := Exec.Adds.between _ _ h fun _ _ _ _ h => account.between .block h
  procedure name body _ _ h :=
    Exec.Adds.between _ _ h fun _ _ _ _ h => account.between (.procedure name body) h
  names h m := h m m rfl (fun _ _ _ => trivial) m
  assign name value := account.keeps_nothing (fun _ => rfl) fun _ => rfl
  define name body _ := account.keeps_nothing (fun _ => rfl) fun _ => rfl
  step := account.step _
  operation? name := rfl
  operation arguments hact _ := account.operation _ arguments hact
  whilst htest hbody := Exec.whilst_related
    (fun _ => account.keeps_nothing (fun _ => rfl) fun _ => rfl)
    (fun hx hf => account.bind hx hf)
    (account.keeps_nothing (fun _ => rfl) fun _ => rfl) htest hbody (account.step _)
    setting.rounds
  nested _ _ _ _ _ _ := trivial

/-- What the events that satisfy an account preserve holds of the machine at the end of a
lifetime. -/
theorem Account.lifetime {Q : Machine (Logged ω) → Prop}
    (hQ : ∀ {α : Type} (m : Machine (Logged ω)) (result : Except Halt α) events m',
      m'.world.log = m.world.log ++ events → P m result events m' → Q m → Q m')
    (script : Script) (calls : List String) {m : Machine (Logged ω)} (h : Q m) :
    Q (RobotBench.lifetime (script.run setting.logged) (callProcedure setting.logged) calls m) := by
  have hkeeps {α : Type} {x : Exec (Logged ω) α} (hx : Exec.Keeps P x x) (m) (hm : Q m) :
      Q (x m).2 := by
    obtain ⟨-, events, hlog, hP⟩ := hx m trivial
    exact hQ m _ events _ hlog hP hm
  exact lifetime_induction (hkeeps (account.simulation.script script fun _ _ _ _ _ => trivial))
    (fun name => hkeeps (account.simulation.call_procedure name)) calls h

end

/-! ## Steps and limits -/

/-- The steps in the events have been taken between the machines and are within the limit, and
they are all that have been taken if the execution succeeded. -/
structure Tallied (maxSteps : Option Nat) {α : Type} (m : Machine (Logged ω))
    (result : Except Halt α) (events : List Event) (m' : Machine (Logged ω)) : Prop where
  taken : m.steps + stepsIn events ≤ m'.steps
  exact : (∃ a, result = .ok a) → m'.steps = m.steps + stepsIn events
  within : ∀ limit, maxSteps = some limit → stepsIn events ≤ limit - m.steps

/-- The steps of every part of a run are in its log. -/
theorem tally_account (setting : Setting ω) : Account setting (Tallied setting.maxSteps) where
  nothing result _ _ _ h := ⟨Nat.le_of_eq h.symm, fun _ => h, fun _ _ => Nat.zero_le _⟩
  append {_ _ a result events more m m₁ m₂} h h' := by
    have hfirst := h.exact ⟨a, rfl⟩
    have hboth := steps_in_append events more
    refine ⟨?_, fun hok => ?_, fun limit hlimit => ?_⟩
    · have htaken := h'.taken
      omega
    · have hexact := h'.exact hok
      omega
    · have hin := h.within limit hlimit
      have hin' := h'.within limit hlimit
      omega
  failed _ _ _ _ h := ⟨h.taken, nofun, h.within⟩
  between {_ first last _ events _ _} hbrackets h := by
    have hsteps : stepsIn (first :: events ++ [last]) = stepsIn events := by
      cases hbrackets <;> simp [Event.isStep]
    exact ⟨hsteps ▸ h.taken, hsteps ▸ h.exact, hsteps ▸ h.within⟩
  step Inv := by
    refine (Exec.adds_step setting).mono fun m r events m' h => ?_
    obtain ⟨hsteps, ⟨rfl, rfl, hroom⟩ | ⟨⟨halt, rfl⟩, rfl⟩⟩ := h
    · refine ⟨Nat.le_of_eq hsteps.symm, fun _ => hsteps, fun limit hlimit => ?_⟩
      have hlimit := hroom limit hlimit
      show 1 ≤ limit - m.steps
      omega
    · refine ⟨?_, nofun, fun _ _ => Nat.zero_le _⟩
      exact Nat.le_of_lt (Nat.lt_of_lt_of_eq (Nat.lt_succ_self _) hsteps.symm)
  operation Inv _ _ arguments hact :=
    (Exec.adds_operation setting arguments hact).mono fun m r events m' h => by
      obtain ⟨rfl, hsteps⟩ := h
      exact ⟨Nat.le_of_eq hsteps.symm, fun _ => hsteps, fun _ _ => Nat.zero_le _⟩

/-- The steps in the log of a lifetime are within the limit, also when it is passed and more
procedures are called. -/
theorem lifetime_within (setting : Setting ω) {limit : Nat} (hlimit : setting.maxSteps = some limit)
    (script : Script) (calls : List String) {m : Machine (Logged ω)} (hlog : m.world.log = []) :
    stepsIn (lifetime (script.run setting.logged) (callProcedure setting.logged) calls
      m).world.log ≤ limit := by
  -- no step is in the log that has not been taken
  refine ((tally_account setting).lifetime (Q := fun m =>
    stepsIn m.world.log ≤ m.steps ∧ stepsIn m.world.log ≤ limit) ?_ script calls ?_).2
  · intro _ m result events m' hadded htally hm
    have htaken := htally.taken
    have hwithin := htally.within limit hlimit
    rw [hadded, steps_in_append]
    omega
  · rw [hlog]
    exact ⟨Nat.zero_le _, Nat.zero_le _⟩

/-- An execution that succeeds within the limit is still within it when it ends. -/
theorem Projected.within {maxSteps : Option Nat} {limit : Nat} (hlimit : maxSteps = some limit)
    {α : Type} {x' : Exec (Logged ω) α} {x : Exec ω α} (hx : Projected Logged.world x' x)
    (htally : Exec.Keeps (Tallied maxSteps) x' x') {m m' : Machine ω} {a : α}
    (hrun : x m = (.ok a, m')) (h : m.steps ≤ limit) : m'.steps ≤ limit := by
  let start : Machine (Logged ω) := ⟨⟨m.world, []⟩, m.names, m.steps⟩
  have hsame : ((x' start).1, (x' start).2.project Logged.world) = (.ok a, m') :=
    (hx start).symm.trans hrun
  obtain ⟨hok, rfl⟩ := Prod.mk.inj hsame
  obtain ⟨-, events, -, htallied⟩ := htally start trivial
  have hexact : (x' start).2.steps = m.steps + stepsIn events := htallied.exact ⟨a, hok⟩
  have hwithin : stepsIn events ≤ limit - m.steps := htallied.within limit hlimit
  show (x' start).2.steps ≤ limit
  omega

end

end RobotBench
