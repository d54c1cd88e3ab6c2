import RobotBench.Proofs.Run.Simulation
import RobotBench.Proofs.Script.Grammar

/-!
# Where control flow ends

What the scopes of a script say about its runs. `Statement.ends` says that a statement ends
by `break` only inside a loop of its own procedure and by `return` only inside a procedure;
it speaks of all machines, and so of all calls. That calls only ever enter bodies that are
scoped as bodies of procedures is a fact about the names, which `inside_simulation` carries
through a run: whatever `enterOr` would do where a body ends by `break`, it is not done.
`flow_stays_inside` puts both together for the texts that are accepted as scripts.
-/

namespace RobotBench

/-- How a statement in the scope may end: by `break` inside a loop of its procedure, by
`return` inside a procedure. -/
def Scope.Allows (scope : Scope) : Flow → Prop
  | .next => True
  | .leave => scope.inLoop
  | .answer _ => scope.inProcedure

/-- How a loop ends when a round of it ends like this, and not with `next`. -/
def Flow.afterLoop : Flow → Flow
  | .answer value => .answer value
  | _ => .next

/-- The statement is a loop. -/
def Statement.IsLoop : Statement → Prop
  | .repeated _ _ | .loop _ | .whilst _ _ => True
  | _ => False

/-! ## How executions end -/

namespace Exec

variable {ω α β : Type}

/-- Every result of the execution satisfies a predicate. -/
def Ends (P : α → Prop) (x : Exec ω α) : Prop := ∀ m a m', x m = (.ok a, m') → P a

variable {P : α → Prop} {Q : β → Prop}

theorem ends_any (x : Exec ω α) : Ends (fun _ => True) x := fun _ _ _ _ => trivial

/-- How executions end may be weakened. -/
theorem Ends.mono {x : Exec ω α} {P' : α → Prop} (h : Ends P x) (hP : ∀ a, P a → P' a) :
    Ends P' x := fun m a m' hx => hP a (h m a m' hx)

/-- A value ends as it is. -/
theorem ends_pure {a : α} (h : P a) : Ends P (pure a : Exec ω α) := by
  intro m b m' hx
  cases hx
  exact h

/-- Executions in a row end as the second one does. -/
theorem ends_bind {x : Exec ω α} {f : α → Exec ω β} (hx : Ends P x)
    (hf : ∀ a, P a → Ends Q (f a)) : Ends Q (x >>= f) := by
  intro m b m' h
  rw [bind_apply] at h
  split at h
  · rename_i a m₁ hm
    exact hf a (hx m a m₁ hm) m₁ b m' h
  · cases h

/-- Below a frame an execution ends in the same way. -/
theorem ends_under {x : Exec ω α} (frame : Frame) (h : Ends P x) : Ends P (x.under frame) := by
  intro m a m' hx
  rw [under_apply] at hx
  rcases hresult : x m with ⟨halt | b, m₁⟩
  · rw [hresult] at hx
    cases hx
  · rw [hresult] at hx
    cases hx
    exact h m _ m₁ hresult

/-- Between two events an execution ends in the same way. -/
theorem ends_between {host : Host ω} {first last : Event} {x : Exec ω α} (h : Ends P x) :
    Ends P (between host first last x) := by
  intro m a m' hx
  unfold between at hx
  split at hx
  rename_i result m₁ hm
  cases hx
  exact h _ a m₁ hm

/-! A loop takes every `break` of its body and hands on every `return`. -/

/-- A repetition never leaves, and answers only where its scope allows it. -/
theorem ends_times {scope : Scope} {body : Exec ω Flow} (h : Ends scope.loop.Allows body)
    (count : Nat) : Ends (fun flow => flow ≠ .leave ∧ scope.Allows flow) (times body count) := by
  induction count with
  | zero => exact ends_pure ⟨nofun, trivial⟩
  | succ count ih =>
      rw [times_succ]
      refine ends_bind h fun flow hflow => ?_
      cases flow with
      | next => exact ih
      | leave => exact ends_pure ⟨nofun, trivial⟩
      | answer value => exact ends_pure ⟨nofun, hflow⟩

/-- A loop never leaves, and answers only where its scope allows it. -/
theorem ends_whilst {scope : Scope} {test : Exec ω Bool} {body : Exec ω Flow}
    {pause : Exec ω Unit} (h : Ends scope.loop.Allows body) (rounds : Nat) :
    Ends (fun flow => flow ≠ .leave ∧ scope.Allows flow) (whilst test body pause rounds) := by
  induction rounds with
  | zero =>
      intro m flow m' hx
      cases hx
  | succ rounds ih =>
      rw [whilst_succ]
      refine ends_bind (ends_any test) fun holds _ => ?_
      cases holds with
      | false => exact ends_pure ⟨nofun, trivial⟩
      | true =>
          refine ends_bind h fun flow hflow => ?_
          cases flow with
          | next => exact ends_bind (ends_any pause) fun _ _ => ih
          | leave => exact ends_pure ⟨nofun, trivial⟩
          | answer value => exact ends_pure ⟨nofun, hflow⟩

/-- A round that ends by `break` or `return` is the last one of the loop around it, which
ends there and then: by `next` after a `break`, by the same `return` after that. -/
theorem whilst_ends_round {test : Exec ω Bool} {body : Exec ω Flow} {m m₁ m₂ : Machine ω}
    {flow : Flow} (htest : test m = (.ok true, m₁)) (hbody : body m₁ = (.ok flow, m₂))
    (hflow : flow ≠ .next) (pause : Exec ω Unit) (rounds : Nat) :
    whilst test body pause (rounds + 1) m = (.ok flow.afterLoop, m₂) := by
  rw [whilst_succ, bind_ok htest]
  simp only
  rw [bind_ok hbody]
  cases flow with
  | next => exact absurd rfl hflow
  | leave => rfl
  | answer value => rfl

/-- A repetition ends with the round that does not go on. -/
theorem times_ends_round {body : Exec ω Flow} {m m₁ : Machine ω} {flow : Flow}
    (hbody : body m = (.ok flow, m₁)) (hflow : flow ≠ .next) (rounds : Nat) :
    times body (rounds + 1) m = (.ok flow.afterLoop, m₁) := by
  rw [times_succ, bind_ok hbody]
  cases flow with
  | next => exact absurd rfl hflow
  | leave => rfl
  | answer value => rfl

end Exec

/-! ## How scoped statements end -/

section

variable {ω : Type} (setting : Setting ω) (entry : Entry ω)

open Exec

mutual

/-- A scoped statement ends as its scope allows, and a loop does not end by `break`. -/
theorem Statement.ends (s : Statement) {scope : Scope} (h : s.Scoped scope) :
    Ends (fun flow => (s.IsLoop → flow ≠ .leave) ∧ scope.Allows flow)
      (s.run setting entry) := by
  cases s with
  | assign name value =>
      exact ends_bind (ends_any _) fun _ _ => ends_bind (ends_any _) fun _ _ =>
        ends_pure ⟨nofun, trivial⟩
  | call c => exact ends_bind (ends_any _) fun _ _ => ends_pure ⟨nofun, trivial⟩
  | define name body => exact ends_bind (ends_any _) fun _ _ => ends_pure ⟨nofun, trivial⟩
  | repeated count body =>
      refine ends_bind (ends_any _) fun count _ => ?_
      exact (ends_times (ends_between (nodes_end body h.2)) count).mono fun flow hflow =>
        ⟨fun _ => hflow.1, hflow.2⟩
  | loop body =>
      show Ends _ (Exec.forever _ _ _)
      rw [forever_eq_whilst]
      exact (ends_whilst (ends_between (nodes_end body h.2)) _).mono fun flow hflow =>
        ⟨fun _ => hflow.1, hflow.2⟩
  | whilst condition body =>
      exact (ends_whilst (ends_between (nodes_end body h.2)) _).mono fun flow hflow =>
        ⟨fun _ => hflow.1, hflow.2⟩
  | branch condition yes no =>
      refine ends_bind (ends_any _) fun holds _ => ?_
      cases holds with
      | true =>
          exact (ends_between (nodes_end yes h.2.1)).mono fun flow hflow => ⟨nofun, hflow⟩
      | false =>
          exact (ends_between (nodes_end no h.2.2)).mono fun flow hflow => ⟨nofun, hflow⟩
  | leave => exact ends_pure ⟨nofun, h⟩
  | answer value =>
      cases value with
      | none => exact ends_pure ⟨nofun, h⟩
      | some operand => exact ends_bind (ends_any _) fun _ _ => ends_pure ⟨nofun, h⟩
  termination_by structural s

/-- Scoped nodes end as their scope allows. -/
theorem nodes_end (nodes : List Node) {scope : Scope} (h : NodesScoped scope nodes) :
    Ends scope.Allows (runNodes setting entry nodes) := by
  cases nodes with
  | nil => exact ends_pure trivial
  | cons node more =>
      obtain ⟨line, s⟩ := node
      have hfirst := s.ends h.1
      have hmore := nodes_end more h.2
      refine ends_bind (ends_under _ (ends_bind (ends_any _) fun _ _ => hfirst))
        fun flow hflow => ?_
      cases flow with
      | next => exact hmore
      | leave => exact ends_pure hflow.2
      | answer value => exact ends_pure hflow.2
  termination_by structural nodes

end

/-- A block whose nodes are scoped ends as their scope allows. -/
theorem body_ends {scope : Scope} {nodes : List Node} (h : NodesScoped scope nodes) :
    Ends scope.Allows (runBody setting entry nodes) :=
  ends_between (nodes_end setting entry nodes h)

end

/-! ## Bodies of procedures -/

/-- The nodes are scoped as the body of a procedure, somewhere in a script. -/
def ScopedInside (nodes : List Node) : Prop := ∃ depth, NodesScoped ⟨false, true, depth⟩ nodes

/-- The body of a procedure does not end by `break`. -/
theorem ScopedInside.body_ends {ω : Type} {setting : Setting ω} {entry : Entry ω}
    {nodes : List Node} (h : ScopedInside nodes) :
    Exec.Ends (· ≠ .leave) (runBody setting entry nodes) := by
  obtain ⟨depth, hscoped⟩ := h
  refine (RobotBench.body_ends setting entry hscoped).mono fun flow hflow => ?_
  rintro rfl
  exact Bool.false_ne_true hflow

/-- What scoped nodes define is scoped as the body of a procedure. -/
theorem nodes_scoped_defines (nodes : List Node) {scope : Scope}
    (h : NodesScoped scope nodes) : DefinesOnly ScopedInside nodes := by
  have hdown : Descends (fun inner => ∃ scope, NodesScoped scope inner)
      (Statement.Defines ScopedInside) := by
    rintro line s more ⟨around, hs, hmore⟩
    refine ⟨?_, fun body hbody => hs.bodies hbody, around, hmore⟩
    -- the loops around a definition do not count inside its body: `Scope.procedure`
    rintro name body rfl
    exact ⟨around.depth + 1, hs.2⟩
  exact hdown.preorder nodes ⟨scope, h⟩

/-! ## Runs that do not escape -/

section

variable {ω : Type} (setting : Setting ω) (escape : String → Exec ω Value)

/-- Enters a procedure as `enter` does, but does `escape` where the body ends by `break`. -/
def enterOr : Nat → Entry ω
  | 0, name, _ => Exec.fail (.callDepth name maxCallDepth)
  | depth + 1, name, body => do
    match ← Exec.under (.procedure name)
      (Exec.between setting.host (.enter name body) (.exit name)
        (runBody setting (enterOr depth) body)) with
    | .leave => escape name
    | flow => return flow.value

/-- Where all bodies satisfy a predicate the executions do the same, and they keep that all
bodies do. -/
def SameInside (Body : List Node → Prop) {α : Type} (x y : Exec ω α) : Prop :=
  ∀ m, m.names.AllBodies Body → y m = x m ∧ (x m).2.names.AllBodies Body

end

namespace SameInside

variable {ω α β : Type} {Body : List Node → Prop}

/-- Of the continuations only results matter that the first part can have. -/
theorem bind_ends {P : α → Prop} {x y : Exec ω α} {f g : α → Exec ω β}
    (hx : SameInside Body x y) (hP : Exec.Ends P x)
    (hf : ∀ a, P a → SameInside Body (f a) (g a)) : SameInside Body (x >>= f) (y >>= g) := by
  intro m hm
  obtain ⟨hsame, hkept⟩ := hx m hm
  rw [Exec.bind_apply, Exec.bind_apply, hsame]
  cases hresult : x m with
  | mk result m₁ =>
      rw [hresult] at hkept
      cases result with
      | ok a => exact hf a (hP m a m₁ hresult) m₁ hkept
      | error halt => exact ⟨rfl, hkept⟩

/-- Between two events the executions are the same inside as well. -/
theorem between {x y : Exec ω α} (h : SameInside Body x y) (host : Host ω) (first last : Event) :
    SameInside Body (Exec.between host first last x) (Exec.between host first last y) := by
  intro m hm
  obtain ⟨hsame, hkept⟩ := h (m.watched host first) hm
  refine ⟨?_, hkept⟩
  rw [Exec.between_apply, Exec.between_apply, hsame]

/-- An execution that leaves the names alone. -/
theorem of_names {x : Exec ω α} (h : ∀ m, (x m).2.names = m.names) : SameInside Body x x := by
  intro m hm
  rw [h]
  exact ⟨rfl, hm⟩

end SameInside

/-- Running a part of a script twice does the same, and keeps that all bodies satisfy a
predicate which a body hands down to those it defines. -/
theorem inside_simulation {ω : Type} (setting : Setting ω) {Body : List Node → Prop}
    (hnested : ∀ body, Body body → DefinesOnly Body body) :
    Simulation setting setting Body (SameInside Body) where
  pure a := .of_names fun m => rfl
  bind hx hf := hx.bind_ends (Exec.ends_any _) fun a _ => hf a
  fail _ := .of_names fun m => rfl
  under frame x x' h m hm := by
    obtain ⟨hsame, hkept⟩ := h m hm
    rw [Exec.under_apply, Exec.under_apply, hsame]
    exact ⟨rfl, hkept⟩
  block h := h.between setting.host _ _
  procedure name body _ _ h := h.between setting.host _ _
  names h m hm := h m m rfl hm m hm
  assign name value m hm := ⟨rfl, hm⟩
  define name body hbody m hm := ⟨rfl, hm.define name hbody⟩
  step := .of_names (count_step_names setting)
  operation? name := rfl
  operation arguments hact hact' := by
    cases hact.symm.trans hact'
    exact .of_names fun m => by rw [run_operation_apply]
  whilst htest hbody := Exec.whilst_related (fun flow => .of_names fun m => rfl)
    (fun hx hf => hx.bind_ends (Exec.ends_any _) fun a _ => hf a) (.of_names fun m => rfl)
    htest hbody (.of_names (count_step_names setting)) setting.rounds
  nested := hnested _

/-- What the body of a procedure defines is scoped as it is. -/
theorem ScopedInside.nested {body : List Node} (h : ScopedInside body) :
    DefinesOnly ScopedInside body := by
  obtain ⟨depth, hscoped⟩ := h
  exact nodes_scoped_defines body hscoped

/-- Running a part of a script keeps that all bodies are scoped as bodies of procedures. -/
theorem scoped_simulation {ω : Type} (setting : Setting ω) :
    Simulation setting setting ScopedInside (SameInside ScopedInside) :=
  inside_simulation setting fun _ h => h.nested

section

variable {ω : Type} (setting : Setting ω) (escape : String → Exec ω Value)

/-- Nothing depends on what `enterOr` does where a body ends by `break`. The induction is
on how many procedures may still become active. -/
theorem enter_or_same (depth : Nat) (name : String) (body : List Node)
    (h : ScopedInside body) :
    SameInside ScopedInside (enter setting depth name body)
      (enterOr setting escape depth name body) := by
  have sim := scoped_simulation setting
  induction depth generalizing name body with
  | zero => exact .of_names fun m => rfl
  | succ depth ih =>
      -- a scoped body does not end by `break`, so the case in which the two entries differ
      -- does not arise
      refine SameInside.bind_ends
        (sim.under (.procedure name)
          (sim.procedure name body (sim.body ih body h.nested)))
        (Exec.ends_under _ (Exec.ends_between h.body_ends)) fun flow hflow => ?_
      cases flow with
      | next => exact .of_names fun m => rfl
      | leave => exact absurd rfl hflow
      | answer value => exact .of_names fun m => rfl

end

/-! ## Names that scripts have bound -/

/-- The names have been bound by running accepted texts and calling the procedures that
these define, in any surroundings; variables may have been given values besides. -/
inductive Namespace.Scripted : Namespace → Prop
  | fresh : Scripted .empty
  | assign {names : Namespace} (name : String) (value : Value) (h : Scripted names) :
      Scripted (names.assign name value)
  | run {ω : Type} {setting : Setting ω} {text : String} {firstLine : Nat} {script : Script}
      {m : Machine ω} (htext : Script.ofText text firstLine = .ok script)
      (h : Scripted m.names) : Scripted (script.run setting m).2.names
  | call {ω : Type} {setting : Setting ω} {m : Machine ω} (name : String)
      (h : Scripted m.names) : Scripted (callProcedure setting name m).2.names

/-- The bodies that scripts have bound are scoped as bodies of procedures. -/
theorem Namespace.Scripted.all_bodies {names : Namespace} (h : names.Scripted) :
    names.AllBodies ScopedInside := by
  induction h with
  | fresh => exact nofun
  | assign name value _ ih => exact ih
  | @run ω setting text firstLine script m htext _ ih =>
      have sim := scoped_simulation setting
      exact (sim.script script (nodes_scoped_defines script (of_text_scoped htext)) m ih).2
  | @call ω setting m name _ ih =>
      have sim := scoped_simulation setting
      exact (sim.call_procedure name m ih).2

/-- Of an accepted text that is run where scripts have bound the names: its top level ends
with `next` if it does not fail, no procedure that is entered on the way ends by `break`,
and the names afterwards are again such, so that none ever will. A statement ends by `break`
only inside a loop of its own procedure and by `return` only inside a procedure, no loop
ends by `break`, and what a round of a loop and the body of a procedure end by is what ends
the loop and the procedure. -/
theorem flow_stays_inside {ω : Type} (setting : Setting ω) {text : String} {firstLine : Nat}
    {script : Script} (htext : Script.ofText text firstLine = .ok script)
    {names : Namespace} (hnames : names.Scripted) (world : ω) (steps : Nat) :
    let start : Machine ω := ⟨world, names, steps⟩
    let after := (script.run setting start).2.names
    (∀ flow m, runBody setting (enter setting maxCallDepth) script start = (.ok flow, m) →
      flow = .next) ∧
    (∀ escape, runBody setting (enterOr setting escape maxCallDepth) script start =
      runBody setting (enter setting maxCallDepth) script start) ∧
    (after.Scripted ∧ ∀ name body, after.procedures.find? name = some body →
      ∀ entry m₁ m₂, runBody setting entry body m₁ ≠ (.ok .leave, m₂)) ∧
    (∀ (s : Statement) (scope : Scope), s.Scoped scope → ∀ entry flow m₁ m₂,
      s.run setting entry m₁ = (.ok flow, m₂) →
        (s.IsLoop → flow ≠ .leave) ∧ scope.Allows flow) ∧
    (∀ body flow (m₁ m₂ : Machine ω), body m₁ = (.ok flow, m₂) → flow ≠ .next → ∀ pause rounds,
      Exec.times body (rounds + 1) m₁ = (.ok flow.afterLoop, m₂) ∧
      Exec.forever body pause (rounds + 1) m₁ = (.ok flow.afterLoop, m₂) ∧
      ∀ test m, test m = (.ok true, m₁) →
        Exec.whilst test body pause (rounds + 1) m = (.ok flow.afterLoop, m₂)) ∧
    ∀ depth name body flow (m₁ m₂ : Machine ω),
      Exec.between setting.host (.enter name body) (.exit name)
        (runBody setting (enter setting depth) body) m₁ = (.ok flow, m₂) →
      enter setting (depth + 1) name body m₁ = (.ok flow.value, m₂) := by
  intro start after
  have hscoped := of_text_scoped htext
  have hafter : after.Scripted := .run htext hnames
  have sim := scoped_simulation setting
  refine ⟨fun flow m hm => ?_, fun escape => ?_, ⟨hafter, fun name body hfind entry m₁ m₂ hm => ?_⟩,
    fun s scope hs entry flow m₁ m₂ hm => s.ends setting entry hs m₁ flow m₂ hm,
    fun body flow m₁ m₂ hbody hflow pause rounds => ⟨?_, ?_, fun test m htest => ?_⟩,
    fun depth name body flow m₁ m₂ hm => ?_⟩
  · -- nothing but `next` is allowed where there is neither loop nor procedure
    have hallowed := body_ends setting _ hscoped start flow m hm
    cases flow with
    | next => rfl
    | leave => exact absurd hallowed Bool.false_ne_true
    | answer value => exact absurd hallowed Bool.false_ne_true
  · have hsame := sim.body (enter_or_same setting escape maxCallDepth) script
      (nodes_scoped_defines script hscoped)
    exact (hsame start hnames.all_bodies).1
  · exact (hafter.all_bodies name body hfind).body_ends m₁ .leave m₂ hm rfl
  · exact Exec.times_ends_round hbody hflow rounds
  · rw [Exec.forever_eq_whilst]
    exact Exec.whilst_ends_round (Exec.pure_apply true m₁) hbody hflow pause rounds
  · exact Exec.whilst_ends_round htest hbody hflow pause rounds
  · rw [enter, Exec.bind_apply, Exec.under_apply, hm]
    rfl

/-- A loop that is left after a call of a procedure which returns out of a loop. -/
theorem flow_stays_inside_loop :
    let setting : Setting Unit := ⟨⟨fun _ => none, fun _ world => world⟩, some 9, 9⟩
    let earlier : Script := [.mk 1 (.define "f" [.mk 2 (.loop [.mk 3 (.answer none)])])]
    let script : Script := [.mk 1 (.loop [.mk 2 (.call ⟨"f", []⟩), .mk 3 .leave])]
    let names := (earlier.run setting ⟨(), .empty, 0⟩).2.names
    Script.ofText "def f\nloop\nreturn\nend\nend" 1 = .ok earlier ∧
      Script.ofText "loop\nf\nbreak\nend" 1 = .ok script ∧ names.Scripted ∧
      (∀ flow m, runBody setting (enter setting maxCallDepth) script ⟨(), names, 0⟩ =
        (.ok flow, m) → flow = .next) ∧
      ∀ escape, runBody setting (enterOr setting escape maxCallDepth) script ⟨(), names, 0⟩ =
        runBody setting (enter setting maxCallDepth) script ⟨(), names, 0⟩ := by
  intro setting earlier script names
  have hearlier : Script.ofText "def f\nloop\nreturn\nend\nend" 1 = .ok earlier := by cbv
  have hscript : Script.ofText "loop\nf\nbreak\nend" 1 = .ok script := by cbv
  have hnames : names.Scripted := .run hearlier .fresh
  obtain ⟨hnext, hescape, -⟩ := flow_stays_inside setting hscript hnames () 0
  exact ⟨hearlier, hscript, hnames, hnext, hescape⟩

end RobotBench
