import RobotBench.Proofs.Run.Flow
import RobotBench.Proofs.Run.Logging
import RobotBench.Proofs.Run.Nesting

/-!
# The order of events

What the log of a run looks like. `Orderly` is a grammar of logs: blocks and procedures end in
the opposite order to that in which they begin, only so many are open at a time, and every
operation comes right after a step, which is its own. `nodes_orderly` says that running nodes
adds events of this kind, by induction on the nodes, and `enter_within` that entering a
procedure does, by induction on how many more may become active. What is to be known of the
events of a run is derived from the grammar and does not look at runs again.
-/

namespace RobotBench

/-! ## The grammar -/

/-- The events are in order, with at most so many procedures and blocks open at a time. -/
inductive Orderly : (calls blocks : Nat) → List Event → Prop
  | nil {calls blocks : Nat} : Orderly calls blocks []
  | step {calls blocks : Nat} {rest : List Event} (hrest : Orderly calls blocks rest) :
      Orderly calls blocks (.step :: rest)
  | operation {calls blocks : Nat} {rest : List Event} (name : String)
      (hrest : Orderly calls blocks rest) :
      Orderly calls blocks (.step :: .operation name :: rest)
  | block {calls blocks : Nat} {inside rest : List Event} (hinside : Orderly calls blocks inside)
      (hrest : Orderly calls (blocks + 1) rest) :
      Orderly calls (blocks + 1) (.openBlock :: inside ++ .closeBlock :: rest)
  | call {calls blocks : Nat} {inside rest : List Event} (name : String) (body : List Node)
      (hinside : Orderly calls blocks inside) (hrest : Orderly (calls + 1) blocks rest) :
      Orderly (calls + 1) blocks (.enter name body :: inside ++ .exit name :: rest)

namespace Orderly

variable {calls blocks calls' blocks' : Nat} {events more : List Event}

/-- Events in order follow events in order. -/
theorem append (h : Orderly calls blocks events) (hmore : Orderly calls blocks more) :
    Orderly calls blocks (events ++ more) := by
  induction h with
  | nil => exact hmore
  | step _ ih => exact .step (ih hmore)
  | operation name _ ih => exact .operation name (ih hmore)
  | block hinside _ _ ih =>
      have hblock := block hinside (ih hmore)
      rwa [List.append_cons, ← List.append_assoc, ← List.append_cons] at hblock
  | call name body hinside _ _ ih =>
      have hcall := call name body hinside (ih hmore)
      rwa [List.append_cons, ← List.append_assoc, ← List.append_cons] at hcall

/-- What is in order stays so when more may be open. -/
theorem mono (h : Orderly calls blocks events) (hcalls : calls ≤ calls')
    (hblocks : blocks ≤ blocks') : Orderly calls' blocks' events := by
  induction h generalizing calls' blocks' with
  | nil => exact .nil
  | step _ ih => exact .step (ih hcalls hblocks)
  | operation name _ ih => exact .operation name (ih hcalls hblocks)
  | block _ _ ihinside ihrest =>
      obtain ⟨room, rfl⟩ : ∃ room, blocks' = room + 1 := ⟨blocks' - 1, by omega⟩
      exact .block (ihinside hcalls (Nat.le_of_succ_le_succ hblocks)) (ihrest hcalls hblocks)
  | call name body _ _ ihinside ihrest =>
      obtain ⟨room, rfl⟩ : ∃ room, calls' = room + 1 := ⟨calls' - 1, by omega⟩
      exact .call name body (ihinside (Nat.le_of_succ_le_succ hcalls) hblocks)
        (ihrest hcalls hblocks)

/-- A block on its own. -/
theorem of_block (h : Orderly calls blocks events) :
    Orderly calls (blocks + 1) (.openBlock :: events ++ [.closeBlock]) :=
  .block h .nil

end Orderly

/-- What entering a procedure adds: nothing when it is refused, else its run. -/
inductive Activation : (calls blocks : Nat) → List Event → Prop
  | refused {calls blocks : Nat} : Activation calls blocks []
  | entered {calls blocks : Nat} {inside : List Event} (name : String) (body : List Node)
      (hinside : Orderly calls blocks inside) :
      Activation (calls + 1) blocks (.enter name body :: inside ++ [.exit name])

/-- What evaluating a part of a statement adds: a call of one operation or procedure, or
nothing. -/
inductive Visit (calls blocks : Nat) : List Event → Prop
  | nothing : Visit calls blocks []
  | operation (name : String) : Visit calls blocks [.operation name]
  | procedure {events : List Event} (h : Activation calls blocks events) :
      Visit calls blocks events

/-- The activation of a procedure is in order by itself. -/
theorem Activation.orderly {calls blocks : Nat} {events : List Event}
    (h : Activation calls blocks events) : Orderly calls blocks events := by
  cases h with
  | refused => exact .nil
  | entered name body hinside => exact .call name body hinside .nil

/-- One step pays for a visit. -/
theorem Visit.orderly {calls blocks : Nat} {events : List Event}
    (h : Visit calls blocks events) : Orderly calls blocks (.step :: events) := by
  cases h with
  | nothing => exact .step .nil
  | operation name => exact .operation name .nil
  | procedure h => exact .step h.orderly

/-! ## What executions add while bodies are shallow -/

section

variable {ω : Type}

namespace Exec

variable {α β : Type} {bound calls blocks : Nat}

/-- Where no body is nested deeper than the bound, the execution keeps that, and what it adds
to the log satisfies a predicate together with how it ends. -/
def Emits (bound : Nat) (P : Except Halt α → List Event → Prop) (x : Exec (Logged ω) α) : Prop :=
  Adds (fun names => names.AllBodies (Shallow bound)) (fun _ r events _ => P r events) x

/-- It adds nothing. -/
def Quiet (bound : Nat) (x : Exec (Logged ω) α) : Prop :=
  Emits bound (fun _ events => events = []) x

/-- It adds the activation of a procedure. -/
def Activates (bound calls blocks : Nat) (x : Exec (Logged ω) α) : Prop :=
  Emits bound (fun _ events => Activation calls blocks events) x

/-- It adds what a visit adds. -/
def Visits (bound calls blocks : Nat) (x : Exec (Logged ω) α) : Prop :=
  Emits bound (fun _ events => Visit calls blocks events) x

/-- What it adds is in order after some earlier events. -/
def Continues (bound calls blocks : Nat) (earlier : List Event) (x : Exec (Logged ω) α) : Prop :=
  Emits bound (fun _ events => Orderly calls blocks (earlier ++ events)) x

variable {P Q : Except Halt α → List Event → Prop} {R : Except Halt β → List Event → Prop}
  {x : Exec (Logged ω) α} {f : α → Exec (Logged ω) β} {earlier : List Event}

/-- What is added satisfies every weaker predicate. -/
theorem Emits.mono (h : Emits bound P x) (hPQ : ∀ r events, P r events → Q r events) :
    Emits bound Q x :=
  Adds.mono h fun _ r events _ => hPQ r events

/-- What is added satisfies two predicates when it satisfies each. -/
theorem Emits.and (h : Emits bound P x) (h' : Emits bound Q x) :
    Emits bound (fun r events => P r events ∧ Q r events) x :=
  Adds.and h h'

/-- A value adds no event. -/
theorem emits_pure {a : α} (h : P (.ok a) []) :
    Emits bound P (pure a : Exec (Logged ω) α) :=
  adds_nothing (fun _ => rfl) (fun _ => rfl) fun _ => h

/-- A halt adds no event. -/
theorem emits_error {halt : Halt} (h : P (.error halt) []) :
    Emits bound P (throw halt : Exec (Logged ω) α) :=
  adds_nothing (fun _ => rfl) (fun _ => rfl) fun _ => h

/-- What two executions in a row add is what the first adds, and after a value also what the second
does. -/
theorem Emits.bind {S : α → Except Halt β → List Event → Prop} (hx : Emits bound P x)
    (hf : ∀ a, Emits bound (S a) (f a))
    (hok : ∀ a events r more, P (.ok a) events → S a r more → R r (events ++ more))
    (herror : ∀ halt events, P (.error halt) events → R (.error halt) events) :
    Emits bound R (x >>= f) :=
  Adds.bind hx hf (fun _ a events _ r more _ => hok a events r more)
    fun _ halt events _ => herror halt events

/-- A frame changes the failure and not the events. -/
theorem Emits.under (frame : Frame) (h : Emits bound P x)
    (hPQ : ∀ r events, P r events → Q (r.mapError (·.under frame)) events) :
    Emits bound Q (x.under frame) :=
  Adds.under frame h fun _ r events _ => hPQ r events

/-- What is watched is between the events of its beginning and its end. -/
theorem Emits.between {host : Host ω} (first last : Event) (h : Emits bound P x)
    (hPQ : ∀ r events, P r events → Q r (first :: events ++ [last])) :
    Emits bound Q (Exec.between host.logged first last x) :=
  Adds.between first last h fun _ r events _ => hPQ r events

/-- A step is counted and in the log, or the execution fails. -/
theorem emits_step (setting : Setting ω) :
    Emits bound (fun r events => r = .ok () ∧ events = [.step] ∨
      (∃ halt, r = .error halt) ∧ events = []) (countStep setting.logged) :=
  (adds_step setting).mono fun _ _ _ _ h => h.2.imp_left fun h => ⟨h.1, h.2.1⟩

/-- What is read from the names may be used, as their bodies are shallow. -/
theorem emits_names {f : Machine (Logged ω) → Exec (Logged ω) α}
    (h : ∀ m, m.names.AllBodies (Shallow bound) → Emits bound P (f m)) :
    Emits bound P (get >>= f) :=
  adds_names h

/-! ### Quiet executions -/

/-- A value is quiet. -/
theorem quiet_pure (a : α) : Quiet bound (pure a : Exec (Logged ω) α) := emits_pure rfl

/-- A result is quiet, whichever it is. -/
theorem quiet_of_except (result : Except Cause α) :
    Quiet bound (ofExcept result : Exec (Logged ω) α) := by
  cases result with
  | ok a => exact emits_pure rfl
  | error cause => exact emits_error rfl

/-- Setting a value is quiet. -/
theorem quiet_assign (name : String) (value : Value) :
    Quiet bound (modify fun m => { m with names := m.names.assign name value } :
      Exec (Logged ω) Unit) :=
  fun _ hm => ⟨hm, [], (List.append_nil _).symm, rfl⟩

/-- Setting a shallow body is quiet, and the bodies stay shallow. -/
theorem quiet_define (name : String) {body : List Node} (hbody : Shallow bound body) :
    Quiet bound (modify fun m => { m with names := m.names.define name body } :
      Exec (Logged ω) Unit) :=
  fun _ hm => ⟨hm.define name hbody, [], (List.append_nil _).symm, rfl⟩

/-- Reading an operand is quiet. -/
theorem quiet_read (operand : Atom) :
    Quiet bound (readOperand operand : Exec (Logged ω) Value) :=
  emits_names fun _ _ => quiet_of_except _

/-- After a quiet execution the events are those of what follows. -/
theorem Quiet.bind {R : Except Halt β → List Event → Prop} (hx : Quiet bound x)
    (hf : ∀ a, Emits bound R (f a)) (herror : ∀ halt, R (.error halt) []) :
    Emits bound R (x >>= f) :=
  Emits.bind hx hf (fun _ _ _ _ hevents hR => hevents ▸ hR) fun halt _ hevents =>
    hevents ▸ herror halt

/-- A quiet execution may end with any value. -/
theorem Quiet.done {a : α} {x : Exec (Logged ω) Unit} (h : Quiet bound x) :
    Quiet bound (x >>= fun _ => pure a) :=
  h.bind (fun _ => quiet_pure a) fun _ => rfl

/-- What follows quietly adds nothing. -/
theorem Emits.bind_quiet {P : List Event → Prop} (hx : Emits bound (fun _ => P) x)
    (hf : ∀ a, Quiet bound (f a)) : Emits bound (fun _ => P) (x >>= f) :=
  Emits.bind hx hf (fun _ events _ _ hP hmore => by rwa [hmore, List.append_nil]) fun _ _ hP => hP

/-! ### Activations -/

/-- An activation may lie below a frame. -/
theorem Activates.under (frame : Frame) (h : Activates bound calls blocks x) :
    Activates bound calls blocks (x.under frame) :=
  Emits.under frame h fun _ _ hactive => hactive

/-! ### Visits -/

/-- A visit may add nothing. -/
theorem Quiet.visits (h : Quiet bound x) : Visits bound calls blocks x :=
  h.mono fun _ _ hevents => hevents ▸ .nothing

/-- A visit may come after a quiet execution. -/
theorem Quiet.bind_visits (hx : Quiet bound x) (hf : ∀ a, Visits bound calls blocks (f a)) :
    Visits bound calls blocks (x >>= f) :=
  hx.bind hf fun _ => .nothing

/-- After a step there may be a visit. -/
theorem Visits.continues (h : Visits bound calls blocks x) :
    Continues bound calls blocks [.step] x :=
  h.mono fun _ _ hvisit => hvisit.orderly

/-! ### Executions in order -/

/-- A quiet execution leaves the earlier events in order. -/
theorem Quiet.continues (h : Quiet bound x) (hearlier : Orderly calls blocks earlier) :
    Continues bound calls blocks earlier x :=
  h.mono fun _ _ hevents => by rwa [hevents, List.append_nil]

/-- What is in order stays so when more may be open. -/
theorem Continues.mono {calls' blocks' : Nat} (h : Continues bound calls blocks earlier x)
    (hcalls : calls ≤ calls') (hblocks : blocks ≤ blocks') :
    Continues bound calls' blocks' earlier x :=
  Emits.mono h fun _ _ horder => horder.mono hcalls hblocks

/-- Executions in a row keep the order when what follows does from its own start. -/
theorem Continues.bind (hx : Continues bound calls blocks earlier x)
    (hf : ∀ a, Continues bound calls blocks [] (f a)) :
    Continues bound calls blocks earlier (x >>= f) :=
  Emits.bind hx hf
    (fun _ events _ more horder hmore => by
      rw [← List.append_assoc]
      exact horder.append hmore)
    fun _ _ horder => horder

/-- A frame does not change the order. -/
theorem Continues.under (frame : Frame) (h : Continues bound calls blocks earlier x) :
    Continues bound calls blocks earlier (x.under frame) :=
  Emits.under frame h fun _ _ horder => horder

/-- What follows a counted step may take it as its own. -/
theorem Continues.step (setting : Setting ω) (h : Continues bound calls blocks [.step] x) :
    Continues bound calls blocks [] (countStep setting.logged >>= fun _ => x) :=
  Emits.bind (emits_step setting) (fun _ => h)
    (fun _ events _ more hstep horder => by
      obtain ⟨-, rfl⟩ | ⟨⟨_, ⟨⟩⟩, -⟩ := hstep
      exact horder)
    fun _ events hstep => by
      obtain ⟨⟨⟩, -⟩ | ⟨-, rfl⟩ := hstep
      exact .nil

/-- A block needs room for one more open block than what is in it. -/
theorem Continues.block (setting : Setting ω) {x : Exec (Logged ω) Flow}
    (h : Continues bound calls blocks [] x) :
    Continues bound calls (blocks + 1) [] (inBlock setting.logged x) :=
  Emits.between .openBlock .closeBlock h fun _ _ horder => horder.of_block

/-- A repetition keeps the order that its body keeps. -/
theorem Continues.times {body : Exec (Logged ω) Flow}
    (h : Continues bound calls blocks [] body) (count : Nat) :
    Continues bound calls blocks [] (times body count) := by
  induction count with
  | zero => exact (quiet_pure _).continues .nil
  | succ count ih =>
      rw [times_succ]
      refine h.bind fun flow => ?_
      cases flow with
      | next => exact ih
      | leave => exact (quiet_pure _).continues .nil
      | answer value => exact (quiet_pure _).continues .nil

/-- The first test takes the step before the loop as its own, the others take those that are
counted after the rounds. -/
theorem continues_whilst (setting : Setting ω) {test : Exec (Logged ω) Bool}
    {body : Exec (Logged ω) Flow} (htest : Continues bound calls blocks [.step] test)
    (hbody : Continues bound calls blocks [] body) (rounds : Nat) :
    Continues bound calls blocks [.step]
      (whilst test body (countStep setting.logged) rounds) := by
  induction rounds with
  | zero => exact emits_error (.step .nil)
  | succ rounds ih =>
      rw [whilst_succ]
      refine htest.bind fun holds => ?_
      cases holds with
      | false => exact (quiet_pure _).continues .nil
      | true =>
          refine hbody.bind fun flow => ?_
          cases flow with
          | next => exact ih.step setting
          | leave => exact (quiet_pure _).continues .nil
          | answer value => exact (quiet_pure _).continues .nil

end Exec

/-! ## Calls -/

open Exec

variable (setting : Setting ω) {bound calls base : Nat} {entry : Entry (Logged ω)}

/-- Entering any body that is not nested too deep adds its activation. -/
def EntersWithin (bound calls base : Nat) (entry : Entry (Logged ω)) : Prop :=
  ∀ name body, Shallow bound body → Activates bound calls base (entry name body)

section

variable (hentry : EntersWithin bound calls base entry)
include hentry

/-- A call visits one operation or procedure, or fails before. -/
theorem call_named_visits (name : String) (arguments : Arguments) :
    Visits bound calls base (callNamed setting.logged entry name arguments) := by
  refine emits_names fun m hbodies => ?_
  cases hfind : m.names.procedures.find? name with
  | some body =>
      show Visits _ _ _ (if _ then _ else _)
      split
      · exact (hentry name body (hbodies name body hfind)).mono fun _ _ h => .procedure h
      · exact emits_error .nothing
  | none =>
      cases hact : setting.logged.host.operation? name with
      | some act =>
          simp only
          exact (adds_operation setting arguments hact).mono fun _ _ _ _ h =>
            h.1 ▸ .operation name
      | none =>
          exact emits_error .nothing

/-- A value may be the name of a procedure, which is visited. -/
theorem evaluate_visits (operand : Atom) :
    Visits bound calls base (evaluate setting.logged entry operand) := by
  cases operand with
  | literal value => exact (quiet_read _).visits
  | «variable» name => exact (quiet_read _).visits
  | word text =>
      refine emits_names fun m _ => ?_
      show Visits _ _ _ (if _ then _ else _)
      split
      · exact call_named_visits setting hentry text .none
      · exact (quiet_pure _).visits

/-- Gathering the arguments is quiet, so a call is one visit. -/
theorem call_visits (c : Call) : Visits bound calls base (c.run setting.logged entry) :=
  emits_names fun _ _ => (quiet_of_except _).bind_visits fun arguments =>
    call_named_visits setting hentry c.name arguments

/-- An expression is a visit. -/
theorem expression_visits (e : Expression) :
    Visits bound calls base (e.run setting.logged entry) := by
  cases e with
  | atom operand => exact evaluate_visits setting hentry operand
  | call c => exact call_visits setting hentry c

/-- A condition calls at most one thing; a comparison calls nothing. -/
theorem test_visits (c : Condition) : Visits bound calls base (c.test setting.logged entry) := by
  cases c with
  | truthy operand =>
      exact (evaluate_visits setting hentry operand).bind_quiet fun _ => quiet_pure _
  | falsy operand =>
      exact (evaluate_visits setting hentry operand).bind_quiet fun _ => quiet_pure _
  | compare left comparison right =>
      exact (quiet_read left).bind_visits fun _ => (quiet_read right).bind_visits fun _ =>
        (quiet_of_except _).visits

/-- Reading a count is a visit. -/
theorem read_count_visits (operand : Atom) :
    Visits bound calls base (readCount setting.logged entry operand) :=
  (evaluate_visits setting hentry operand).bind_quiet fun _ => quiet_of_except _

end

/-! ## Statements -/

mutual

/-- A statement takes the step before it as its own. -/
theorem Statement.orderly (hentry : EntersWithin bound calls base entry) (s : Statement)
    (h : s.nesting ≤ bound + 1) :
    Continues bound calls (s.nesting + base) [.step] (s.run setting.logged entry) := by
  -- a call opens no more than `base` blocks, and those of a statement come on top of them
  have hwiden {α : Type} {x : Exec (Logged ω) α} (hx : Visits bound calls base x) :
      Continues bound calls (s.nesting + base) [.step] x :=
    hx.continues.mono (Nat.le_refl _) (Nat.le_add_left _ _)
  have hblock {nodes : List Node} (hnodes : Continues bound calls (nodesNesting nodes + base) []
      (runNodes setting.logged entry nodes)) (hlt : nodesNesting nodes < s.nesting) :
      Continues bound calls (s.nesting + base) []
        (inBlock setting.logged (runNodes setting.logged entry nodes)) :=
    (hnodes.block setting).mono le_rfl (by omega)
  cases s with
  | assign name value =>
      refine (hwiden (expression_visits setting hentry value)).bind fun value => ?_
      exact (quiet_assign name value).done.continues .nil
  | call c =>
      exact (hwiden (call_visits setting hentry c)).bind fun _ => (quiet_pure _).continues .nil
  | define name body =>
      have hbody : Shallow bound body := Nat.le_of_succ_le_succ h
      exact (quiet_define name hbody).done.continues (.step .nil)
  | repeated count body =>
      refine (hwiden (read_count_visits setting hentry count)).bind fun count => ?_
      have hbody := nodes_orderly hentry body (Nat.le_of_succ_le h)
      exact (hblock hbody (Nat.lt_succ_self _)).times count
  | loop body =>
      have hbody := nodes_orderly hentry body (Nat.le_of_succ_le h)
      rw [Statement.run, forever_eq_whilst]
      exact continues_whilst setting ((quiet_pure _).continues (.step .nil))
        (hblock hbody (Nat.lt_succ_self _)) setting.rounds
  | whilst condition body =>
      have hbody := nodes_orderly hentry body (Nat.le_of_succ_le h)
      exact continues_whilst setting (hwiden (test_visits setting hentry condition))
        (hblock hbody (Nat.lt_succ_self _)) setting.rounds
  | branch condition yes no =>
      obtain ⟨hyes, hno⟩ := Nat.max_le.1 (Nat.le_of_succ_le h)
      refine (hwiden (test_visits setting hentry condition)).bind fun holds => ?_
      cases holds with
      | true =>
          exact hblock (nodes_orderly hentry yes hyes) (Nat.lt_succ_of_le (Nat.le_max_left _ _))
      | false =>
          exact hblock (nodes_orderly hentry no hno) (Nat.lt_succ_of_le (Nat.le_max_right _ _))
  | leave => exact (quiet_pure _).continues (.step .nil)
  | answer value =>
      cases value with
      | none => exact (quiet_pure _).continues (.step .nil)
      | some operand =>
          exact (hwiden (evaluate_visits setting hentry operand)).bind fun value =>
            (quiet_pure _).continues .nil
  termination_by structural s

/-- What nodes add is in order. -/
theorem nodes_orderly (hentry : EntersWithin bound calls base entry) (nodes : List Node)
    (h : nodesNesting nodes ≤ bound + 1) :
    Continues bound calls (nodesNesting nodes + base) []
      (runNodes setting.logged entry nodes) := by
  cases nodes with
  | nil => exact (quiet_pure _).continues .nil
  | cons node more =>
      obtain ⟨line, s⟩ := node
      rw [nodes_nesting_cons] at h ⊢
      obtain ⟨hs, hmore⟩ := Nat.max_le.1 h
      have hfirst := ((s.orderly hentry hs).step setting).under (.line line)
      refine (hfirst.mono le_rfl (by omega)).bind fun flow => ?_
      cases flow with
      | next => exact (nodes_orderly hentry more hmore).mono le_rfl (by omega)
      | leave => exact (quiet_pure _).continues .nil
      | answer value => exact (quiet_pure _).continues .nil
  termination_by structural nodes

end

/-! ## Whole runs -/

/-- Entering a procedure adds its activation, by induction on how many procedures may still
become active. The blocks of each level are open at the same time as those of the levels
above it. -/
theorem enter_within (depth : Nat) :
    EntersWithin bound depth ((bound + 1) * depth) (enter setting.logged depth) := by
  induction depth with
  | zero => exact fun _ _ _ => emits_error .refused
  | succ depth ih =>
      intro name body hbody
      have hnodes := nodes_orderly setting ih body (Nat.le_succ_of_le hbody)
      have hblock := (hnodes.block setting).mono (le_refl depth)
        (show _ ≤ (bound + 1) * (depth + 1) by rw [Shallow] at hbody; rw [Nat.mul_succ]; omega)
      have hentered : Activates bound (depth + 1) ((bound + 1) * (depth + 1))
          (Exec.between setting.logged.host (.enter name body) (.exit name)
            (runBody setting.logged (enter setting.logged depth) body)) :=
        Emits.between _ _ hblock fun _ _ horder => .entered name body horder
      exact (hentered.under (.procedure name)).bind_quiet fun flow => quiet_pure flow.value

/-- How many blocks are open at a time, at most, while a script runs: those of the script, and
those of as many procedures as may be active. -/
def maxOpenBlocks (script : Script) (bound : Nat) : Nat :=
  nodesNesting script + 1 + (bound + 1) * maxCallDepth

/-- What a script adds is in order. -/
theorem script_orderly (script : Script) (h : nodesNesting script ≤ bound + 1) :
    Continues bound maxCallDepth (maxOpenBlocks script bound) [] (script.run setting.logged) := by
  have hnodes := nodes_orderly setting (enter_within setting maxCallDepth) script h
  refine ((hnodes.block setting).mono le_rfl (by rw [maxOpenBlocks]; omega)).bind fun flow => ?_
  cases flow with
  | next => exact (quiet_pure _).continues .nil
  | leave => exact emits_error .nil
  | answer value => exact emits_error .nil

/-- What a call of a procedure adds is its activation. -/
theorem call_procedure_activation (name : String) :
    Activates bound maxCallDepth ((bound + 1) * maxCallDepth)
      (callProcedure setting.logged name) := by
  refine emits_names fun m hbodies => ?_
  cases hfind : m.names.procedures.find? name with
  | some body => exact enter_within setting maxCallDepth name body (hbodies name body hfind)
  | none => exact emits_error .refused

/-- The log of a run of a script and any number of calls after it is in order. -/
theorem lifetime_orderly (script : Script) (h : nodesNesting script ≤ bound + 1)
    (calls : List String) {m : Machine (Logged ω)} (hnames : m.names.AllBodies (Shallow bound))
    (hlog : m.world.log = []) :
    Orderly maxCallDepth (maxOpenBlocks script bound)
      (lifetime (script.run setting.logged) (callProcedure setting.logged) calls m).world.log := by
  -- every part keeps that bodies are shallow and adds events that are in order to the log
  have hkeeps {α : Type} {x : Exec (Logged ω) α}
      (hx : Continues bound maxCallDepth (maxOpenBlocks script bound) [] x)
      (m : Machine (Logged ω)) (hm : m.names.AllBodies (Shallow bound) ∧
        Orderly maxCallDepth (maxOpenBlocks script bound) m.world.log) :
      (x m).2.names.AllBodies (Shallow bound) ∧
        Orderly maxCallDepth (maxOpenBlocks script bound) (x m).2.world.log := by
    obtain ⟨hkept, events, hadded, horder⟩ := hx m hm.1
    rw [hadded]
    exact ⟨hkept, hm.2.append horder⟩
  refine (lifetime_induction (hkeeps (script_orderly setting script h)) (fun name =>
    hkeeps ((call_procedure_activation setting name).mono fun _ _ hcall => ?_)) calls
      ⟨hnames, hlog ▸ .nil⟩).2
  exact hcall.orderly.mono le_rfl (Nat.le_add_left _ _)

end

end RobotBench
