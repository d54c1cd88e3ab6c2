import RobotBench.Proofs.Run.Causes
import RobotBench.Proofs.Run.Faults

/-!
# What statements evaluate

A statement calls one name at most in what it evaluates. If the name may be called, the evaluation
is that call and then a computation from its value, `Statement.head_calls`; otherwise it is a
computation alone, which leaves the machine as it is and fails for values only.
-/

namespace RobotBench

variable {ω : Type}

/-! ## Computations for values -/

namespace Exec

variable {α β : Type}

/-- In the machine the execution gives a value or fails for one, and nothing else happens. -/
def Computes (x : Exec ω α) (m : Machine ω) : Prop :=
  ∃ result : Except Cause α, ForValues result ∧ x m = ofExcept result m

namespace Computes

variable {x : Exec ω α} {m : Machine ω}

/-- A result that fails for values only is such a computation. -/
theorem of_except {result : Except Cause α} (h : ForValues result) :
    (ofExcept result : Exec ω α).Computes m :=
  ⟨result, h, rfl⟩

/-- A value is such a computation. -/
theorem pure (a : α) : (pure a : Exec ω α).Computes m := of_except (.ok a)

/-- Such computations in a row are one, too. -/
theorem bind {f : α → Exec ω β} (hx : x.Computes m) (hf : ∀ a, (f a).Computes m) :
    (x >>= f).Computes m := by
  obtain ⟨result, hvalue, hx⟩ := hx
  cases result with
  | ok a =>
      obtain ⟨last, hlast, hfa⟩ := hf a
      exact ⟨last, hlast, (bind_ok hx).trans hfa⟩
  | error cause => exact ⟨.error cause, .error (hvalue cause rfl), bind_error hx⟩

/-- Reading an operand fails for values only. -/
theorem read_operand (operand : Atom) : (readOperand operand : Exec ω Value).Computes m :=
  ⟨plainValue m.names operand, .plain_value m.names operand, by
    rw [readOperand, bind_ok (get_apply m)]⟩

/-- A computation leaves the machine alone. -/
theorem machine (h : x.Computes m) : (x m).2 = m := by
  obtain ⟨result, -, hx⟩ := h
  rw [hx]
  cases result <;> rfl

/-- A computation fails on its own line, for a value. -/
theorem of_value (h : x.Computes m) {f : Fault} (hx : x.Faults m f) :
    f.path = [] ∧ f.cause.IsOfValue := by
  obtain ⟨result, hvalue, heq⟩ := h
  unfold Faults at hx
  rw [heq] at hx
  cases result with
  | ok a => cases hx
  | error cause =>
      cases hx
      exact ⟨rfl, hvalue cause rfl⟩

end Computes

/-! ## Calls in what is evaluated -/

section

variable (setting : Setting ω) (entry : Entry ω)

/-- In the machine the execution makes a call and then something of its value. -/
def Calls (c : Call) (x : Exec ω α) (m : Machine ω) : Prop :=
  ∃ k : Value → Exec ω α, (∀ value m, (k value).Computes m) ∧ x m = (c.run setting entry >>= k) m

/-- In the machine the execution calls a name with arguments, if there is one to be called, and
otherwise computes. -/
def Evaluates (callee : Option String) (arguments : List Argument) (x : Exec ω α)
    (m : Machine ω) : Prop :=
  (∃ name, callee = some name ∧ x.Calls setting entry ⟨name, arguments⟩ m) ∨
    x.Computes m ∧ ∀ name, callee = some name → ¬ isCallable m.names name

variable {setting entry} {x : Exec ω α} {f : α → Exec ω β} {m : Machine ω}

/-- What is computed from the answer of a call does not matter. -/
theorem Calls.bind {c : Call} (hx : x.Calls setting entry c m) (hf : ∀ a m, (f a).Computes m) :
    (x >>= f).Calls setting entry c m := by
  obtain ⟨k, hk, hx⟩ := hx
  refine ⟨fun value => k value >>= f, fun value m => (hk value m).bind fun a => hf a m, ?_⟩
  rw [← bind_assoc, bind_apply, bind_apply, hx]

/-- What is computed from a value does not matter to how it is evaluated. -/
theorem Evaluates.bind {callee : Option String} {arguments : List Argument}
    (hx : x.Evaluates setting entry callee arguments m) (hf : ∀ a m, (f a).Computes m) :
    (x >>= f).Evaluates setting entry callee arguments m :=
  hx.imp (fun ⟨name, hname, hcalls⟩ => ⟨name, hname, hcalls.bind hf⟩)
    fun ⟨hx, hnone⟩ => ⟨hx.bind fun a => hf a m, hnone⟩

/-- The value may be dropped. -/
theorem Evaluates.drop {callee : Option String} {arguments : List Argument}
    (hx : x.Evaluates setting entry callee arguments m) :
    (x >>= fun _ => Pure.pure ()).Evaluates setting entry callee arguments m :=
  hx.bind fun _ _ => .pure ()

/-- A call and then something of its value fails by itself for a value, or it is the call that
fails. -/
theorem Calls.fault {c : Call} {fault : Fault} (hx : x.Calls setting entry c m)
    (h : x.Faults m fault) :
    fault.path = [] ∧ fault.cause.IsOfValue ∨ (c.run setting entry).Faults m fault := by
  obtain ⟨k, hk, hx⟩ := hx
  unfold Faults at h
  rw [hx] at h
  rcases Faults.of_bind h with hcall | ⟨value, m₁, -, hlater⟩
  · exact .inr hcall
  · exact .inl ((hk value m₁).of_value hlater)

/-- What is evaluated fails by itself for a value, or by the call that it makes. -/
theorem Evaluates.fault {callee : Option String} {arguments : List Argument} {fault : Fault}
    (hx : x.Evaluates setting entry callee arguments m) (h : x.Faults m fault) :
    fault.path = [] ∧ fault.cause.IsOfValue ∨
      ∃ name, callee = some name ∧
        ((⟨name, arguments⟩ : Call).run setting entry).Faults m fault := by
  rcases hx with ⟨name, hname, hcalls⟩ | ⟨hx, -⟩
  · exact (hcalls.fault h).imp_right fun hcall => ⟨name, hname, hcall⟩
  · exact .inl (hx.of_value h)

end

end Exec

/-! ## What a statement evaluates -/

/-- The name that an operand calls if it is callable. -/
def Atom.callee? : Atom → Option String
  | word text => some text
  | _ => none

/-- The name that the right side of an assignment calls, if any. -/
def Expression.callee? : Expression → Option String
  | atom operand => operand.callee?
  | call c => some c.name

/-- The name that a condition calls, if any. A comparison calls nothing. -/
def Condition.callee? : Condition → Option String
  | truthy operand => operand.callee?
  | falsy operand => operand.callee?
  | compare _ _ _ => none

/-- The name that a statement calls itself, as its head or as an operand. -/
def Statement.callee? : Statement → Option String
  | assign _ value => value.callee?
  | call c => some c.name
  | repeated count _ => count.callee?
  | whilst condition _ => condition.callee?
  | branch condition _ _ => condition.callee?
  | answer (some operand) => operand.callee?
  | answer none => none
  | define _ _ => none
  | loop _ => none
  | leave => none

/-- The arguments that the right side of an assignment gives to what it calls. -/
def Expression.arguments : Expression → List Argument
  | atom _ => []
  | call c => c.arguments

/-- The arguments that a statement gives to what it calls. An operand has none. -/
def Statement.arguments : Statement → List Argument
  | assign _ value => value.arguments
  | call c => c.arguments
  | _ => []

section

variable (setting : Setting ω) (entry : Entry ω)

/-- What a statement evaluates, for its effects alone. -/
def Statement.head : Statement → Exec ω Unit
  | .assign _ value => value.run setting entry >>= fun _ => pure ()
  | .call c => c.run setting entry >>= fun _ => pure ()
  | .repeated count _ => readCount setting entry count >>= fun _ => pure ()
  | .whilst condition _ => condition.test setting entry >>= fun _ => pure ()
  | .branch condition _ _ => condition.test setting entry >>= fun _ => pure ()
  | .answer (some operand) => evaluate setting entry operand >>= fun _ => pure ()
  | .answer none => pure ()
  | .define _ _ => pure ()
  | .loop _ => pure ()
  | .leave => pure ()

variable {setting entry}

/-- A call evaluates its arguments and enters its callee. -/
theorem call_evaluates (c : Call) (m : Machine ω) :
    (c.run setting entry).Evaluates setting entry (some c.name) c.arguments m :=
  .inl ⟨c.name, rfl, pure, fun value _ => .pure value, by rw [bind_pure]⟩

/-- An operand may name what is called, without arguments. -/
theorem evaluate_evaluates (operand : Atom) (m : Machine ω) :
    (evaluate setting entry operand).Evaluates setting entry operand.callee? [] m := by
  cases operand with
  | literal value => exact .inr ⟨.read_operand (.literal value), nofun⟩
  | «variable» name => exact .inr ⟨.read_operand (.variable name), nofun⟩
  | word text =>
      have heval := evaluate_word setting entry text m
      split at heval
      · have hcall : evaluate setting entry (.word text) m =
            (⟨text, []⟩ : Call).run setting entry m :=
          heval.trans (call_run_apply setting entry ⟨text, []⟩ m).symm
        exact .inl ⟨text, rfl, pure, fun value _ => .pure value, by rw [bind_pure, hcall]⟩
      · rename_i hnone
        refine .inr ⟨⟨.ok (.text text), .ok _, heval⟩, fun name hname => ?_⟩
        cases hname
        exact hnone

/-- An expression is a call or an operand. -/
theorem expression_evaluates (e : Expression) (m : Machine ω) :
    (e.run setting entry).Evaluates setting entry e.callee? e.arguments m := by
  cases e with
  | atom operand => exact evaluate_evaluates operand m
  | call c => exact call_evaluates c m

/-- A condition calls what its operand names; a comparison calls nothing. -/
theorem test_evaluates (c : Condition) (m : Machine ω) :
    (c.test setting entry).Evaluates setting entry c.callee? [] m := by
  cases c with
  | truthy operand => exact (evaluate_evaluates operand m).bind fun _ _ => .pure _
  | falsy operand => exact (evaluate_evaluates operand m).bind fun _ _ => .pure _
  | compare left comparison right =>
      exact .inr ⟨(Exec.Computes.read_operand left).bind fun x =>
        (Exec.Computes.read_operand right).bind fun y => .of_except (.holds comparison x y), nofun⟩

/-- A count is computed from an operand. -/
theorem read_count_evaluates (operand : Atom) (m : Machine ω) :
    (readCount setting entry operand).Evaluates setting entry operand.callee? [] m :=
  (evaluate_evaluates operand m).bind fun value _ => .of_except (.count value)

variable (setting entry) in
/-- What a statement evaluates is the call that it makes, or a computation for values. -/
theorem Statement.head_evaluates (s : Statement) (m : Machine ω) :
    (s.head setting entry).Evaluates setting entry s.callee? s.arguments m := by
  have hnothing : (pure () : Exec ω Unit).Evaluates setting entry none [] m :=
    .inr ⟨.pure (), nofun⟩
  cases s with
  | assign name value => exact (expression_evaluates value m).drop
  | call c => exact (call_evaluates c m).drop
  | repeated count body => exact (read_count_evaluates count m).drop
  | whilst condition body => exact (test_evaluates condition m).drop
  | branch condition yes no => exact (test_evaluates condition m).drop
  | answer value =>
      cases value with
      | some operand => exact (evaluate_evaluates operand m).drop
      | none => exact hnothing
  | _ => exact hnothing

/-- What can be called is called. -/
theorem Statement.head_calls {s : Statement} {name : String} {m : Machine ω}
    (hcallee : s.callee? = some name) (hname : isCallable m.names name) :
    (s.head setting entry).Calls setting entry ⟨name, s.arguments⟩ m := by
  rcases s.head_evaluates setting entry m with ⟨other, hother, hcalls⟩ |
    ⟨-, hnone⟩
  · rw [hcallee] at hother
    cases hother
    exact hcalls
  · exact absurd hname (hnone name hcallee)

end

end RobotBench
