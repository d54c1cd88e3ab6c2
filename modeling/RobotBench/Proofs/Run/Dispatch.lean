import RobotBench.Proofs.Robot.Operations
import RobotBench.Proofs.Run.Advance

/-!
# Names and what they call

The names of operations are listed twice, for the builtins and for the robot, and what an
operation does is looked up elsewhere. Both agree (`Builtin.operation_some_iff`,
`Binding.operation_some_iff`), and so a name may be called exactly if a call of it is not refused
as unknown. A name that may be called at one point of a run may be called ever after, so that no
fault of a run blames such a name (`FaultIn.cause_ne`). `names_and_calls_agree` says what this
means for a word wherever one may stand.
-/

namespace RobotBench

/-- The operand of a condition in the place of an expression. A comparison has none. -/
def Condition.operand? : Condition → Option Atom
  | truthy operand => some operand
  | falsy operand => some operand
  | compare _ _ _ => none

/-- The operand of a statement in the place of an expression, if it has one. -/
def Statement.operand? : Statement → Option Atom
  | assign _ (.atom operand) => some operand
  | repeated count _ => some count
  | whilst condition _ => condition.operand?
  | branch condition _ _ => condition.operand?
  | answer value => value
  | _ => none

/-! ## Lists and operations -/

/-- A builtin is found under the names that are listed, and under no other. -/
theorem Builtin.operation_some_iff {name : String} :
    (Builtin.operation? name).isSome ↔ name ∈ Builtin.names := by
  have hnames : Builtin.names = all.map Builtin.name := rfl
  rw [operation?, Option.isSome_map, Option.isSome_iff_exists, hnames, List.mem_map]
  constructor
  · rintro ⟨b, hfind⟩
    refine ⟨b, ?_, (ofName?_eq_some_iff.1 hfind).symm⟩
    cases b <;> decide
  · rintro ⟨b, -, hname⟩
    exact ⟨b, ofName?_eq_some_iff.2 hname.symm⟩

/-- A robot operation is found under the names that are listed, and under no other. -/
theorem Binding.operation_some_iff {σ : Type} (robot : Robot σ) {name : String} :
    (Binding.operation? robot name).isSome ↔ name ∈ Binding.names := by
  rw [operation?, Option.isSome_map, Option.isSome_iff_exists, reader_some_iff]

/-- No name is that of a builtin and of a robot operation. -/
theorem builtin_no_binding : ∀ name ∈ Builtin.names, name ∉ Binding.names := by decide

/-- On a bench a builtin stands before any operation of the robot. -/
theorem Bench.operation_builtin {σ : Type} (robot : Robot σ) (b : Builtin) :
    operation? robot b.name = some (onSink b.invoke) := by
  have hact : Builtin.operation? b.name = some b.invoke := by
    rw [Builtin.operation?, Builtin.ofName?_eq_some_iff.2 rfl]
    rfl
  rw [operation?, hact]

/-- A host has the operations that are listed, and these do not blame a name. -/
structure Host.Listed {ω : Type} (host : Host ω) : Prop where
  operation_some_iff {name : String} :
    (host.operation? name).isSome ↔ name ∈ Builtin.names ∨ name ∈ Binding.names
  blames_no_name {name : String} {act : Arguments → ω → Except Cause Value × ω} :
    host.operation? name = some act → ∀ arguments world word,
      (act arguments world).1 ≠ .error (.unknownOperation word)

theorem Bench.host_listed {σ : Type} (robot : Robot σ) : (Bench.host robot).Listed where
  operation_some_iff {name} := by
    rw [← Builtin.operation_some_iff, ← Binding.operation_some_iff robot]
    show (Bench.operation? robot name).isSome ↔ _
    rw [operation?]
    cases Builtin.operation? name with
    | some act => simp
    | none => simp
  blames_no_name hact arguments bench word hfailed := by
    rcases operation_fails hact hfailed with hvalue | ⟨hclosed, -⟩
    · exact hvalue
    · cases hclosed

/-- What may be called is a procedure or an operation of the host. -/
theorem callable_iff {ω : Type} {host : Host ω} (hhost : host.Listed) {names : Namespace}
    {name : String} : isCallable names name ↔
      names.procedures.contains name ∨ (host.operation? name).isSome := by
  simp only [isCallable, Bool.or_eq_true, List.contains_iff_mem, hhost.operation_some_iff, or_assoc]

/-- No operation of a bench that is called without arguments answers a text. -/
theorem Bench.answer_no_text {σ : Type} {robot : Robot σ} {name : String}
    {act : Arguments → Bench σ → Except Cause Value × Bench σ}
    (h : Bench.operation? robot name = some act) (bench : Bench σ) (text : String) :
    (act .none bench).1 ≠ .ok (.text text) := by
  rcases operation_cases h with ⟨b, -, rfl⟩ | ⟨read, -, rfl⟩
  · show (b.invoke .none bench.sink).1 ≠ _
    cases b with
    | print =>
        unfold Builtin.invoke
        split
        · nofun
        · split <;> nofun
    | _ => nofun
  · show (Binding.run robot read .none bench.robot).1 ≠ _
    unfold Binding.run
    split
    · nofun
    · rename_i c _
      cases c <;> nofun

/-! ## Faults that blame a name -/

section

variable {ω : Type} {setting : Setting ω} {name : String} {m : Machine ω}
  {word : String} {f : Fault}

theorem of_except_known {α : Type} {result : Except Cause α} (hresult : ForValues result)
    (h : (Exec.ofExcept result : Exec ω α).Faults m f) : f.cause ≠ .unknownOperation word := by
  cases result with
  | ok a => exact absurd h Exec.not_faults_pure
  | error cause =>
      cases h
      rintro rfl
      exact hresult _ rfl

theorem read_operand_known {operand : Atom} (h : (readOperand operand : Exec ω Value).Faults m f) :
    f.cause ≠ .unknownOperation word :=
  of_except_known (.plain_value m.names operand) h

/-- The failure of a step is for want of steps. -/
theorem step_known (h : (countStep setting).Faults m f) : f.cause ≠ .unknownOperation word := by
  obtain ⟨limit, rfl⟩ := h.step_limit
  nofun

end

section

variable {ω : Type} {setting : Setting ω} (hhost : setting.host.Listed) {depth : Nat}
  {word : String} {m : Machine ω} {f : Fault}
include hhost

/-- A call is refused as unknown exactly if its name may not be called, and it is the name of the
call that is blamed. -/
theorem call_named_unknown_iff {name : String} {arguments : Arguments} :
    (callNamed setting (enter setting depth) name arguments).Faults m
      ⟨[], .unknownOperation word⟩ ↔ name = word ∧ ¬ isCallable m.names name := by
  rw [callable_iff hhost, Table.contains]
  unfold Exec.Faults
  cases hfind : m.names.procedures.find? name with
  | some body =>
      simp only [Option.isSome_some, true_or, not_true, and_false, iff_false]
      rw [call_named_procedure setting _ hfind]
      split
      · intro h
        cases enter_refused h
      · intro h
        cases h
  | none =>
      cases hact : setting.host.operation? name with
      | some act =>
          simp only [Option.isSome_some, or_true, not_true, and_false, iff_false]
          rw [call_named_operation setting _ hfind hact, run_operation_apply]
          generalize setting.host.watch (.operation name) m.world = world
          have hknown := hhost.blames_no_name hact arguments world word
          intro h
          cases hresult : (act arguments world).1 with
          | ok value =>
              rw [hresult] at h
              cases h
          | error cause =>
              rw [hresult] at h
              cases h
              exact hknown hresult
      | none =>
          rw [call_named_none setting _ hfind hact]
          simp

/-- No operand in the place of an expression is refused as unknown. -/
theorem evaluate_known (operand : Atom) :
    ¬ (evaluate setting (enter setting depth) operand).Faults m ⟨[], .unknownOperation word⟩ := by
  intro h
  cases operand with
  | literal value => exact read_operand_known h rfl
  | «variable» name => exact read_operand_known h rfl
  | word text =>
      unfold Exec.Faults at h
      rw [evaluate_word] at h
      split at h
      · rename_i hcallable
        exact ((call_named_unknown_iff hhost).1 h).2 hcallable
      · cases h

/-- A call with arguments that is refused as unknown blames a name that may not be called. -/
theorem call_unknown {c : Call}
    (h : (c.run setting (enter setting depth)).Faults m ⟨[], .unknownOperation word⟩) :
    ¬ isCallable m.names word := by
  unfold Exec.Faults at h
  rw [call_run_apply] at h
  cases hgather : gather m.names c.arguments .none with
  | ok arguments =>
      rw [hgather] at h
      obtain ⟨hname, hnone⟩ := (call_named_unknown_iff hhost).1 h
      rwa [hname] at hnone
  | error cause =>
      rw [hgather] at h
      cases h
      exact absurd (ForValues.gather m.names c.arguments .none _ hgather) not_false

/-- What a statement evaluates blames no name that may be called. -/
theorem Statement.head_unknown {s : Statement}
    (h : (s.head setting (enter setting depth)).Faults m ⟨[], .unknownOperation word⟩) :
    ¬ isCallable m.names word := by
  rcases (s.head_evaluates _ _ m).fault h with ⟨-, hvalue⟩ | ⟨name, -, hcall⟩
  · exact absurd hvalue not_false
  · exact call_unknown hhost hcall

/-- A statement blames no name that may be called when it begins. -/
theorem Statement.Raises.unknown {s : Statement}
    (h : s.Raises setting (enter setting depth) m (.unknownOperation word)) :
    ¬ isCallable m.names word := by
  intro hword
  have hadvance := advances_respects setting
  cases h with
  | step h => exact step_known h rfl
  | head hstep hat h =>
      have hthere := hadvance.trans (hadvance.step.related hstep) (hat.related hadvance)
      exact Statement.head_unknown hhost h (hthere.callable hword)
  | pause hstep hat h => exact step_known h rfl

/-- Wherever a run fails, it blames no name that could be called when it began: by induction on
the path of the fault, along which the machines only advance. -/
theorem FaultIn.cause_ne {nodes : List Node} (h : FaultIn setting depth nodes m f)
    (hword : isCallable m.names word) : f.cause ≠ .unknownOperation word := by
  have hadvance := advances_respects setting
  induction h with
  | own hat hown =>
      rintro rfl
      exact hown.unknown hhost ((hat.related hadvance).callable hword)
  | block hat hcount hblock _ ih =>
      have hthere := hadvance.trans (hat.related hadvance)
        (hadvance.trans (hadvance.step.related hcount) (hblock.related hadvance))
      exact ih (hthere.callable hword)
  | call hat hcount heval _ _ _ _ ih =>
      have hthere := hadvance.trans (hat.related hadvance)
        (hadvance.trans (hadvance.step.related hcount) (heval.related hadvance))
      exact ih (hthere.callable hword)

/-! ## Words in the place of expressions -/

/-- Whatever happens when a word stands in the place of an expression, the word is not blamed as
unknown, however deep the failure is. -/
theorem evaluate_cause_ne
    (h : (evaluate setting (enter setting depth) (.word word)).Faults m f) :
    f.cause ≠ .unknownOperation word := by
  intro hcause
  have hpath : f.path ≠ [] := by
    intro hpath
    obtain rfl : f = ⟨[], .unknownOperation word⟩ := by
      cases f
      cases hpath
      cases hcause
      rfl
    exact evaluate_known hhost _ h
  -- so the word is a procedure, and stays one in its body
  obtain ⟨name, body, hname, hfind, hcall⟩ :=
    ((evaluate_evaluates (.word word) m).from_call h).resolve_left hpath
  obtain rfl : word = name := Option.some.inj hname
  obtain ⟨left, inner, rfl, rfl, hbody⟩ := (enter_fault hcall).resolve_left hpath
  exact (run_nodes_fault left body hbody).cause_ne hhost (callable_of_find hfind) hcause

theorem Condition.cause_ne {c : Condition} (hc : c.operand? = some (.word word))
    (h : (c.test setting (enter setting depth)).Faults m f) :
    f.cause ≠ .unknownOperation word := by
  cases c with
  | truthy operand =>
      cases hc
      exact evaluate_cause_ne hhost h.of_bind_pure
  | falsy operand =>
      cases hc
      exact evaluate_cause_ne hhost h.of_bind_pure
  | compare left comparison right => cases hc

/-- What a statement evaluates does not blame its operand as unknown. -/
theorem Statement.head_cause_ne {s : Statement} (hs : s.operand? = some (.word word))
    (h : (s.head setting (enter setting depth)).Faults m f) :
    f.cause ≠ .unknownOperation word := by
  cases s with
  | assign name value =>
      cases value with
      | atom operand =>
          cases hs
          exact evaluate_cause_ne hhost h.of_bind_pure
      | call c => cases hs
  | repeated count body =>
      cases hs
      rcases h.of_bind_pure.of_bind with hvalue | ⟨value, _, _, hcount⟩
      · exact evaluate_cause_ne hhost hvalue
      · exact of_except_known (.count value) hcount
  | whilst condition body => exact condition.cause_ne hhost hs h.of_bind_pure
  | branch condition yes no => exact condition.cause_ne hhost hs h.of_bind_pure
  | answer value =>
      cases hs
      exact evaluate_cause_ne hhost h.of_bind_pure
  | _ => cases hs

/-- A statement that blames its operand as unknown does so for a call in one of its blocks. -/
theorem Statement.operand_blamed {s : Statement} (hs : s.operand? = some (.word word))
    (h : (s.run setting (enter setting depth)).Faults m f)
    (hcause : f.cause = .unknownOperation word) :
    ∃ body m', s.BlockAt setting (enter setting depth) m body m' ∧
      (inBlock setting (runNodes setting (enter setting depth) body)).Faults m' f := by
  rcases s.run_fault h with ⟨m₁, -, hhead⟩ | hblock | ⟨m₁, -, hpause⟩
  · exact absurd hcause (s.head_cause_ne hhost hs hhead)
  · exact hblock
  · exact absurd hcause (step_known hpause)

end

/-! ## Words that are text -/

/-- A procedure that answers a text has taken a step. -/
theorem enter_step {ω : Type} {setting : Setting ω} {depth : Nat} {name : String}
    {body : List Node} {text : String} {m m' : Machine ω}
    (h : enter setting depth name body m = (.ok (.text text), m')) : m.steps < m'.steps := by
  cases depth with
  | zero => cases h
  | succ depth =>
      rw [enter, runBody, inBlock, Exec.bind_apply, Exec.under_apply, Exec.between_apply,
        Exec.between_apply] at h
      generalize hstart : (m.watched setting.host (.enter name body)).watched setting.host
        .openBlock = start at h
      have hsteps : start.steps = m.steps := by
        rw [← hstart]
        rfl
      rcases hbody : runNodes setting (enter setting depth) body start with ⟨halt | flow, m₁⟩
      · rw [hbody] at h
        cases h
      · rw [hbody] at h
        obtain ⟨hvalue, rfl⟩ := Prod.mk.inj h
        have hnodes : body ≠ [] := by
          rintro rfl
          cases hbody
          cases hvalue
        have hstep := run_nodes_step hnodes hbody
        rw [hsteps] at hstep
        exact hstep

/-- A word in the place of an expression is its own text, with nothing done, exactly if it may
not be called. -/
theorem evaluate_text_iff {σ : Type} {robot : Robot σ} {maxSteps : Option Nat} {depth : Nat}
    {word : String} {m : Machine (Bench σ)} :
    evaluate (Bench.setting robot maxSteps) (enter (Bench.setting robot maxSteps) depth)
      (.word word) m = (.ok (.text word), m) ↔ ¬ isCallable m.names word := by
  rw [evaluate_word]
  constructor
  · intro h hword
    rw [if_pos hword] at h
    rw [callable_iff (Bench.host_listed robot), Table.contains] at hword
    cases hfind : m.names.procedures.find? word with
    | some body =>
        rw [call_named_procedure _ _ hfind] at h
        exact Nat.lt_irrefl _ (enter_step h)
    | none =>
        rw [hfind] at hword
        obtain ⟨act, hact⟩ := Option.isSome_iff_exists.1 (hword.resolve_left Bool.false_ne_true)
        rw [call_named_operation _ _ hfind hact, run_operation_apply] at h
        generalize (Bench.setting robot maxSteps).host.watch (.operation word) m.world = world at h
        have hvalue := Bench.answer_no_text hact world word
        cases hresult : (act .none world).1 with
        | ok value =>
            rw [hresult] at h hvalue
            obtain ⟨hsame, -⟩ := Prod.mk.inj h
            cases hsame
            exact hvalue rfl
        | error cause =>
            rw [hresult] at h
            cases h
  · intro hword
    rw [if_neg hword]

/-- The lists of names, the operations and the calls agree about every word. A word is in the list
of the builtins exactly if a builtin runs under it, whatever the arguments; it is in that of the
robot exactly if a robot operation does; and it is not in both. So in every machine a word may be
called exactly if no call of it is refused as unknown. In the place of an expression it is never
blamed as unknown, and a statement with such an operand blames it only for a call in one of its
blocks. There it is text, with nothing done, exactly if it may not be called, and is called
without arguments if it may. A procedure is there once it is defined; what is a procedure may be
called, and is what every call of the name enters, whatever is in the lists. -/
theorem names_and_calls_agree {σ : Type} (robot : Robot σ) (maxSteps : Option Nat) (depth : Nat)
    (word : String) :
    let setting := Bench.setting robot maxSteps
    let entry := enter setting depth
    (∀ arguments sink, word ∈ Builtin.names ↔
      ((Builtin.operation? word).map fun act => act arguments sink).isSome) ∧
    (∀ arguments state, word ∈ Binding.names ↔
      ((Binding.operation? robot word).map fun act => act arguments state).isSome) ∧
    ¬ (word ∈ Builtin.names ∧ word ∈ Binding.names) ∧
    ∀ m : Machine (Bench σ),
      (∀ arguments, isCallable m.names word ↔
        ¬ (callNamed setting entry word arguments).Faults m ⟨[], .unknownOperation word⟩) ∧
      (∀ f, (evaluate setting entry (.word word)).Faults m f → f.cause ≠ .unknownOperation word) ∧
      (∀ s : Statement, s.operand? = some (.word word) → ∀ f, (s.run setting entry).Faults m f →
        f.cause = .unknownOperation word → ∃ body m', s.BlockAt setting entry m body m' ∧
          (inBlock setting (runNodes setting entry body)).Faults m' f) ∧
      (evaluate setting entry (.word word) m = (.ok (.text word), m) ↔
        ¬ isCallable m.names word) ∧
      (isCallable m.names word →
        evaluate setting entry (.word word) m = callNamed setting entry word .none m) ∧
      (∀ body, ((Statement.define word body).run setting entry m).2.names.procedures.find? word =
        some body) ∧
      ∀ body, m.names.procedures.find? word = some body → isCallable m.names word ∧
        ∀ arguments, callNamed setting entry word arguments m =
          if arguments.isEmpty then entry word body m
          else (.error (.fault ⟨[], .procedureArguments word⟩), m) := by
  intro setting entry
  have hhost : setting.host.Listed := Bench.host_listed robot
  refine ⟨fun _ _ => ?_, fun _ _ => ?_, fun ⟨hbuiltin, hbinding⟩ => ?_, fun m =>
    ⟨fun arguments => ?_, fun f h => evaluate_cause_ne hhost h,
      fun s hs f h => s.operand_blamed hhost hs h,
      evaluate_text_iff, fun hword => ?_, fun body => ?_, fun body hfind =>
      ⟨callable_of_find hfind, call_named_procedure setting _ hfind⟩⟩⟩
  · rw [Option.isSome_map, Builtin.operation_some_iff]
  · rw [Option.isSome_map, Binding.operation_some_iff]
  · exact builtin_no_binding word hbuiltin hbinding
  · rw [call_named_unknown_iff hhost]
    simp
  · rw [evaluate_word, if_pos hword]
  · exact Table.find?_set_self _ word body

/-- A procedure under the name of a builtin, a builtin that fails without arguments, and a word
that may not be called, as the condition of a branch that calls it. -/
theorem names_and_calls_agree_shadowed :
    let setting := Bench.setting Simulator.robot (some 9)
    let entry := enter setting 2
    let body : List Node := [.mk 7 (.answer (some (.word "fly")))]
    let s : Statement := .branch (.truthy (.word "fly")) [.mk 2 (.call ⟨"fly", []⟩)] []
    let m : Machine (Bench Simulator) :=
      ⟨⟨.ofSeed 1, .unbounded⟩, Namespace.empty.define "print" body, 0⟩
    "print" ∈ Builtin.names ∧ isCallable m.names "print" ∧
      callNamed setting entry "print" .none m = entry "print" body m ∧
      evaluate setting entry (.word "print") m = entry "print" body m ∧
      (∃ f, (evaluate setting entry (.word "fail")).Faults m f ∧
        f.cause ≠ .unknownOperation "fail") ∧
      evaluate setting entry (.word "fly") m = (.ok (.text "fly"), m) ∧
      (s.run setting entry).Faults m ⟨[.line 2], .unknownOperation "fly"⟩ ∧
      ∃ body m', s.BlockAt setting entry m body m' := by
  intro setting entry body s m
  obtain ⟨-, -, -, hprint⟩ := names_and_calls_agree Simulator.robot (some 9) 2 "print"
  obtain ⟨-, -, -, -, hcalled, -, hprocedure⟩ := hprint m
  obtain ⟨hcallable, hcall⟩ := hprocedure body rfl
  obtain ⟨-, -, -, hfail⟩ := names_and_calls_agree Simulator.robot (some 9) 2 "fail"
  obtain ⟨-, hblame, -⟩ := hfail m
  obtain ⟨-, -, -, hfly⟩ := names_and_calls_agree Simulator.robot (some 9) 2 "fly"
  obtain ⟨-, -, hblock, htext, -⟩ := hfly m
  have hfault : (s.run setting entry).Faults m ⟨[.line 2], .unknownOperation "fly"⟩ := by rfl
  have hfailed : (evaluate setting entry (.word "fail")).Faults m ⟨[], .failed ""⟩ := by rfl
  obtain ⟨inside, m', hat, -⟩ := hblock s rfl _ hfault rfl
  exact ⟨by decide, hcallable, hcall .none, (hcalled hcallable).trans (hcall .none),
    ⟨_, hfailed, hblame _ hfailed⟩, htext.2 (by decide), hfault, inside, m', hat⟩

end RobotBench
