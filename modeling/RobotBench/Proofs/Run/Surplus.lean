import RobotBench.Proofs.Run.Dispatch
import RobotBench.Proofs.Script.Detections

/-!
# Surplus arguments

Every operation but `print` and `fail` has a signature: how many arguments it takes at most, and
which of them may be given by a key. What a call gives beyond that is refused before anything is
done, as `surplus_refused` says for all operations at once. There is one exception. `count` is
checked as the questions about a detection are, which take an index behind the observation, so
that it takes a second argument too, and does not look at it (`count_takes_surplus`).
-/

namespace RobotBench

/-- How many arguments an operation takes at most, and which keys it knows. -/
structure Signature where
  most : Nat
  keys : List String

/-- The signature of an operation. Those that are not named here take no arguments. -/
def signature (name : String) : Signature :=
  if name ∈ ["add", "sub", "label", "position", "confidence"] then ⟨2, []⟩
  else if name = "count" then ⟨1, []⟩
  else if name = "go_to" then ⟨5, ["x", "y", "z", "w", "frame", "frame_id"]⟩
  else if name = "show_frame" then ⟨2, ["window", "frame"]⟩
  else if name = "wait_key" then ⟨1, ["delay"]⟩
  else ⟨0, []⟩

/-- The call gives more arguments than the operation takes, or one by a key that it does not
know. -/
def Arguments.Exceeds (a : Arguments) (s : Signature) : Prop :=
  s.most < a.positional.length ∨ ∃ key ∈ a.keyword.names, key ∉ s.keys

section

variable {a : Arguments} {operation : String}

theorem Arguments.Fits.not_exceeds {most : Nat} {keys : List String} (h : a.Fits most keys) :
    ¬ a.Exceeds ⟨most, keys⟩ := by
  rintro (hmost | ⟨key, hkey, hunknown⟩)
  · exact absurd h.positional (Nat.not_le.2 hmost)
  · exact hunknown (h.keyword key hkey)

/-! ## Robot operations -/

theorem Command.signature_bare {c : Command} (h : c.IsBare) : signature c.name = ⟨0, []⟩ := by
  cases c with
  | move motion => cases motion <;> rfl
  | goTo | showFrame | waitKey => exact False.elim h
  | _ => rfl

/-- The arguments that make a command exceed no signature. -/
theorem Command.MadeBy.not_exceeds {c : Command} (h : c.MadeBy a) :
    ¬ a.Exceeds (signature c.name) := by
  cases h with
  | bare hbare hfits =>
      rw [Command.signature_bare hbare]
      exact hfits.not_exceeds
  | goTo hnamed => exact hnamed.fits.not_exceeds
  | showFrame hfits => exact hfits.not_exceeds
  | waitKey hfits => exact hfits.not_exceeds

/-- No command is made from more than its signature takes. -/
theorem Binding.reader_refuses {name : String} {read : Arguments → Except Cause Command}
    (hread : reader? name = some read) (h : a.Exceeds (signature name)) :
    ∃ cause, read a = .error cause := by
  cases hmade : read a with
  | error cause => exact ⟨cause, rfl⟩
  | ok c =>
      obtain ⟨rfl, hmade⟩ := (reader_iff hread).1 hmade
      exact absurd h hmade.not_exceeds

/-! ## Builtins -/

namespace Builtin

theorem operands_fits {numbers : Number × Number} (h : operands operation a = .ok numbers) :
    a.Fits 2 [] := by
  obtain ⟨_, hexpect, -⟩ := Except.bind_eq_ok_iff.1 h
  exact Arguments.expect_at_most_iff.1 hexpect

theorem detected_fits {d : Detection} (h : detected operation a = .ok d) : a.Fits 2 [] := by
  obtain ⟨o, hobserved, -⟩ := Except.bind_eq_ok_iff.1 h
  exact (observed_iff.1 hobserved).1

/-- What a builtin with a signature answers, it answers to two arguments without keys at most. -/
theorem answer_fits {b : Builtin} (hprint : b ≠ print) (hfail : b ≠ fail) {value : Value}
    (h : b.answer a = .ok value) : a.Fits 2 [] := by
  cases b with
  | print => exact absurd rfl hprint
  | fail => exact absurd rfl hfail
  | add | sub =>
      obtain ⟨_, hoperands, -⟩ := map_ok_iff.1 h
      exact operands_fits hoperands
  | count =>
      obtain ⟨_, hobserved, -⟩ := map_ok_iff.1 h
      exact (observed_iff.1 hobserved).1
  | label | position | confidence =>
      obtain ⟨_, hdetected, -⟩ := map_ok_iff.1 h
      exact detected_fits hdetected

/-- A builtin answers no call that exceeds its signature, but `count` takes two arguments. -/
theorem answer_refuses {b : Builtin} (hprint : b ≠ print) (hfail : b ≠ fail)
    (h : a.Exceeds (signature b.name)) (hcount : b = count → ¬ a.Fits 2 []) :
    ∃ cause, b.answer a = .error cause := by
  cases hanswer : b.answer a with
  | error cause => exact ⟨cause, rfl⟩
  | ok value =>
      have hfits := answer_fits hprint hfail hanswer
      cases b with
      | print => exact absurd rfl hprint
      | fail => exact absurd rfl hfail
      | count => exact absurd hfits (hcount rfl)
      | _ => exact absurd h hfits.not_exceeds

theorem count_iff {value : Value} : count.answer a = .ok value ↔
    a.Fits 2 [] ∧ ∃ o, a.positional[0]? = some (.observation o) ∧
      value = .number (.ofNat o.detections.length) := by
  rw [answer, map_ok_iff]
  simp only [observed_iff]
  constructor
  · rintro ⟨o, ⟨hfits, hfirst⟩, rfl⟩
    exact ⟨hfits, o, hfirst, rfl⟩
  · rintro ⟨hfits, o, hfirst, rfl⟩
    exact ⟨o, ⟨hfits, hfirst⟩, rfl⟩

end Builtin

end

/-! ## Operations of a bench -/

namespace Bench

variable {σ : Type} (robot : Robot σ) (a : Arguments) (bench : Bench σ)

/-- What a call of an operation gives, with the bench afterwards; nothing when there is no
operation of the name. -/
def call? (name : String) : Option (Except Cause Value × Bench σ) :=
  (operation? robot name).map fun act => act a bench

theorem call_builtin {b : Builtin} (hprint : b ≠ .print) :
    call? robot a bench b.name = some (b.answer a, bench) := by
  have hinvoke : b.invoke a bench.sink = (b.answer a, bench.sink) := by
    cases b with
    | print => exact absurd rfl hprint
    | _ => rfl
  rw [call?, operation_builtin]
  show some (onSink b.invoke a bench) = _
  rw [onSink, hinvoke]

/-- A robot operation that makes no command leaves the bench alone. -/
theorem call_refused {name : String} {read : Arguments → Except Cause Command}
    (hread : Binding.reader? name = some read) {cause : Cause} (h : read a = .error cause) :
    call? robot a bench name = some (.error cause, bench) := by
  have hname : name ∈ Binding.names := Binding.reader_some_iff.1 ⟨read, hread⟩
  have hbuiltin : Builtin.operation? name = none := by
    rw [← Option.not_isSome_iff_eq_none, Builtin.operation_some_iff]
    exact fun hlisted => builtin_no_binding name hlisted hname
  rw [call?, operation?, hbuiltin, Binding.operation?, hread]
  show some (onRobot (Binding.run robot read) a bench) = _
  rw [onRobot, Binding.run, h]

end Bench

/-- A call of a builtin other than `print` and `fail`, or of a robot operation, that gives more
arguments than the operation takes, or one by a key that it does not know, fails, and leaves the
robot and the sink as they were, whatever robot it is. The one exception is a call of `count` with
two arguments: `count` answers every call with an observation and at most one further argument,
both without keys, and says how many detections are in the observation. -/
theorem surplus_refused (a : Arguments) :
    (∀ name, name ∈ Builtin.names ∧ name ≠ "print" ∧ name ≠ "fail" ∨ name ∈ Binding.names →
      a.Exceeds (signature name) → (name = "count" → ¬ a.Fits 2 []) →
      ∃ cause, ∀ {σ : Type} (robot : Robot σ) (bench : Bench σ),
        Bench.call? robot a bench name = some (.error cause, bench)) ∧
    ∀ {σ : Type} (robot : Robot σ) (bench : Bench σ) (value : Value),
      Bench.call? robot a bench "count" = some (.ok value, bench) ↔
        a.Fits 2 [] ∧ ∃ o, a.positional[0]? = some (.observation o) ∧
          value = .number (.ofNat o.detections.length) := by
  constructor
  · intro name hname hexceeds hcount
    rcases hname with ⟨hbuiltin, hprint, hfail⟩ | hbinding
    · obtain ⟨act, hact⟩ := Option.isSome_iff_exists.1 (Builtin.operation_some_iff.2 hbuiltin)
      obtain ⟨b, hb, rfl⟩ := Option.map_eq_some_iff.1 hact
      obtain rfl := Builtin.ofName?_eq_some_iff.1 hb
      have hprint : b ≠ .print := fun h => hprint (congrArg Builtin.name h)
      have hfail : b ≠ .fail := fun h => hfail (congrArg Builtin.name h)
      obtain ⟨cause, hcause⟩ := Builtin.answer_refuses hprint hfail hexceeds fun h =>
        hcount (congrArg Builtin.name h)
      refine ⟨cause, fun robot bench => ?_⟩
      rw [Bench.call_builtin robot a bench hprint, hcause]
    · obtain ⟨read, hread⟩ := Binding.reader_some_iff.2 hbinding
      obtain ⟨cause, hcause⟩ := Binding.reader_refuses hread hexceeds
      exact ⟨cause, fun robot bench => Bench.call_refused robot a bench hread hcause⟩
  · intro σ robot bench value
    have hcall := Bench.call_builtin robot a bench (b := .count) nofun
    rw [← Builtin.count_iff]
    show Bench.call? robot a bench Builtin.count.name = _ ↔ _
    rw [hcall]
    simp

/-- A drive with a key that it does not know, a stop with an argument, and `count` with two
arguments too many. -/
theorem surplus_refused_drive :
    let drive : Arguments := ⟨[.number 1, .number 2], Table.empty.set "speed" (.number 3)⟩
    let stop : Arguments := ⟨[.nil], .empty⟩
    let count : Arguments := ⟨[.observation ⟨[], ""⟩, .nil, .nil], .empty⟩
    let bench : Bench Simulator := ⟨.ofSeed 7, .unbounded⟩
    (∃ cause, Bench.call? Simulator.robot drive bench "go_to" = some (.error cause, bench)) ∧
      (∃ cause, Bench.call? Simulator.robot stop bench "stop" = some (.error cause, bench)) ∧
      ∃ cause, Bench.call? Simulator.robot count bench "count" = some (.error cause, bench) := by
  intro drive stop count bench
  have hspeed : drive.Exceeds (signature "go_to") :=
    .inr ⟨"speed", List.mem_singleton.2 rfl, by decide⟩
  have hstop : stop.Exceeds (signature "stop") := .inl (by decide)
  have hcount : count.Exceeds (signature "count") := .inl (by decide)
  have htwo : ¬ count.Fits 2 [] := fun h => absurd h.positional (by decide)
  obtain ⟨_, hdrive⟩ := (surplus_refused drive).1 "go_to" (.inr (by decide)) hspeed
    fun h => absurd h (by decide)
  obtain ⟨_, hhalt⟩ := (surplus_refused stop).1 "stop" (.inr (by decide)) hstop
    fun h => absurd h (by decide)
  obtain ⟨_, hthree⟩ := (surplus_refused count).1 "count" (.inl (by decide)) hcount fun _ => htwo
  exact ⟨⟨_, hdrive Simulator.robot bench⟩, ⟨_, hhalt Simulator.robot bench⟩,
    ⟨_, hthree Simulator.robot bench⟩⟩

/-- `count` takes an argument more than its signature has, and answers as it does without. -/
theorem count_takes_surplus :
    let o : Observation := ⟨[⟨"bottle", 0, 480, 10, 10, 1⟩], ""⟩
    let a : Arguments := ⟨[.observation o, .number 7], .empty⟩
    let bench : Bench Simulator := ⟨.ofSeed 7, .unbounded⟩
    a.Exceeds (signature "count") ∧
      Bench.call? Simulator.robot a bench "count" = some (.ok (.number (.ofNat 1)), bench) :=
  ⟨.inl (by decide), rfl⟩

end RobotBench
