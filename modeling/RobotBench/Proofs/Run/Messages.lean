import Mathlib.Data.List.Pairwise
import Mathlib.Data.List.Sort
import RobotBench.Proofs.Run.Dispatch

/-!
# The messages of `print` and `fail`

What these two say is made of the arguments of the call, a word for each. The arguments without a
key come first, as they were written. Those with a key follow in the order of their keys; a key
names one argument, so the last one given for it counts. `Lists` is this order, and
`Lists.unique` says that it leaves no choice. `messages_list_arguments` is what a call of either
operation does. If no key is given twice, each argument is said (`Lists.perm`), and a call that is
written in this order is said as it is written (`Lists.of_ordered`).
-/

namespace RobotBench

/-- The value of an operand whose variable is bound. -/
def Atom.reading (names : Namespace) : Atom → Value
  | .literal value => value
  | .word text => .text text
  | .variable name => (names.values.find? name).getD .nil

/-- Each variable among the arguments is bound. -/
def Defined (names : Namespace) (arguments : List Argument) : Prop :=
  ∀ argument ∈ arguments, ∀ name, argument.value = .variable name →
    names.values.contains name = true

namespace Argument

/-- The word that an argument makes in a message. -/
def shown (names : Namespace) (argument : Argument) : String :=
  match argument.key with
  | some key => key ++ "=" ++ (argument.value.reading names).render
  | none => (argument.value.reading names).render

/-- Arguments without a key stand before those with one, and these in the order of their keys. -/
def Precedes (a b : Argument) : Prop :=
  match a.key, b.key with
  | none, _ => True
  | some _, none => False
  | some key, some other => key < other

/-- The two arguments are not given for one key. -/
def Apart (a b : Argument) : Prop := a.key = none ∨ a.key ≠ b.key

/-- The last of the arguments that is given for a key. -/
def last? (key : String) (arguments : List Argument) : Option Argument :=
  arguments.reverse.find? fun argument => argument.key = some key

/-- The arguments without a key. -/
def unkeyed (arguments : List Argument) : List Argument :=
  arguments.filter fun argument => argument.key.isNone

/-- The arguments with a key. -/
def keyed (arguments : List Argument) : List Argument :=
  arguments.filter fun argument => !argument.key.isNone

end Argument

open Argument (Precedes Apart last? unkeyed keyed)

/-- The list is the one in which a message has the arguments: first those without a key as they
were written, and then, in the order of the keys, the last argument for each key. -/
structure Lists (listed arguments : List Argument) : Prop where
  ordered : listed.Pairwise Precedes
  unkeyed_eq : unkeyed listed = unkeyed arguments
  mem_iff : ∀ argument key, argument.key = some key →
    (argument ∈ listed ↔ last? key arguments = some argument)

/-! ## The order of arguments -/

namespace Argument

variable {a b : Argument} {arguments : List Argument} {key : String}

/-- Arguments in order have no key in common. -/
theorem Precedes.apart (h : Precedes a b) : Apart a b := by
  obtain ⟨key | key, value⟩ := a
  · exact .inl rfl
  · obtain ⟨other | other, value'⟩ := b
    · exact False.elim h
    · refine .inr fun heq => ?_
      obtain rfl : key = other := Option.some.inj heq
      exact String.lt_irrefl key h

instance : Std.Symm Apart where
  symm a b h := by
    by_cases hb : b.key = none
    · exact .inl hb
    · rcases h with ha | hne
      · exact .inr fun heq => hb (heq.trans ha)
      · exact .inr hne.symm

/-- An argument that is added at the end is the last one with its key. -/
theorem last_append (argument : Argument) :
    last? key (arguments ++ [argument]) =
      if argument.key = some key then some argument else last? key arguments := by
  rw [last?, List.reverse_append, List.reverse_singleton, List.singleton_append, List.find?_cons,
    ← last?]
  split <;> simp_all

/-- The last argument with a key has this key. -/
theorem key_of_last (h : last? key arguments = some a) : a.key = some key := by
  simpa using List.find?_some h

/-- If no key is given twice, the last argument for a key is the argument for it. -/
theorem last_iff (hapart : arguments.Pairwise Apart) (hkey : a.key = some key) :
    last? key arguments = some a ↔ a ∈ arguments := by
  constructor
  · intro h
    exact List.mem_reverse.1 (List.mem_of_find?_eq_some h)
  · intro h
    have hsome : (last? key arguments).isSome :=
      List.find?_isSome.2 ⟨a, List.mem_reverse.2 h, decide_eq_true hkey⟩
    obtain ⟨b, hb⟩ := Option.isSome_iff_exists.1 hsome
    have hmem : b ∈ arguments := List.mem_reverse.1 (List.mem_of_find?_eq_some hb)
    have hsame : a.key = b.key := hkey.trans (key_of_last hb).symm
    by_cases heq : a = b
    · rw [heq, hb]
    · rcases hapart.forall h hmem heq with hnone | hne
      · cases hkey.symm.trans hnone
      · exact absurd hsame hne

/-- The keyed arguments are those that have a key. -/
theorem mem_keyed : a ∈ keyed arguments ↔ a ∈ arguments ∧ ∃ key, a.key = some key := by
  rw [keyed, List.mem_filter]
  cases a.key <;> simp

/-- Arguments in order are those without a key and then those with one. -/
theorem unkeyed_append_keyed (h : arguments.Pairwise Precedes) :
    unkeyed arguments ++ keyed arguments = arguments := by
  induction arguments with
  | nil => rfl
  | cons a more ih =>
      obtain ⟨hfirst, hmore⟩ := List.pairwise_cons.1 h
      obtain ⟨_ | key, value⟩ := a
      · exact congrArg (_ :: ·) (ih hmore)
      · -- nothing without a key follows one with a key
        have hnone : unkeyed more = [] := by
          refine List.filter_eq_nil_iff.2 fun b hb hkey => ?_
          have hprecedes := hfirst b hb
          rw [Precedes, Option.isNone_iff_eq_none.1 hkey] at hprecedes
          exact hprecedes
        have hmore := ih hmore
        rw [hnone, List.nil_append] at hmore
        show unkeyed more ++ _ :: keyed more = _
        rw [hnone, hmore, List.nil_append]

/-- The key of one argument is less than that of the other. -/
def Below (a b : Argument) : Prop :=
  ∃ key other, a.key = some key ∧ b.key = some other ∧ key < other

/-- Of two keys only one is below the other. -/
theorem Below.asymm (h : Below a b) : ¬ Below b a := by
  obtain ⟨key, other, ha, hb, hlt⟩ := h
  rintro ⟨_, _, hb', ha', hlt'⟩
  cases hb.symm.trans hb'
  cases ha.symm.trans ha'
  exact String.lt_asymm hlt hlt'

instance : Std.Irrefl Below := ⟨fun _ h => h.asymm h⟩

instance : Std.Antisymm Below := ⟨fun _ _ h h' => absurd h' h.asymm⟩

/-- The keys of arguments in order increase. -/
theorem keyed_below (h : arguments.Pairwise Precedes) : (keyed arguments).Pairwise Below := by
  refine List.pairwise_filter.2 (h.imp fun {a b} hab ha hb => ?_)
  obtain ⟨_ | key, value⟩ := a
  · cases ha
  · obtain ⟨_ | other, value'⟩ := b
    · cases hb
    · exact ⟨key, other, rfl, rfl, hab⟩

/-- Where no key comes twice, no keyed argument does. -/
theorem keyed_nodup (h : arguments.Pairwise Apart) : (keyed arguments).Nodup := by
  refine List.pairwise_filter.2 (h.imp fun {a b} hab ha _ heq => ?_)
  rcases hab with hnone | hne
  · rw [hnone] at ha
    cases ha
  · exact hne (congrArg Argument.key heq)

end Argument

namespace Lists

variable {listed other arguments : List Argument}

/-- What is listed by its key is the last argument for it. -/
theorem mem_keyed_iff (h : Lists listed arguments) {argument : Argument} :
    argument ∈ keyed listed ↔
      ∃ key, argument.key = some key ∧ last? key arguments = some argument := by
  rw [Argument.mem_keyed]
  constructor
  · rintro ⟨hmem, key, hkey⟩
    exact ⟨key, hkey, (h.mem_iff argument key hkey).1 hmem⟩
  · rintro ⟨key, hkey, hlast⟩
    exact ⟨(h.mem_iff argument key hkey).2 hlast, key, hkey⟩

/-- There is only one way to list arguments. -/
theorem unique (h : Lists listed arguments) (hother : Lists other arguments) : listed = other := by
  have hkeyed : keyed listed = keyed other :=
    (Argument.keyed_below h.ordered).eq_of_mem_iff (Argument.keyed_below hother.ordered)
      fun _ => h.mem_keyed_iff.trans hother.mem_keyed_iff.symm
  calc listed
    _ = unkeyed listed ++ keyed listed := (Argument.unkeyed_append_keyed h.ordered).symm
    _ = unkeyed other ++ keyed other := by rw [h.unkeyed_eq, hother.unkeyed_eq, hkeyed]
    _ = other := Argument.unkeyed_append_keyed hother.ordered

/-- Arguments that are written in the order of a message are listed as they are. -/
theorem of_ordered (h : arguments.Pairwise Precedes) : Lists arguments arguments where
  ordered := h
  unkeyed_eq := rfl
  mem_iff _ _ hkey := (Argument.last_iff (h.imp Argument.Precedes.apart) hkey).symm

/-- If no key is given twice, each argument is listed. -/
theorem perm (h : Lists listed arguments) (hapart : arguments.Pairwise Apart) :
    listed.Perm arguments := by
  have hlisted : listed.Pairwise Apart := h.ordered.imp Argument.Precedes.apart
  have hkeyed : (keyed listed).Perm (keyed arguments) := by
    refine (List.perm_ext_iff_of_nodup (Argument.keyed_nodup hlisted)
      (Argument.keyed_nodup hapart)).2 fun argument => ?_
    rw [h.mem_keyed_iff, Argument.mem_keyed]
    constructor
    · rintro ⟨key, hkey, hlast⟩
      exact ⟨(Argument.last_iff hapart hkey).1 hlast, key, hkey⟩
    · rintro ⟨hmem, key, hkey⟩
      exact ⟨key, hkey, (Argument.last_iff hapart hkey).2 hmem⟩
  calc listed
    List.Perm _ (unkeyed listed ++ keyed listed) := (List.filter_append_perm _ _).symm
    List.Perm _ (unkeyed arguments ++ keyed arguments) := h.unkeyed_eq ▸ hkeyed.append_left _
    List.Perm _ arguments := List.filter_append_perm _ _

end Lists

/-! ## What is gathered -/

namespace Argument

variable {a : Argument} {arguments : List Argument} {key : String}

/-- The operand that counts for each key. -/
def operands (arguments : List Argument) : Table Atom :=
  arguments.foldl (fun table argument => match argument.key with
    | some key => table.set key argument.value
    | none => table) .empty

/-- The arguments that count for their keys, in the order of the keys. -/
def counted (arguments : List Argument) : List Argument :=
  (operands arguments).entries.map fun entry => ⟨some entry.1, entry.2⟩

/-- Of several operands with a key the last one is found. -/
theorem operands_find (key : String) (arguments : List Argument) :
    (operands arguments).find? key = (last? key arguments).map Argument.value := by
  induction arguments using List.reverseRecOn with
  | nil => rfl
  | append_singleton more argument ih =>
      obtain ⟨_ | other, value⟩ := argument
      · rw [last_append, if_neg nofun, ← ih, operands, List.foldl_append]
        rfl
      · rw [last_append, operands, List.foldl_append, ← operands]
        show ((operands more).set other value).find? key = _
        by_cases heq : key = other
        · rw [heq, Table.find?_set_self, if_pos rfl]
          rfl
        · rw [Table.find?_set_of_ne _ _ heq, if_neg fun h => heq (Option.some.inj h).symm, ih]

/-- The arguments that count are the last ones of their keys. -/
theorem mem_counted {value : Atom} : ⟨some key, value⟩ ∈ counted arguments ↔
    last? key arguments = some ⟨some key, value⟩ := by
  have hentry : ⟨some key, value⟩ ∈ counted arguments ↔
      (key, value) ∈ (operands arguments).entries := by
    simp [counted]
  rw [hentry, Table.mem_entries_iff, operands_find, Option.map_eq_some_iff]
  constructor
  · rintro ⟨⟨found, _⟩, hlast, rfl⟩
    obtain rfl : found = some key := key_of_last hlast
    exact hlast
  · intro hlast
    exact ⟨_, hlast, rfl⟩

/-- All arguments that count have a key. -/
theorem unkeyed_counted (arguments : List Argument) : unkeyed (counted arguments) = [] := by
  refine List.filter_eq_nil_iff.2 fun a ha => ?_
  obtain ⟨entry, -, rfl⟩ := List.mem_map.1 ha
  exact nofun

/-- An argument without a key may come before any other. -/
theorem precedes_of_unkeyed (ha : a ∈ unkeyed arguments) (b : Argument) : Precedes a b := by
  rw [Precedes, Option.isNone_iff_eq_none.1 (List.mem_filter.1 ha).2]
  trivial

/-- A message lists the arguments without a key and those that count. -/
theorem lists_counted (arguments : List Argument) :
    Lists (unkeyed arguments ++ counted arguments) arguments where
  ordered := by
    refine List.pairwise_append.2 ⟨?_, ?_, fun a ha b _ => precedes_of_unkeyed ha b⟩
    · exact List.pairwise_of_forall_mem_list fun a ha b _ => precedes_of_unkeyed ha b
    · exact List.pairwise_map.2 (List.pairwise_map.1 (operands arguments).sorted :)
  unkeyed_eq := by
    have hself : unkeyed (unkeyed arguments) = unkeyed arguments :=
      List.filter_eq_self.2 fun a ha => (List.mem_filter.1 ha).2
    calc unkeyed (unkeyed arguments ++ counted arguments)
      _ = unkeyed (unkeyed arguments) ++ unkeyed (counted arguments) := List.filter_append _ _
      _ = unkeyed arguments := by rw [unkeyed_counted, List.append_nil, hself]
  mem_iff argument key hkey := by
    obtain ⟨_, value⟩ := argument
    obtain rfl : _ = some key := hkey
    rw [List.mem_append, ← mem_counted]
    exact or_iff_right fun h => absurd (List.mem_filter.1 h).2 Bool.false_ne_true

end Argument

/-- An operand that is defined has a value. -/
theorem plain_value_reading {names : Namespace} {operand : Atom}
    (h : ∀ name, operand = .variable name → names.values.contains name = true) :
    plainValue names operand = .ok (operand.reading names) := by
  cases operand with
  | literal value => rfl
  | word text => rfl
  | «variable» name =>
      obtain ⟨value, hvalue⟩ := Option.isSome_iff_exists.1 (h name rfl)
      rw [plainValue, Atom.reading, hvalue]
      rfl

/-- Arguments whose variables are bound are put with those that are done, one after another. -/
theorem gather_defined {names : Namespace} {arguments : List Argument}
    (h : Defined names arguments) (done : Arguments) :
    gather names arguments done = .ok (arguments.foldl
      (fun done argument => done.push argument.key (argument.value.reading names)) done) := by
  induction arguments generalizing done with
  | nil => rfl
  | cons argument more ih =>
      have hvalue := plain_value_reading (h argument List.mem_cons_self)
      have hmore : Defined names more := fun a ha => h a (List.mem_cons_of_mem _ ha)
      rw [gather, hvalue]
      exact ih hmore _

/-- What is gathered: the values without a key in order, and the value that counts for each key. -/
theorem pushed_eq (names : Namespace) (arguments : List Argument) :
    let pushed := arguments.foldl
      (fun done argument => done.push argument.key (argument.value.reading names)) Arguments.none
    pushed.positional = (unkeyed arguments).map (·.value.reading names) ∧
      pushed.keyword.entries = (Argument.operands arguments).entries.map
        fun entry => (entry.1, entry.2.reading names) := by
  induction arguments using List.reverseRecOn with
  | nil => exact ⟨rfl, rfl⟩
  | append_singleton more argument ih =>
      obtain ⟨hpositional, hkeyword⟩ := ih
      obtain ⟨_ | key, value⟩ := argument
      · simp only [Argument.operands, unkeyed, List.foldl_append, List.filter_append,
          List.map_append]
        exact ⟨congrArg (· ++ _) hpositional, hkeyword⟩
      · simp only [Argument.operands, unkeyed, List.foldl_append, List.filter_append,
          List.map_append]
        refine ⟨hpositional.trans (List.append_nil _).symm, ?_⟩
        show Table.place key (value.reading names) _ = _
        rw [hkeyword]
        exact Table.place_map (·.reading names) key value _

/-- The message of a call has a word for each argument listed. -/
theorem message_counted {names : Namespace} {arguments : List Argument}
    (h : Defined names arguments) : ∃ given, gather names arguments .none = .ok given ∧
      Builtin.message given = " ".intercalate
        ((unkeyed arguments ++ Argument.counted arguments).map (·.shown names)) := by
  refine ⟨_, gather_defined h .none, ?_⟩
  obtain ⟨hpositional, hkeyword⟩ := pushed_eq names arguments
  have hunkeyed : (unkeyed arguments).map (fun argument => (argument.value.reading names).render) =
      (unkeyed arguments).map (·.shown names) := by
    refine List.map_congr_left fun argument hargument => ?_
    rw [Argument.shown, Option.isNone_iff_eq_none.1 (List.mem_filter.1 hargument).2]
  rw [Builtin.message, hpositional, hkeyword, List.map_append, ← hunkeyed, Argument.counted,
    List.map_map, List.map_map, List.map_map]
  rfl

/-! ## Calls -/

section

variable {σ : Type} (robot : Robot σ) (maxSteps : Option Nat) (entry : Entry (Bench σ))
  {c : Call} {m : Machine (Bench σ)} {given : Arguments}

/-- A call of a builtin on a bench acts on the sink. -/
theorem call_builtin_apply {b : Builtin} (hname : c.name = b.name)
    (hprocedure : m.names.procedures.find? c.name = none)
    (hgiven : gather m.names c.arguments .none = .ok given) :
    c.run (Bench.setting robot maxSteps) entry m =
      ((b.invoke given m.world.sink).1.mapError fun cause => .fault ⟨[], cause⟩,
        { m with world := ⟨m.world.robot, (b.invoke given m.world.sink).2⟩ }) := by
  have hact : (Bench.setting robot maxSteps).host.operation? c.name =
      some (Bench.onSink b.invoke) := hname ▸ Bench.operation_builtin robot b
  rw [call_run_apply, hgiven]
  show callNamed _ _ c.name given m = _
  rw [call_named_operation _ _ hprocedure hact, run_operation_apply]
  rfl

end

/-- A call of `print` or `fail` whose variables are bound says one message, where no procedure
has the name of the operation. It has a word for each argument that is listed: `print` prints the
line, unless the sink refuses it, and `fail` fails with it. If no key is given twice, all arguments
are listed, and arguments that are written in the order of a message are listed as they are. -/
theorem messages_list_arguments {σ : Type} (robot : Robot σ) (maxSteps : Option Nat)
    (entry : Entry (Bench σ)) (c : Call) (m : Machine (Bench σ))
    (hdefined : Defined m.names c.arguments)
    (hprocedure : m.names.procedures.find? c.name = none) :
    ∃ listed, Lists listed c.arguments ∧
      (c.arguments.Pairwise Apart → listed.Perm c.arguments) ∧
      (c.arguments.Pairwise Precedes → listed = c.arguments) ∧
      let line := " ".intercalate (listed.map (·.shown m.names))
      (c.name = "print" →
        (Statement.call c).run (Bench.setting robot maxSteps) entry m =
          match m.world.sink.write (line ++ "\n").toUTF8 with
          | (true, sink) => (.ok .next, { m with world := ⟨m.world.robot, sink⟩ })
          | (false, sink) =>
            (.error (.fault ⟨[], .sinkClosed⟩), { m with world := ⟨m.world.robot, sink⟩ })) ∧
      (c.name = "fail" →
        (Statement.call c).run (Bench.setting robot maxSteps) entry m =
          (.error (.fault ⟨[], .failed line⟩), m) ∧
        (Cause.failed line).message = "payload failed: " ++ line) := by
  obtain ⟨given, hgiven, hmessage⟩ := message_counted hdefined
  have hlists := Argument.lists_counted c.arguments
  refine ⟨_, hlists, hlists.perm, fun h => hlists.unique (.of_ordered h), ?_, ?_⟩
  · intro hname
    have hrun := call_builtin_apply robot maxSteps entry (b := .print) hname hprocedure hgiven
    rw [← hmessage, Statement.run]
    rcases hwrite : m.world.sink.write (Builtin.message given ++ "\n").toUTF8 with ⟨all, sink⟩
    rw [Builtin.invoke, Builtin.line?] at hrun
    simp only [hwrite] at hrun
    cases all with
    | true => exact Exec.bind_ok hrun
    | false => exact Exec.bind_error hrun
  · intro hname
    have hrun := call_builtin_apply robot maxSteps entry (b := .fail) hname hprocedure hgiven
    rw [← hmessage, Statement.run]
    exact ⟨Exec.bind_error hrun, rfl⟩

/-- A failure whose keys are out of order, with a variable. -/
theorem messages_list_arguments_lost :
    let arguments : List Argument := [⟨some "to", .word "dock"⟩, ⟨some "at", .variable "x"⟩,
      ⟨none, .word "lost"⟩]
    let m : Machine (Bench Simulator) :=
      ⟨⟨.ofSeed 7, .unbounded⟩, Namespace.empty.assign "x" (.bool true), 0⟩
    (Statement.call ⟨"fail", arguments⟩).run (Bench.setting Simulator.robot none)
      (fun _ _ => pure .nil) m = (.error (.fault ⟨[], .failed "lost at=true to=dock"⟩), m) := by
  intro arguments m
  have hdefined : Defined m.names arguments := by
    intro argument hargument name hname
    simp only [arguments, List.mem_cons, List.not_mem_nil, or_false] at hargument
    rcases hargument with rfl | rfl | rfl
    · cases hname
    · cases hname
      rfl
    · cases hname
  obtain ⟨listed, hlists, -, -, -, hfail⟩ := messages_list_arguments Simulator.robot none
    (fun _ _ => pure .nil) ⟨"fail", arguments⟩ m hdefined rfl
  obtain rfl := hlists.unique (Argument.lists_counted arguments)
  exact (hfail rfl).1

/-- Of two arguments for one key only the last is said, and an argument without a key that stands
behind one with a key is said before it. -/
theorem message_leaves_out_argument :
    let arguments : List Argument := [⟨some "to", .word "dock"⟩, ⟨some "battery", .word "low"⟩,
      ⟨none, .word "returning"⟩, ⟨some "battery", .word "critical"⟩]
    let m : Machine (Bench Simulator) := ⟨⟨.ofSeed 7, .unbounded⟩, .empty, 0⟩
    let result := (Statement.call ⟨"print", arguments⟩).run (Bench.setting Simulator.robot none)
      (fun _ _ => pure .nil) m
    result.1 = .ok .next ∧
      result.2.world.sink.bytes = "returning battery=critical to=dock\n".toUTF8 ∧
      result.2.world.sink.bytes ≠
        (" ".intercalate (arguments.map (·.shown m.names)) ++ "\n").toUTF8 := by
  intro arguments m result
  have hbytes : result.2.world.sink.bytes = "returning battery=critical to=dock\n".toUTF8 := by rfl
  refine ⟨rfl, hbytes, ?_⟩
  rw [hbytes]
  decide

end RobotBench
