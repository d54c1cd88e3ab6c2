import RobotBench.Proofs.Run.Stack

/-!
# The depth of calls

`enter` is given how many more procedures may become active. An interpreter has a counter for
those that are instead, which it raises and lowers as they begin and end: `enterCounted`. Both
do the same, by `enter_counted_same`, since the counter is at every moment the number of
procedures that are open, and every call leaves it as it was, also when it fails:
`Counted.Coherent`. With the bounds on what is open in a run, `call_depth_bounded` says how deep
calls and blocks are nested.
-/

namespace RobotBench

/-- A world with a counter of the active procedures. It keeps every event that was watched in
it, with the counter after it. -/
structure Counted (ω : Type) where
  world : ω
  depth : Nat
  seen : List (Event × Nat)

/-- What an event makes of the counter. -/
def Event.count (depth : Nat) : Event → Nat
  | .enter _ _ => depth + 1
  | .exit _ => depth - 1
  | _ => depth

namespace Counted

variable {ω : Type}

/-- The events watched in the world. -/
def events (w : Counted ω) : List Event := w.seen.map Prod.fst

/-- What is open in the world. -/
def opened (w : Counted ω) : List Opened := stackAfter [] w.events

/-- The world and the log of events, without the counter. -/
def logged (w : Counted ω) : Logged ω := ⟨w.world, w.events⟩

/-- The counter is the number of open procedures, and always was. -/
structure Coherent (w : Counted ω) : Prop where
  depth : w.depth = activeIn w.opened
  seen (earlier : List (Event × Nat)) (event : Event) (depth : Nat)
    (later : List (Event × Nat)) : w.seen = earlier ++ (event, depth) :: later →
      depth = activeIn (stackAfter [] ((earlier ++ [(event, depth)]).map Prod.fst))

end Counted

section

variable {ω : Type}

/-- The host, with a counter that it changes as procedures begin and end. -/
def Host.counted (host : Host ω) : Host (Counted ω) :=
  host.onPart Counted.world (fun world w => { w with world })
    fun event w => ⟨host.watch event w.world, event.count w.depth,
      w.seen ++ [(event, event.count w.depth)]⟩

/-- The setting with a counter. -/
def Setting.counted (setting : Setting ω) : Setting (Counted ω) :=
  ⟨setting.host.counted, setting.maxSteps, setting.rounds⟩

/-- A host with a counter is the logged host with a counter. -/
theorem Host.counted_projects (host : Host ω) :
    host.counted.Projects Counted.logged host.logged where
  watch event w := by
    simp only [Counted.logged, Counted.events, counted, logged, onPart, List.map_append,
      List.map_cons, List.map_nil]
  operation? name := by simp only [counted, logged, onPart, Option.isSome_map]
  operation {name act' act} hact' hact arguments w := by
    obtain ⟨act₀, hact₀, rfl⟩ := Option.map_eq_some_iff.1 hact'
    obtain ⟨act₁, hact₁, rfl⟩ := Option.map_eq_some_iff.1 hact
    cases hact₀.symm.trans hact₁
    rfl

variable (setting : Setting ω) (beyond : Entry (Counted ω))

/-- Enters a procedure unless the counter is at its limit. Only so many nested calls are
followed; those beyond do whatever they like. -/
def enterCounted : Nat → Entry (Counted ω)
  | 0, name, body => beyond name body
  | levels + 1, name, body => do
    if maxCallDepth ≤ (← get).world.depth then Exec.fail (.callDepth name maxCallDepth)
    else
      let flow ← Exec.under (.procedure name)
        (Exec.between setting.counted.host (.enter name body) (.exit name)
          (runBody setting.counted (enterCounted levels) body))
      return flow.value

/-- Runs the top level of a script with a way to enter procedures. -/
def Script.runWith (entry : Entry ω) (script : Script) : Exec ω Unit := do
  match ← runBody setting entry script with
  | .next => return
  | _ => Exec.fail .escapedFlow

/-- Calls a procedure that a script has defined with a way to enter it. -/
def callWith (entry : Entry ω) (name : String) : Exec ω Value := do
  match (← get).names.procedures.find? name with
  | some body => entry name body
  | none => Exec.fail (.undefinedProcedure name)

end

/-! ## Coherence -/

namespace Counted

variable {ω : Type} {host : Host ω} {w : Counted ω}

theorem opened_watch (host : Host ω) (event : Event) (w : Counted ω) :
    (host.counted.watch event w).opened = event.track w.opened := by
  simp only [opened, events, Host.counted, Host.onPart, List.map_append, List.map_cons,
    List.map_nil, stack_after_append, stack_after_cons, stack_after_nil]

/-- Nothing has been watched yet. -/
theorem Coherent.fresh (world : ω) : (⟨world, 0, []⟩ : Counted ω).Coherent where
  depth := rfl
  seen earlier _ _ _ hsplit := absurd hsplit.symm
    (List.append_ne_nil_of_right_ne_nil earlier (List.cons_ne_nil _ _))

/-- Watching an event keeps the world coherent if the counter follows what is open. -/
theorem Coherent.watch (h : w.Coherent) {event : Event}
    (hcount : event.count w.depth = activeIn (event.track w.opened)) :
    (host.counted.watch event w).Coherent where
  depth := by
    rw [opened_watch]
    exact hcount
  seen earlier other depth later hsplit := by
    -- the entry is the new one, which is the last, or it was there before
    rcases List.eq_nil_or_concat later with rfl | ⟨later, last, rfl⟩
    · obtain ⟨rfl, hlast⟩ := List.append_inj' hsplit rfl
      cases hlast
      rw [hcount, List.map_append, stack_after_append]
      rfl
    · rw [List.concat_eq_append, ← List.cons_append, ← List.append_assoc] at hsplit
      exact h.seen earlier other depth later (List.append_inj' hsplit rfl).1

end Counted

/-- Where the counter has a value in a coherent world, both executions do the same and leave
the world coherent and everything open that was. -/
def SameAt {ω : Type} (depth : Nat) {α : Type} (x y : Exec (Counted ω) α) : Prop :=
  ∀ m, m.world.Coherent → m.world.depth = depth →
    y m = x m ∧ (x m).2.world.Coherent ∧ (x m).2.world.opened = m.world.opened

namespace SameAt

variable {ω α β : Type} {depth : Nat} {x y : Exec (Counted ω) α}

/-- The counter is as it was before. -/
theorem depth_kept (h : SameAt depth x y) {m : Machine (Counted ω)} (hm : m.world.Coherent)
    (hdepth : m.world.depth = depth) : (x m).2.world.depth = depth := by
  obtain ⟨-, hcoherent, hopened⟩ := h m hm hdepth
  rw [hcoherent.depth, hopened, ← hm.depth, hdepth]

/-- An execution that leaves the world alone. -/
theorem of_world (h : ∀ m, (x m).2.world = m.world) : SameAt depth x x :=
  fun m hm _ => ⟨rfl, (h m).symm ▸ hm, congrArg _ (h m)⟩

theorem bind {f g : α → Exec (Counted ω) β} (hx : SameAt depth x y)
    (hf : ∀ a, SameAt depth (f a) (g a)) : SameAt depth (x >>= f) (y >>= g) := by
  intro m hm hdepth
  obtain ⟨hsame, hcoherent, hopened⟩ := hx m hm hdepth
  have hkept := hx.depth_kept hm hdepth
  rw [Exec.bind_apply, Exec.bind_apply, hsame]
  rcases hresult : x m with ⟨halt | a, m₁⟩
  · rw [hresult] at hcoherent hopened
    exact ⟨rfl, hcoherent, hopened⟩
  · rw [hresult] at hcoherent hopened hkept
    obtain ⟨hsame', hcoherent', hopened'⟩ := hf a m₁ hcoherent hkept
    exact ⟨hsame', hcoherent', hopened'.trans hopened⟩

theorem under (h : SameAt depth x y) (frame : Frame) :
    SameAt depth (x.under frame) (y.under frame) := by
  intro m hm hdepth
  obtain ⟨hsame, hcoherent, hopened⟩ := h m hm hdepth
  rw [Exec.under_apply, Exec.under_apply, hsame]
  exact ⟨rfl, hcoherent, hopened⟩

/-- Something that begins and ends opens itself, and the counter follows it both times. -/
theorem between {inside : Nat} (h : SameAt inside x y) (host : Host ω) (opened : Opened)
    {first last : Event} (hfirst : ∀ stack, first.track stack = opened :: stack)
    (hlast : ∀ stack, last.track stack = stack.tail) (hbegin : first.count depth = inside)
    (hend : last.count inside = depth) (hinside : inside = depth + activeIn [opened]) :
    SameAt depth (Exec.between host.counted first last x)
      (Exec.between host.counted first last y) := by
  intro m hm hdepth
  have hin : (m.watched host.counted first).world.Coherent := hm.watch (by
    rw [hdepth, hbegin, hinside, hfirst, ← hdepth, hm.depth, Nat.add_comm]
    exact List.countP_append.symm)
  have hin' : (m.watched host.counted first).world.depth = inside := by
    rw [← hbegin, ← hdepth]
    rfl
  obtain ⟨hsame, hcoherent, hopened⟩ := h _ hin hin'
  have hkept := h.depth_kept hin hin'
  have hleft : last.track (x (m.watched host.counted first)).2.world.opened = m.world.opened := by
    rw [hopened, hlast]
    show (host.counted.watch first m.world).opened.tail = _
    rw [Counted.opened_watch, hfirst, List.tail_cons]
  rw [Exec.between_apply, Exec.between_apply, hsame]
  refine ⟨rfl, hcoherent.watch ?_, ?_⟩
  · rw [hkept, hend, hleft, ← hm.depth, hdepth]
  · show (host.counted.watch last _).opened = _
    rw [Counted.opened_watch, hleft]

theorem step (setting : Setting ω) :
    SameAt depth (countStep setting.counted) (countStep setting.counted) := by
  intro m hm _
  rcases count_step_cases setting.counted m with ⟨_, hcount⟩ | ⟨_, _, _, hcount⟩
  · rw [hcount]
    exact ⟨rfl, hm.watch hm.depth, Counted.opened_watch _ _ _⟩
  · rw [hcount]
    exact ⟨rfl, hm, rfl⟩

theorem operation (setting : Setting ω) {name : String}
    {act : Arguments → Counted ω → Except Cause Value × Counted ω} (arguments : Arguments)
    (hact : setting.counted.host.operation? name = some act) :
    SameAt depth (runOperation setting.counted name act arguments)
      (runOperation setting.counted name act arguments) := by
  intro m hm _
  obtain ⟨act₀, _, rfl⟩ := Option.map_eq_some_iff.1 hact
  have hwatched : (setting.host.counted.watch (.operation name) m.world).Coherent :=
    hm.watch hm.depth
  rw [run_operation_apply]
  exact ⟨rfl, ⟨hwatched.depth, hwatched.seen⟩,
    Counted.opened_watch setting.host (.operation name) m.world⟩

end SameAt

section

variable {ω : Type} (setting : Setting ω)

/-- Running nodes with entries that do the same does the same. -/
theorem counting_simulation (depth : Nat) :
    BodySimulation setting.counted setting.counted (fun _ => True) (SameAt depth) where
  pure a := .of_world fun _ => rfl
  bind hx hf := hx.bind hf
  fail _ := .of_world fun _ => rfl
  under frame _ _ h := h.under frame
  block h := h.between setting.host .block (fun _ => rfl) (fun _ => rfl) rfl rfl rfl
  names h m := h m m rfl (fun _ _ _ => trivial) m
  assign name value := .of_world fun _ => rfl
  define name body _ := .of_world fun _ => rfl
  step := .step setting
  operation? name := rfl
  operation arguments hact hact' := by
    cases hact.symm.trans hact'
    exact .operation setting arguments hact
  whilst htest hbody := Exec.whilst_related (fun _ => .of_world fun _ => rfl)
    (fun hx hf => hx.bind hf) (.of_world fun _ => rfl) htest hbody (.step setting) setting.rounds
  nested _ _ _ _ _ _ := trivial

variable (beyond : Entry (Counted ω))

/-- Entering by the counter is entering by what is left of the limit, as long as more calls are
followed than are left. The induction is on how many are followed, so that the bodies of
procedures are entered with fewer of them and a greater counter. -/
theorem enter_counted_same (levels : Nat) {depth : Nat} (hdepth : depth ≤ maxCallDepth)
    (hlevels : maxCallDepth < depth + levels) (name : String) (body : List Node) :
    SameAt depth (enterCounted setting beyond levels name body)
      (enter setting.counted (maxCallDepth - depth) name body) := by
  induction levels generalizing depth name body with
  | zero => omega
  | succ levels ih =>
      intro m hm hcounter
      rw [enterCounted, Exec.bind_ok (Exec.get_apply m), hcounter]
      rcases Nat.eq_or_lt_of_le hdepth with rfl | hroom
      · rw [if_pos (Nat.le_refl _), Nat.sub_self]
        exact ⟨rfl, hm, rfl⟩
      · obtain ⟨left, hleft⟩ : ∃ left, maxCallDepth - depth = left + 1 :=
          ⟨maxCallDepth - (depth + 1), by omega⟩
        have hinside : left = maxCallDepth - (depth + 1) := by omega
        have sim := counting_simulation setting (depth + 1)
        have hbody := sim.body (fun name body _ => ih hroom (by omega) name body) body
          fun _ _ _ _ _ => trivial
        rw [if_neg (Nat.not_le.2 hroom), hleft, enter, hinside]
        exact ((hbody.between setting.host (.procedure name) (fun _ => rfl) (fun _ => rfl)
          rfl rfl rfl).under (.procedure name)).bind (fun _ => .of_world fun _ => rfl) m hm hcounter

/-- A call when the counter is at its limit fails before anything else happens. -/
theorem enter_counted_refused (levels : Nat) (name : String) (body : List Node)
    {m : Machine (Counted ω)} (h : maxCallDepth ≤ m.world.depth) :
    enterCounted setting beyond (levels + 1) name body m =
      (.error (.fault ⟨[], .callDepth name maxCallDepth⟩), m) := by
  rw [enterCounted, Exec.bind_ok (Exec.get_apply m), if_pos h]
  rfl

/-- Scripts do the same with a counter. -/
theorem run_with_same {levels : Nat} (hlevels : maxCallDepth < levels) (script : Script) :
    SameAt 0 (script.runWith setting.counted (enterCounted setting beyond levels))
      (script.run setting.counted) := by
  have hentry := enter_counted_same setting beyond levels (Nat.zero_le _)
    (Nat.lt_of_lt_of_eq hlevels (Nat.zero_add _).symm)
  have hbody := (counting_simulation setting 0).body (fun name body _ => hentry name body) script
    fun _ _ _ _ _ => trivial
  refine hbody.bind fun flow => ?_
  cases flow with
  | next => exact .of_world fun _ => rfl
  | leave => exact .of_world fun _ => rfl
  | answer value => exact .of_world fun _ => rfl

/-- Calls do the same with a counter, and may nest as deep as the first one. -/
theorem call_with_same {levels : Nat} (hlevels : maxCallDepth < levels) (name : String) :
    SameAt 0 (callWith (enterCounted setting beyond levels) name)
      (callProcedure setting.counted name) := by
  intro m hm hdepth
  rw [callWith, callProcedure, Exec.bind_ok (Exec.get_apply m), Exec.bind_ok (Exec.get_apply m)]
  cases m.names.procedures.find? name with
  | some body =>
      exact enter_counted_same setting beyond levels (Nat.zero_le _)
        (Nat.lt_of_lt_of_eq hlevels (Nat.zero_add _).symm) name body m hm hdepth
  | none => exact ⟨rfl, hm, rfl⟩

/-- Over a lifetime nothing is different with a counter, which is where it was in the end. -/
theorem lifetime_same {levels : Nat} (hlevels : maxCallDepth < levels) (script : Script)
    (calls : List String) {m : Machine (Counted ω)} (hm : m.world.Coherent)
    (hdepth : m.world.depth = 0) :
    let entry := enterCounted setting beyond levels
    let after := lifetime (script.runWith setting.counted entry) (callWith entry) calls m
    lifetime (script.run setting.counted) (callProcedure setting.counted) calls m = after ∧
      after.world.Coherent ∧ after.world.depth = 0 := by
  intro entry after
  have hsame := run_with_same setting beyond hlevels script
  obtain ⟨hrun, hcoherent, -⟩ := hsame m hm hdepth
  refine List.foldl_rel (r := fun m' m => m' = m ∧ m.world.Coherent ∧ m.world.depth = 0)
    ⟨congrArg Prod.snd hrun, hcoherent, hsame.depth_kept hm hdepth⟩ ?_
  rintro name - m _ ⟨rfl, hm, hdepth⟩
  have hsame := call_with_same setting beyond hlevels name
  obtain ⟨hcall, hcoherent, -⟩ := hsame m hm hdepth
  exact ⟨congrArg Prod.snd hcall, hcoherent, hsame.depth_kept hm hdepth⟩

end

/-- A lifetime with a counter is a logged one, with the counter beside it. -/
theorem counted_lifetime {ω : Type} (setting : Setting ω) (script : Script) (calls : List String)
    (m : Machine (Counted ω)) :
    lifetime (script.run setting.logged) (callProcedure setting.logged) calls
        (m.project Counted.logged) =
      (lifetime (script.run setting.counted) (callProcedure setting.counted) calls m).project
        Counted.logged := by
  have sim := projection_simulation setting.host.counted_projects setting.maxSteps setting.rounds
  exact Projected.lifetime (sim.script script fun _ _ _ _ _ => trivial) sim.call_procedure calls m

/-! ## Accepted texts -/

/-- In an accepted script no more blocks are nested than may be. -/
theorem nesting_of_text {text : String} {firstLine : Nat} {script : Script}
    (htext : Script.ofText text firstLine = .ok script) : nodesNesting script ≤ maxBlockDepth := by
  have hnesting := nesting_le_of_scoped script (of_text_scoped htext) (Nat.zero_le _)
  rwa [Scope.top, Nat.zero_add] at hnesting

/-- The nodes are the body of a procedure that some accepted text defines. -/
def WrittenBody (body : List Node) : Prop :=
  ∃ text firstLine script line name, Script.ofText text firstLine = .ok script ∧
    .mk line (.define name body) ∈ preorder script

/-- In the body of a procedure one block less may be nested, since its own is around them. -/
theorem WrittenBody.shallow {body : List Node} (h : WrittenBody body) :
    Shallow (maxBlockDepth - 1) body := by
  obtain ⟨text, firstLine, script, line, name, htext, hmem⟩ := h
  exact defines_only_of_nesting script (nesting_of_text htext) _ hmem name body rfl

/-! ## Bounds -/

section

variable {ω : Type} (setting : Setting ω)

/-- The most blocks that run at a time: those of the top level of a script, and those of as
many procedures as may be active. -/
def maxBlocks : Nat := maxBlockDepth + 1 + maxCallDepth * maxBlockDepth

/-- A script of an accepted text is run, with procedures bound from accepted texts, and then
procedures are called one after another, whatever becomes of it all. With a counter this is no
different, and at every moment the counter is the number of active procedures and at most the
limit, and the blocks that run are no more than may be nested in all of them. A call that
would pass the limit fails before anything else happens. Every call leaves the counter as it
was, however it ends, so that each of the calls at the end may nest as deep as the first. -/
theorem call_depth_bounded {text : String} {firstLine : Nat} {script : Script}
    (htext : Script.ofText text firstLine = .ok script) {names : Namespace}
    (hnames : names.AllBodies WrittenBody) (world : ω) (calls : List String)
    (beyond : Entry (Counted ω)) {levels : Nat} (hlevels : maxCallDepth < levels) :
    let entry := enterCounted setting beyond levels
    let start : Machine (Counted ω) := ⟨⟨world, 0, []⟩, names, 0⟩
    let after := lifetime (script.runWith setting.counted entry) (callWith entry) calls start
    (lifetime (script.run setting) (callProcedure setting) calls ⟨world, names, 0⟩ =
      after.project Counted.world) ∧
    (∀ earlier event depth later, after.world.seen = earlier ++ (event, depth) :: later →
      let opened := stackAfter [] ((earlier ++ [(event, depth)]).map Prod.fst)
      activeIn opened = depth ∧ depth ≤ maxCallDepth ∧ blocksIn opened ≤ maxBlocks) ∧
    (∀ levels name body (m : Machine (Counted ω)), maxCallDepth ≤ m.world.depth →
      enterCounted setting beyond (levels + 1) name body m =
        (.error (.fault ⟨[], .callDepth name maxCallDepth⟩), m)) ∧
    (∀ levels name body (m : Machine (Counted ω)), m.world.Coherent →
      m.world.depth ≤ maxCallDepth → maxCallDepth < m.world.depth + levels →
        (enterCounted setting beyond levels name body m).2.world.depth = m.world.depth) ∧
    after.world.depth = 0 ∧
    ∀ name, callWith entry name after = callProcedure setting.counted name after := by
  intro entry start after
  have hstart : start.world.Coherent := .fresh world
  obtain ⟨hsame, hcoherent, hdepth⟩ :=
    lifetime_same setting beyond hlevels script calls hstart rfl
  -- the run without the counter, with its log and without it
  have hlogged := counted_lifetime setting script calls start
  rw [hsame] at hlogged
  have hplain := Projected.lifetime (logged_run setting script) (logged_call setting) calls
    (start.project Counted.logged)
  rw [hlogged] at hplain
  have hnesting := nesting_of_text htext
  have horder := lifetime_orderly setting script hnesting calls
    (m := start.project Counted.logged) (fun name body hfind => (hnames name body hfind).shallow)
    rfl
  rw [hlogged] at horder
  refine ⟨?_, fun earlier event depth later hsplit => ?_,
    fun levels name body m => enter_counted_refused setting beyond levels name body,
    fun levels name body m hm hroom hmore =>
      (enter_counted_same setting beyond levels hroom hmore name body).depth_kept hm rfl,
    hdepth, fun name =>
      ((call_with_same setting beyond hlevels name) after hcoherent hdepth).1.symm⟩
  · exact hplain
  · have hevents : (earlier ++ [(event, depth)]).map Prod.fst <+: after.world.events := by
      rw [Counted.events, hsplit, List.append_cons earlier _ later]
      exact (List.prefix_append _ later).map Prod.fst
    obtain ⟨inner, hstack, hactive, hblocks⟩ := horder.settled.within [] _ hevents
    rw [List.append_nil] at hstack
    have hcount := hcoherent.seen earlier event depth later hsplit
    rw [hstack] at hcount ⊢
    refine ⟨hcount.symm, hcount ▸ hactive, Nat.le_trans hblocks ?_⟩
    show nodesNesting script + 1 + maxBlockDepth * maxCallDepth ≤ maxBlocks
    rw [maxBlocks, Nat.mul_comm]
    exact Nat.add_le_add_right (Nat.add_le_add_right hnesting 1) _

end

/-- A procedure that calls itself, called by a script and then again. -/
theorem call_depth_bounded_recursion :
    let setting : Setting Unit := ⟨⟨fun _ => none, fun _ world => world⟩, some 200, 200⟩
    let body : List Node := [.mk 2 (.call ⟨"f", []⟩)]
    let script : Script := [.mk 1 (.call ⟨"f", []⟩)]
    let names := Namespace.empty.define "f" body
    let entry := enterCounted setting (fun _ _ => throw .endless) (maxCallDepth + 1)
    let after := lifetime (script.runWith setting.counted entry) (callWith entry) ["f"]
      ⟨⟨(), 0, []⟩, names, 0⟩
    Script.ofText "f" 1 = .ok script ∧ WrittenBody body ∧ after.world.depth = 0 ∧
      (callWith entry "f" after = callProcedure setting.counted "f" after) ∧
      ∀ earlier event depth later, after.world.seen = earlier ++ (event, depth) :: later →
        depth ≤ 64 := by
  intro setting body script names
  have htext : Script.ofText "f" 1 = .ok script := rfl
  have hbody : WrittenBody body :=
    ⟨"def f\nf\nend", 1, [.mk 1 (.define "f" body)], 1, "f", rfl, List.mem_cons_self⟩
  have hnames : names.AllBodies WrittenBody := by
    refine Namespace.AllBodies.define ?_ "f" hbody
    intro _ _ hfind
    cases hfind
  obtain ⟨-, hmoments, -, -, hdepth, hcall⟩ := call_depth_bounded setting htext hnames ()
    ["f"] (fun _ _ => throw .endless) (Nat.lt_add_one maxCallDepth)
  dsimp only
  exact ⟨htext, hbody, hdepth, hcall "f", fun earlier event depth later hsplit =>
    (hmoments earlier event depth later hsplit).2.1⟩

end RobotBench
