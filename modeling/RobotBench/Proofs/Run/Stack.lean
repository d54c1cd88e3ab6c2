import RobotBench.Proofs.Run.Order

/-!
# What is open in a run

The events of a run tell which blocks and procedures are open at each of its moments: those
that have begun and not ended, kept as a stack by `stackAfter`. Events in order leave the stack
as it was, and at no moment put more on it than the grammar of `Orderly` allows: `Settled`.
-/

namespace RobotBench

/-- Something that has begun and not ended. -/
inductive Opened where
  | block
  | procedure (name : String)
  deriving DecidableEq

/-- Whether it is a procedure. -/
def Opened.isProcedure : Opened → Bool
  | block => false
  | procedure _ => true

/-- How many procedures are active. -/
def activeIn (stack : List Opened) : Nat := stack.countP Opened.isProcedure

/-- How many blocks run. -/
def blocksIn (stack : List Opened) : Nat := stack.countP (!·.isProcedure)

/-- What is open after an event, the innermost first. -/
def Event.track (stack : List Opened) : Event → List Opened
  | .openBlock => .block :: stack
  | .enter name _ => .procedure name :: stack
  | .closeBlock | .exit _ => stack.tail
  | .step | .operation _ => stack

/-- What is open after events. -/
def stackAfter (stack : List Opened) (events : List Event) : List Opened :=
  events.foldl Event.track stack

/-- How many blocks begin among the events where nothing else that began among them is open. -/
def roundsFrom (stack : List Opened) : List Event → Nat
  | [] => 0
  | .openBlock :: rest => roundsFrom (.block :: stack) rest + if stack = [] then 1 else 0
  | event :: rest => roundsFrom (event.track stack) rest

section

variable (stack : List Opened) (event : Event) (events more : List Event)

@[simp] theorem stack_after_nil : stackAfter stack [] = stack := rfl

@[simp] theorem stack_after_cons :
    stackAfter stack (event :: events) = stackAfter (event.track stack) events := rfl

@[simp] theorem stack_after_append :
    stackAfter stack (events ++ more) = stackAfter (stackAfter stack events) more :=
  List.foldl_append

@[simp] theorem rounds_from_append :
    roundsFrom stack (events ++ more) =
      roundsFrom stack events + roundsFrom (stackAfter stack events) more := by
  induction events generalizing stack with
  | nil => exact (Nat.zero_add _).symm
  | cons event rest ih =>
      cases event with
      | openBlock =>
          simp only [List.cons_append, roundsFrom, ih, stack_after_cons, Event.track]
          omega
      | _ => exact ih _

end

/-! ## Settled events -/

/-- The events leave what was open before them open and nothing else, and at every moment
there are only so many procedures and blocks more open than before. -/
structure Settled (calls blocks : Nat) (events : List Event) : Prop where
  ends (stack : List Opened) : stackAfter stack events = stack
  within (stack : List Opened) (earlier : List Event) : earlier <+: events →
    ∃ inner, stackAfter stack earlier = inner ++ stack ∧ activeIn inner ≤ calls ∧
      blocksIn inner ≤ blocks

namespace Settled

variable {calls blocks : Nat} {events more : List Event}

theorem nil : Settled calls blocks [] where
  ends _ := rfl
  within stack earlier h := by
    rw [List.prefix_nil.1 h]
    exact ⟨[], rfl, Nat.zero_le _, Nat.zero_le _⟩

/-- What follows settled events begins where they began. -/
theorem append (h : Settled calls blocks events) (hmore : Settled calls blocks more) :
    Settled calls blocks (events ++ more) where
  ends stack := by rw [stack_after_append, h.ends, hmore.ends]
  within stack earlier hprefix := by
    rcases List.prefix_or_prefix_of_prefix hprefix (List.prefix_append events more) with
      hfirst | ⟨later, rfl⟩
    · exact h.within stack earlier hfirst
    · rw [stack_after_append, h.ends]
      exact hmore.within stack later ((List.prefix_append_right_inj events).1 hprefix)

/-- An event that begins and ends nothing. -/
theorem single {event : Event} (h : ∀ stack, event.track stack = stack) :
    Settled calls blocks [event] where
  ends := h
  within stack earlier hprefix := by
    rcases List.prefix_cons_iff.1 hprefix with rfl | ⟨rest, rfl, hrest⟩
    · exact ⟨[], rfl, Nat.zero_le _, Nat.zero_le _⟩
    · rw [List.prefix_nil.1 hrest]
      exact ⟨[], h stack, Nat.zero_le _, Nat.zero_le _⟩

/-- Settled events between the beginning and the end of something. -/
theorem bracket {calls' blocks' : Nat} (first last : Event) (opened : Opened)
    (hfirst : ∀ stack, first.track stack = opened :: stack)
    (hlast : ∀ stack, last.track stack = stack.tail)
    (hcalls : calls + activeIn [opened] ≤ calls') (hblocks : blocks + blocksIn [opened] ≤ blocks')
    (h : Settled calls blocks events) : Settled calls' blocks' (first :: events ++ [last]) where
  ends stack := by
    rw [List.cons_append, stack_after_cons, hfirst, stack_after_append, h.ends]
    exact hlast _
  within stack earlier hprefix := by
    rcases List.prefix_cons_iff.1 hprefix with rfl | ⟨rest, rfl, hrest⟩
    · exact ⟨[], rfl, Nat.zero_le _, Nat.zero_le _⟩
    rw [stack_after_cons, hfirst]
    rcases List.prefix_or_prefix_of_prefix hrest (List.prefix_append events [last]) with
      hinside | ⟨after, rfl⟩
    · obtain ⟨inner, hstack, hinner, hinner'⟩ := h.within (opened :: stack) rest hinside
      refine ⟨inner ++ [opened], by rw [hstack, List.append_assoc]; rfl, ?_, ?_⟩
      · rw [activeIn, List.countP_append]
        exact Nat.le_trans (Nat.add_le_add_right hinner _) hcalls
      · rw [blocksIn, List.countP_append]
        exact Nat.le_trans (Nat.add_le_add_right hinner' _) hblocks
    · rw [stack_after_append, h.ends]
      rcases List.prefix_cons_iff.1 ((List.prefix_append_right_inj events).1 hrest) with
        rfl | ⟨done, rfl, hdone⟩
      · exact ⟨[opened], rfl, Nat.le_trans (Nat.le_add_left _ _) hcalls,
          Nat.le_trans (Nat.le_add_left _ _) hblocks⟩
      · rw [List.prefix_nil.1 hdone]
        exact ⟨[], hlast _, Nat.zero_le _, Nat.zero_le _⟩

end Settled

namespace Orderly

variable {calls blocks : Nat} {events : List Event}

/-- Events in order are settled. -/
theorem settled (h : Orderly calls blocks events) : Settled calls blocks events := by
  induction h with
  | nil => exact .nil
  | step _ ih => exact (Settled.single fun _ => rfl).append ih
  | operation name _ ih =>
      exact (Settled.single fun _ => rfl).append ((Settled.single fun _ => rfl).append ih)
  | block _ _ ihinside ihrest =>
      have hblock := ihinside.bracket .openBlock .closeBlock .block (fun _ => rfl) (fun _ => rfl)
        (Nat.le_refl _) (Nat.le_refl _)
      rw [List.append_cons]
      exact hblock.append ihrest
  | call name body _ _ ihinside ihrest =>
      have hcall := ihinside.bracket (.enter name body) (.exit name) (.procedure name)
        (fun _ => rfl) (fun _ => rfl) (Nat.le_refl _) (Nat.le_refl _)
      rw [List.append_cons]
      exact hcall.append ihrest

/-- Where something is open, no round begins. -/
theorem rounds_from_inside (h : Orderly calls blocks events) {stack : List Opened}
    (hopen : stack ≠ []) : roundsFrom stack events = 0 := by
  induction h generalizing stack with
  | nil => rfl
  | step _ ih => exact ih hopen
  | operation name _ ih => exact ih hopen
  | block hinside _ ihinside ihrest =>
      rw [rounds_from_append, stack_after_cons, hinside.settled.ends]
      show roundsFrom (.block :: stack) _ + (if stack = [] then 1 else 0) + roundsFrom stack _ = 0
      rw [if_neg hopen, ihinside (List.cons_ne_nil _ _), ihrest hopen]
  | call name body hinside _ ihinside ihrest =>
      rw [rounds_from_append, stack_after_cons, hinside.settled.ends]
      show roundsFrom (.procedure name :: stack) _ + roundsFrom stack _ = 0
      rw [ihinside (List.cons_ne_nil _ _), ihrest hopen]

/-- A block on its own is one round. -/
theorem rounds_of_block (h : Orderly calls blocks events) :
    roundsFrom [] (.openBlock :: events ++ [.closeBlock]) = 1 := by
  rw [rounds_from_append, stack_after_cons, h.settled.ends]
  show roundsFrom [.block] events + 1 + 0 = 1
  rw [h.rounds_from_inside (List.cons_ne_nil _ _)]

end Orderly

/-- A visit is settled. -/
theorem Visit.settled {calls blocks : Nat} {events : List Event}
    (h : Visit calls blocks events) : Settled calls blocks events := by
  cases h with
  | nothing => exact .nil
  | operation name => exact .single fun _ => rfl
  | procedure h => exact h.orderly.settled

/-- A visit begins no round: what it calls opens its blocks inside. -/
theorem Visit.rounds {calls blocks : Nat} {events : List Event}
    (h : Visit calls blocks events) : roundsFrom [] events = 0 := by
  cases h with
  | nothing => rfl
  | operation name => rfl
  | procedure h =>
      cases h with
      | refused => rfl
      | entered name body hinside =>
          rw [rounds_from_append, stack_after_cons, hinside.settled.ends]
          show roundsFrom [.procedure name] _ + 0 = 0
          rw [hinside.rounds_from_inside (List.cons_ne_nil _ _)]

end RobotBench
