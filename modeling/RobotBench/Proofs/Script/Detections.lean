import RobotBench.Proofs.Number.Literal
import RobotBench.Proofs.Script.Arguments
import RobotBench.Script.Builtin

/-!
# Detections by their index

What `label`, `position` and `confidence` tell about an observation is told about the detection
at the index that is asked for, and about no other. An index is any value with a numeric view,
and it asks for a detection only if this view is a whole number (`IsIndex`). `observed_iff` and
`detected_iff` say what the checks let pass; `Observation.at_word_iff` says that it makes no
difference that a machine cuts the index to a word before it looks. `detection_lookup_exact` puts
this together.
-/

namespace RobotBench

/-! ## Indices -/

namespace Number

/-- The number is this natural number. -/
def IsNatural (x : Number) (k : Nat) : Prop :=
  x.isFinite = true ∧ x.place = some ((k * unitsPerOne : Nat) : Int)

/-- The number has a fraction other than zero. What is not finite counts as having one. -/
def hasFraction : Number → Bool
  | .finite _ m => m.units % unitsPerOne ≠ 0
  | _ => true

/-- The number cut toward zero and held inside the 64-bit words; zero for what is no number. -/
def toWord : Number → UInt64
  | .nan => 0
  | .infinite negative => if negative then 0 else .ofNat (UInt64.size - 1)
  | .finite negative m =>
    if negative then 0 else .ofNat (min (m.units / unitsPerOne) (UInt64.size - 1))

/-- A number is one natural number only. -/
theorem IsNatural.unique {x : Number} {k l : Nat} (hk : x.IsNatural k) (hl : x.IsNatural l) :
    k = l :=
  Option.some.inj ((to_nat_iff.2 hk).symm.trans (to_nat_iff.2 hl))

/-- Zero is a natural number. -/
theorem zero_is_natural : (0 : Number).IsNatural 0 := to_nat_iff.1 (to_nat_of_nat (by decide))

/-- A number is a natural number unless it is below zero or has a fraction. -/
theorem to_nat_eq_none_iff {x : Number} :
    x.toNat? = none ↔ x.below 0 = true ∨ x.hasFraction = true := by
  cases x with
  | nan => exact ⟨fun _ => .inr rfl, fun _ => rfl⟩
  | infinite negative => exact ⟨fun _ => .inr rfl, fun _ => rfl⟩
  | finite negative m =>
      have hbelow : below (.finite negative m) 0 = true ↔ negative = true ∧ m.units ≠ 0 := by
        rw [below, related, zero_is_natural.2, Nat.zero_mul]
        cases negative with
        | true =>
            show decide (-(m.units : Int) < 0) = true ↔ _
            simp only [decide_eq_true_eq, true_and]
            omega
        | false =>
            show decide ((m.units : Int) < 0) = true ↔ _
            simp
      have hfraction : hasFraction (.finite negative m) = true ↔ m.units % unitsPerOne ≠ 0 :=
        decide_eq_true_iff
      rw [hbelow, hfraction, toNat?]
      split
      · rename_i hrefused
        exact ⟨fun _ => hrefused, fun _ => rfl⟩
      · rename_i hwhole
        exact ⟨fun h => absurd h (Option.some_ne_none _), fun hrefused => absurd hrefused hwhole⟩

/-- The word that a natural number is cut to is the number as long as it fits. -/
theorem IsNatural.to_word {x : Number} {k : Nat} (h : x.IsNatural k) :
    x.toWord.toNat = min k (UInt64.size - 1) := by
  have hpos : 0 < unitsPerOne := Nat.two_pow_pos _
  obtain ⟨hfinite, hplace⟩ := h
  cases x with
  | nan => cases hfinite
  | infinite negative => cases hfinite
  | finite negative m =>
      obtain ⟨hpositive, hunits⟩ := place_eq_natural_iff.1 hplace
      have hcount : m.units / unitsPerOne = k := by rw [hunits, Nat.mul_div_cancel k hpos]
      have hfits : min k (UInt64.size - 1) < UInt64.size := by
        have : 0 < UInt64.size := by decide
        omega
      rw [toWord, hcount]
      cases negative with
      | true =>
          have hzero : m.units = 0 := by simpa using hpositive
          have hk : k = 0 := by rw [← hcount, hzero, Nat.zero_div]
          rw [if_pos rfl, hk]
          rfl
      | false =>
          rw [if_neg Bool.false_ne_true]
          exact UInt64.toNat_ofNat_of_lt hfits

end Number

/-- The index asks for the detection of this number, counted from zero. Without an index that is
the first one. -/
def IsIndex : Option Value → Nat → Prop
  | none, k => k = 0
  | some value, k => ∃ x, value.number? = some x ∧ x.IsNatural k

namespace Observation

/-- The detection at a number, or why there is none. -/
def pick (o : Observation) (operation : String) (x : Number) : Except Cause Detection :=
  match x.toNat? with
  | none => .error (.indexNotWhole operation x)
  | some k => match o.detections[k]? with
    | some d => .ok d
    | none => .error (.indexOutOfRange operation x o.detections.length)

/-- The detection at a number as a machine finds it: what is below zero or has a fraction is
refused, and anything else is cut to a word. -/
def atWord? (o : Observation) (x : Number) : Option Detection :=
  if x.below 0 ∨ x.hasFraction then none else o.detections[x.toWord.toNat]?

variable {o : Observation} {operation : String} {x : Number} {k : Nat} {d : Detection}

/-- A natural number below the count picks the detection there. -/
theorem pick_natural (h : x.IsNatural k) (hk : k < o.detections.length) :
    o.pick operation x = .ok o.detections[k] := by
  rw [pick, Number.to_nat_iff.2 h]
  dsimp only
  rw [List.getElem?_eq_getElem hk]

/-- A natural number that is not below the count is refused with the count. -/
theorem pick_beyond (h : x.IsNatural k) (hk : o.detections.length ≤ k) :
    o.pick operation x = .error (.indexOutOfRange operation x o.detections.length) := by
  rw [pick, Number.to_nat_iff.2 h]
  dsimp only
  rw [List.getElem?_eq_none hk]

/-- A number that is no count is refused. -/
theorem pick_not_count (h : x.NotCount) :
    o.pick operation x = .error (.indexNotWhole operation x) := by
  rw [pick, h.to_nat]

/-- A detection is picked by its index alone. -/
theorem pick_iff : o.pick operation x = .ok d ↔
    ∃ k, ∃ h : k < o.detections.length, x.IsNatural k ∧ d = o.detections[k] := by
  constructor
  · intro h
    cases hx : x.toNat? with
    | none =>
        rw [pick, hx] at h
        cases h
    | some k =>
        have hnatural := Number.to_nat_iff.1 hx
        by_cases hk : k < o.detections.length
        · rw [pick_natural hnatural hk] at h
          exact ⟨k, hk, hnatural, (Except.ok.inj h).symm⟩
        · rw [pick_beyond hnatural (Nat.le_of_not_lt hk)] at h
          cases h
  · rintro ⟨k, hk, hnatural, rfl⟩
    exact pick_natural hnatural hk

/-- Cutting an index to a word picks no other detection: there are fewer detections than words,
so an index that is too large for a word is out of range before and after. -/
theorem at_word_iff (hlength : o.detections.length < UInt64.size) :
    o.atWord? x = some d ↔ ∃ k, ∃ h : k < o.detections.length, x.IsNatural k ∧
      d = o.detections[k] := by
  unfold atWord?
  split
  · rename_i hrefused
    have hnone := Number.to_nat_eq_none_iff.2 hrefused
    refine ⟨nofun, ?_⟩
    rintro ⟨k, -, hnatural, -⟩
    cases hnone.symm.trans (Number.to_nat_iff.2 hnatural)
  · rename_i hwhole
    obtain ⟨k, hk⟩ := Option.ne_none_iff_exists'.1 fun hnone =>
      hwhole (Number.to_nat_eq_none_iff.1 hnone)
    have hnatural : x.IsNatural k := Number.to_nat_iff.1 hk
    rw [hnatural.to_word]
    by_cases hrange : k < o.detections.length
    · have hword : min k (UInt64.size - 1) = k := by omega
      rw [hword, List.getElem?_eq_getElem hrange, Option.some_inj]
      constructor
      · rintro rfl
        exact ⟨k, hrange, hnatural, rfl⟩
      · rintro ⟨l, hl, hother, rfl⟩
        obtain rfl := hnatural.unique hother
        rfl
    · have hbeyond : o.detections.length ≤ min k (UInt64.size - 1) := by omega
      rw [List.getElem?_eq_none hbeyond]
      refine ⟨nofun, ?_⟩
      rintro ⟨l, hl, hother, -⟩
      exact absurd (hnatural.unique hother ▸ hl) hrange

end Observation

/-! ## Questions about a detection -/

namespace Builtin

/-- What a builtin tells about the detection that it is asked about. -/
def tells? : Builtin → Option (Detection → Value)
  | label => some fun d => .text d.label
  | position => some fun d => .number d.x
  | confidence => some fun d => .number d.confidence
  | _ => none

section

variable {operation : String} {a : Arguments} {o : Observation}

/-- An observation is found only where it stands first, and where nothing has a key. -/
theorem observed_iff : observed operation a = .ok o ↔
    a.Fits 2 [] ∧ a.positional[0]? = some (.observation o) := by
  rw [observed, Except.bind_eq_ok_iff]
  constructor
  · rintro ⟨⟨⟩, hexpect, h⟩
    have hfits := Arguments.expect_at_most_iff.1 hexpect
    obtain ⟨value, hvalue, h⟩ := Except.bind_eq_ok_iff.1 h
    have hfirst := Arguments.required_iff.1 hvalue
    rw [hfits.given] at hfirst
    split at h
    · cases h
      exact ⟨hfits, hfirst⟩
    · cases h
  · rintro ⟨hfits, hfirst⟩
    rw [← hfits.given 0 "observation"] at hfirst
    refine ⟨(), Arguments.expect_at_most_iff.2 hfits, ?_⟩
    exact Except.bind_eq_ok_iff.2 ⟨_, Arguments.required_iff.2 hfirst, rfl⟩

/-- Which detection is asked about is decided by the observation and the index. -/
theorem detected_eq (h : observed operation a = .ok o) :
    detected operation a = a.numberD operation 1 ["index"] 0 >>= o.pick operation := by
  rw [detected, h]
  rfl

/-- With a number as its index a detection is picked from the observation. -/
theorem detected_pick {x : Number} (h : observed operation a = .ok o)
    (hindex : a.numberD operation 1 ["index"] 0 = .ok x) :
    detected operation a = o.pick operation x := by
  rw [detected_eq h, hindex]
  rfl

/-- Without an index the first detection is picked. -/
theorem detected_first (operation : String) (o : Observation) :
    detected operation ⟨[.observation o], .empty⟩ = o.pick operation 0 :=
  detected_pick rfl (Arguments.number_default_iff.2 (.inr ⟨rfl, rfl⟩))

/-- The index may be any value that is a number. -/
theorem detected_at {value : Value} {x : Number} (operation : String) (o : Observation)
    (h : value.number? = some x) :
    detected operation ⟨[.observation o, value], .empty⟩ = o.pick operation x :=
  detected_pick rfl (Arguments.number_default_iff.2 (.inl ⟨value, rfl, h⟩))

/-- An index that is no number is refused. -/
theorem detected_not_number {value : Value} (operation : String) (o : Observation)
    (h : value.number? = none) : detected operation ⟨[.observation o, value], .empty⟩ =
      .error (.argument operation (.notNumber "index" value)) := by
  have hindex : Arguments.number? ⟨[.observation o, value], .empty⟩ operation 1 ["index"] =
      .error (.argument operation (.notNumber "index" value)) := by
    have hgiven : Arguments.given? ⟨[.observation o, value], .empty⟩ 1 "index" = some value := rfl
    rw [Arguments.number?, Arguments.get_single, hgiven]
    simp only [h]
    rfl
  rw [detected_eq (o := o) rfl, Arguments.numberD, hindex]
  rfl

/-- An index that asks for a detection is a number with which the look-up goes on. -/
theorem detected_index {index : Option Value} {k : Nat} (operation : String) (o : Observation)
    (h : IsIndex index k) : ∃ x : Number, x.IsNatural k ∧
      detected operation ⟨.observation o :: index.toList, .empty⟩ = o.pick operation x := by
  cases index with
  | none =>
      obtain rfl : k = 0 := h
      exact ⟨0, Number.zero_is_natural, detected_first operation o⟩
  | some value =>
      obtain ⟨x, hx, hnatural⟩ := h
      exact ⟨x, hnatural, detected_at operation o hx⟩

/-- What is found is the detection that the index asks for. -/
theorem detected_iff {index : Option Value} {d : Detection} :
    detected operation ⟨.observation o :: index.toList, .empty⟩ = .ok d ↔
      ∃ k, ∃ h : k < o.detections.length, IsIndex index k ∧ d = o.detections[k] := by
  constructor
  · intro h
    cases index with
    | none =>
        obtain ⟨k, hk, hnatural, hd⟩ := Observation.pick_iff.1 ((detected_first _ o).symm.trans h)
        exact ⟨k, hk, hnatural.unique Number.zero_is_natural, hd⟩
    | some value =>
        cases hx : value.number? with
        | none => cases (detected_not_number operation o hx).symm.trans h
        | some x =>
            obtain ⟨k, hk, hnatural, hd⟩ :=
              Observation.pick_iff.1 ((detected_at _ o hx).symm.trans h)
            exact ⟨k, hk, ⟨x, hx, hnatural⟩, hd⟩
  · rintro ⟨k, hk, hindex, rfl⟩
    obtain ⟨x, hnatural, hdetected⟩ := detected_index operation o hindex
    exact hdetected.trans (Observation.pick_natural hnatural hk)

/-- Nothing is detected where no observation stands first. -/
theorem detected_refused (h : ∀ o, a.positional[0]? ≠ some (.observation o)) :
    ∃ cause, detected operation a = .error cause := by
  rw [detected]
  cases hobserved : observed operation a with
  | error cause => exact ⟨cause, rfl⟩
  | ok o => exact absurd (observed_iff.1 hobserved).2 (h o)

end

/-- A builtin that tells about a detection does nothing else. -/
theorem invoke_tells {b : Builtin} {tell : Detection → Value} (hb : b.tells? = some tell)
    (a : Arguments) (s : Sink) : b.invoke a s = ((detected b.name a).map tell, s) := by
  cases b with
  | label | position | confidence =>
      obtain rfl := Option.some.inj hb
      rfl
  | _ => cases hb

end Builtin

/-- A question about a detection, asked of an observation with or without an index, is answered
exactly if the index is a whole number `k`, with `0 ≤ k` and `k` below the number of detections,
and what is told is told about the detection `k`, the first one being number zero. An index that
is too large, one that is negative, has a fraction or is not finite, and one without a numeric
view are refused, each for its own cause, and so is every call whose first argument is no
observation. Nothing is printed in any case. A machine that checks the sign and the fraction of
an index and cuts it to a word finds the same detection for every index there is. -/
theorem detection_lookup_exact {b : Builtin} {tell : Detection → Value} (hb : b.tells? = some tell)
    (s : Sink) :
    (∀ (o : Observation) (index : Option Value),
      let answer := b.invoke ⟨.observation o :: index.toList, .empty⟩ s
      (∀ value, answer = (.ok value, s) ↔ ∃ k, ∃ h : k < o.detections.length,
        IsIndex index k ∧ value = tell o.detections[k]) ∧
      (∀ k, IsIndex index k → o.detections.length ≤ k → ∃ x,
        answer = (.error (.indexOutOfRange b.name x o.detections.length), s)) ∧
      (∀ value x, index = some value → value.number? = some x → x.NotCount →
        answer = (.error (.indexNotWhole b.name x), s)) ∧
      ∀ value, index = some value → value.number? = none →
        answer = (.error (.argument b.name (.notNumber "index" value)), s)) ∧
    (∀ a : Arguments, (∀ o, a.positional[0]? ≠ some (.observation o)) →
      ∃ cause, b.invoke a s = (.error cause, s)) ∧
    ∀ (o : Observation) (x : Number) (d : Detection), o.detections.length < UInt64.size →
      (o.atWord? x = some d ↔ ∃ k, ∃ h : k < o.detections.length, x.IsNatural k ∧
        d = o.detections[k]) := by
  have hinvoke := Builtin.invoke_tells hb
  refine ⟨fun o index => ?_, fun a hfirst => ?_, fun o x d => Observation.at_word_iff⟩
  · intro answer
    have hanswer : answer = _ := hinvoke _ s
    rw [hanswer]
    refine ⟨fun value => ?_, fun k hindex hlength => ?_, ?_, ?_⟩
    · rw [Prod.mk.injEq, map_ok_iff]
      simp only [Builtin.detected_iff, and_true]
      constructor
      · rintro ⟨_, ⟨k, hk, hindex, rfl⟩, rfl⟩
        exact ⟨k, hk, hindex, rfl⟩
      · rintro ⟨k, hk, hindex, rfl⟩
        exact ⟨_, ⟨k, hk, hindex, rfl⟩, rfl⟩
    · obtain ⟨x, hnatural, hdetected⟩ := Builtin.detected_index b.name o hindex
      rw [hdetected, Observation.pick_beyond hnatural hlength]
      exact ⟨x, rfl⟩
    · rintro value x rfl hx hnot
      rw [Option.toList_some, Builtin.detected_at b.name o hx, Observation.pick_not_count hnot]
      rfl
    · rintro value rfl hx
      rw [Option.toList_some, Builtin.detected_not_number b.name o hx]
      rfl
  · have hrefused : ∃ cause, Builtin.detected b.name a = .error cause :=
      Builtin.detected_refused hfirst
    obtain ⟨cause, hcause⟩ := hrefused
    rw [hinvoke a s, hcause]
    exact ⟨cause, rfl⟩

/-- The second of two detections, asked for by a numeral, and an index that is infinite. -/
theorem detection_lookup_exact_second :
    let first : Detection := ⟨"bottle", 0, 480, 10, 10, 1⟩
    let second : Detection := ⟨"person", 375, 480, 10, 10, 1⟩
    let o : Observation := ⟨[first, second], ""⟩
    let ask (index : Value) := Builtin.label.invoke ⟨[.observation o, index], .empty⟩ .unbounded
    ask (.text "1") = (.ok (.text "person"), .unbounded) ∧
      ask (.number (.infinite false)) =
        (.error (.indexNotWhole "label" (.infinite false)), .unbounded) ∧
      o.atWord? 1 = some second := by
  intro first second o ask
  have hone : (1 : Number).IsNatural 1 := Number.to_nat_iff.1 (Number.to_nat_of_nat (by decide))
  have htells : Builtin.label.tells? = some fun d => .text d.label := rfl
  obtain ⟨hindex, -, hword⟩ := detection_lookup_exact htells .unbounded
  obtain ⟨hfound, -⟩ := hindex o (some (.text "1"))
  obtain ⟨-, -, hrefused, -⟩ := hindex o (some (.number (.infinite false)))
  refine ⟨(hfound _).2 ⟨1, by decide, ⟨1, read_number_repr 1, hone⟩, rfl⟩,
    hrefused _ _ rfl rfl (.inl rfl), (hword o 1 second (by decide)).2 ⟨1, by decide, hone, rfl⟩⟩

end RobotBench
