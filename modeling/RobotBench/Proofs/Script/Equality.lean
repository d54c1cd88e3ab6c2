import RobotBench.Proofs.Number.Literal
import RobotBench.Script.Meaning

/-!
# Equality and order of values

Two values with a numeric view are compared as numbers and any other two by their texts, and
which way it goes depends on both sides. It agrees with itself all the same, as long as numbers
are finite: the text of a value reads as a number exactly when the value has this numeric view
(`Value.read_render`), so that a value stands for one thing, its `Value.measure`, and equality
compares these. `equality_is_equivalence` puts the laws of the six comparisons together.
-/

namespace RobotBench

namespace Number

/-! ## Places of finite numbers -/

theorem exists_place {x : Number} (h : x.isFinite = true) : ∃ i, x.place = some i := by
  cases x with
  | nan => cases h
  | infinite negative => cases h
  | finite negative m => exact ⟨_, rfl⟩

theorem related_places {r : Int → Int → Bool} {x y : Number} {i j : Int}
    (hx : x.place = some i) (hy : y.place = some j) : related r x y = r i j := by
  rw [related, hx, hy]

/-- Finite numbers are equal when they stand at one place. -/
theorem equals_iff {x y : Number} (hx : x.isFinite = true) :
    x.equals y = true ↔ x.place = y.place := by
  obtain ⟨i, hi⟩ := exists_place hx
  cases hy : y.place with
  | none => simp [equals, related, hi, hy]
  | some j => simp [equals, related, hi, hy]

end Number

namespace Value

/-! ## Texts of values -/

/-- The numeric view of the value is a finite number, if there is one. -/
def Regular (v : Value) : Prop := ∀ x, v.number? = some x → x.isFinite = true

/-- The text of a value is read as its numeric view: the texts of numbers are literals and those
of truth values, observations, poses, collision readings and nil are not. -/
theorem read_render {v : Value} (h : v.Regular) : readNumber? v.render = v.number? := by
  cases v with
  | nil => exact read_number_none (c := 'n') rfl (by decide)
  | bool b =>
      cases b with
      | true => exact read_number_none (c := 't') rfl (by decide)
      | false => exact read_number_none (c := 'f') rfl (by decide)
  | number x =>
      have hx : x.isFinite = true := h x rfl
      cases x with
      | nan => cases hx
      | infinite negative => cases hx
      | finite negative m => exact read_number_plain negative m
  | text s => rfl
  | observation o =>
      refine read_number_none (c := '[') ?_ (by decide)
      rw [render, Observation.text, String.append_assoc, String.toList_append]
      rfl
  | pose p =>
      refine read_number_none (c := '(') ?_ (by decide)
      rw [render, Pose.text, tuple, String.append_assoc, String.toList_append]
      rfl
  | collision c =>
      cases c with
      | free => exact read_number_none (c := 'f') rfl (by decide)
      | front => exact read_number_none (c := 'f') rfl (by decide)
      | left => exact read_number_none (c := 'l') rfl (by decide)
      | right => exact read_number_none (c := 'r') rfl (by decide)

/-! ## What equality compares -/

/-- What a value stands for in a comparison: the place of its numeric view, or its text. -/
def measure (v : Value) : Option Int ⊕ String :=
  match v.number? with
  | some x => .inl x.place
  | none => .inr v.render

/-- A value with a numeric view and a value without one have different texts. -/
theorem render_ne {a b : Value} (ha : a.Regular) (hb : b.Regular)
    (h : a.number?.isSome ≠ b.number?.isSome) : a.render ≠ b.render := by
  intro hrender
  apply h
  rw [← read_render ha, ← read_render hb, hrender]

theorem loosely_equals_false {a b : Value} (ha : a.Regular) (hb : b.Regular)
    (h : a.number?.isSome ≠ b.number?.isSome) : a.looselyEquals b = false := by
  have hrender := render_ne ha hb h
  unfold looselyEquals
  cases hx : a.number? with
  | none => exact decide_eq_false hrender
  | some x =>
      cases hy : b.number? with
      | none => exact decide_eq_false hrender
      | some y =>
          rw [hx, hy] at h
          exact absurd rfl h

/-- Equality compares what the values stand for. -/
theorem loosely_equals_iff {a b : Value} (ha : a.Regular) (hb : b.Regular) :
    a.looselyEquals b = true ↔ a.measure = b.measure := by
  have hmixed := loosely_equals_false ha hb
  cases hx : a.number? with
  | none =>
      cases hy : b.number? with
      | none => simp [looselyEquals, measure, hx, hy]
      | some y =>
          rw [hx, hy] at hmixed
          simp [hmixed, measure, hx, hy]
  | some x =>
      cases hy : b.number? with
      | none =>
          rw [hx, hy] at hmixed
          simp [hmixed, measure, hx, hy]
      | some y =>
          simp only [looselyEquals, measure, hx, hy, Sum.inl.injEq]
          exact Number.equals_iff (ha x hx)

end Value

/-! ## The order of values -/

namespace Comparison

/-- The comparisons that put values in order. -/
def IsOrder (c : Comparison) : Prop := c ≠ eq ∧ c ≠ ne

/-- An order can be asked of two values exactly when both have a numeric view. -/
theorem order_fails_iff {c : Comparison} (hc : c.IsOrder) (a b : Value) :
    (∃ cause, c.holds a b = .error cause) ↔ a.number? = none ∨ b.number? = none := by
  have horder (r : Number → Number → Bool) :
      (∃ cause, holds.order a b r = .error cause) ↔ a.number? = none ∨ b.number? = none := by
    unfold holds.order
    cases hx : a.number? with
    | none => exact ⟨fun _ => .inl rfl, fun _ => ⟨_, rfl⟩⟩
    | some x =>
        cases hy : b.number? with
        | none => exact ⟨fun _ => .inr rfl, fun _ => ⟨_, rfl⟩⟩
        | some y => simp
  cases c with
  | eq => exact absurd rfl hc.1
  | ne => exact absurd rfl hc.2
  | lt => exact horder _
  | gt => exact horder _
  | le => exact horder _
  | ge => exact horder _

/-- Two finite numbers are in exactly one of three relations, and the comparisons that include
equality are made of these. -/
theorem order_trichotomy {a b : Value} {x y : Number} (ha : a.number? = some x)
    (hb : b.number? = some y) (hx : x.isFinite = true) (hy : y.isFinite = true) :
    ∃ below equal above,
      lt.holds a b = .ok below ∧ eq.holds a b = .ok equal ∧ gt.holds a b = .ok above ∧
      le.holds a b = .ok (below || equal) ∧ ge.holds a b = .ok (above || equal) ∧
      [below, equal, above].count true = 1 := by
  obtain ⟨i, hi⟩ := Number.exists_place hx
  obtain ⟨j, hj⟩ := Number.exists_place hy
  have horder (r : Number → Number → Bool) : holds.order a b r = .ok (r x y) := by
    rw [holds.order, ha, hb]
  have hatMost (i j : Int) : decide (i ≤ j) = (decide (i < j) || i == j) := by
    rw [Bool.eq_iff_iff, Bool.or_eq_true, decide_eq_true_eq, decide_eq_true_eq, beq_iff_eq]
    omega
  refine ⟨decide (i < j), i == j, decide (j < i), ?_, ?_, ?_, ?_, ?_, ?_⟩
  · rw [holds, horder, Number.below, Number.related_places hi hj]
  · rw [holds, Value.looselyEquals, ha, hb]
    show Except.ok (x.equals y) = _
    rw [Number.equals, Number.related_places hi hj]
  · rw [holds, horder, Number.below, Number.related_places hj hi]
  · rw [holds, horder, Number.atMost, Number.related_places hi hj, hatMost]
  · rw [holds, horder, Number.atMost, Number.related_places hj hi, hatMost, Bool.beq_comm]
  · rcases Int.lt_trichotomy i j with h | h | h
    · have hequal : ¬ i = j := by omega
      have habove : ¬ j < i := by omega
      simp [h, hequal, habove]
    · simp [h]
    · have hequal : ¬ i = j := by omega
      have hbelow : ¬ i < j := by omega
      simp [h, hequal, hbelow]

end Comparison

/-- Equality of scripts is an equivalence of the values whose numeric view is absent or finite,
and it tells those with a numeric view from those without one. Of such values `!=` is its
complement, the order is linear where both have a numeric view, and it fails elsewhere. -/
theorem equality_is_equivalence :
    (Equivalence fun a b : {v : Value // v.Regular} => a.1.looselyEquals b.1 = true) ∧
    ∀ a b : Value, a.Regular → b.Regular →
      (a.number?.isSome ≠ b.number?.isSome → a.looselyEquals b = false) ∧
      Comparison.eq.holds a b = .ok (a.looselyEquals b) ∧
      Comparison.ne.holds a b = .ok (!a.looselyEquals b) ∧
      (a.number?.isSome → b.number?.isSome → ∃ below equal above,
        Comparison.lt.holds a b = .ok below ∧ Comparison.eq.holds a b = .ok equal ∧
        Comparison.gt.holds a b = .ok above ∧
        Comparison.le.holds a b = .ok (below || equal) ∧
        Comparison.ge.holds a b = .ok (above || equal) ∧
        [below, equal, above].count true = 1) ∧
      ∀ c : Comparison, c.IsOrder →
        ((∃ cause, c.holds a b = .error cause) ↔ a.number? = none ∨ b.number? = none) := by
  constructor
  · have hiff (a b : {v : Value // v.Regular}) := Value.loosely_equals_iff a.2 b.2
    exact {
      refl := fun a => (hiff a a).2 rfl
      symm := fun {a b} h => (hiff b a).2 ((hiff a b).1 h).symm
      trans := fun {a b c} hab hbc => (hiff a c).2 (((hiff a b).1 hab).trans ((hiff b c).1 hbc)) }
  · intro a b ha hb
    refine ⟨Value.loosely_equals_false ha hb, rfl, rfl, ?_, ?_⟩
    · intro hsome hsome'
      obtain ⟨x, hx⟩ := Option.isSome_iff_exists.1 hsome
      obtain ⟨y, hy⟩ := Option.isSome_iff_exists.1 hsome'
      exact Comparison.order_trichotomy hx hy (ha x hx) (hb y hy)
    · intro c hc
      exact Comparison.order_fails_iff hc a b

/-- The number one and the text `1.0` are one value for comparisons, and neither is the reading
of a collision on the left. -/
theorem equality_is_equivalence_one :
    (∃ below equal above,
      Comparison.lt.holds (.number 1) (.text "1.0") = .ok below ∧
      Comparison.eq.holds (.number 1) (.text "1.0") = .ok equal ∧
      Comparison.gt.holds (.number 1) (.text "1.0") = .ok above ∧
      Comparison.le.holds (.number 1) (.text "1.0") = .ok (below || equal) ∧
      Comparison.ge.holds (.number 1) (.text "1.0") = .ok (above || equal) ∧
      [below, equal, above].count true = 1) ∧
    (Value.text "1.0").looselyEquals (.number 1) = true ∧
    (Value.text "left").looselyEquals (.collision .left) = true ∧
    (Value.text "1.0").looselyEquals (.collision .left) = false ∧
    ∃ cause, Comparison.lt.holds (.text "1.0") (.collision .left) = .error cause := by
  have hone : (Value.number 1).Regular := by
    intro x hx
    obtain rfl := Option.some.inj hx
    decide +kernel
  have hread : (Value.text "1.0").number? = some 1 := by decide +kernel
  have htext : (Value.text "1.0").Regular := by
    intro x hx
    obtain rfl := Option.some.inj (hread.symm.trans hx)
    decide +kernel
  have hleft : (Value.collision .left).Regular := by
    rintro _ ⟨⟩
  have hword : (Value.text "left").Regular := by
    intro x hx
    cases hx.symm.trans (by decide +kernel : (Value.text "left").number? = none)
  have hpair := equality_is_equivalence.2 (.number 1) (.text "1.0") hone htext
  have hother := equality_is_equivalence.2 (.text "1.0") (.collision .left) htext hleft
  have hequal : (Value.number 1).looselyEquals (.text "1.0") = true := by decide +kernel
  have hsame : (Value.collision .left).looselyEquals (.text "left") = true := by decide +kernel
  exact ⟨hpair.2.2.2.1 rfl (by rw [hread]; rfl),
    equality_is_equivalence.1.symm (x := ⟨_, hone⟩) (y := ⟨_, htext⟩) hequal,
    equality_is_equivalence.1.symm (x := ⟨_, hleft⟩) (y := ⟨_, hword⟩) hsame,
    hother.1 (by rw [hread]; decide), (hother.2.2.2.2 .lt ⟨by decide, by decide⟩).2 (.inr rfl)⟩

end RobotBench
