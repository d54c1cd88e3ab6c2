import RobotBench.Proofs.Number.Grammar
import RobotBench.Script.Atom

/-!
# Words that are numbers

A word of a script is a number exactly if it is a decimal literal, and as an operand it is then the
literal of this number: `literals_alone_are_numbers`. The words of floating-point notation, signs
without digits and repeated signs stay text.
-/

namespace RobotBench

open Literal

/-- A decimal is never rounded to what is no number. -/
theorem Decimal.to_number_ne_nan (negative : Bool) (d : Decimal) : d.toNumber negative ≠ .nan := by
  unfold toNumber Number.ofUnits
  split
  · nofun
  · split
    · nofun
    · split <;> nofun

/-- There is a digit before the point or behind it. -/
theorem Literal.IsMantissa.digit {body whole part : List Char} (h : IsMantissa body whole part) :
    ∃ c ∈ body, c.isDigit = true := by
  have hrow {ds : List Char} (hds : IsRow ds) : ∃ c ∈ ds, c.isDigit = true := by
    obtain ⟨c, rest, rfl⟩ := List.exists_cons_of_ne_nil hds.1
    exact ⟨c, List.mem_cons_self, hds.2 c List.mem_cons_self⟩
  cases h with
  | whole hds => exact hrow hds
  | pointed hds _ =>
      obtain ⟨c, hc, hdigit⟩ := hrow hds
      exact ⟨c, List.mem_append_left _ hc, hdigit⟩
  | places hes =>
      obtain ⟨c, hc, hdigit⟩ := hrow hes
      exact ⟨c, List.mem_cons_of_mem _ hc, hdigit⟩

/-- A literal has a digit. -/
theorem Literal.Spells.digit {cs : List Char} {negative : Bool} {d : Decimal}
    (h : Spells cs negative d) : ∃ c ∈ cs, c.isDigit = true := by
  obtain ⟨-, hbody, -⟩ := h
  obtain ⟨c, hc, hdigit⟩ := hbody.digit
  exact ⟨c, List.mem_append_right _ (List.mem_append_left _ hc), hdigit⟩

/-- A literal has no second sign. -/
theorem Literal.Spells.one_sign {c d : Char} {rest : List Char} {negative : Bool} {value : Decimal}
    (h : Spells (c :: d :: rest) negative value) (hc : isSign c = true) : isSign d = false := by
  obtain ⟨-, hdecimal⟩ := spells_iff.1 h
  have hbehind : (sign (c :: d :: rest)).2 = d :: rest := by
    rcases of_decide_eq_true hc with rfl | rfl <;> rfl
  rw [hbehind] at hdecimal
  rcases decimal_front hdecimal with rfl | hdigit
  · rfl
  · exact digit_no_sign hdigit

/-- A word that is a literal of a number is the operand with this value. -/
theorem Atom.of_word_number {word : String} {x : Number} (h : readNumber? word = some x) :
    Atom.ofWord word = .literal (.number x) := by
  have hvariable : variableName? word = none := by
    obtain ⟨c, hfront, hc⟩ := read_number_front h
    unfold variableName?
    split
    · rename_i hword
      rw [hword] at hfront
      obtain rfl := Option.some.inj hfront
      exact absurd hc (by decide)
    · rfl
  have hother {text : String} (hnone : readNumber? text = none) : word ≠ text := by
    rintro rfl
    rw [h] at hnone
    cases hnone
  have hconstant : constant? word = some (.number x) := by
    rw [constant?, if_neg (hother (read_number_none (c := 't') rfl (by decide))),
      if_neg (hother (read_number_none (c := 'f') rfl (by decide))),
      if_neg (hother (read_number_none (c := 'n') rfl (by decide))), h]
    rfl
  unfold Atom.ofWord
  rw [hvariable, hconstant]

/-- The operand of a word is the literal of a number exactly if the word is read as this number. -/
theorem Atom.of_word_number_iff {word : String} {x : Number} :
    Atom.ofWord word = .literal (.number x) ↔ readNumber? word = some x := by
  refine ⟨fun h => ?_, of_word_number⟩
  unfold Atom.ofWord at h
  split at h
  · cases h
  · split at h
    · rename_i hconstant
      cases h
      unfold constant? at hconstant
      split_ifs at hconstant
      · cases hconstant
      · cases hconstant
      · cases hconstant
      · obtain ⟨y, hread, hy⟩ := Option.map_eq_some_iff.1 hconstant
        obtain rfl := Value.number.inj hy
        exact hread
    · cases h

/-- A word is a number exactly if it is a decimal literal, and then it is the number nearest to
the decimal, which is what the word denotes in floating-point notation. This notation has its
words for infinite numbers and for what is no number beside the literals; no such word is a
number, with a sign or without, and neither is a text with a second sign or without a digit. A
word is the operand of a number exactly if it is this number. -/
theorem literals_alone_are_numbers (word : String) :
    (∀ x, readNumber? word = some x ↔
      ∃ negative d, Spells word.toList negative d ∧ x = d.toNumber negative) ∧
    (∀ x, readNumber? word = some x → readFloat? word = some x ∧ x ≠ .nan) ∧
    (∀ x, readFloat? word = some x ↔ FloatText word.toList x) ∧
    (∀ sign negative special, IsSign sign negative → IsInfiniteWord special ∨ IsNanWord special →
      word.toList = sign ++ special → readNumber? word = none) ∧
    (∀ c d rest, word.toList = c :: d :: rest → isSign c → isSign d → readNumber? word = none) ∧
    ((∀ c ∈ word.toList, c.isDigit = false) → readNumber? word = none) ∧
    ∀ x, Atom.ofWord word = .literal (.number x) ↔ readNumber? word = some x := by
  have hnone (h : ∀ negative d, ¬ Spells word.toList negative d) : readNumber? word = none := by
    refine Option.eq_none_iff_forall_ne_some.2 fun x hx => ?_
    obtain ⟨negative, d, hspells, -⟩ := read_number_iff.1 hx
    exact h negative d hspells
  refine ⟨fun x => read_number_iff, fun x hx => ?_, fun x => read_float_iff,
    fun s negative special hs hspecial hword => ?_, fun c d rest hword hc hd => ?_,
    fun hdigits => ?_, fun x => Atom.of_word_number_iff⟩
  · obtain ⟨negative, d, hspells, rfl⟩ := read_number_iff.1 hx
    exact ⟨read_float_iff.2 (.literal hspells), d.to_number_ne_nan negative⟩
  · -- what stands behind the sign is no decimal
    refine hnone fun negative' d hspells => ?_
    obtain ⟨hread, hdecimal⟩ := special_read hs hspecial
    rw [hword, spells_iff, hread, hdecimal] at hspells
    cases hspells.2
  · refine hnone fun negative value hspells => ?_
    rw [hword] at hspells
    rw [hspells.one_sign hc] at hd
    cases hd
  · refine hnone fun negative d hspells => ?_
    obtain ⟨c, hc, hdigit⟩ := hspells.digit
    rw [hdigits c hc] at hdigit
    cases hdigit

/-- A literal with a point at its front and a power, a word that floating-point notation has for
an infinite number, and a second sign. -/
example : readNumber? "-.5e1" = some (Decimal.toNumber true ⟨5, 0⟩) ∧
    readFloat? "-Infinity" = some (.infinite true) ∧ readNumber? "-Infinity" = none ∧
    readNumber? "+-5" = none := by
  decide +kernel

end RobotBench
