import RobotBench.Proofs.Fallible
import RobotBench.Script.Arguments

/-!
# What a call supplies

The checks of arguments, said as facts about the call. `Arguments.Fits` is the shape that an
operation asks for, and `Arguments.Supplies` and `Arguments.SuppliesOr` say which number the
call gives for a parameter: the one under its key, or else the one at its position. Each check
succeeds exactly if the fact holds.
-/

namespace RobotBench

namespace Arguments

/-- The call has at most `most` arguments without a key, and only the listed keys. -/
structure Fits (a : Arguments) (most : Nat) (keys : List String) : Prop where
  positional : a.positional.length ≤ most
  keyword : ∀ key ∈ a.keyword.names, key ∈ keys

/-- What the call gives for a parameter: the argument with its key, or else the argument at
its position. -/
def given? (a : Arguments) (position : Nat) (key : String) : Option Value :=
  match a.keyword.find? key with
  | some value => some value
  | .none => a.positional[position]?

/-- The call gives the number for a parameter. -/
def Supplies (a : Arguments) (position : Nat) (key : String) (x : Number) : Prop :=
  ∃ value, a.given? position key = some value ∧ value.number? = some x

/-- The call gives the number for a parameter, or gives nothing and the number is the
default. -/
def SuppliesOr (a : Arguments) (position : Nat) (key : String) (default x : Number) : Prop :=
  a.Supplies position key x ∨ a.given? position key = .none ∧ x = default

section

variable {a : Arguments} {operation key : String} {position most : Nat} {keys : List String}
  {x default : Number}

/-- A number that is given is the one supplied. -/
theorem Supplies.eq_given (h : a.Supplies position key x) {y : Number}
    (hgiven : a.given? position key = some (.number y)) : x = y := by
  obtain ⟨value, hvalue, hx⟩ := h
  obtain rfl : value = .number y := Option.some.inj (hvalue.symm.trans hgiven)
  exact (Option.some.inj hx).symm

/-- Where no key is listed, arguments are found at their positions alone. -/
theorem Fits.given (h : a.Fits most []) (position : Nat) (key : String) :
    a.given? position key = a.positional[position]? := by
  obtain ⟨positional, ⟨entries, hsorted⟩⟩ := a
  cases entries with
  | nil => rfl
  | cons entry more => exact absurd (h.keyword entry.1 List.mem_cons_self) List.not_mem_nil

/-- If nothing is given, the default is supplied. -/
theorem SuppliesOr.eq_default (h : a.SuppliesOr position key default x)
    (hgiven : a.given? position key = .none) : x = default := by
  obtain ⟨value, hvalue, -⟩ | ⟨-, hx⟩ := h
  · cases hgiven.symm.trans hvalue
  · exact hx

theorem expect_none_iff : a.expectNone operation = .ok () ↔ a.Fits 0 [] := by
  obtain ⟨positional, ⟨entries, hsorted⟩⟩ := a
  constructor
  · intro h
    rw [expectNone] at h
    split at h
    · rename_i hempty
      obtain ⟨hpositional, hentries⟩ := Bool.and_eq_true_iff.1 hempty
      obtain rfl : positional = [] := List.isEmpty_iff.1 hpositional
      obtain rfl : entries = [] := List.isEmpty_iff.1 hentries
      exact ⟨Nat.le_refl 0, nofun⟩
    · cases h
  · rintro ⟨hpositional, hkeyword⟩
    obtain rfl : positional = [] := List.eq_nil_of_length_eq_zero (Nat.le_zero.1 hpositional)
    cases entries with
    | nil => rfl
    | cons entry more => exact absurd (hkeyword entry.1 List.mem_cons_self) List.not_mem_nil

theorem expect_at_most_iff : a.expectAtMost operation most keys = .ok () ↔ a.Fits most keys := by
  constructor
  · intro h
    rw [expectAtMost] at h
    split at h
    · cases h
    · rename_i hmost
      split at h
      · cases h
      · rename_i hlisted
        refine ⟨Nat.le_of_not_lt hmost, fun key hkey => ?_⟩
        simpa using List.find?_eq_none.1 hlisted key hkey
  · rintro ⟨hpositional, hkeyword⟩
    have hlisted : (a.keyword.names.find? fun key => !keys.contains key) = .none :=
      List.find?_eq_none.2 fun key hkey => by simp [hkeyword key hkey]
    rw [expectAtMost, if_neg (Nat.not_lt.2 hpositional), hlisted]

/-- A parameter with a single key is looked up under it first. -/
theorem get_single (a : Arguments) (position : Nat) (key : String) :
    a.get? position [key] = a.given? position key := by
  rw [get?, given?, List.findSome?_cons, List.findSome?_nil]
  cases a.keyword.find? key <;> rfl

/-- A value that must be given is given. -/
theorem required_iff {value : Value} :
    a.required operation position key = .ok value ↔ a.given? position key = some value := by
  rw [required, get_single]
  cases a.given? position key <;> simp

theorem optional_number_iff {found : Option Number} :
    a.number? operation position [key] = .ok found ↔
      (∃ x, found = some x ∧ a.Supplies position key x) ∨
        a.given? position key = .none ∧ found = .none := by
  rw [number?, get_single]
  cases hgiven : a.given? position key with
  | none => simp [Supplies, hgiven, eq_comm]
  | some value =>
      cases hnumber : value.number? with
      | none => simp [Supplies, hgiven, hnumber]
      | some x => simp [Supplies, hgiven, hnumber, eq_comm]

/-- A number that must be given is given. -/
theorem number_iff : a.number operation position [key] = .ok x ↔ a.Supplies position key x := by
  rw [number, Except.bind_eq_ok_iff]
  constructor
  · rintro ⟨found, hfound, h⟩
    rcases optional_number_iff.1 hfound with ⟨y, rfl, hsupplies⟩ | ⟨-, rfl⟩
    · cases h
      exact hsupplies
    · cases h
  · intro h
    exact ⟨some x, optional_number_iff.2 (.inl ⟨x, rfl, h⟩), rfl⟩

/-- A number that may be left out is given, or is its default. -/
theorem number_default_iff : a.numberD operation position [key] default = .ok x ↔
    a.SuppliesOr position key default x := by
  rw [numberD, map_ok_iff]
  constructor
  · rintro ⟨found, hfound, rfl⟩
    rcases optional_number_iff.1 hfound with ⟨y, rfl, hsupplies⟩ | ⟨hgiven, rfl⟩
    · exact .inl hsupplies
    · exact .inr ⟨hgiven, rfl⟩
  · rintro (hsupplies | ⟨hgiven, rfl⟩)
    · exact ⟨some x, optional_number_iff.2 (.inl ⟨x, rfl, hsupplies⟩), rfl⟩
    · exact ⟨.none, optional_number_iff.2 (.inr ⟨hgiven, rfl⟩), rfl⟩

/-- There is a number to be had from a parameter exactly if what is given is numeric. -/
theorem exists_supplies : (∃ x, a.Supplies position key x) ↔
    ∃ value, a.given? position key = some value ∧ value.number?.isSome := by
  simp only [Supplies, Option.isSome_iff_exists]
  exact ⟨fun ⟨x, value, hgiven, hnumber⟩ => ⟨value, hgiven, x, hnumber⟩,
    fun ⟨value, hgiven, x, hnumber⟩ => ⟨x, value, hgiven, hnumber⟩⟩

/-- There is a number to be had, the default if need be, exactly if nothing is given that is
not numeric. -/
theorem exists_supplies_or (default : Number) : (∃ x, a.SuppliesOr position key default x) ↔
    ∀ value, a.given? position key = some value → value.number?.isSome := by
  simp only [SuppliesOr, exists_or, exists_supplies]
  cases a.given? position key with
  | none => simp
  | some value => simp

end

end Arguments

end RobotBench
