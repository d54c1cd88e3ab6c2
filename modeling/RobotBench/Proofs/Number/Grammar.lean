import RobotBench.Proofs.Number.Literal

/-!
# The grammar of literals

`Spells` is the grammar of decimal literals, each with the decimal that it denotes, and
`FloatText` that of floating-point notation, which has words for what is infinite and for what is
no number. The reader of that notation accepts its grammar (`read_float_iff`). Numbers are read
from the literals alone (`read_number_iff`): what is asked of the front of a text refuses all
words and no literal.
-/

namespace RobotBench

namespace Literal

/-! ## Grammars -/

/-- The texts of a sign, and whether it is a minus. -/
inductive IsSign : List Char → Bool → Prop
  | none : IsSign [] false
  | plus : IsSign ['+'] false
  | minus : IsSign ['-'] true

/-- Digits with at most one point among or beside them, as the digits before the point and those
behind it. -/
inductive IsMantissa : List Char → List Char → List Char → Prop
  | whole {ds : List Char} : IsRow ds → IsMantissa ds ds []
  | pointed {ds es : List Char} : IsRow ds → (∀ c ∈ es, c.isDigit = true) →
      IsMantissa (ds ++ '.' :: es) ds es
  | places {es : List Char} : IsRow es → IsMantissa ('.' :: es) [] es

/-- The texts of a power of ten, with the power. -/
inductive IsPower : List Char → Int → Prop
  | none : IsPower [] 0
  | letter {e : Char} {sign ds : List Char} {negative : Bool} : e ∈ ['e', 'E'] →
      IsSign sign negative → IsRow ds →
      IsPower (e :: (sign ++ ds))
        (if negative then -(Nat.ofDigitChars 10 ds 0 : Int) else Nat.ofDigitChars 10 ds 0)

/-- The text is a decimal literal: a sign, digits with a point, and a power of ten. It denotes a
decimal, or the negative of it. -/
inductive Spells : List Char → Bool → Decimal → Prop
  | parts {sign body last whole part : List Char} {negative : Bool} {power : Int} :
      IsSign sign negative → IsMantissa body whole part → IsPower last power →
      Spells (sign ++ (body ++ last)) negative
        ⟨Nat.ofDigitChars 10 (whole ++ part) 0, power - part.length⟩

/-- The word is one for what is infinite, whatever the case of its letters. -/
def IsInfiniteWord (word : List Char) : Prop :=
  word.map Char.toLower = "inf".toList ∨ word.map Char.toLower = "infinity".toList

/-- The word is the one for what is no number, whatever the case of its letters. -/
def IsNanWord (word : List Char) : Prop := word.map Char.toLower = "nan".toList

/-- The text is a number in floating-point notation: a literal, or a word behind a sign. -/
inductive FloatText : List Char → Number → Prop
  | literal {text : List Char} {negative : Bool} {d : Decimal} : Spells text negative d →
      FloatText text (d.toNumber negative)
  | infinite {sign word : List Char} {negative : Bool} : IsSign sign negative →
      IsInfiniteWord word → FloatText (sign ++ word) (.infinite negative)
  | nan {sign word : List Char} {negative : Bool} : IsSign sign negative → IsNanWord word →
      FloatText (sign ++ word) .nan

/-! ## Signs -/

/-- What is read as a sign is one. -/
theorem sign_is (cs : List Char) : ∃ s, IsSign s (sign cs).1 ∧ cs = s ++ (sign cs).2 := by
  unfold sign
  split
  · exact ⟨_, .minus, rfl⟩
  · exact ⟨_, .plus, rfl⟩
  · exact ⟨_, .none, rfl⟩

/-- A sign is read before anything that does not begin with one. -/
theorem IsSign.read {s rest : List Char} {negative : Bool} (h : IsSign s negative)
    (hrest : ∀ c ∈ rest.head?, isSign c = false) : sign (s ++ rest) = (negative, rest) := by
  cases h with
  | plus => rfl
  | minus => rfl
  | none =>
      cases rest with
      | nil => rfl
      | cons c more =>
          have hc : isSign c = false := hrest c rfl
          refine sign_none ?_ ?_
          · rintro rfl
            cases hc
          · rintro rfl
            cases hc

theorem digit_no_sign {c : Char} (h : c.isDigit = true) : isSign c = false := by
  refine decide_eq_false ?_
  rintro (rfl | rfl) <;> cases h

/-- A row of digits begins with no sign. -/
theorem row_no_sign {ds : List Char} (h : IsRow ds) : ∀ c ∈ ds.head?, isSign c = false :=
  fun c hc => digit_no_sign (h.2 c (List.mem_of_mem_head? hc))

/-! ## Powers -/

theorem natural_iff {cs : List Char} {n : Nat} :
    Text.natural? cs = some n ↔ IsRow cs ∧ n = Nat.ofDigitChars 10 cs 0 := by
  simp only [Text.natural?, List.all_eq_true]
  split
  · rename_i hrow
    rw [Option.some_inj, eq_comm]
    exact (and_iff_right hrow).symm
  · rename_i hrow
    exact ⟨nofun, fun h => absurd h.1 hrow⟩

theorem power_letter {e : Char} (he : e ∈ ['e', 'E']) (rest : List Char) :
    power? (e :: rest) = (Text.natural? (sign rest).2).map fun n : Nat =>
      if (sign rest).1 then -(n : Int) else n := by
  have he : e = 'e' ∨ e = 'E' := by simpa using he
  rw [power?, if_pos he]
  rcases sign rest with ⟨negative, ds⟩
  dsimp only
  cases Text.natural? ds <;> rfl

/-- A power is read from its texts and from no other. -/
theorem power_iff {cs : List Char} {power : Int} : power? cs = some power ↔ IsPower cs power := by
  constructor
  · intro h
    cases cs with
    | nil =>
        obtain rfl := Option.some.inj h
        exact .none
    | cons e rest =>
        by_cases he : e ∈ ['e', 'E']
        · rw [power_letter he] at h
          obtain ⟨n, hn, rfl⟩ := Option.map_eq_some_iff.1 h
          obtain ⟨s, hs, hrest⟩ := sign_is rest
          obtain ⟨hrow, rfl⟩ := natural_iff.1 hn
          have hpower := IsPower.letter he hs hrow
          rwa [← hrest] at hpower
        · rw [power?, if_neg (by simpa using he)] at h
          cases h
  · rintro (_ | ⟨he, hs, hrow⟩)
    · rfl
    · rw [power_letter he, hs.read (row_no_sign hrow), natural_iff.2 ⟨hrow, rfl⟩]
      rfl

/-! ## Decimals -/

/-- A power begins with no digit and no point. -/
theorem IsPower.front {cs : List Char} {power : Int} (h : IsPower cs power) :
    ∀ c ∈ cs.head?, c.isDigit = false ∧ c ≠ '.' := by
  cases h with
  | none => nofun
  | letter he _ _ =>
      intro c hc
      obtain rfl := Option.some.inj hc
      simp only [List.mem_cons, List.not_mem_nil, or_false] at he
      rcases he with rfl | rfl
      · exact ⟨rfl, by decide⟩
      · exact ⟨rfl, by decide⟩

/-- What is no point begins no fraction. -/
theorem fraction_none {cs : List Char} (h : ∀ c ∈ cs.head?, c ≠ '.') :
    fraction cs = ([], cs) := by
  unfold fraction
  split
  · exact absurd rfl (h '.' rfl)
  · rfl

/-- The digits of a literal are read up to its power. -/
theorem IsMantissa.read {body whole part last : List Char} (h : IsMantissa body whole part)
    (hlast : ∀ c ∈ last.head?, c.isDigit = false ∧ c ≠ '.') :
    ∃ rest, digits (body ++ last) = (whole, rest) ∧ fraction rest = (part, last) ∧
      ¬ (whole = [] ∧ part = []) := by
  have hdigit : ∀ c ∈ last.head?, c.isDigit = false := fun c hc => (hlast c hc).1
  have hpointed {ds es : List Char} (hds : ∀ c ∈ ds, c.isDigit = true) :
      digits (ds ++ '.' :: es) = (ds, '.' :: es) := by
    refine digits_append hds ?_
    rintro c hc
    obtain rfl := Option.some.inj hc
    rfl
  cases h with
  | whole hrow =>
      exact ⟨last, digits_append hrow.2 hdigit, fraction_none fun c hc => (hlast c hc).2,
        fun h => hrow.1 h.1⟩
  | pointed hrow hpart =>
      rw [List.append_assoc, List.cons_append, hpointed hrow.2]
      exact ⟨_, rfl, digits_append hpart hdigit, fun h => hrow.1 h.1⟩
  | places hrow =>
      exact ⟨_, @hpointed [] _ nofun, digits_append hrow.2 hdigit, fun h => hrow.1 h.2⟩

/-- What is read as digits with a point is. -/
theorem mantissa_is (cs : List Char)
    (h : ¬ ((digits cs).1 = [] ∧ (fraction (digits cs).2).1 = [])) :
    ∃ body, IsMantissa body (digits cs).1 (fraction (digits cs).2).1 ∧
      cs = body ++ (fraction (digits cs).2).2 := by
  have hsplit : cs = (digits cs).1 ++ (digits cs).2 := List.takeWhile_append_dropWhile.symm
  have hdigits (cs : List Char) : ∀ c ∈ (digits cs).1, c.isDigit = true :=
    fun c hc => List.all_eq_true.1 List.all_takeWhile c hc
  generalize hrest : (digits cs).2 = rest at *
  by_cases hpoint : rest.head? = some '.'
  · obtain ⟨more, rfl⟩ := List.head?_eq_some_iff.1 hpoint
    have hmore : more = (digits more).1 ++ (digits more).2 :=
      List.takeWhile_append_dropWhile.symm
    by_cases hwhole : (digits cs).1 = []
    · have hpart : (digits more).1 ≠ [] := fun hnil => h ⟨hwhole, hnil⟩
      rw [hwhole] at hsplit ⊢
      refine ⟨_, .places ⟨hpart, hdigits more⟩, hsplit.trans ?_⟩
      exact congrArg ('.' :: ·) hmore
    · refine ⟨_, .pointed ⟨hwhole, hdigits cs⟩ (hdigits more), hsplit.trans ?_⟩
      rw [List.append_assoc]
      exact congrArg ((digits cs).1 ++ '.' :: ·) hmore
  · have hnone : fraction rest = ([], rest) :=
      fraction_none fun c hc heq => hpoint (heq ▸ hc)
    rw [hnone] at h ⊢
    exact ⟨_, .whole ⟨fun hnil => h ⟨hnil, rfl⟩, hdigits cs⟩, hsplit⟩

/-- A decimal is read from its literals without a sign and from no other text. -/
theorem decimal_iff {cs : List Char} {d : Decimal} :
    decimal? cs = some d ↔ ∃ body last whole part power, cs = body ++ last ∧
      IsMantissa body whole part ∧ IsPower last power ∧
      d = ⟨Nat.ofDigitChars 10 (whole ++ part) 0, power - part.length⟩ := by
  constructor
  · intro h
    rw [decimal?] at h
    dsimp only at h
    split at h
    · cases h
    · rename_i hsome
      obtain ⟨power, hpower, rfl⟩ := Option.map_eq_some_iff.1 h
      obtain ⟨body, hbody, hcs⟩ := mantissa_is cs hsome
      exact ⟨body, _, _, _, power, hcs, hbody, power_iff.1 hpower, rfl⟩
  · rintro ⟨body, last, whole, part, power, rfl, hbody, hlast, rfl⟩
    obtain ⟨rest, hwhole, hpart, hsome⟩ := hbody.read hlast.front
    rw [decimal?, hwhole]
    dsimp only
    rw [hpart]
    dsimp only
    rw [if_neg hsome, power_iff.2 hlast]
    rfl

theorem IsMantissa.no_sign {body whole part : List Char} (h : IsMantissa body whole part)
    (last : List Char) : ∀ c ∈ (body ++ last).head?, isSign c = false := by
  have hrow {ds : List Char} (hds : IsRow ds) (more : List Char) :
      ∀ c ∈ (ds ++ more).head?, isSign c = false := by
    rw [List.head?_append, Option.or_of_isSome (List.isSome_head?.2 hds.1)]
    exact row_no_sign hds
  cases h with
  | whole hds => exact hrow hds last
  | pointed hds _ =>
      rw [List.append_assoc]
      exact hrow hds _
  | places _ =>
      rintro c hc
      obtain rfl := Option.some.inj hc
      rfl

/-- A literal is read as its sign and its decimal, and no other text is. -/
theorem spells_iff {cs : List Char} {negative : Bool} {d : Decimal} :
    Spells cs negative d ↔ (sign cs).1 = negative ∧ decimal? (sign cs).2 = some d := by
  constructor
  · rintro ⟨hs, hbody, hlast⟩
    rw [hs.read (hbody.no_sign _)]
    exact ⟨rfl, decimal_iff.2 ⟨_, _, _, _, _, rfl, hbody, hlast, rfl⟩⟩
  · rintro ⟨rfl, h⟩
    obtain ⟨s, hs, hcs⟩ := sign_is cs
    obtain ⟨body, last, whole, part, power, hrest, hbody, hlast, rfl⟩ := decimal_iff.1 h
    have hspells := Spells.parts hs hbody hlast
    rwa [← hrest, ← hcs] at hspells

/-! ## Words -/

theorem special_iff {negative : Bool} {word : List Char} {x : Number} :
    special? negative word = some x ↔
      IsInfiniteWord word ∧ x = .infinite negative ∨ IsNanWord word ∧ x = .nan := by
  have hinf : "inf".toList = ['i', 'n', 'f'] := rfl
  have hinfinity : "infinity".toList = ['i', 'n', 'f', 'i', 'n', 'i', 't', 'y'] := rfl
  have hnan : "nan".toList = ['n', 'a', 'n'] := rfl
  rw [special?, IsInfiniteWord, IsNanWord, hinf, hinfinity, hnan]
  split
  · rename_i hword
    have hother : ¬ word.map Char.toLower = ['n', 'a', 'n'] := by
      intro hnan
      rw [hnan] at hword
      revert hword
      decide
    rw [Option.some_inj, eq_comm (b := x)]
    simp [hword, hother]
  · rename_i hword
    rw [← Option.some_inj (a := x)]
    simp only [hword, false_and, false_or]
    split
    · rename_i hnan
      simp [hnan, eq_comm]
    · rename_i hnan
      simp [hnan]

/-- A word for what is no finite number begins with a letter. -/
theorem special_letter {word : List Char} (h : IsInfiniteWord word ∨ IsNanWord word) :
    ∃ c rest, word = c :: rest ∧ ¬ IsFront c := by
  have hsome : ∃ x, special? false word = some x := by
    rcases h with hinf | hnan
    · exact ⟨_, special_iff.2 (.inl ⟨hinf, rfl⟩)⟩
    · exact ⟨_, special_iff.2 (.inr ⟨hnan, rfl⟩)⟩
  obtain ⟨x, hx⟩ := hsome
  cases word with
  | nil => cases hx
  | cons c rest =>
      refine ⟨c, rest, rfl, fun hfront => ?_⟩
      rw [special_front hfront] at hx
      cases hx

theorem front_of_sign {c : Char} (h : isSign c = true) : IsFront c :=
  (of_decide_eq_true h).elim .inl fun hplus => .inr (.inl hplus)

/-- A word behind a sign is read behind that sign, and is no decimal. -/
theorem special_read {s word : List Char} {negative : Bool} (hs : IsSign s negative)
    (h : IsInfiniteWord word ∨ IsNanWord word) :
    sign (s ++ word) = (negative, word) ∧ decimal? word = none := by
  obtain ⟨c, rest, rfl, hc⟩ := special_letter h
  constructor
  · refine hs.read fun front hfront => ?_
    obtain rfl := Option.some.inj hfront
    exact Bool.eq_false_iff.2 fun hsign => hc (front_of_sign hsign)
  · cases hd : decimal? (c :: rest) with
    | none => rfl
    | some d => exact absurd (.inr (.inr (decimal_front hd))) hc

end Literal

open Literal

/-! ## Readers -/

/-- What is read in floating-point notation is what is written in it. -/
theorem read_float_iff {text : String} {x : Number} :
    readFloat? text = some x ↔ FloatText text.toList x := by
  unfold readFloat?
  generalize text.toList = cs
  dsimp only
  constructor
  · intro h
    cases hd : decimal? (sign cs).2 with
    | some d =>
        rw [hd] at h
        obtain rfl := Option.some.inj h
        exact .literal (spells_iff.2 ⟨rfl, hd⟩)
    | none =>
        rw [hd] at h
        obtain ⟨s, hs, hcs⟩ := sign_is cs
        rw [hcs]
        rcases special_iff.1 h with ⟨hinf, rfl⟩ | ⟨hnan, rfl⟩
        · exact .infinite hs hinf
        · exact .nan hs hnan
  · rintro (hspells | ⟨hs, hinf⟩ | ⟨hs, hnan⟩)
    · obtain ⟨hsign, hd⟩ := spells_iff.1 hspells
      rw [hd, hsign]
    · obtain ⟨hsign, hd⟩ := special_read hs (.inl hinf)
      rw [hsign]
      dsimp only
      rw [hd]
      exact special_iff.2 (.inl ⟨hinf, rfl⟩)
    · obtain ⟨hsign, hd⟩ := special_read hs (.inr hnan)
      rw [hsign]
      dsimp only
      rw [hd]
      exact special_iff.2 (.inr ⟨hnan, rfl⟩)

/-- What is read as a number is a decimal literal. -/
theorem read_number_iff {text : String} {x : Number} :
    readNumber? text = some x ↔
      ∃ negative d, Spells text.toList negative d ∧ x = d.toNumber negative := by
  rw [read_number_eq, Option.map_eq_some_iff]
  constructor
  · rintro ⟨d, hd, rfl⟩
    exact ⟨_, d, spells_iff.2 ⟨rfl, hd⟩, rfl⟩
  · rintro ⟨negative, d, hspells, rfl⟩
    obtain ⟨rfl, hd⟩ := spells_iff.1 hspells
    exact ⟨d, hd, rfl⟩

end RobotBench
