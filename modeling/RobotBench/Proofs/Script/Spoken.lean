import Mathlib.Order.Monotone.Defs
import RobotBench.Proofs.Script.Alike
import RobotBench.Proofs.Script.TokenLines

/-!
# What texts say

A text says what stands on its lines when blanks at their ends, blank lines and comments are
left out: `spokenLines`. Nothing else decides how it is read. Texts that say the same are read
alike, whatever the numbers of their lines, as `of_text_alike` says; and the numbers of the
lines that say the same correspond by a relabelling that keeps their order (`exists_relabel`).
-/

namespace RobotBench

instance : DecidablePred IsSilent := fun cs =>
  inferInstanceAs (Decidable (Text.trim cs = [] ∨ (Text.trim cs).head? = some '#'))

/-- The lines that are neither blank nor comments, trimmed, each with its number. -/
def numberedLines (number : Nat) (ls : List (List Char)) : List (List Char × Nat) :=
  ((ls.zipIdx number).filter fun entry => ¬ IsSilent entry.1).map fun entry =>
    (Text.trim entry.1, entry.2)

/-- What lines say: the lines trimmed, without those that are then empty or begin with `#`. -/
def spokenLines (ls : List (List Char)) : List (List Char) :=
  (ls.map Text.trim).filter fun cs => cs ≠ [] ∧ cs.head? ≠ some '#'

/-- The numbers of the lines that are neither blank nor comments. -/
def spokenNumbers (number : Nat) (ls : List (List Char)) : List Nat :=
  (numberedLines number ls).map Prod.snd

section

variable (number : Nat) (cs : List Char) (more : List (List Char))

theorem numbered_lines_silent (h : IsSilent cs) :
    numberedLines number (cs :: more) = numberedLines (number + 1) more := by
  simp [numberedLines, List.zipIdx_cons, h]

theorem numbered_lines_spoken (h : ¬ IsSilent cs) :
    numberedLines number (cs :: more) =
      (Text.trim cs, number) :: numberedLines (number + 1) more := by
  simp [numberedLines, List.zipIdx_cons, h]

end

/-- What lines say does not depend on their numbers. -/
theorem map_fst_numbered_lines (number : Nat) (ls : List (List Char)) :
    (numberedLines number ls).map Prod.fst = spokenLines ls := by
  induction ls generalizing number with
  | nil => rfl
  | cons cs more ih =>
      by_cases h : IsSilent cs
      · have hdrop : ¬ (Text.trim cs ≠ [] ∧ (Text.trim cs).head? ≠ some '#') := fun hkeep =>
          h.elim hkeep.1 hkeep.2
        rw [numbered_lines_silent number cs more h, ih]
        simp [spokenLines, hdrop]
      · have hkeep : Text.trim cs ≠ [] ∧ (Text.trim cs).head? ≠ some '#' := not_or.1 h
        rw [numbered_lines_spoken number cs more h, List.map_cons, ih]
        simp [spokenLines, hkeep]

/-- The lines that say something are numbered in increasing order. -/
theorem spoken_numbers_increase (number : Nat) (ls : List (List Char)) :
    (spokenNumbers number ls).Pairwise (· < ·) ∧ ∀ n ∈ spokenNumbers number ls, number ≤ n := by
  induction ls generalizing number with
  | nil => exact ⟨.nil, nofun⟩
  | cons cs more ih =>
      obtain ⟨hincrease, hle⟩ := ih (number + 1)
      have hle' : ∀ n ∈ spokenNumbers (number + 1) more, number ≤ n := fun n hn =>
        Nat.le_of_succ_le (hle n hn)
      by_cases h : IsSilent cs
      · rw [spokenNumbers, numbered_lines_silent number cs more h]
        exact ⟨hincrease, hle'⟩
      · rw [spokenNumbers, numbered_lines_spoken number cs more h, List.map_cons]
        exact ⟨List.pairwise_cons.2 ⟨hle, hincrease⟩,
          List.forall_mem_cons.2 ⟨Nat.le_refl number, hle'⟩⟩

/-! ## Reading what is said -/

/-- The token lines of lines that are already trimmed, under the numbers that they have. -/
def tokensOf : List (List Char × Nat) → Except Nat (List TokenLine)
  | [] => .ok []
  | (cs, number) :: more =>
    match Text.words? cs with
    | none => .error number
    | some words => (tokensOf more).map fun lines =>
      match words with
      | [] => lines
      | head :: rest => ⟨number, head, rest⟩ :: lines

theorem line_words_of_silent {cs : List Char} (h : IsSilent cs) : lineWords? cs = some [] := by
  unfold lineWords?
  split
  · rfl
  · rfl
  · rename_i hblank hcomment
    rcases h with h | h
    · exact absurd h hblank
    · obtain ⟨rest, hrest⟩ := List.head?_eq_some_iff.1 h
      exact absurd hrest (hcomment rest)

theorem line_words_of_spoken {cs : List Char} (h : ¬ IsSilent cs) :
    lineWords? cs = Text.words? (Text.trim cs) := by
  obtain ⟨hblank, hcomment⟩ := not_or.1 h
  unfold lineWords?
  split
  · rename_i htrim
    exact absurd htrim hblank
  · rename_i htrim
    exact absurd (by rw [htrim]; rfl) hcomment
  · rfl

/-- Token lines are made from what lines say. -/
theorem token_lines_eq (number : Nat) (ls : List (List Char)) :
    tokenLines number ls = tokensOf (numberedLines number ls) := by
  induction ls generalizing number with
  | nil => rfl
  | cons cs more ih =>
      by_cases h : IsSilent cs
      · rw [numbered_lines_silent number cs more h, tokenLines, line_words_of_silent h, ← ih]
        cases tokenLines (number + 1) more <;> rfl
      · rw [numbered_lines_spoken number cs more h, tokenLines, line_words_of_spoken h, ih]
        rfl

section

variable {Lines : Nat → Nat → Prop}

/-- The lines say the same, one by one, and their numbers are related. -/
abbrev SayAlike (Lines : Nat → Nat → Prop) :
    List (List Char × Nat) → List (List Char × Nat) → Prop :=
  List.Forall₂ fun entry entry' => entry.1 = entry'.1 ∧ Lines entry.2 entry'.2

theorem tokens_of_alike {spoken spoken' : List (List Char × Nat)}
    (h : SayAlike Lines spoken spoken') :
    EndAlike Lines (List.Forall₂ (TokenLine.Alike Lines)) (tokensOf spoken)
      (tokensOf spoken') := by
  induction h with
  | nil => exact .ok .nil
  | @cons entry entry' more more' hentry _ ih =>
      obtain ⟨cs, number⟩ := entry
      obtain ⟨cs', number'⟩ := entry'
      obtain ⟨hcs, hnumber⟩ := hentry
      cases hcs
      rw [tokensOf, tokensOf]
      cases Text.words? cs with
      | none => exact .error hnumber
      | some words =>
          simp only
          generalize tokensOf more = x at ih ⊢
          generalize tokensOf more' = x' at ih ⊢
          cases ih with
          | error h => exact .error h
          | ok h =>
              cases words with
              | nil => exact .ok h
              | cons head rest => exact .ok (.cons ⟨hnumber, rfl, rfl⟩ h)

/-- Texts whose lines say the same are read alike. -/
theorem of_text_alike {text text' : String} {firstLine firstLine' : Nat}
    (h : SayAlike Lines (numberedLines firstLine (Text.lines text.toList))
      (numberedLines firstLine' (Text.lines text'.toList))) :
    EndAlike (ParseFault.Alike Lines) (NodesAlike Lines)
      (Script.ofText text firstLine) (Script.ofText text' firstLine') := by
  have htokens := tokens_of_alike h
  rw [Script.ofText, Script.ofText, token_lines_eq, token_lines_eq]
  generalize tokensOf (numberedLines firstLine (Text.lines text.toList)) = x at htokens ⊢
  generalize tokensOf (numberedLines firstLine' (Text.lines text'.toList)) = x' at htokens ⊢
  cases htokens with
  | error hnumber => exact .error ⟨hnumber, .same rfl⟩
  | ok hlines => exact of_lines_alike hlines

end

/-! ## Relabelling -/

/-- Numbers that increase can be taken to as many others that do, keeping their order. -/
theorem exists_relabel {numbers numbers' : List Nat} (h : numbers.Pairwise (· < ·))
    (h' : numbers'.Pairwise (· < ·)) (hlength : numbers.length = numbers'.length) :
    ∃ relabel : Nat → Nat, numbers' = numbers.map relabel ∧
      StrictMonoOn relabel {n | n ∈ numbers} := by
  induction numbers generalizing numbers' with
  | nil =>
      obtain rfl := List.length_eq_zero_iff.1 hlength.symm
      exact ⟨id, rfl, fun n hn => absurd hn List.not_mem_nil⟩
  | cons first rest ih =>
      obtain ⟨first', rest', rfl⟩ := List.exists_cons_of_length_eq_add_one hlength.symm
      obtain ⟨hfirst, hrest⟩ := List.pairwise_cons.1 h
      obtain ⟨hfirst', hrest'⟩ := List.pairwise_cons.1 h'
      obtain ⟨relabel, rfl, hmono⟩ := ih hrest hrest' (Nat.succ.inj hlength)
      -- the first number is less than the others, so its label can be chosen apart
      refine ⟨fun n => if n = first then first' else relabel n, ?_, fun n hn k hk hlt => ?_⟩
      · rw [List.map_cons, if_pos rfl]
        congr 1
        refine List.map_congr_left fun n hn => ?_
        rw [if_neg (Nat.ne_of_gt (hfirst n hn))]
      · have hkrest : k ∈ rest := by
          rcases List.mem_cons.1 hk with rfl | hk
          · rcases List.mem_cons.1 hn with rfl | hn
            · exact absurd hlt (Nat.lt_irrefl _)
            · exact absurd hlt (Nat.lt_asymm (hfirst n hn))
          · exact hk
        simp only [if_neg (Nat.ne_of_gt (hfirst k hkrest))]
        rcases List.mem_cons.1 hn with rfl | hn
        · rw [if_pos rfl]
          exact hfirst' _ (List.mem_map_of_mem hkrest)
        · rw [if_neg (Nat.ne_of_gt (hfirst n hn))]
          exact hmono hn hkrest hlt

/-- Lines that say the same do so under numbers that a relabelling relates. -/
theorem say_alike_of_relabel {Lines : Nat → Nat → Prop} {relabel : Nat → Nat}
    {number number' : Nat} {ls ls' : List (List Char)} (hspoken : spokenLines ls = spokenLines ls')
    (hnumbers : spokenNumbers number' ls' = (spokenNumbers number ls).map relabel)
    (hrelated : ∀ n ∈ spokenNumbers number ls, Lines n (relabel n)) :
    SayAlike Lines (numberedLines number ls) (numberedLines number' ls') := by
  rw [← map_fst_numbered_lines number, ← map_fst_numbered_lines number'] at hspoken
  rw [spokenNumbers, spokenNumbers] at hnumbers
  rw [spokenNumbers] at hrelated
  generalize numberedLines number ls = spoken at *
  generalize numberedLines number' ls' = spoken' at *
  induction spoken generalizing spoken' with
  | nil =>
      obtain rfl := List.map_eq_nil_iff.1 hspoken.symm
      exact .nil
  | cons entry more ih =>
      obtain ⟨entry', more', rfl, hfirst, hmore⟩ := List.map_eq_cons_iff.1 hspoken.symm
      obtain ⟨hnumber, hnumbers⟩ := List.cons.inj hnumbers
      obtain ⟨hentry, hrelated⟩ := List.forall_mem_cons.1 hrelated
      exact .cons ⟨hfirst.symm, hnumber ▸ hentry⟩ (ih hrelated more' hmore.symm hnumbers)

end RobotBench
