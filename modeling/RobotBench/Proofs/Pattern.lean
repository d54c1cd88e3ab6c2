import RobotBench.Pattern

/-!
# Patterns within the size limit

The pattern of some texts holds the bytes of these texts and no others, so the size limit bounds
how many bytes they have altogether: `bounded_any_of_iff`.
-/

namespace RobotBench.Pattern

/-- A text in front adds its bytes. -/
theorem bytes_cons (c : Char) (text : List Char) :
    (String.ofList (c :: text)).utf8ByteSize =
      c.utf8Size + (String.ofList text).utf8ByteSize := by
  have hsplit : String.ofList (c :: text) = String.singleton c ++ String.ofList text := by
    rw [← String.toList_inj, String.toList_append, String.toList_ofList, String.toList_ofList,
      String.toList_singleton, List.singleton_append]
  rw [hsplit, String.utf8ByteSize_append, String.utf8ByteSize_singleton]

/-- An escaped text holds the bytes of the text. -/
theorem held_bytes_escape (counted : Nat) (text more : List Char) :
    heldBytes counted (escape text ++ more) =
      heldBytes (counted + (String.ofList text).utf8ByteSize) more := by
  induction text generalizing counted with
  | nil => rfl
  | cons c text ih =>
      have hescape : escape (c :: text) =
          (if c ∈ special then ['\\', c] else [c]) ++ escape text := rfl
      rw [hescape, bytes_cons, ← Nat.add_assoc, ← ih]
      by_cases hspecial : c ∈ special
      · rw [if_pos hspecial]
        rfl
      · rw [if_neg hspecial]
        -- neither an escape nor the start of another alternative
        have hescaped : c ≠ '\\' := fun h => hspecial (h ▸ by decide)
        have hbar : c ≠ '|' := fun h => hspecial (h ▸ by decide)
        rw [List.append_assoc, List.singleton_append, heldBytes]
        · exact fun _ _ h => (hescaped h).elim
        · exact hbar

/-- A pattern holds the bytes of its alternatives. -/
theorem held_bytes_any_of (counted : Nat) (texts : List String) :
    heldBytes counted (anyOf texts).toList = counted + (String.join texts).utf8ByteSize := by
  have hpattern : (anyOf texts).toList =
      ['|'].intercalate (texts.map fun text => escape text.toList) := by
    rw [anyOf, String.toList_intercalate, List.map_map]
    simp only [Function.comp_def, String.toList_ofList]
    rfl
  rw [hpattern]
  clear hpattern
  induction texts generalizing counted with
  | nil => rfl
  | cons text more ih =>
      have hbytes := held_bytes_escape counted text.toList
      rw [String.ofList_toList] at hbytes
      rw [String.join_cons, String.utf8ByteSize_append, ← Nat.add_assoc, List.map_cons]
      cases more with
      | nil =>
          have hlast := hbytes []
          rw [List.append_nil] at hlast
          rw [List.map_nil, List.intercalate_singleton, hlast]
          rfl
      | cons next more =>
          -- the bar before the next alternative holds nothing
          rw [← ih, List.map_cons, List.intercalate_cons_cons, List.append_assoc, hbytes]
          rfl

/-- Texts with too many bytes are refused. -/
theorem bounded_any_of_error {texts : List String}
    (h : sizeLimit < stateSize * (String.join texts).utf8ByteSize) :
    bounded (anyOf texts) = .error "Compiled regex exceeds size limit of 10485760 bytes." := by
  rw [bounded, held_bytes_any_of, Nat.zero_add, if_pos h]
  rfl

/-- Texts are within the size limit exactly if their bytes are. -/
theorem bounded_any_of_iff {texts : List String} : bounded (anyOf texts) = .ok () ↔
    stateSize * (String.join texts).utf8ByteSize ≤ sizeLimit := by
  rw [bounded, held_bytes_any_of, Nat.zero_add]
  split
  · rename_i hover
    exact ⟨fun h => (nomatch h), fun h => absurd h (Nat.not_le.2 hover)⟩
  · rename_i hroom
    exact ⟨fun _ => Nat.le_of_not_lt hroom, fun _ => rfl⟩

/-- A text of one letter has as many bytes as all its letters. -/
theorem bytes_replicate (n : Nat) (c : Char) :
    (String.ofList (List.replicate n c)).utf8ByteSize = n * c.utf8Size := by
  induction n with
  | zero => rw [Nat.zero_mul]; rfl
  | succ n ih => rw [List.replicate_succ, bytes_cons, ih, Nat.succ_mul, Nat.add_comm]

end RobotBench.Pattern
