import Mathlib.Data.List.Basic
import RobotBench.Proofs.Json.Text

/-!
# Texts as bytes

A text is known by its bytes: `read_bytes_iff` says which bytes are read as a text. Only a line
feed has the byte of one in it, so bytes that are followed by it are a text exactly if they are one
without it (`bytes_break`).
-/

namespace RobotBench.Text

/-- The bytes of a text. -/
def bytes (text : String) : List UInt8 := text.toUTF8.data.toList

theorem bytes_append (s t : String) : bytes (s ++ t) = bytes s ++ bytes t := by
  show (s ++ t).toByteArray.data.toList = s.toByteArray.data.toList ++ t.toByteArray.data.toList
  simp [String.toByteArray_append]

theorem array_bytes (s : String) : (bytes s).toByteArray = s.toUTF8 := by
  refine ByteArray.ext (Array.ext' ?_)
  exact List.toList_data_toByteArray

theorem read_string (s : String) : String.fromUTF8? s.toUTF8 = some s := dif_pos s.isValidUTF8

/-- Bytes are read as the text that has these bytes, if there is one. -/
theorem read_bytes_iff {read : List UInt8} {s : String} :
    String.fromUTF8? read.toByteArray = some s ↔ read = bytes s := by
  constructor
  · intro h
    unfold String.fromUTF8? at h
    split at h
    · obtain rfl := Option.some.inj h
      exact List.toList_data_toByteArray.symm
    · cases h
  · rintro rfl
    rw [array_bytes, read_string]

/-- Different texts have different bytes. -/
theorem bytes_injective {s t : String} (h : bytes s = bytes t) : s = t :=
  Option.some.inj ((read_bytes_iff.2 rfl).symm.trans (read_bytes_iff.2 h))

/-- Only a line feed has the byte of a line feed. -/
theorem encode_break {c : Char} (h : 10 ∈ String.utf8EncodeChar c) : c = '\n' := by
  have hten : (10 : UInt8).toNat = 10 := rfl
  rcases Json.utf8_bytes h with ⟨hbyte, hascii⟩ | ⟨n, hfirst, hlast, hbyte⟩
  · have hnat := congrArg UInt8.toNat hbyte
    rw [UInt8.toNat_ofNat'] at hnat
    refine Char.ext (UInt32.toNat_inj.1 ?_)
    show c.val.toNat = 10
    omega
  · have hnat := congrArg UInt8.toNat hbyte
    rw [UInt8.toNat_ofNat'] at hnat
    omega

/-- Bytes with a line feed behind them are those of a text that ends with one. -/
theorem bytes_break {front : List UInt8} {s : String} (h : front ++ bytes "\n" = bytes s) :
    ∃ text, s = text ++ "\n" ∧ front = bytes text := by
  have hbreak : bytes "\n" = [10] := rfl
  rcases List.eq_nil_or_concat s.toList with hnil | ⟨before, c, hs⟩
  · have hempty : bytes s = [] := by
      rw [String.toList_eq_nil_iff.1 hnil]
      rfl
    rw [hempty] at h
    simp [hbreak] at h
  · have hs' : s = String.ofList before ++ String.ofList [c] := by
      rw [← String.ofList_append, ← List.concat_eq_append, ← hs, String.ofList_toList]
    have hc : bytes (String.ofList [c]) = String.utf8EncodeChar c := by
      rw [bytes, Json.text_bytes, Json.bytes_of_cons, Json.bytes_of_nil, List.append_nil]
    rw [hs', bytes_append, hc, hbreak] at h
    -- the last byte on the right is one of the last character
    obtain rfl : c = '\n' := by
      have hlast := congrArg List.getLast? h
      rw [List.getLast?_concat, List.getLast?_append_of_ne_nil _ String.utf8EncodeChar_ne_nil]
        at hlast
      exact encode_break (List.mem_of_getLast? hlast.symm)
    exact ⟨String.ofList before, hs', List.append_cancel_right h⟩

end RobotBench.Text
