import Mathlib.Data.List.Nodup
import Mathlib.Tactic.SplitIfs
import RobotBench.Config.Basic
import RobotBench.Proofs.Number.Digits
import RobotBench.Proofs.ProcessTable.State
import RobotBench.Proofs.Text.Bytes

/-!
# The live processes of a name

The kernel shows a process in a directory of its number, its name cut to fifteen bytes and ended
by a line feed, and its state behind the same bytes. `ProcessTable.Shows` says that a table shows
some processes, and other entries that are not numbered. `find_lists_live_processes` says which of
them are found by a name: those that are running and whose name agrees with it as far as it is
shown, as long as what is shown is text that does not end with a line feed.
-/

namespace RobotBench

/-- A process as the kernel knows it. Its name may be any bytes. -/
structure ProcessRecord where
  number : Nat
  name : List UInt8
  state : String
  /-- What the state file tells besides. -/
  rest : String
  number_le : number ≤ 2147483647
  state_word : ProcessTable.IsStateWord state
  no_paren : ')' ∉ rest.toList

namespace ProcessRecord

variable (p : ProcessRecord)

/-- As much of the name as the kernel keeps. -/
def shortName : List UInt8 := p.name.take ProcessTable.nameLimit

/-- The files that the kernel shows of the process. -/
def entry : ProcessEntry where
  directory := toString p.number
  comm := some (p.shortName ++ Text.bytes "\n").toByteArray
  stat := some (Text.bytes (toString p.number ++ " (") ++ p.shortName ++
    Text.bytes (") " ++ p.state ++ " " ++ p.rest)).toByteArray

/-- The process is no zombie and not dead. -/
def IsRunning : Prop := p.state ≠ "Z" ∧ p.state ≠ "X"

instance : Decidable p.IsRunning := inferInstanceAs (Decidable (_ ∧ _))

/-- What is kept of the name is text, and does not end with a line feed. -/
def NameShows : Prop :=
  ∃ text : String, p.shortName = Text.bytes text ∧ text.toList.getLast? ≠ some '\n'

end ProcessRecord

namespace ProcessTable

/-- The name is digits, with or without a sign. -/
def IsNumeric (directory : String) : Prop :=
  ∃ digits, IsRow digits ∧ (directory.toList = digits ∨ directory.toList = '+' :: digits ∨
    directory.toList = '-' :: digits)

/-- The table shows the processes, in any order, among entries whose directories are no
numbers. -/
structure Shows (table : ProcessTable) (processes : List ProcessRecord) : Prop where
  distinct : (processes.map ProcessRecord.number).Nodup
  entries : ∃ others : List ProcessEntry,
    table.entries.Perm (processes.map ProcessRecord.entry ++ others) ∧
      ∀ other ∈ others, ¬ IsNumeric other.directory

/-! ## Directories -/

/-- Only digits, with or without a sign, are the number of a process. -/
theorem numeric_of_number {directory : String} {number : Int}
    (h : number? directory = some number) : IsNumeric directory := by
  have hrow {digits : List Char} {n : Nat} (hdigits : Text.natural? digits = some n) :
      IsRow digits := by
    unfold Text.natural? at hdigits
    split at hdigits
    · rename_i hrow
      exact ⟨hrow.1, List.all_eq_true.1 hrow.2⟩
    · cases hdigits
  obtain ⟨hnumber, -⟩ := Option.filter_eq_some_iff.1 h
  split at hnumber
  · rename_i digits hdirectory
    obtain ⟨i, hi, -⟩ := Option.map_eq_some_iff.1 hnumber
    obtain ⟨n, hn, -⟩ := Option.bind_eq_some_iff.1 hi
    exact ⟨digits, hrow hn, .inr (.inr hdirectory)⟩
  · rename_i digits hdirectory
    obtain ⟨n, hn, -⟩ := Option.map_eq_some_iff.1 hnumber
    exact ⟨digits, hrow hn, .inr (.inl hdirectory)⟩
  · obtain ⟨n, hn, -⟩ := Option.map_eq_some_iff.1 hnumber
    exact ⟨directory.toList, hrow hn, .inl rfl⟩

theorem not_numeric {directory : String} {c : Char} {rest : List Char}
    (h : directory.toList = c :: rest) (hdigit : c.isDigit = false) (hsign : c ≠ '+' ∧ c ≠ '-') :
    ¬ IsNumeric directory := by
  rintro ⟨digits, ⟨-, hdigits⟩, hplain | hplus | hminus⟩
  · rw [hdigits c (by simp [← hplain, h])] at hdigit
    cases hdigit
  · exact hsign.1 (List.cons.inj (h.symm.trans hplus)).1
  · exact hsign.2 (List.cons.inj (h.symm.trans hminus)).1

/-- An entry whose directory is no number is not found. -/
theorem candidate_none {entry : ProcessEntry} (h : ¬ IsNumeric entry.directory)
    (table : ProcessTable) (own : Int) (name : String) :
    table.candidate? own name entry = none := by
  unfold candidate?
  split
  · rename_i number comm hnumber hcomm
    exact absurd (numeric_of_number hnumber) h
  · rfl

/-- A directory that is named by the number of a process is found to be. -/
theorem number_of_repr {n : Nat} (h : n ≤ 2147483647) : number? (toString n) = some (n : Int) := by
  have hdigits := digits_are_digits n
  have hnatural : Text.natural? (Nat.toDigits 10 n) = some n := by
    rw [Text.natural?, if_pos ⟨Nat.toDigits_ne_nil, List.all_eq_true.2 hdigits⟩]
    exact congrArg some Nat.ofDigitChars_ten_toDigits
  have hrange : (-2147483648 ≤ (n : Int) ∧ (n : Int) ≤ 2147483647) := by omega
  rw [number?, Nat.toString_eq_repr, Nat.toList_repr]
  -- the digits begin with no sign
  split
  · rename_i digits hsign
    exact absurd (hdigits '-' (hsign ▸ List.mem_cons_self)) (by decide)
  · rename_i digits hsign
    exact absurd (hdigits '+' (hsign ▸ List.mem_cons_self)) (by decide)
  · rw [hnatural]
    simp [hrange]

theorem repr_injective {n k : Nat} (h : toString n = toString k) : n = k := by
  have hdigits : Nat.toDigits 10 n = Nat.toDigits 10 k := by
    simpa [Nat.toString_eq_repr, Nat.toList_repr] using congrArg String.toList h
  calc n
    _ = Nat.ofDigitChars 10 (Nat.toDigits 10 n) 0 := Nat.ofDigitChars_ten_toDigits.symm
    _ = Nat.ofDigitChars 10 (Nat.toDigits 10 k) 0 := by rw [hdigits]
    _ = k := Nat.ofDigitChars_ten_toDigits

/-! ## Names -/

/-- A line feed at the end does not count. -/
theorem without_breaks_append (text : String) :
    withoutFinalBreaks (text ++ "\n") = withoutFinalBreaks text := by
  have hbreak : "\n".toList = ['\n'] := rfl
  rw [withoutFinalBreaks, withoutFinalBreaks, String.toList_append, hbreak, List.reverse_append,
    List.reverse_singleton, List.singleton_append, List.dropWhile_cons_of_pos (by decide)]

theorem without_breaks_eq {text : String} (h : text.toList.getLast? ≠ some '\n') :
    withoutFinalBreaks text = text := by
  have hdrop : text.toList.reverse.dropWhile (· = '\n') = text.toList.reverse := by
    cases hreverse : text.toList.reverse with
    | nil => rfl
    | cons c more =>
        have hc : c ≠ '\n' := by
          rintro rfl
          exact h (by rw [← List.head?_reverse, hreverse]; rfl)
        exact List.dropWhile_cons_of_neg (by simpa using hc)
  rw [withoutFinalBreaks, hdrop, List.reverse_reverse, String.ofList_toList]

theorem name_matches_iff (comm name : String) :
    nameMatches comm name ↔ Text.bytes comm = (Text.bytes name).take nameLimit := by
  simp [nameMatches, Text.bytes]

/-! ## Tables that show processes -/

section

variable {table : ProcessTable} {processes : List ProcessRecord} (h : table.Shows processes)
include h

/-- What is found in the table is a process or has no number. -/
theorem Shows.entry_cases {entry : ProcessEntry} (hentry : entry ∈ table.entries) :
    (∃ p ∈ processes, entry = p.entry) ∨ ¬ IsNumeric entry.directory := by
  obtain ⟨others, hperm, hothers⟩ := h.entries
  rcases List.mem_append.1 (hperm.mem_iff.1 hentry) with hprocess | hother
  · obtain ⟨p, hp, rfl⟩ := List.mem_map.1 hprocess
    exact .inl ⟨p, hp, rfl⟩
  · exact .inr (hothers entry hother)

variable {p : ProcessRecord} (hp : p ∈ processes)
include hp

theorem Shows.mem_entries : p.entry ∈ table.entries := by
  obtain ⟨others, hperm, -⟩ := h.entries
  exact hperm.mem_iff.2 (List.mem_append_left _ (List.mem_map_of_mem hp))

/-- The state file of a process is found under its number. -/
theorem Shows.state_file : table.stateFile? p.number = p.entry.stat := by
  have hsome : (table.entries.find? fun entry =>
      entry.directory = toString (p.number : Int)).isSome := by
    rw [List.find?_isSome]
    exact ⟨p.entry, h.mem_entries hp, decide_eq_true rfl⟩
  obtain ⟨entry, hfind⟩ := Option.isSome_iff_exists.1 hsome
  have hfound := List.find?_some hfind
  have hdirectory : entry.directory = toString p.number := of_decide_eq_true hfound
  rw [stateFile?, hfind, Option.bind_some]
  rcases h.entry_cases (List.mem_of_find?_eq_some hfind) with ⟨q, hq, rfl⟩ | hother
  · have hnumber : q.number = p.number := repr_injective hdirectory
    rw [List.inj_on_of_nodup_map h.distinct hq hp hnumber]
  · rw [hdirectory] at hother
    exact absurd (numeric_of_number (number_of_repr p.number_le)) hother

/-- A process whose name is shown as text is alive by its state. -/
theorem Shows.alive_iff {text : String} (htext : p.shortName = Text.bytes text) :
    table.isAlive p.number ↔ p.IsRunning := by
  have hstat : p.entry.stat = some (stateText p.number text p.state p.rest).toUTF8 := by
    have hwhole : stateText p.number text p.state p.rest =
        toString p.number ++ " (" ++ text ++ (") " ++ p.state ++ " " ++ p.rest) := by
      simp only [stateText, String.append_assoc]
      rfl
    rw [hwhole, ← Text.array_bytes, Text.bytes_append, Text.bytes_append (_ ++ _), ← htext]
    rfl
  rw [is_alive_eq, h.state_file hp, hstat, text_of_string]
  simp only [state_text p.state_word p.no_paren]
  exact running_iff p.state

/-- Which number a process is found by, if it is found. -/
theorem Shows.candidate_iff {own i : Int} {name : String} :
    table.candidate? own name p.entry = some i ↔ i = p.number ∧ i ≠ own ∧ p.IsRunning ∧
      ∃ text, p.shortName = Text.bytes text ∧
        Text.bytes (withoutFinalBreaks text) = (Text.bytes name).take nameLimit := by
  have hnumber : number? p.entry.directory = some (p.number : Int) := number_of_repr p.number_le
  unfold candidate?
  rw [hnumber]
  constructor
  · intro hfound
    split at hfound
    · rename_i number comm hsome hcomm
      obtain rfl := Option.some.inj hsome
      obtain ⟨text, rfl, htext⟩ := Text.bytes_break (Text.read_bytes_iff.1 hcomm)
      split_ifs at hfound with hlisted
      obtain ⟨hown, hname, halive⟩ := hlisted
      obtain rfl := Option.some.inj hfound
      rw [name_matches_iff, without_breaks_append] at hname
      exact ⟨rfl, hown, (h.alive_iff hp htext).1 halive, text, htext, hname⟩
    · cases hfound
  · rintro ⟨rfl, hown, hrunning, text, htext, hname⟩
    have hcomm : text? p.entry.comm = some (text ++ "\n") := by
      refine Text.read_bytes_iff.2 ?_
      rw [htext, Text.bytes_append]
    rw [hcomm]
    refine if_pos ⟨hown, ?_, (h.alive_iff hp htext).2 hrunning⟩
    rw [name_matches_iff, without_breaks_append]
    exact hname

omit hp in
/-- The numbers that are found are those of processes of the table. -/
theorem Shows.mem_find_iff {own i : Int} {name : String} :
    i ∈ table.find own name ↔ ∃ p ∈ processes, table.candidate? own name p.entry = some i := by
  rw [find, List.mem_mergeSort, List.mem_filterMap]
  constructor
  · rintro ⟨entry, hentry, hfound⟩
    rcases h.entry_cases hentry with ⟨p, hp, rfl⟩ | hother
    · exact ⟨p, hp, hfound⟩
    · rw [candidate_none hother] at hfound
      cases hfound
  · rintro ⟨p, hp, hfound⟩
    exact ⟨p.entry, h.mem_entries hp, hfound⟩

omit hp in
/-- No number is found twice, and they are found in ascending order. -/
theorem Shows.find_ascending (own : Int) (name : String) :
    (table.find own name).Pairwise (· < ·) := by
  have hordered : (table.find own name).Pairwise (· ≤ ·) := by
    refine (List.pairwise_mergeSort (fun a b c hab hbc => ?_) (fun a b => ?_) _).imp
      fun hle => of_decide_eq_true hle
    · simp only [decide_eq_true_eq] at hab hbc ⊢
      exact le_trans hab hbc
    · simpa using le_total a b
  have hdistinct : (table.find own name).Nodup := by
    obtain ⟨others, hperm, hothers⟩ := h.entries
    have hnone : others.filterMap (table.candidate? own name) = [] :=
      List.filterMap_eq_nil_iff.2 fun other hother =>
        candidate_none (hothers other hother) table own name
    rw [find, (List.mergeSort_perm _ _).nodup_iff, (hperm.filterMap _).nodup_iff,
      List.filterMap_append, hnone, List.append_nil, List.filterMap_map, List.Nodup,
      List.pairwise_filterMap]
    -- processes of different numbers are found by different numbers
    refine (List.pairwise_map.1 h.distinct).imp_of_mem ?_
    rintro p q hp hq hne i hi k hk rfl
    have hfirst := ((h.candidate_iff hp).1 hi).1
    have hsecond := ((h.candidate_iff hq).1 hk).1
    exact hne (Int.ofNat_inj.1 (hfirst.symm.trans hsecond))
  exact (hordered.and hdistinct).imp fun ⟨hle, hne⟩ => lt_of_le_of_ne hle hne

end

/-- What is found of the processes that a table shows is listed once, in ascending order. A
process is found exactly if it is not one's own and is running, what is kept of its name is text,
and this text without the line feeds at its end is what is kept of the given name. So a process
whose name shows is found exactly if it is not one's own, is running, and its name and the given
one are kept as the same. -/
theorem find_lists_live_processes {table : ProcessTable} {processes : List ProcessRecord}
    (h : table.Shows processes) (own : Int) (name : String) :
    (table.find own name).Pairwise (· < ·) ∧
    (∀ i, i ∈ table.find own name ↔ ∃ p ∈ processes, i = p.number ∧ i ≠ own ∧ p.IsRunning ∧
      ∃ text, p.shortName = Text.bytes text ∧
        Text.bytes (withoutFinalBreaks text) = (Text.bytes name).take nameLimit) ∧
    ∀ p ∈ processes, p.NameShows → ((p.number : Int) ∈ table.find own name ↔
      (p.number : Int) ≠ own ∧ p.IsRunning ∧ p.shortName = (Text.bytes name).take nameLimit) := by
  refine ⟨h.find_ascending own name, fun i => ?_, fun p hp hshows => ?_⟩
  · rw [h.mem_find_iff]
    exact exists_congr fun p => and_congr_right fun hp => h.candidate_iff hp
  · obtain ⟨shown, hshown, hend⟩ := hshows
    rw [h.mem_find_iff]
    constructor
    · rintro ⟨q, hq, hfound⟩
      obtain ⟨hnumber, hown, hrunning, text, htext, hname⟩ := (h.candidate_iff hq).1 hfound
      obtain rfl := List.inj_on_of_nodup_map h.distinct hq hp (Int.ofNat_inj.1 hnumber.symm)
      obtain rfl := Text.bytes_injective (hshown.symm.trans htext)
      rw [without_breaks_eq hend, ← hshown] at hname
      exact ⟨hown, hrunning, hname⟩
    · rintro ⟨hown, hrunning, hname⟩
      refine ⟨p, hp, (h.candidate_iff hp).2 ⟨rfl, hown, hrunning, shown, hshown, ?_⟩⟩
      rw [without_breaks_eq hend, ← hshown, hname]

/-- Two processes whose long names are kept as the same, of which one is a zombie. -/
theorem find_lists_live_processes_long :
    let p : ProcessRecord := ⟨30, Text.bytes "reasoning-engine", "S", "1 (7", by decide, by decide,
      by decide⟩
    let q : ProcessRecord := ⟨7, Text.bytes "reasoning-engines", "Z", "1 1", by decide, by decide,
      by decide⟩
    let table : ProcessTable := ⟨[p.entry, ⟨"self", none, none⟩, q.entry]⟩
    table.Shows [p, q] ∧ 30 ∈ table.find 12 "reasoning-engine-daemon" ∧
      7 ∉ table.find 12 "reasoning-engine-daemon" := by
  intro p q table
  have hshows : table.Shows [p, q] := by
    refine ⟨by decide, [⟨"self", none, none⟩], .cons _ (.swap _ _ _), ?_⟩
    exact List.forall_mem_singleton.2 (not_numeric (c := 's') rfl (by decide) (by decide))
  obtain ⟨-, -, hfind⟩ := find_lists_live_processes hshows 12 "reasoning-engine-daemon"
  refine ⟨hshows, (hfind p (by simp) ?_).2 ?_, fun hfound => ?_⟩
  · exact ⟨"reasoning-engin", by decide +kernel, by decide⟩
  · exact ⟨by decide, by decide, by decide +kernel⟩
  · have hname := hfind q (by simp) ⟨"reasoning-engin", by decide +kernel, by decide⟩
    exact absurd (hname.1 hfound).2.1 (by decide)

/-- A name may be cut within a character, and then a running process of this very name is not
found. A process whose name goes on with a line feed is found by the name without it. -/
theorem cut_name_is_missed :
    let name := "reasoning-engié"
    let p : ProcessRecord := ⟨4200001, Text.bytes name, "S", "1 1 1 0 -1", by decide, by decide,
      by decide⟩
    let q : ProcessRecord := ⟨4200002, Text.bytes "NAR\n", "S", "1 1 1 0 -1", by decide, by decide,
      by decide⟩
    let table : ProcessTable := ⟨[p.entry, q.entry]⟩
    Config.isBareName name ∧ '\n' ∉ name.toList ∧ table.Shows [p, q] ∧ p.IsRunning ∧
      p.shortName = (Text.bytes name).take nameLimit ∧ table.find 1 name = [] ∧
      q.shortName ≠ (Text.bytes "NAR").take nameLimit ∧ table.find 1 "NAR" = [4200002] := by
  intro name p q table
  have hmissed : table.entries.filterMap (table.candidate? 1 name) = [] := by decide +kernel
  have hmistaken : table.entries.filterMap (table.candidate? 1 "NAR") = [4200002] := by
    decide +kernel
  refine ⟨by decide, by decide, ⟨by decide, [], .refl _, nofun⟩, by decide, rfl, ?_,
    by decide +kernel, ?_⟩
  · rw [find, hmissed, List.mergeSort_nil]
  · rw [find, hmistaken, List.mergeSort_singleton]

end ProcessTable

end RobotBench
