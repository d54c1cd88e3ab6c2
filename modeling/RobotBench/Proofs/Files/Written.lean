import RobotBench.Files.Tree
import RobotBench.Proofs.Fallible

/-!
# Files that were written

A file that was written is read with the content that it was given, and whether a path can be
written does not depend on the content: `Tree.read_of_write` and `Tree.write_any`. Writing
changes no directory, so every path leads where it led.
-/

namespace RobotBench

namespace Tree

variable {t : Tree} {place : List String}

/-- A place holds what was put there, and every other holds what it held. -/
theorem find_set (hplace : place ≠ []) (entry : TreeEntry) (other : List String) :
    (t.set place entry).find? other = if other = place then some entry else t.find? other := by
  by_cases hnil : other = []
  · rw [hnil, if_neg (Ne.symm hplace)]
    rfl
  · by_cases hsame : other = place
    · rw [if_pos hsame, find?, if_neg hnil, set]
      simp [hsame]
    · have hkept : (fun old : List String × TreeEntry =>
          decide (decide (old.1 ≠ place) = true ∧ decide (old.1 = other) = true)) =
            fun old => decide (old.1 = other) := by
        funext old
        by_cases h : old.1 = other <;> simp [h, hsame]
      have hfirst : decide (place = other) = false := decide_eq_false (Ne.symm hsame)
      rw [if_neg hsame, find?, find?, if_neg hnil, if_neg hnil, set, List.find?_cons, hfirst]
      show ((t.entries.filter _).find? _).map Prod.snd = _
      rw [List.find?_filter, hkept]

/-- Only a place that holds no directory is given a file. -/
def IsFree (t : Tree) (place : List String) : Prop := t.find? place ≠ some .directory

theorem IsFree.ne_nil (h : t.IsFree place) : place ≠ [] := fun hnil => h (by rw [hnil]; rfl)

theorem demand_directory_iff {p : List String} :
    t.demandDirectory p = .ok () ↔ t.find? p = some .directory := by
  rw [demandDirectory]
  cases t.find? p with
  | none => exact ⟨nofun, nofun⟩
  | some entry =>
      cases entry with
      | directory => exact ⟨fun _ => rfl, fun _ => rfl⟩
      | file content => exact ⟨nofun, nofun⟩

/-- A directory stays one when a file is written. -/
theorem demand_directory_set (hfree : t.IsFree place) (content : ByteArray) {p : List String}
    (h : t.demandDirectory p = .ok ()) :
    (t.set place (.file content)).demandDirectory p = .ok () := by
  rw [demand_directory_iff] at h ⊢
  rw [find_set hfree.ne_nil, if_neg fun (heq : p = place) => hfree (heq ▸ h), h]

theorem enter_set (hfree : t.IsFree place) (content : ByteArray) {p q : List String}
    {name : String} (h : t.enter p name = .ok q) :
    (t.set place (.file content)).enter p name = .ok q := by
  obtain ⟨⟨⟩, hdirectory, hrest⟩ := Except.bind_eq_ok_iff.1 h
  exact Except.bind_eq_ok_iff.2 ⟨(), demand_directory_set hfree content hdirectory, hrest⟩

/-- Names lead where they led when a file is written. -/
theorem walk_set (hfree : t.IsFree place) (content : ByteArray) {names p q : List String}
    (h : t.walk p names = .ok q) : (t.set place (.file content)).walk p names = .ok q := by
  induction names generalizing p with
  | nil => exact h
  | cons name more ih =>
      obtain ⟨next, henter, hmore⟩ := Except.bind_eq_ok_iff.1 h
      exact Except.bind_eq_ok_iff.2 ⟨next, enter_set hfree content henter, ih hmore⟩

theorem walk_append {first second p q r : List String} (hfirst : t.walk p first = .ok q)
    (hsecond : t.walk q second = .ok r) : t.walk p (first ++ second) = .ok r := by
  induction first generalizing p with
  | nil =>
      obtain rfl : p = q := Except.ok.inj hfirst
      exact hsecond
  | cons name more ih =>
      obtain ⟨next, henter, hmore⟩ := Except.bind_eq_ok_iff.1 hfirst
      exact Except.bind_eq_ok_iff.2 ⟨next, henter, ih hmore⟩

theorem drop_last_append (names : List String) :
    names.dropLast ++ names.getLast?.toList = names := by
  cases hlast : names.getLast? with
  | none => rw [List.getLast?_eq_none_iff.1 hlast]; rfl
  | some name =>
      obtain ⟨more, rfl⟩ := List.getLast?_eq_some_iff.1 hlast
      rw [List.dropLast_concat]
      rfl

/-- The path leads to a place that can be given a file: a directory is there to hold it. -/
structure LeadsTo (t : Tree) (path : String) (names above place : List String) : Prop where
  usable : usable path = .ok names
  walk : t.walk (t.origin path) names.dropLast = .ok above
  directory : t.demandDirectory above = .ok ()
  open_end : Path.endsInSlash path = false
  last : t.walk above names.getLast?.toList = .ok place
  free : t.IsFree place

/-- Writing gives the place of the path its content. -/
theorem write_eq_ok_iff {path : String} {content : ByteArray} {t' : Tree} :
    t.write path content = .ok t' ↔
      ∃ names above place, t.LeadsTo path names above place ∧ t' = t.set place (.file content) := by
  constructor
  · intro h
    obtain ⟨names, husable, h⟩ := Except.bind_eq_ok_iff.1 h
    obtain ⟨above, habove, h⟩ := Except.bind_eq_ok_iff.1 h
    obtain ⟨⟨⟩, hdirectory, h⟩ := Except.bind_eq_ok_iff.1 h
    cases hend : Path.endsInSlash path with
    | true =>
        rw [hend] at h
        cases h
    | false =>
        rw [hend] at h
        obtain ⟨place, hlast, h⟩ := Except.bind_eq_ok_iff.1 h
        have hfree : t.IsFree place := by
          intro hfound
          rw [hfound] at h
          cases h
        refine ⟨names, above, place, ⟨husable, habove, hdirectory, hend, hlast, hfree⟩, ?_⟩
        cases hfound : t.find? place with
        | none =>
            rw [hfound] at h
            exact (Except.ok.inj h).symm
        | some entry =>
            rw [hfound] at h
            cases entry with
            | directory => exact absurd hfound hfree
            | file old => exact (Except.ok.inj h).symm
  · rintro ⟨names, above, place, ⟨husable, habove, hdirectory, hend, hlast, hfree⟩, rfl⟩
    refine Except.bind_eq_ok_iff.2 ⟨names, husable, Except.bind_eq_ok_iff.2 ⟨above, habove,
      Except.bind_eq_ok_iff.2 ⟨(), hdirectory, ?_⟩⟩⟩
    rw [hend]
    refine Except.bind_eq_ok_iff.2 ⟨place, hlast, ?_⟩
    cases hfound : t.find? place with
    | none => rfl
    | some entry =>
        cases entry with
        | directory => exact absurd hfound hfree
        | file old => rfl

/-- Whether a path can be written does not depend on the content. -/
theorem write_any {path : String} {content : ByteArray} {t' : Tree}
    (h : t.write path content = .ok t') (other : ByteArray) :
    ∃ t'', t.write path other = .ok t'' := by
  obtain ⟨names, above, place, hplace, -⟩ := write_eq_ok_iff.1 h
  exact ⟨_, write_eq_ok_iff.2 ⟨names, above, place, hplace, rfl⟩⟩

/-- A file that was written has the content that it was given. -/
theorem read_of_write {path : String} {content : ByteArray} {t' : Tree}
    (h : t.write path content = .ok t') : t'.read path = .ok content := by
  obtain ⟨names, above, place, hleads, rfl⟩ := write_eq_ok_iff.1 h
  have hfree := hleads.free
  have hfound : (t.set place (.file content)).find? place = some (.file content) := by
    rw [find_set hfree.ne_nil, if_pos rfl]
  have hwalk := walk_set hfree content (walk_append hleads.walk hleads.last)
  rw [drop_last_append] at hwalk
  refine Except.bind_eq_ok_iff.2 ⟨names, hleads.usable, Except.bind_eq_ok_iff.2 ⟨place, hwalk, ?_⟩⟩
  rw [hfound, hleads.open_end]
  rfl

end Tree

end RobotBench
