/-!
# Tables from names to values

A table binds each name at most once and lists its bindings in the order of the names.
Setting a name changes what is found under it and nothing else (`find?_set_self`,
`find?_set_of_ne`).
-/

namespace RobotBench

/-- Bindings in strictly increasing order of their names. -/
structure Table (α : Type) where
  entries : List (String × α)
  sorted : (entries.map Prod.fst).Pairwise (· < ·)

namespace Table

variable {α : Type}

/-- The table without bindings. -/
def empty : Table α := ⟨[], by simp⟩

instance : Inhabited (Table α) := ⟨empty⟩

/-- Puts a binding at its place in an ordered list. -/
def place (name : String) (value : α) : List (String × α) → List (String × α)
  | [] => [(name, value)]
  | (other, old) :: rest =>
    if name < other then (name, value) :: (other, old) :: rest
    else if name = other then (name, value) :: rest
    else (other, old) :: place name value rest

/-- The names after a binding was placed are the old ones and the new one. -/
theorem mem_names_place {name key : String} {value : α} {entries : List (String × α)} :
    key ∈ (place name value entries).map Prod.fst ↔
      key = name ∨ key ∈ entries.map Prod.fst := by
  induction entries with
  | nil => simp [place]
  | cons entry rest ih =>
    obtain ⟨other, old⟩ := entry
    simp only [place]
    split
    · simp
    · split
      · simp_all
      · rw [List.map_cons, List.mem_cons, ih, List.map_cons, List.mem_cons]
        exact or_left_comm

/-- Placing keeps the order. -/
theorem sorted_place (name : String) (value : α) {entries : List (String × α)}
    (h : (entries.map Prod.fst).Pairwise (· < ·)) :
    ((place name value entries).map Prod.fst).Pairwise (· < ·) := by
  induction entries with
  | nil => simp [place]
  | cons entry rest ih =>
    obtain ⟨other, old⟩ := entry
    rw [List.map_cons, List.pairwise_cons] at h
    simp only [place]
    split
    · rename_i hlt
      refine List.pairwise_cons.2 ⟨fun key hkey => ?_, List.pairwise_cons.2 h⟩
      rcases List.mem_cons.1 hkey with rfl | hkey
      · exact hlt
      · exact String.lt_trans hlt (h.1 key hkey)
    · split
      · rename_i heq
        subst heq
        exact List.pairwise_cons.2 h
      · rename_i hlt hne
        refine List.pairwise_cons.2 ⟨fun key hkey => ?_, ih h.2⟩
        rcases mem_names_place.1 hkey with rfl | hkey
        · exact Std.lt_of_le_of_ne (String.not_lt.1 hlt) (Ne.symm hne)
        · exact h.1 key hkey

/-- The table with the name bound to the value. -/
def set (table : Table α) (name : String) (value : α) : Table α :=
  ⟨place name value table.entries, sorted_place name value table.sorted⟩

/-- The first value bound to the name in a list of bindings. -/
def lookup (name : String) : List (String × α) → Option α
  | [] => none
  | (other, value) :: rest => if name = other then some value else lookup name rest

/-- The value bound to the name. -/
def find? (table : Table α) (name : String) : Option α := lookup name table.entries

/-- The bound names in order. -/
def names (table : Table α) : List String := table.entries.map Prod.fst

/-- The name is bound. -/
def contains (table : Table α) (name : String) : Bool := (table.find? name).isSome

/-- Placing binds the name. -/
theorem lookup_place_self (name : String) (value : α) (entries : List (String × α)) :
    lookup name (place name value entries) = some value := by
  induction entries with
  | nil => simp [place, lookup]
  | cons entry rest ih =>
    obtain ⟨other, old⟩ := entry
    simp only [place]
    split
    · simp [lookup]
    · split
      · simp [lookup]
      · rename_i hne
        simp [lookup, hne, ih]

/-- Placing one name leaves what is bound to every other. -/
theorem lookup_place_of_ne {name key : String} (value : α) (entries : List (String × α))
    (h : key ≠ name) : lookup key (place name value entries) = lookup key entries := by
  induction entries with
  | nil => simp [place, lookup, h]
  | cons entry rest ih =>
    obtain ⟨other, old⟩ := entry
    simp only [place]
    split
    · simp [lookup, h]
    · split
      · rename_i heq
        subst heq
        simp [lookup, h]
      · simp [lookup, ih]

/-- What was set is found. -/
theorem find?_set_self (table : Table α) (name : String) (value : α) :
    (table.set name value).find? name = some value :=
  lookup_place_self name value table.entries

/-- Setting one name leaves what is found under every other. -/
theorem find?_set_of_ne (table : Table α) {name key : String} (value : α)
    (h : key ≠ name) : (table.set name value).find? key = table.find? key :=
  lookup_place_of_ne value table.entries h

/-- What is found under a name is bound to it. -/
theorem mem_of_lookup {name : String} {value : α} {entries : List (String × α)}
    (h : lookup name entries = some value) : (name, value) ∈ entries := by
  induction entries with
  | nil => cases h
  | cons entry rest ih =>
    obtain ⟨other, old⟩ := entry
    unfold lookup at h
    split at h
    · rename_i heq
      cases h
      exact heq ▸ List.mem_cons_self
    · exact List.mem_cons_of_mem _ (ih h)

/-- Where no name is bound twice, what is bound to a name is found under it. -/
theorem lookup_of_mem {name : String} {value : α} {entries : List (String × α)}
    (hnames : (entries.map Prod.fst).Nodup) (h : (name, value) ∈ entries) :
    lookup name entries = some value := by
  induction entries with
  | nil => cases h
  | cons entry rest ih =>
    obtain ⟨hname, hrest⟩ := List.nodup_cons.1 hnames
    rcases List.mem_cons.1 h with rfl | h
    · exact if_pos rfl
    · have hne : name ≠ entry.1 := fun heq => hname (List.mem_map.2 ⟨_, h, heq⟩)
      rw [lookup, if_neg hne, ih hrest h]

/-- Where no name is bound twice, the order of the bindings makes no difference. -/
theorem lookup_perm {entries other : List (String × α)} (h : entries.Perm other)
    (hnames : (entries.map Prod.fst).Nodup) (name : String) :
    lookup name entries = lookup name other := by
  have hother : (other.map Prod.fst).Nodup := (h.map Prod.fst).nodup_iff.1 hnames
  ext value
  exact ⟨fun hvalue => lookup_of_mem hother (h.mem_iff.1 (mem_of_lookup hvalue)),
    fun hvalue => lookup_of_mem hnames (h.mem_iff.2 (mem_of_lookup hvalue))⟩

/-- The bindings of a table are what is found in it. -/
theorem mem_entries_iff {table : Table α} {name : String} {value : α} :
    (name, value) ∈ table.entries ↔ table.find? name = some value := by
  have hnames : (table.entries.map Prod.fst).Nodup := by
    refine table.sorted.imp ?_
    rintro a _ hlt rfl
    exact String.lt_irrefl a hlt
  exact ⟨lookup_of_mem hnames, mem_of_lookup⟩

/-- Something is found under the names that are bound. -/
theorem lookup_is_some_iff {name : String} {entries : List (String × α)} :
    (lookup name entries).isSome ↔ name ∈ entries.map Prod.fst := by
  induction entries with
  | nil => simp [lookup]
  | cons entry more ih =>
    rw [List.map_cons, List.mem_cons, ← ih, lookup]
    by_cases h : name = entry.1 <;> simp [h]

theorem mem_names_iff {table : Table α} {name : String} :
    name ∈ table.names ↔ table.contains name = true :=
  lookup_is_some_iff.symm

/-- Looking up a name does not depend on what is made of the values. -/
theorem lookup_map {β : Type} (f : α → β) (name : String) (entries : List (String × α)) :
    lookup name (entries.map fun entry => (entry.1, f entry.2)) = (lookup name entries).map f := by
  induction entries with
  | nil => rfl
  | cons entry more ih =>
    rw [List.map_cons, lookup, lookup, ih]
    split <;> rfl

/-- Placing a binding does not depend on what is made of the values. -/
theorem place_map {β : Type} (f : α → β) (name : String) (value : α)
    (entries : List (String × α)) :
    place name (f value) (entries.map fun entry => (entry.1, f entry.2)) =
      (place name value entries).map fun entry => (entry.1, f entry.2) := by
  induction entries with
  | nil => rfl
  | cons entry more ih =>
    rw [List.map_cons, place, place, ih]
    split
    · rfl
    · split <;> rfl

end Table

end RobotBench
