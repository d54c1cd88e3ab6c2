import RobotBench.Config.Reader
import RobotBench.Proofs.Json.Grammar

/-!
# What values give to the reader of settings

The reader of settings is a reader of series (`ConfigField.strings_eq`,
`ConfigDraft.read_fields_eq`). It tells scalars by their fronts, and it refuses every value that is
no scalar by its front, so that it does not matter what follows (`front_judged`). Each kind of
setting takes the values of its kind and no others: `word32_judged`, `word64_judged`,
`string_judged`, `nullable_judged` and `strings_judged`. A whole number is one that is written in
digits alone.
-/

namespace RobotBench

open Json

/-! ## The reader of settings as a reader of series -/

/-- A string among the items of an array. -/
def ConfigField.stringItem (bytes : Bytes) : Except ReadFault (String × Bytes) := do
  let (head, rest) ← front bytes
  return (← string "a string" head, rest)

/-- The texts of an array are read as the items of a series. -/
theorem ConfigField.strings_eq (fuel : Nat) (first : Bool) (bytes : Bytes) :
    strings fuel first bytes = readItems stringItem fuel first bytes := by
  induction fuel generalizing first bytes with
  | zero => rfl
  | succ fuel ih =>
      rw [strings, readItems]
      refine congrArg _ (funext fun step => ?_)
      obtain ⟨_ | _, rest⟩ := step
      · rfl
      · simp only [stringItem, ih, bind_assoc, pure_bind]

/-- Takes a field of an object into account. -/
def ConfigDraft.member (d : ConfigDraft) (key : String) (bytes : Bytes) :
    Except ReadFault (ConfigDraft × Bytes) :=
  match ConfigField.ofKey? key with
  | none => throw (.unknownField key)
  | some field => do
    if d.has field then throw (.duplicateField field)
    d.readField (← colon bytes) field

/-- The fields of the settings are read as the members of a series. -/
theorem ConfigDraft.read_fields_eq (fuel : Nat) (first : Bool) (d : ConfigDraft) (bytes : Bytes) :
    readFields fuel first d bytes = readMembers member fuel first d bytes := by
  induction fuel generalizing first d bytes with
  | zero => rfl
  | succ fuel ih =>
      rw [readFields, readMembers]
      refine congrArg _ (funext fun step => ?_)
      obtain ⟨_ | key, rest⟩ := step
      · rfl
      · dsimp only
        rw [member]
        cases ConfigField.ofKey? key with
        | none => rfl
        | some field =>
            dsimp only
            cases d.has field with
            | true => rfl
            | false => simp only [ih, bind_assoc, Bool.false_eq_true, if_false]

/-! ## Values -/

namespace Json

/-- The value, or null for nothing. -/
def orNull {α : Type} (write : α → Json) (value : Option α) : Json := (value.map write).getD .null

/-- A value that may be missing is told from its document, if no value is written as null. -/
theorem or_null_injective {α : Type} {write : α → Json} (hwrite : ∀ a, write a ≠ .null)
    (hinjective : ∀ a b, write a = write b → a = b) {value other : Option α}
    (h : orNull write value = orNull write other) : value = other := by
  cases value with
  | none =>
      cases other with
      | none => rfl
      | some b => exact absurd h.symm (hwrite b)
  | some a =>
      cases other with
      | none => exact absurd h (hwrite a)
      | some b => exact congrArg some (hinjective a b h)

/-- What a value gives to a reader of fronts. -/
def scalar? {α : Type} (read : Head → Except ReadFault α) (value : Json) : Option α :=
  value.head?.bind fun head => (read head).toOption

/-- The strings of an array. -/
def strings? : Json → Option (List String)
  | array items => items.mapM (scalar? (ConfigField.string "a string"))
  | _ => none

end Json

/-- The reader takes no vague front. -/
def Plain {α : Type} (read : Head → Except ReadFault α) : Prop :=
  ∀ head : Head, head.IsVague → ∃ fault, read head = .error fault

namespace ConfigField

/-- A natural number is told from its front. -/
theorem natural_plain (bound : Nat) (expected : String) : Plain (natural bound expected) := by
  rintro head ((⟨n, rfl⟩ | ⟨x, rfl⟩) | rfl | rfl)
  · exact ⟨_, rfl⟩
  · exact ⟨_, rfl⟩
  · exact ⟨_, rfl⟩
  · exact ⟨_, rfl⟩

/-- A number of 32 bits is told from its front. -/
theorem word32_plain : Plain word32 := by
  intro head hhead
  obtain ⟨fault, hfault⟩ := natural_plain UInt32.size "u32" head hhead
  exact ⟨fault, by rw [word32, hfault]; rfl⟩

/-- A number of 64 bits is told from its front. -/
theorem word64_plain : Plain word64 := by
  intro head hhead
  obtain ⟨fault, hfault⟩ := natural_plain UInt64.size "u64" head hhead
  exact ⟨fault, by rw [word64, hfault]; rfl⟩

/-- A text is told from its front. -/
theorem string_plain (expected : String) : Plain (string expected) := by
  rintro head ((⟨n, rfl⟩ | ⟨x, rfl⟩) | rfl | rfl)
  · exact ⟨_, rfl⟩
  · exact ⟨_, rfl⟩
  · exact ⟨_, rfl⟩
  · exact ⟨_, rfl⟩

/-- What may be null is told from its front when the value is. -/
theorem nullable_plain {α : Type} {read : Head → Except ReadFault α} (h : Plain read) :
    Plain (nullable read) := by
  intro head hhead
  obtain ⟨fault, hfault⟩ := h head hhead
  refine ⟨fault, ?_⟩
  rw [nullable, hfault]
  · rfl
  · rintro rfl
    rcases hhead with (⟨n, hn⟩ | ⟨x, hx⟩) | harray | hobject
    · cases hn
    · cases hx
    · cases harray
    · cases hobject

end ConfigField

/-! ## Judging values -/

section

variable {α β : Type} {text : List Char} {value : Json} {rest : Bytes}

/-- What follows the front of a value sees what the value is, and fails for any value that the
front does not tell. -/
theorem front_judged (h : IsText text value) (hrest : Ends rest)
    {next : Head × Bytes → Except ReadFault β}
    (hnext : ∀ head : Head, head.IsVague → ∀ behind,
      ∃ fault, next (head, behind) = .error fault) :
    (ConfigField.front (bytesOf text ++ rest) >>= next).toOption =
      value.head?.bind fun head => (next (head, rest)).toOption := by
  cases hhead : value.head? with
  | some head =>
      rw [ConfigField.front, front_read h hrest hhead]
      rfl
  | none =>
      cases hread : Head.read (bytesOf text ++ rest) with
      | error fault =>
          rw [ConfigField.front, hread]
          rfl
      | ok step =>
          obtain ⟨head, behind⟩ := step
          obtain ⟨fault, hfault⟩ := hnext head (front_vague h hrest hhead hread) behind
          rw [ConfigField.front, hread]
          show (next (head, behind)).toOption = none
          rw [hfault]
          rfl

/-- A value that its front decides gives what its front gives. -/
theorem scalar_judged (h : IsText text value) (hrest : Ends rest)
    {read : Head → Except ReadFault α} (hread : Plain read) (store : α → β) :
    (do
      let (head, rest) ← ConfigField.front (bytesOf text ++ rest)
      return (store (← read head), rest)).toOption =
        ((scalar? read value).map store).map (·, rest) := by
  refine (front_judged h hrest fun head hhead behind => ?_).trans ?_
  · obtain ⟨fault, hfault⟩ := hread head hhead
    exact ⟨fault, by dsimp only; rw [hfault]; rfl⟩
  · rw [scalar?]
    cases value.head? with
    | none => rfl
    | some head =>
        show (read head >>= fun a => pure (store a, rest)).toOption =
          (((read head).toOption).map store).map (·, rest)
        cases read head <;> rfl

/-- A number below a bound is a document that is a natural number below it. -/
theorem natural_judged {bound n : Nat} (hbound : bound ≤ UInt64.size) (expected : String) :
    scalar? (ConfigField.natural bound expected) value = some n ↔
      n < bound ∧ value = .natural n := by
  cases value with
  | natural m =>
      have hjudge : scalar? (ConfigField.natural bound expected) (.natural m) =
          if m < bound then some m else none := by
        rw [scalar?, head?]
        by_cases hsmall : m < bound
        · rw [if_pos (Nat.lt_of_lt_of_le hsmall hbound), if_pos hsmall, Option.bind_some,
            ConfigField.natural, if_pos hsmall]
          rfl
        · rw [if_neg hsmall]
          split
          · rw [Option.bind_some, ConfigField.natural, if_neg hsmall]
            rfl
          · rfl
      rw [hjudge, Option.ite_none_right_eq_some, Option.some.injEq, Json.natural.injEq]
      constructor
      · rintro ⟨hsmall, rfl⟩
        exact ⟨hsmall, rfl⟩
      · rintro ⟨hsmall, rfl⟩
        exact ⟨hsmall, rfl⟩
  | null | bool | number | text | array | object =>
      constructor
      · intro h
        cases h
      · rintro ⟨-, h⟩
        cases h

/-- What is made of a value is made of what its front gives. -/
theorem scalar_map {read : Head → Except ReadFault α} (f : α → β) :
    scalar? (fun head => (read head).map f) value = (scalar? read value).map f := by
  rw [scalar?, scalar?]
  cases value.head? with
  | none => rfl
  | some head =>
      show ((read head).map f).toOption = (read head).toOption.map f
      cases read head <;> rfl

/-- A number of 32 bits is the document of this number. -/
theorem word32_judged {n : UInt32} :
    scalar? ConfigField.word32 value = some n ↔ value = .natural n.toNat := by
  show scalar? (fun head => (ConfigField.natural UInt32.size "u32" head).map UInt32.ofNat) value =
    some n ↔ _
  rw [scalar_map, Option.map_eq_some_iff]
  simp only [natural_judged (show UInt32.size ≤ UInt64.size by decide)]
  constructor
  · rintro ⟨m, ⟨hm, rfl⟩, rfl⟩
    rw [UInt32.toNat_ofNat_of_lt' hm]
  · rintro rfl
    exact ⟨n.toNat, ⟨n.toNat_lt, rfl⟩, UInt32.ofNat_toNat⟩

/-- A number of 64 bits is the document of this number. -/
theorem word64_judged {n : UInt64} :
    scalar? ConfigField.word64 value = some n ↔ value = .natural n.toNat := by
  show scalar? (fun head => (ConfigField.natural UInt64.size "u64" head).map UInt64.ofNat) value =
    some n ↔ _
  rw [scalar_map, Option.map_eq_some_iff]
  simp only [natural_judged (Nat.le_refl UInt64.size)]
  constructor
  · rintro ⟨m, ⟨hm, rfl⟩, rfl⟩
    rw [UInt64.toNat_ofNat_of_lt' hm]
  · rintro rfl
    exact ⟨n.toNat, ⟨n.toNat_lt, rfl⟩, UInt64.ofNat_toNat⟩

/-- A text is the document of this text. -/
theorem string_judged {s expected : String} :
    scalar? (ConfigField.string expected) value = some s ↔ value = .text s := by
  cases value with
  | text t =>
      exact ⟨fun h => congrArg _ (Option.some.inj h), fun h => congrArg _ (Json.text.inj h)⟩
  | natural n =>
      constructor
      · intro h
        obtain ⟨head, hhead, h⟩ := Option.bind_eq_some_iff.1 h
        rw [head?] at hhead
        split at hhead
        · cases hhead
          cases h
        · cases hhead
      · intro h
        cases h
  | null | bool | number | array | object =>
      constructor
      · intro h
        cases h
      · intro h
        cases h

/-- A value that may be null says that nothing is set if it is null. -/
theorem nullable_judged {read : Head → Except ReadFault α} {write : α → Json}
    (hwrite : ∀ a, write a ≠ .null) (hread : ∀ a, scalar? read value = some a ↔ value = write a)
    {a : Option α} :
    scalar? (ConfigField.nullable read) value = some a ↔ value = orNull write a := by
  by_cases hnull : value = .null
  · subst hnull
    cases a with
    | none => exact ⟨fun _ => rfl, fun _ => rfl⟩
    | some b =>
        constructor
        · intro h
          cases h
        · intro h
          exact absurd h.symm (hwrite b)
  · have hsome : scalar? (ConfigField.nullable read) value = (scalar? read value).map some := by
      rw [← scalar_map, scalar?, scalar?]
      cases hhead : value.head? with
      | none => rfl
      | some head =>
          rw [Option.bind_some, Option.bind_some, ConfigField.nullable]
          rintro rfl
          cases value with
          | null => exact hnull rfl
          | natural n =>
              rw [head?] at hhead
              split at hhead <;> cases hhead
          | bool | number | text | array | object => cases hhead
    rw [hsome, Option.map_eq_some_iff]
    simp only [hread]
    cases a with
    | none =>
        constructor
        · rintro ⟨_, _, h⟩
          cases h
        · intro h
          exact absurd h hnull
    | some b =>
        constructor
        · rintro ⟨_, h, heq⟩
          exact Option.some.inj heq ▸ h
        · intro h
          exact ⟨b, h, rfl⟩

/-- Texts are the documents of these texts. -/
theorem items_judged {values : List Json} {items : List String} {expected : String} :
    values.mapM (scalar? (ConfigField.string expected)) = some items ↔
      values = items.map .text := by
  induction values generalizing items with
  | nil =>
      rw [List.mapM_nil, List.nil_eq, List.map_eq_nil_iff]
      exact ⟨fun h => (Option.some.inj h).symm, fun h => congrArg some h.symm⟩
  | cons value more ih =>
      rw [List.mapM_cons, Option.bind_eq_bind, Option.bind_eq_some_iff]
      simp only [string_judged, Option.bind_eq_bind, Option.bind_eq_some_iff, ih]
      constructor
      · rintro ⟨s, rfl, strings, rfl, h⟩
        exact Option.some.inj h ▸ rfl
      · intro h
        cases items with
        | nil => cases h
        | cons s strings =>
            obtain ⟨hvalue, hmore⟩ := List.cons.inj h
            exact ⟨s, hvalue, strings, hmore, rfl⟩

/-- A list of texts is the array of these texts. -/
theorem strings_judged {items : List String} :
    strings? value = some items ↔ value = .array (items.map .text) := by
  cases value with
  | array values => rw [strings?, Json.array.injEq, items_judged]
  | null | bool | natural | number | text | object =>
      constructor
      · intro h
        cases h
      · intro h
        cases h

/-- Each item of an array of texts is read as it is judged. -/
theorem string_item_judged (h : IsText text value) :
    Judged ConfigField.stringItem (scalar? (ConfigField.string "a string")) text value where
  opens := h.opens
  reads rest hrest := by
    refine (scalar_judged h hrest (ConfigField.string_plain _) id).trans ?_
    rw [Option.map_id]
    rfl

/-- An array of strings gives its strings. -/
theorem string_array_judged (h : IsText text value) (hrest : Ends rest) :
    (ConfigField.stringArray (bytesOf text ++ rest)).toOption =
      (strings? value).map (·, rest) := by
  by_cases harray : ∃ items, value = .array items
  · obtain ⟨items, rfl⟩ := harray
    obtain ⟨inner, rfl, hitems⟩ := h.of_array
    have hseries := hitems.imp fun _ _ _ => string_item_judged
    have hread := read_items_judged hseries (hitems.length_lt (byte ']') rest) rest
    rw [bracketed_bytes (by decide) (by decide), ConfigField.stringArray, ConfigField.front,
      head_array]
    show (ConfigField.strings _ true (bytesOf inner ++ byte ']' :: rest) >>= _).toOption = _
    rw [ConfigField.strings_eq, Except.to_option_bind, hread, strings?]
    cases List.mapM (scalar? (ConfigField.string "a string")) items with
    | none => rfl
    | some strings =>
        simp only [Option.map_some, Option.bind_some, close_array]
        rfl
  · have hnone : strings? value = none := by
      cases value with
      | array items => exact absurd ⟨items, rfl⟩ harray
      | null | bool | natural | number | text | object => rfl
    rw [hnone, ConfigField.stringArray, ConfigField.front]
    cases hread : Head.read (bytesOf text ++ rest) with
    | error fault => rfl
    | ok step =>
        obtain ⟨head, behind⟩ := step
        cases head with
        | array => exact absurd (front_array h hrest hread) harray
        | null | bool | natural | negative | number | text | object => rfl

end

end RobotBench
