import RobotBench.Config.Load
import RobotBench.Files.Tree
import RobotBench.Proofs.Config.Values
import RobotBench.Table

/-!
# Settings from a file

A file of settings replaces the defaults field by field. The reader stops at the first problem it
meets, but what it gives does not depend on where that is: a field is judged by its key and its
value alone (`ConfigDraft.put`), and a text is read as the fields of its object are judged, whatever
its layout (`Config.read_judged`). So `load_overrides` says when settings are loaded and which ones,
by the fields alone.
-/

namespace RobotBench

open Json

/-! ## Settings read so far -/

namespace ConfigField

/-- The values that a setting may have. A number is a natural number in digits alone. -/
def Admits (value : Json) : ConfigField → Prop
  | schemaVersion => ∃ n < UInt32.size, value = .natural n
  | target => ∃ s, value = .text s
  | markers => ∃ items : List String, value = .array (items.map .text)
  | engine | entryPoint => value = .null ∨ ∃ s, value = .text s
  | cleanupTimeout => ∃ n < UInt64.size, value = .natural n
  | seed | maxSteps => value = .null ∨ ∃ n < UInt64.size, value = .natural n

end ConfigField

namespace ConfigDraft

/-- What has been read of a setting. -/
def shown? (d : ConfigDraft) : ConfigField → Option Json
  | .schemaVersion => d.schemaVersion.map fun n => .natural n.toNat
  | .target => d.target.map .text
  | .markers => d.markers.map fun items => .array (items.map .text)
  | .engine => d.engine.map (orNull .text)
  | .cleanupTimeout => d.cleanupTimeout.map fun n => .natural n.toNat
  | .seed => d.seed.map (orNull fun n => .natural n.toNat)
  | .entryPoint => d.entryPoint.map (orNull .text)
  | .maxSteps => d.maxSteps.map (orNull fun n => .natural n.toNat)

/-- Takes over the value of a setting, if the setting may have it. -/
def take (d : ConfigDraft) (value : Json) : ConfigField → Option ConfigDraft
  | .schemaVersion =>
    (scalar? ConfigField.word32 value).map fun n => { d with schemaVersion := some n }
  | .target =>
    (scalar? (ConfigField.string "path string") value).map fun s => { d with target := some s }
  | .markers => (strings? value).map fun items => { d with markers := some items }
  | .engine =>
    (scalar? (ConfigField.nullable (ConfigField.string "a string")) value).map
      fun s => { d with engine := some s }
  | .cleanupTimeout =>
    (scalar? ConfigField.word64 value).map fun n => { d with cleanupTimeout := some n }
  | .seed =>
    (scalar? (ConfigField.nullable ConfigField.word64) value).map
      fun n => { d with seed := some n }
  | .entryPoint =>
    (scalar? (ConfigField.nullable (ConfigField.string "a string")) value).map
      fun s => { d with entryPoint := some s }
  | .maxSteps =>
    (scalar? (ConfigField.nullable ConfigField.word64) value).map
      fun n => { d with maxSteps := some n }

/-- Takes over a field of an object: one with a known key that has not been read yet. -/
def put (d : ConfigDraft) (entry : String × Json) : Option ConfigDraft :=
  (ConfigField.ofKey? entry.1).bind fun field =>
    if d.has field then none else d.take entry.2 field

/-- A field has been read exactly if it has a value to show. -/
theorem has_eq (d : ConfigDraft) (field : ConfigField) : d.has field = (d.shown? field).isSome := by
  cases field <;> exact Option.isSome_map.symm

/-- The value of a setting is read as it is taken over. -/
theorem read_field_judged {text : List Char} {value : Json} (h : IsText text value)
    (d : ConfigDraft) (field : ConfigField) {rest : Bytes} (hrest : Ends rest) :
    (d.readField (bytesOf text ++ rest) field).toOption = (d.take value field).map (·, rest) := by
  have hstring := ConfigField.string_plain
  have hword32 := ConfigField.word32_plain
  have hword64 := ConfigField.word64_plain
  cases field with
  | schemaVersion => exact scalar_judged h hrest hword32 _
  | target => exact scalar_judged h hrest (hstring _) _
  | markers =>
      rw [readField, Except.to_option_bind, string_array_judged h hrest, take]
      cases strings? value <;> rfl
  | engine => exact scalar_judged h hrest (ConfigField.nullable_plain (hstring _)) _
  | cleanupTimeout => exact scalar_judged h hrest hword64 _
  | seed => exact scalar_judged h hrest (ConfigField.nullable_plain hword64) _
  | entryPoint => exact scalar_judged h hrest (ConfigField.nullable_plain (hstring _)) _
  | maxSteps => exact scalar_judged h hrest (ConfigField.nullable_plain hword64) _

section

variable {α : Type} {value : Json}

/-- The natural numbers of 32 bits are the documents of words. -/
theorem exists_word32 : (∃ n < UInt32.size, value = .natural n) ↔
    ∃ n : UInt32, value = .natural n.toNat := by
  constructor
  · rintro ⟨n, hn, rfl⟩
    exact ⟨.ofNat n, by rw [UInt32.toNat_ofNat_of_lt' hn]⟩
  · rintro ⟨n, rfl⟩
    exact ⟨n.toNat, n.toNat_lt, rfl⟩

/-- The natural numbers of 64 bits are the documents of words. -/
theorem exists_word64 : (∃ n < UInt64.size, value = .natural n) ↔
    ∃ n : UInt64, value = .natural n.toNat := by
  constructor
  · rintro ⟨n, hn, rfl⟩
    exact ⟨.ofNat n, by rw [UInt64.toNat_ofNat_of_lt' hn]⟩
  · rintro ⟨n, rfl⟩
    exact ⟨n.toNat, n.toNat_lt, rfl⟩

/-- A null or a value is the document of what may be missing. -/
theorem exists_or_null (write : α → Json) : (value = .null ∨ ∃ a, value = write a) ↔
    ∃ a : Option α, value = orNull write a := by
  rw [Option.exists]
  rfl

/-- The values that a setting may have are those that are taken over. -/
theorem take_is_some_iff (d : ConfigDraft) (field : ConfigField) :
    (d.take value field).isSome ↔ field.Admits value := by
  have hstring (s : String) : scalar? (ConfigField.string "a string") value = some s ↔
      value = .text s := string_judged
  have hword (n : UInt64) : scalar? ConfigField.word64 value = some n ↔ value = .natural n.toNat :=
    word64_judged
  cases field with
  | schemaVersion =>
      rw [take, Option.isSome_map, Option.isSome_iff_exists, ConfigField.Admits, exists_word32]
      exact exists_congr fun _ => word32_judged
  | target =>
      rw [take, Option.isSome_map, Option.isSome_iff_exists, ConfigField.Admits]
      exact exists_congr fun _ => string_judged
  | markers =>
      rw [take, Option.isSome_map, Option.isSome_iff_exists, ConfigField.Admits]
      exact exists_congr fun _ => strings_judged
  | engine | entryPoint =>
      rw [take, Option.isSome_map, Option.isSome_iff_exists, ConfigField.Admits, exists_or_null]
      exact exists_congr fun _ => nullable_judged nofun hstring
  | cleanupTimeout =>
      rw [take, Option.isSome_map, Option.isSome_iff_exists, ConfigField.Admits, exists_word64]
      exact exists_congr fun _ => word64_judged
  | seed | maxSteps =>
      rw [take, Option.isSome_map, Option.isSome_iff_exists, ConfigField.Admits, exists_word64,
        exists_or_null]
      exact exists_congr fun _ => nullable_judged nofun hword

/-- A setting that is taken over is the only one that changes. -/
theorem shown_taken {d d' : ConfigDraft} {field : ConfigField} {write : α → Json}
    {taken : Option α} {store : α → ConfigDraft}
    (htaken : ∀ a, taken = some a ↔ value = write a)
    (hstore : ∀ a other, (store a).shown? other =
      if other = field then some (write a) else d.shown? other)
    (h : taken.map store = some d') (other : ConfigField) :
    d'.shown? other = if other = field then some value else d.shown? other := by
  obtain ⟨a, ha, rfl⟩ := Option.map_eq_some_iff.1 h
  rw [hstore, ← (htaken a).1 ha]

/-- A field that is taken shows its value, the others show theirs. -/
theorem shown_take {d d' : ConfigDraft} {field : ConfigField} (h : d.take value field = some d')
    (other : ConfigField) :
    d'.shown? other = if other = field then some value else d.shown? other := by
  cases field with
  | schemaVersion =>
      exact shown_taken (fun _ => word32_judged) (fun _ other => by cases other <;> rfl) h other
  | target =>
      exact shown_taken (fun _ => string_judged) (fun _ other => by cases other <;> rfl) h other
  | markers =>
      exact shown_taken (fun _ => strings_judged) (fun _ other => by cases other <;> rfl) h other
  | engine | entryPoint =>
      exact shown_taken (fun _ => nullable_judged nofun fun _ => string_judged)
        (fun _ other => by cases other <;> rfl) h other
  | cleanupTimeout =>
      exact shown_taken (fun _ => word64_judged) (fun _ other => by cases other <;> rfl) h other
  | seed | maxSteps =>
      exact shown_taken (fun _ => nullable_judged nofun fun _ => word64_judged)
        (fun _ other => by cases other <;> rfl) h other

end

/-- A field is found by its own key. -/
theorem of_key_iff {key : String} {field : ConfigField} :
    ConfigField.ofKey? key = some field ↔ key = field.key := by
  constructor
  · intro h
    simpa [eq_comm] using List.find?_some h
  · rintro rfl
    cases field <;> decide

/-- No two fields have one key. -/
theorem key_injective {field other : ConfigField} (h : field.key = other.key) : field = other :=
  Option.some.inj ((of_key_iff.2 rfl).symm.trans (of_key_iff.2 h))

/-- A gap before a value does not matter. -/
theorem head_gap {gap : List Char} (h : IsGap gap) (rest : Bytes) :
    Head.read (bytesOf gap ++ rest) = Head.read rest := by
  rw [Head.read, Head.read, skip_gap h]

/-- A gap before the value of a field does not matter. -/
theorem read_field_gap {gap : List Char} (h : IsGap gap) (d : ConfigDraft) (field : ConfigField)
    (rest : Bytes) : d.readField (bytesOf gap ++ rest) field = d.readField rest field := by
  have hfront : ConfigField.front (bytesOf gap ++ rest) = ConfigField.front rest := by
    rw [ConfigField.front, ConfigField.front, head_gap h]
  cases field with
  | markers => rw [readField, readField, ConfigField.stringArray, ConfigField.stringArray, hfront]
  | _ => rw [readField, readField, scalar, scalar, hfront]

/-- The fields of an object are judged one by one. -/
theorem member_judged {text : List Char} {entry : String × Json} (h : Member IsText text entry) :
    JudgedField member put text entry := by
  cases h with
  | @field keyText before after text key value hkey hbefore hafter hvalue =>
      refine .key hkey fun d rest hrest => ?_
      have hcolon := colon_read hbefore (bytesOf (after ++ text) ++ rest)
      rw [member, put, bytes_of_append, bytes_of_ascii (by decide), List.append_assoc,
        List.cons_append]
      cases ConfigField.ofKey? key with
      | none => rfl
      | some field =>
          dsimp only
          rw [Option.bind_some]
          cases d.has field with
          | true => rfl
          | false =>
              show (colon _ >>= fun rest => d.readField rest field).toOption = _
              rw [hcolon, bytes_of_append, List.append_assoc]
              show (d.readField (bytesOf after ++ (bytesOf text ++ rest)) field).toOption = _
              rw [read_field_gap hafter, read_field_judged hvalue d field hrest]
              rfl

/-- A field that is taken over has a known key, is new, and has a value that its setting may
have. It is the only one that changes. -/
theorem of_put {d d' : ConfigDraft} {key : String} {value : Json}
    (h : d.put (key, value) = some d') :
    ∃ field : ConfigField, key = field.key ∧ field.Admits value ∧ d.shown? field = none ∧
      ∀ other, d'.shown? other = if other = field then some value else d.shown? other := by
  obtain ⟨field, hfield, h⟩ := Option.bind_eq_some_iff.1 h
  rw [has_eq] at h
  split at h
  · cases h
  · rename_i hnew
    refine ⟨field, of_key_iff.1 hfield, ?_, Option.not_isSome_iff_eq_none.1 hnew, shown_take h⟩
    exact (take_is_some_iff d field).1 (Option.isSome_of_mem h)

/-- A new field with a known key and a value that its setting may have is taken over. -/
theorem put_is_some {d : ConfigDraft} {field : ConfigField} {value : Json}
    (hvalue : field.Admits value) (hnew : d.shown? field = none) :
    (d.put (field.key, value)).isSome := by
  rw [put, of_key_iff.2 rfl, Option.bind_some, has_eq, hnew, if_neg (by simp)]
  exact (take_is_some_iff d field).2 hvalue

/-- Fields are taken over only if they have known keys and values that their settings may have.
What has been read afterwards is what the fields say, and is as before where they say nothing. -/
theorem of_puts {fields : List (String × Json)} {d d' : ConfigDraft}
    (hkeys : (fields.map Prod.fst).Nodup) (h : fields.foldlM put d = some d') :
    (∀ key ∈ fields.map Prod.fst, ∃ field : ConfigField, key = field.key) ∧
      (∀ field : ConfigField, ∀ value, (field.key, value) ∈ fields → field.Admits value) ∧
      ∀ field : ConfigField,
        d'.shown? field = (Table.lookup field.key fields).or (d.shown? field) := by
  induction fields generalizing d with
  | nil =>
      obtain rfl := Option.some.inj h
      exact ⟨nofun, nofun, fun _ => rfl⟩
  | cons entry more ih =>
      obtain ⟨key, value⟩ := entry
      rw [List.foldlM_cons, Option.bind_eq_bind, Option.bind_eq_some_iff] at h
      obtain ⟨d₁, hput, hmore⟩ := h
      obtain ⟨hkey, hdistinct⟩ := List.nodup_cons.1 hkeys
      obtain ⟨field, rfl, hvalue, -, hshown⟩ := of_put hput
      obtain ⟨hknown, hadmitted, hfinal⟩ := ih hdistinct hmore
      refine ⟨?_, ?_, fun other => ?_⟩
      · intro key hmem
        rcases List.mem_cons.1 hmem with rfl | hmem
        · exact ⟨field, rfl⟩
        · exact hknown key hmem
      · intro other value' hmem
        rcases List.mem_cons.1 hmem with heq | hmem
        · obtain ⟨hother, rfl⟩ := Prod.mk.inj heq
          obtain rfl := key_injective hother
          exact hvalue
        · exact hadmitted other value' hmem
      · rw [hfinal, hshown, Table.lookup]
        by_cases hother : other = field
        · subst hother
          have hnone : Table.lookup other.key more = none :=
            Option.not_isSome_iff_eq_none.1 fun h => hkey (Table.lookup_is_some_iff.1 h)
          rw [hnone, if_pos rfl, if_pos rfl]
          rfl
        · rw [if_neg hother, if_neg fun h => hother (key_injective h)]

/-- Fields with known keys and values that their settings may have are taken over if they are new
and no two have the same key. -/
theorem puts_is_some {fields : List (String × Json)} {d : ConfigDraft}
    (hkeys : (fields.map Prod.fst).Nodup)
    (hknown : ∀ key ∈ fields.map Prod.fst, ∃ field : ConfigField, key = field.key)
    (hadmitted : ∀ field : ConfigField, ∀ value, (field.key, value) ∈ fields → field.Admits value)
    (hnew : ∀ field : ConfigField, field.key ∈ fields.map Prod.fst → d.shown? field = none) :
    (fields.foldlM put d).isSome := by
  induction fields generalizing d with
  | nil => rfl
  | cons entry more ih =>
      obtain ⟨key, value⟩ := entry
      obtain ⟨field, rfl⟩ := hknown key List.mem_cons_self
      obtain ⟨hkey, hdistinct⟩ := List.nodup_cons.1 hkeys
      have hput := put_is_some (hadmitted field value List.mem_cons_self)
        (hnew field List.mem_cons_self)
      obtain ⟨d₁, hput⟩ := Option.isSome_iff_exists.1 hput
      obtain ⟨first, hfirst, -, -, hshown⟩ := of_put hput
      obtain rfl := key_injective hfirst
      rw [List.foldlM_cons, hput]
      refine ih hdistinct (fun key h => hknown key (List.mem_cons_of_mem _ h))
        (fun other value h => hadmitted other value (List.mem_cons_of_mem _ h)) fun other h => ?_
      have hother : other ≠ field := fun heq => hkey (heq ▸ h)
      rw [hshown, if_neg hother]
      exact hnew other (List.mem_cons_of_mem _ h)

end ConfigDraft

/-! ## Settings -/

namespace Config

/-- The value of a setting. -/
def setting (c : Config) : ConfigField → Json
  | .schemaVersion => .natural c.schemaVersion.toNat
  | .target => .text c.target
  | .markers => .array (c.markers.map .text)
  | .engine => orNull .text c.engine
  | .cleanupTimeout => .natural c.cleanupTimeout.toNat
  | .seed => orNull (fun n => .natural n.toNat) c.seed
  | .entryPoint => orNull .text c.entryPoint
  | .maxSteps => orNull (fun n => .natural n.toNat) c.maxSteps

/-- The fields are those of settings: they have known keys, one of them is the version of the
settings, and each has a value that its setting may have. -/
structure Accepts (fields : List (String × Json)) : Prop where
  known : ∀ key ∈ fields.map Prod.fst, ∃ field : ConfigField, key = field.key
  versioned : ConfigField.schemaVersion.key ∈ fields.map Prod.fst
  admitted : ∀ field : ConfigField, ∀ value, (field.key, value) ∈ fields → field.Admits value

/-- The settings are the defaults with exactly the fields that are given replaced. -/
def Overrides (c : Config) (fields : List (String × Json)) : Prop :=
  ∀ field : ConfigField,
    c.setting field = (Table.lookup field.key fields).getD (standard.setting field)

/-- A document of an object is read as its fields are judged, one after another. -/
theorem read_judged {text : String} {fields : List (String × Json)}
    (h : IsDocument text.toList (.object fields)) :
    (read text.toUTF8).toOption = (fields.foldlM ConfigDraft.put {}).bind ConfigDraft.complete := by
  obtain ⟨before, object, after, htext, hbefore, hafter, hobject⟩ := h
  obtain ⟨inner, rfl, hinner⟩ := hobject.of_object
  have hseries := hinner.imp fun _ _ _ => ConfigDraft.member_judged
  have hfields := read_members_judged hseries (hinner.length_lt (byte '\x7d') (bytesOf after)) {}
    (bytesOf after)
  have hbytes : text.toUTF8.data.toList = bytesOf before ++
      (byte '\x7b' :: (bytesOf inner ++ byte '\x7d' :: bytesOf after)) := by
    rw [← String.ofList_toList (s := text), htext, text_bytes, bytes_of_append, bytes_of_append,
      bracketed_bytes (by decide) (by decide)]
  have hend : skipBlanks (bytesOf after) = [] := by
    have hskip := skip_gap hafter []
    rw [List.append_nil] at hskip
    exact hskip
  rw [read, readFront, hbytes, ConfigField.front, ConfigDraft.head_gap hbefore, head_object]
  show ((ConfigDraft.readFields _ true {} (bytesOf inner ++ byte '\x7d' :: bytesOf after) >>= _) >>=
    _).toOption = _
  rw [ConfigDraft.read_fields_eq, Except.to_option_bind, Except.to_option_bind, hfields]
  cases List.foldlM ConfigDraft.put {} fields with
  | none => rfl
  | some d =>
      rw [Option.map_some, Option.bind_some, Option.bind_some]
      dsimp only
      cases d.complete with
      | none => rfl
      | some c =>
          simp only [pure, Except.pure, Except.toOption, Option.bind_some, hend]

/-- Settings are known by their values. -/
theorem setting_injective {c c' : Config} (h : ∀ field, c.setting field = c'.setting field) :
    c = c' := by
  have hversion := UInt32.toNat_inj.1 (Json.natural.inj (h .schemaVersion))
  have htarget := Json.text.inj (h .target)
  have hmarkers := (List.map_inj_right fun _ _ => Json.text.inj).1 (Json.array.inj (h .markers))
  have hengine := or_null_injective nofun (fun _ _ => Json.text.inj) (h .engine)
  have htimeout := UInt64.toNat_inj.1 (Json.natural.inj (h .cleanupTimeout))
  have hword (n m : UInt64) (heq : Json.natural n.toNat = .natural m.toNat) : n = m :=
    UInt64.toNat_inj.1 (Json.natural.inj heq)
  have hseed := or_null_injective nofun hword (h .seed)
  have hentry := or_null_injective nofun (fun _ _ => Json.text.inj) (h .entryPoint)
  have hsteps := or_null_injective nofun hword (h .maxSteps)
  cases c
  cases c'
  simp_all

/-- Settings have what has been read, and the defaults elsewhere. -/
theorem of_complete {d : ConfigDraft} {c : Config} (h : d.complete = some c)
    (field : ConfigField) : c.setting field = (d.shown? field).getD (standard.setting field) := by
  obtain ⟨n, hn, rfl⟩ := Option.map_eq_some_iff.1 h
  cases field with
  | schemaVersion =>
      rw [ConfigDraft.shown?, hn]
      rfl
  | _ => simp only [setting, ConfigDraft.shown?, Option.getD_map]

/-- Settings are complete exactly if they say their schema. -/
theorem complete_is_some_iff {d : ConfigDraft} :
    d.complete.isSome ↔ (d.shown? .schemaVersion).isSome := by
  rw [ConfigDraft.complete, ConfigDraft.shown?, Option.isSome_map, Option.isSome_map]

/-- There is only one way to override the defaults. -/
theorem Overrides.unique {c c' : Config} {fields : List (String × Json)} (h : c.Overrides fields)
    (h' : c'.Overrides fields) : c = c' :=
  setting_injective fun field => (h field).trans (h' field).symm

/-- Each field shows what the document has under its key. -/
theorem shown_of_puts {fields : List (String × Json)} (hkeys : (fields.map Prod.fst).Nodup)
    {d : ConfigDraft} (hputs : fields.foldlM ConfigDraft.put {} = some d) (field : ConfigField) :
    d.shown? field = Table.lookup field.key fields := by
  obtain ⟨-, -, hshown⟩ := ConfigDraft.of_puts hkeys hputs
  have hnew : ({} : ConfigDraft).shown? field = none := by cases field <;> rfl
  rw [hshown, hnew, Option.or_none]

/-- Settings that come out of fields override the defaults, and the fields are those of settings. -/
theorem of_read {fields : List (String × Json)} (hkeys : (fields.map Prod.fst).Nodup) {c : Config}
    (h : (fields.foldlM ConfigDraft.put {}).bind ConfigDraft.complete = some c) :
    Accepts fields ∧ c.Overrides fields := by
  obtain ⟨d, hputs, hc⟩ := Option.bind_eq_some_iff.1 h
  obtain ⟨hknown, hadmitted, -⟩ := ConfigDraft.of_puts hkeys hputs
  refine ⟨⟨hknown, ?_, hadmitted⟩, fun field => ?_⟩
  · rw [← Table.lookup_is_some_iff, ← shown_of_puts hkeys hputs, ← complete_is_some_iff, hc]
    rfl
  · rw [of_complete hc, shown_of_puts hkeys hputs]

/-- Settings come out of the fields of settings. -/
theorem Accepts.exists_read {fields : List (String × Json)} (h : Accepts fields)
    (hkeys : (fields.map Prod.fst).Nodup) :
    ∃ c, (fields.foldlM ConfigDraft.put {}).bind ConfigDraft.complete = some c := by
  obtain ⟨d, hputs⟩ := Option.isSome_iff_exists.1 <|
    ConfigDraft.puts_is_some hkeys h.known h.admitted (d := {}) fun field _ => by
      cases field <;> rfl
  have hcomplete : d.complete.isSome := by
    rw [complete_is_some_iff, shown_of_puts hkeys hputs, Table.lookup_is_some_iff]
    exact h.versioned
  obtain ⟨c, hc⟩ := Option.isSome_iff_exists.1 hcomplete
  exact ⟨c, by rw [hputs, Option.bind_some, hc]⟩

/-- The settings in a text are those that override the defaults with the fields of its object. -/
theorem read_iff {text : String} {fields : List (String × Json)}
    (htext : IsDocument text.toList (.object fields)) (hkeys : (fields.map Prod.fst).Nodup)
    {c : Config} : read text.toUTF8 = .ok c ↔ Accepts fields ∧ c.Overrides fields := by
  rw [← Except.to_option_eq_some_iff, read_judged htext]
  constructor
  · exact of_read hkeys
  · rintro ⟨haccepts, hoverrides⟩
    obtain ⟨c', hread⟩ := haccepts.exists_read hkeys
    rw [hread, hoverrides.unique (of_read hkeys hread).2]

/-- Whether fields are accepted does not depend on their order. -/
theorem Accepts.perm {fields other : List (String × Json)} (h : fields.Perm other)
    (haccepts : Accepts fields) : Accepts other where
  known key hkey := haccepts.known key ((h.map Prod.fst).mem_iff.2 hkey)
  versioned := (h.map Prod.fst).mem_iff.1 haccepts.versioned
  admitted field value hvalue := haccepts.admitted field value (h.mem_iff.2 hvalue)

/-- What fields set does not depend on their order. -/
theorem Overrides.perm {fields other : List (String × Json)} (h : fields.Perm other)
    (hkeys : (fields.map Prod.fst).Nodup) {c : Config} :
    c.Overrides fields ↔ c.Overrides other := by
  simp only [Overrides, Table.lookup_perm h hkeys]

/-- What comes from a file is what its content holds. -/
theorem load_file {σ : Type} {files : Files (StateM σ)} {path : String} {s s' : σ}
    {document : ByteArray} (h : files.read path s = (.ok document, s')) :
    load files path s = (ofDocument path document, s') := by
  simp only [load, bind, StateT.bind, h]
  rfl

/-- A file loads as settings that it reads as and that pass all checks. -/
theorem load_ok_iff {σ : Type} {files : Files (StateM σ)} {path : String} {s s' : σ}
    {document : ByteArray} (h : files.read path s = (.ok document, s')) {c : Config} :
    load files path s = (.ok c, s') ↔ read document = .ok c ∧ c.check = .ok () := by
  rw [load_file h, Prod.mk.injEq, ofDocument]
  cases read document with
  | error fault => simp
  | ok d =>
      dsimp only
      cases hcheck : d.check with
      | error fault =>
          simp only [and_true, reduceCtorEq, Except.ok.injEq, false_iff, not_and]
          rintro rfl hok
          cases hcheck.symm.trans hok
      | ok =>
          simp only [and_true, Except.ok.injEq]
          exact ⟨fun heq => ⟨heq, heq ▸ hcheck⟩, fun ⟨heq, _⟩ => heq⟩

end Config

/-- Settings are loaded from a file with a JSON object exactly if the fields of the object are
those of settings and the settings that override the defaults with them pass all checks; there is
one such settings for any such fields, and these are the ones that are loaded. The layout of the
text makes no difference, nor does the order of the fields. -/
theorem load_overrides {text : String} {fields : List (String × Json)}
    (htext : IsDocument text.toList (.object fields)) (hkeys : (fields.map Prod.fst).Nodup)
    {σ : Type} {files : Files (StateM σ)} {path : String} {s s' : σ}
    (hfile : files.read path s = (.ok text.toUTF8, s')) :
    (∀ c, Config.load files path s = (.ok c, s') ↔
      Config.Accepts fields ∧ c.Overrides fields ∧ c.check = .ok ()) ∧
    (Config.Accepts fields → ∃ c : Config, c.Overrides fields ∧
      ∀ c' : Config, c'.Overrides fields → c' = c) ∧
    ∀ {text' : String} {fields' : List (String × Json)},
      IsDocument text'.toList (.object fields') → fields'.Perm fields →
      ∀ {τ : Type} {files' : Files (StateM τ)} {path' : String} {t t' : τ},
        files'.read path' t = (.ok text'.toUTF8, t') →
        ∀ c, Config.load files' path' t = (.ok c, t') ↔ Config.load files path s = (.ok c, s') := by
  refine ⟨fun c => ?_, fun haccepts => ?_, ?_⟩
  · rw [Config.load_ok_iff hfile, Config.read_iff htext hkeys, and_assoc]
  · obtain ⟨c, hread⟩ := haccepts.exists_read hkeys
    have hoverrides := (Config.of_read hkeys hread).2
    exact ⟨c, hoverrides, fun c' h => h.unique hoverrides⟩
  · intro text' fields' htext' hperm τ files' path' t t' hfile' c
    have hkeys' : (fields'.map Prod.fst).Nodup := (hperm.map Prod.fst).nodup_iff.2 hkeys
    have haccepts : Config.Accepts fields' ↔ Config.Accepts fields :=
      ⟨.perm hperm, .perm hperm.symm⟩
    rw [Config.load_ok_iff hfile, Config.load_ok_iff hfile', Config.read_iff htext hkeys,
      Config.read_iff htext' hkeys', haccepts, Config.Overrides.perm hperm hkeys']

/-- A file that says nothing but its version and that there is no process to clean up. -/
theorem load_overrides_null :
    let text := "\x7b \"engine_process\" :null,\n\"schema_version\":1\x7d\n"
    let t : Tree := ⟨[(["mockbot.json"], .file text.toUTF8)], []⟩
    Config.load Tree.files "mockbot.json" t = (.ok { Config.standard with engine := none }, t) := by
  intro text t
  let fields : List (String × Json) := [("engine_process", .null), ("schema_version", .natural 1)]
  have htext : IsDocument text.toList (.object fields) := by
    have hline : IsGap ['\n'] := List.forall_mem_singleton.2 (by decide)
    have hrow : IsRow ['1'] := ⟨List.cons_ne_nil _ _, List.forall_mem_singleton.2 rfl⟩
    have hone : IsNumeral ['1'] [1] none none := .parts hrow (fun _ => rfl) .none .none
    have hnull : Member IsText _ ("engine_process", .null) :=
      .field (quote_spelled _) space_gap .nil .null
    have hversion : Member IsText _ ("schema_version", .natural 1) :=
      .field (quote_spelled _) .nil .nil (.numeral false hone)
    refine ⟨[], _, ['\n'], ?_, .nil, hline,
      .object (.items space_gap hnull (.next .nil hline hversion (.close .nil)))⟩
    decide +revert
  have haccepts : Config.Accepts fields := by
    refine ⟨?_, by decide, ?_⟩
    · intro key hkey
      simp only [fields, List.map_cons, List.map_nil, List.mem_cons, List.not_mem_nil,
        or_false] at hkey
      rcases hkey with rfl | rfl
      · exact ⟨.engine, rfl⟩
      · exact ⟨.schemaVersion, rfl⟩
    · intro field value hvalue
      simp only [fields, List.mem_cons, Prod.mk.injEq, List.not_mem_nil, or_false] at hvalue
      rcases hvalue with ⟨hkey, rfl⟩ | ⟨hkey, rfl⟩
      · obtain rfl : field = .engine := ConfigDraft.key_injective hkey
        exact .inl rfl
      · obtain rfl : field = .schemaVersion := ConfigDraft.key_injective hkey
        exact ⟨1, by decide, rfl⟩
  have hoverrides : Config.Overrides { Config.standard with engine := none } fields := by
    intro field
    cases field <;> rfl
  have hfile : Tree.files.read "mockbot.json" t = (.ok text.toUTF8, t) := rfl
  obtain ⟨hload, -, -⟩ := load_overrides htext (by decide) hfile
  exact (hload _).2 ⟨haccepts, hoverrides, rfl⟩

end RobotBench
