import RobotBench.Proofs.Config.Overrides
import RobotBench.Proofs.Json.Document

/-!
# Settings read back

The text of settings is read as these settings, whatever is set and whatever is not: fields
that are left out take the default that stands for nothing set, and the process, whose default
is a name, is written as null. A file with this text gives the settings exactly if they pass all
checks: `settings_read_back`.
-/

namespace RobotBench

open Json

namespace Config

/-- What is written for a setting; nothing for one that is left out. -/
def value? (c : Config) : ConfigField → Option Json
  | .schemaVersion => some (.natural c.schemaVersion.toNat)
  | .target => some (.text c.target)
  | .markers => some (.array (c.markers.map .text))
  | .engine => some (match c.engine with
    | some name => .text name
    | none => .null)
  | .cleanupTimeout => some (.natural c.cleanupTimeout.toNat)
  | .seed => c.seed.map fun n => .natural n.toNat
  | .entryPoint => c.entryPoint.map .text
  | .maxSteps => c.maxSteps.map fun n => .natural n.toNat

/-- The field of a setting. -/
def field? (c : Config) (field : ConfigField) : Option (String × Json) :=
  (c.value? field).map fun value => (field.key, value)

theorem document_eq (c : Config) : c.document = .object (ConfigField.all.filterMap c.field?) := by
  obtain ⟨schemaVersion, target, markers, engine, cleanupTimeout, seed, entryPoint, maxSteps⟩ := c
  cases seed <;> cases entryPoint <;> cases maxSteps <;> rfl

section

variable {c : Config} {field : ConfigField} {value : Json}

/-- What is written for a setting is its value, and what is left out is null. -/
theorem value_setting (c : Config) (field : ConfigField) :
    (c.value? field).getD (standard.setting field) = c.setting field := by
  obtain ⟨schemaVersion, target, markers, engine, cleanupTimeout, seed, entryPoint, maxSteps⟩ := c
  cases field with
  | schemaVersion | target | markers | cleanupTimeout => rfl
  | engine => cases engine <;> rfl
  | seed => cases seed <;> rfl
  | entryPoint => cases entryPoint <;> rfl
  | maxSteps => cases maxSteps <;> rfl

/-- A setting may have what is written for it. -/
theorem value_admitted (h : c.value? field = some value) : field.Admits value := by
  cases field with
  | schemaVersion => exact ⟨_, c.schemaVersion.toNat_lt, (Option.some.inj h).symm⟩
  | target => exact ⟨_, (Option.some.inj h).symm⟩
  | markers => exact ⟨_, (Option.some.inj h).symm⟩
  | engine =>
      obtain rfl := Option.some.inj h
      cases c.engine with
      | none => exact .inl rfl
      | some name => exact .inr ⟨name, rfl⟩
  | cleanupTimeout => exact ⟨_, c.cleanupTimeout.toNat_lt, (Option.some.inj h).symm⟩
  | seed | maxSteps =>
      obtain ⟨n, -, rfl⟩ := Option.map_eq_some_iff.1 h
      exact .inr ⟨_, n.toNat_lt, rfl⟩
  | entryPoint =>
      obtain ⟨name, -, rfl⟩ := Option.map_eq_some_iff.1 h
      exact .inr ⟨name, rfl⟩

/-- The text of a value that a setting may have shows the value. -/
theorem shown_of_admits (h : field.Admits value) : value.shown = value := by
  cases field with
  | schemaVersion | cleanupTimeout =>
      obtain ⟨n, -, rfl⟩ := h
      rfl
  | target =>
      obtain ⟨s, rfl⟩ := h
      rfl
  | markers =>
      obtain ⟨items, rfl⟩ := h
      rw [shown, shown_items_eq, List.map_map]
      rfl
  | engine | entryPoint =>
      rcases h with rfl | ⟨s, rfl⟩
      · rfl
      · rfl
  | seed | maxSteps =>
      rcases h with rfl | ⟨n, -, rfl⟩
      · rfl
      · rfl

/-- The fields that settings are written with. -/
theorem mem_fields_iff {entry : String × Json} : entry ∈ ConfigField.all.filterMap c.field? ↔
    ∃ field : ConfigField, entry.1 = field.key ∧ c.value? field = some entry.2 := by
  obtain ⟨key, value⟩ := entry
  simp only [List.mem_filterMap, field?, Option.map_eq_some_iff, Prod.mk.injEq]
  constructor
  · rintro ⟨field, -, value, hvalue, rfl, rfl⟩
    exact ⟨field, rfl, hvalue⟩
  · rintro ⟨field, rfl, hvalue⟩
    exact ⟨field, by cases field <;> decide, value, hvalue, rfl, rfl⟩

theorem fields_keys (c : Config) : ((ConfigField.all.filterMap c.field?).map Prod.fst).Nodup := by
  have hall : ConfigField.all.Nodup := by decide
  refine List.pairwise_map.2 (List.pairwise_filterMap.2 (hall.imp fun {field other} hne => ?_))
  intro entry hentry entry' hentry' hkey
  obtain ⟨_, -, rfl⟩ := Option.map_eq_some_iff.1 hentry
  obtain ⟨_, -, rfl⟩ := Option.map_eq_some_iff.1 hentry'
  exact hne (ConfigDraft.key_injective hkey)

theorem lookup_fields (c : Config) (field : ConfigField) :
    Table.lookup field.key (ConfigField.all.filterMap c.field?) = c.value? field := by
  ext value
  constructor
  · intro h
    obtain ⟨other, hkey, hvalue⟩ := mem_fields_iff.1 (Table.mem_of_lookup h)
    exact ConfigDraft.key_injective hkey ▸ hvalue
  · intro h
    exact Table.lookup_of_mem (fields_keys c) (mem_fields_iff.2 ⟨field, rfl, h⟩)

/-- Settings are written as a JSON object. -/
theorem text_document (c : Config) :
    IsDocument c.text.toList (.object (ConfigField.all.filterMap c.field?)) := by
  have hshown : c.document.shown = .object (ConfigField.all.filterMap c.field?) := by
    rw [document_eq, shown, shown_fields_eq, List.map_congr_left, List.map_id]
    intro entry hentry
    obtain ⟨field, -, hvalue⟩ := mem_fields_iff.1 hentry
    exact Prod.ext rfl (shown_of_admits (value_admitted hvalue))
  exact hshown ▸ pretty_document c.document

/-- The text of settings is read as these settings. -/
theorem read_text (c : Config) : read c.text.toUTF8 = .ok c := by
  refine (read_iff (text_document c) (fields_keys c)).2 ⟨⟨?_, ?_, ?_⟩, fun field => ?_⟩
  · intro key hkey
    obtain ⟨entry, hentry, rfl⟩ := List.mem_map.1 hkey
    obtain ⟨field, hfield, -⟩ := mem_fields_iff.1 hentry
    exact ⟨field, hfield⟩
  · rw [← Table.lookup_is_some_iff, lookup_fields]
    rfl
  · intro field value hvalue
    obtain ⟨other, hkey, hwritten⟩ := mem_fields_iff.1 hvalue
    obtain rfl := ConfigDraft.key_injective hkey
    exact value_admitted hwritten
  · rw [lookup_fields, value_setting]

end

end Config

/-- The text of settings is read as exactly these settings. A file that holds it gives the
settings if they pass all checks, and otherwise the check that fails. -/
theorem settings_read_back (c : Config) :
    Config.read c.text.toUTF8 = .ok c ∧
      ∀ {σ : Type} (files : Files (StateM σ)) (path : String) (s s' : σ),
        files.read path s = (.ok c.text.toUTF8, s') →
        Config.load files path s =
          (match c.check with
            | .ok () => .ok c
            | .error fault => .error (.refused fault), s') := by
  refine ⟨Config.read_text c, fun files path s s' hread => ?_⟩
  rw [Config.load_file hread, Config.ofDocument, Config.read_text]
  dsimp only
  cases c.check <;> rfl

/-- Settings without a process to clean up, with the greatest seed, in a file of a tree. -/
theorem settings_read_back_null :
    let c := { Config.standard with engine := none, seed := some 18446744073709551615 }
    let t : Tree := ⟨[(["mockbot.json"], .file c.text.toUTF8)], []⟩
    Config.load Tree.files "mockbot.json" t = (.ok c, t) :=
  (settings_read_back { Config.standard with
    engine := none, seed := some 18446744073709551615 }).2 Tree.files "mockbot.json" _ _ rfl

end RobotBench
