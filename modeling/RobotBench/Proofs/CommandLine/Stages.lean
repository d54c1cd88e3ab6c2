import RobotBench.CommandLine.Command
import RobotBench.Proofs.Files.Written

/-!
# The stages of a command on a tree of files

What each stage of a command comes to when its files are a tree: the settings that it finds,
the payload of the control program, and the report that it writes. A stage that fails before
anything is written leaves the tree as it was.
-/

namespace RobotBench

/-! ## Settings -/

namespace Config

/-- The settings in a file of a tree. -/
def inFile (t : Tree) (path : String) : Except LoadFault Config :=
  match t.read path with
  | .error fault => .error (.unreadable path fault)
  | .ok document => ofDocument path document

/-- The settings that a command finds: those of the file it is told, or of the standard file if
that is there, or the defaults. -/
def found (t : Tree) (told : Option String) (directory : String) : Except LoadFault Config :=
  match told with
  | some path => inFile t path
  | none =>
    if t.isFile (standardPath directory) then inFile t (standardPath directory) else .ok standard

/-- Settings in a file are loaded and the tree is left alone. -/
theorem load_tree (t : Tree) (path : String) : load Tree.files path t = (inFile t path, t) := by
  simp only [load, bind, StateT.bind, Tree.files, inFile]
  cases t.read path <;> rfl

/-- Settings are found and the tree is left alone. -/
theorem resolve_tree (t : Tree) (told : Option String) (directory : String) :
    resolve Tree.files told directory t = (found t told directory, t) := by
  cases told with
  | some path => exact load_tree t path
  | none =>
      show (if t.isFile (standardPath directory) = true then
        load Tree.files (standardPath directory) else pure (.ok standard)) t = _
      rw [found]
      split
      · exact load_tree t _
      · rfl

/-- Settings that pass all checks have proper markers, as far as the pattern of these compiles. -/
theorem markers_of_check {c : Config} (h : c.check = .ok ()) (compile : Pattern.Compiler) :
    Markers.ofList c.markers compile =
      ((compile (Pattern.anyOf c.markers)).mapError .badPattern).map fun _ => ⟨c.markers⟩ := by
  have hfault : c.fault? = none := by
    rw [check] at h
    cases hfault : c.fault? with
    | none => rfl
    | some fault =>
        rw [hfault] at h
        cases h
  unfold fault? at hfault
  split at hfault
  · cases hfault
  split at hfault
  · cases hfault
  split at hfault
  · cases hfault
  rename_i hmarkers
  split at hfault
  · cases hfault
  rename_i hblank
  have hnone : c.markers.find? Text.allBlank = none := by
    rw [List.find?_eq_none]
    intro marker hmarker hall
    exact hblank (List.any_eq_true.2 ⟨marker, hmarker, hall⟩)
  rw [Markers.ofList, if_neg hmarkers, hnone]
  dsimp only
  cases compile (Pattern.anyOf c.markers) <;> rfl

end Config

namespace CommandLine

/-- Settings with what the command line of a run sets in place of what they say. -/
def RunOptions.override (o : RunOptions) (c : Config) : Config :=
  { c with
    target := o.source.target.getD c.target
    seed := o.seed.or c.seed
    maxSteps := o.maxSteps.or c.maxSteps }

/-! ## Stages in a row -/

section

variable {α β : Type}

/-- The stage turns one tree into another and ends with the result. -/
def Stage.Yields (x : Stage (StateM Tree) α) (t : Tree) (result : Except Messages α)
    (t' : Tree) : Prop :=
  x.run t = (result, t')

/-- The stage turns one tree into another and fails with messages. -/
def Stage.Fails (x : Stage (StateM Tree) α) (t t' : Tree) : Prop :=
  ∃ messages, messages ≠ [] ∧ x.Yields t (.error messages) t'

/-- After a stage that passes comes the next one. -/
theorem Stage.Yields.bind {x : Stage (StateM Tree) α} {f : α → Stage (StateM Tree) β}
    {t t' t'' : Tree} {a : α} {result : Except Messages β} (hx : x.Yields t (.ok a) t')
    (hf : (f a).Yields t' result t'') : (x >>= f).Yields t result t'' := by
  rw [Yields, ExceptT.run_bind]
  show StateT.bind x.run _ t = _
  rw [StateT.bind, hx]
  exact hf

/-- After a stage that fails comes none. -/
theorem Stage.Yields.stop {x : Stage (StateM Tree) α} (f : α → Stage (StateM Tree) β)
    {t t' : Tree} {messages : Messages} (hx : x.Yields t (.error messages) t') :
    (x >>= f).Yields t (.error messages) t' := by
  rw [Yields, ExceptT.run_bind]
  show StateT.bind x.run _ t = _
  rw [StateT.bind, hx]
  rfl

/-- After a stage that passes the next one fails. -/
theorem Stage.Yields.fails {x : Stage (StateM Tree) α} {f : α → Stage (StateM Tree) β}
    {t t' t'' : Tree} {a : α} (hx : x.Yields t (.ok a) t') (hf : (f a).Fails t' t'') :
    (x >>= f).Fails t t'' := by
  obtain ⟨messages, hmessages, hfails⟩ := hf
  exact ⟨messages, hmessages, hx.bind hfails⟩

/-- A stage fails where its first part does. -/
theorem Stage.Fails.stop {x : Stage (StateM Tree) α} (f : α → Stage (StateM Tree) β) {t t' : Tree}
    (hx : x.Fails t t') : (x >>= f).Fails t t' := by
  obtain ⟨messages, hmessages, hfails⟩ := hx
  exact ⟨messages, hmessages, hfails.stop f⟩

/-- A stage that is nothing but a value passes. -/
theorem Stage.yields_pure (a : α) (t : Tree) :
    (pure a : Stage (StateM Tree) α).Yields t (.ok a) t := rfl

/-- A stage that is nothing but messages fails with them. -/
theorem Stage.yields_throw (messages : Messages) (t : Tree) :
    (throw messages : Stage (StateM Tree) α).Yields t (.error messages) t := rfl

/-- Whatever the surroundings answer, a stage that asks them passes. -/
theorem Stage.yields_ask {x : StateM Tree α} {t t' : Tree} {a : α} (h : x t = (a, t')) :
    (Stage.ask x).Yields t (.ok a) t' := by
  show (Except.ok <$> x) t = _
  show StateT.map _ x t = _
  rw [StateT.map, h]
  rfl

/-- A result that is there passes. -/
theorem Stage.yields_of_ok {ε : Type} (messages : ε → Messages) (a : α) (t : Tree) :
    (Stage.ofExcept messages (.ok a) : Stage (StateM Tree) α).Yields t (.ok a) t := rfl

/-- An error is a failure with its messages. -/
theorem Stage.yields_of_error {ε : Type} (messages : ε → Messages) (e : ε) (t : Tree) :
    (Stage.ofExcept messages (.error e) : Stage (StateM Tree) α).Yields t
      (.error (messages e)) t := rfl

end

/-! ## The stages of a run -/

section

variable {around : Surroundings (StateM Tree)} {t : Tree} {o : RunOptions}

/-- The settings that are found get the target that the command line tells. -/
theorem settings_ok (hfiles : around.files = Tree.files) {found : Config}
    (h : Config.found t o.source.config around.directory = .ok found) :
    (settings around o.source).Yields t
      (.ok { found with target := o.source.target.getD found.target }) t := by
  rw [settings, hfiles]
  refine (Stage.yields_ask (Config.resolve_tree t o.source.config around.directory)).bind ?_
  rw [h]
  rfl

/-- Without settings there is no command. -/
theorem settings_error (hfiles : around.files = Tree.files) {fault : LoadFault}
    (h : Config.found t o.source.config around.directory = .error fault) :
    (settings around o.source).Fails t t := by
  refine ⟨fault.messages, by cases fault <;> exact List.cons_ne_nil _ _, ?_⟩
  rw [settings, hfiles]
  refine (Stage.yields_ask (Config.resolve_tree t o.source.config around.directory)).bind ?_
  rw [h]
  rfl

/-- The settings of a run are those that it finds, with what the command line sets, provided
that these pass all checks. -/
theorem run_settings_ok (hfiles : around.files = Tree.files) {found : Config}
    (h : Config.found t o.source.config around.directory = .ok found)
    (hcheck : (o.override found).check = .ok ()) :
    (runSettings around o).Yields t (.ok (o.override found)) t := by
  refine (settings_ok hfiles h).bind ?_
  show (checked (o.override found)).Yields t _ t
  rw [checked, hcheck]
  rfl

/-- A run has no settings when none are found or a check fails. -/
theorem run_settings_error (hfiles : around.files = Tree.files)
    (h : ∀ found, Config.found t o.source.config around.directory = .ok found →
      (o.override found).check ≠ .ok ()) : (runSettings around o).Fails t t := by
  cases hfound : Config.found t o.source.config around.directory with
  | error fault => exact (settings_error hfiles hfound).stop _
  | ok found =>
      cases hcheck : (o.override found).check with
      | ok _ => exact absurd hcheck (h found hfound)
      | error fault =>
          refine ⟨[fault.message], List.cons_ne_nil _ _, (settings_ok hfiles hfound).bind ?_⟩
          show (checked (o.override found)).Yields t _ t
          rw [checked, hcheck]
          rfl

/-- The payload of a program under the markers of the settings. -/
def payloadOf (c : Config) (source : String) : Payload :=
  (Program.ofText source).payload ⟨c.markers⟩

/-- Settings that pass all checks and whose pattern compiles lead to the payload of a program
that is a text. -/
theorem load_payload_ok (hfiles : around.files = Tree.files) {c : Config}
    (hcheck : c.check = .ok ()) (hcompile : around.compile (Pattern.anyOf c.markers) = .ok ())
    {content : ByteArray} {source : String} (hread : t.read c.target = .ok content)
    (htext : String.fromUTF8? content = some source) :
    (loadPayload around c).Yields t (.ok (payloadOf c source)) t := by
  have hfile : Tree.files.read c.target t = (.ok content, t) := congrArg (·, t) hread
  rw [loadPayload, hfiles, Config.markers_of_check hcheck, hcompile]
  refine (Stage.yields_of_ok _ _ t).bind ((Stage.yields_ask hfile).bind
    ((Stage.yields_of_ok _ _ t).bind ?_))
  rw [htext]
  rfl

/-- Settings that pass all checks lead to no payload when their pattern does not compile. -/
theorem load_payload_refused {c : Config} (hcheck : c.check = .ok ()) {cause : String}
    (hcompile : around.compile (Pattern.anyOf c.markers) = .error cause) :
    (loadPayload around c).Yields t (.error (MarkerFault.badPattern cause).messages) t := by
  rw [loadPayload, Config.markers_of_check hcheck, hcompile]
  exact (Stage.yields_of_error _ (MarkerFault.badPattern cause) t).stop _

/-- Settings that pass all checks lead to a payload unless their pattern does not compile or the
program is no text. -/
theorem load_payload_error (hfiles : around.files = Tree.files) {c : Config}
    (hcheck : c.check = .ok ())
    (h : around.compile (Pattern.anyOf c.markers) = .ok () → ∀ content source,
      t.read c.target = .ok content → String.fromUTF8? content ≠ some source) :
    (loadPayload around c).Fails t t := by
  cases hcompile : around.compile (Pattern.anyOf c.markers) with
  | error cause => exact ⟨_, List.cons_ne_nil _ _, load_payload_refused hcheck hcompile⟩
  | ok _ =>
      rw [loadPayload, hfiles, Config.markers_of_check hcheck, hcompile]
      refine (Stage.yields_of_ok _ _ t).fails ?_
      cases hread : t.read c.target with
      | error fault =>
          have hfile : Tree.files.read c.target t = (.error fault, t) := congrArg (·, t) hread
          exact ⟨_, List.cons_ne_nil _ _, (Stage.yields_ask hfile).bind
            ((Stage.yields_of_error _ _ t).stop _)⟩
      | ok content =>
          have hfile : Tree.files.read c.target t = (.ok content, t) := congrArg (·, t) hread
          refine ⟨[s!"read target program {c.target}", FileFault.notText.message],
            List.cons_ne_nil _ _, (Stage.yields_ask hfile).bind
              ((Stage.yields_of_ok _ _ t).bind ?_)⟩
          cases htext : String.fromUTF8? content with
          | some source => exact absurd htext (h hcompile content source hread)
          | none => exact Stage.yields_throw _ t

/-- What a run does before its payload is run. -/
def preparation {m : Type → Type} [Monad m] (around : Surroundings m) (o : RunOptions) :
    Stage m (Config × Payload) := do
  let config ← runSettings around o
  if !o.skipCleanup then cleanUpEngine around config
  return (config, ← loadPayload around config)

/-- A run is prepared, and then its payload is run. -/
theorem run_command_eq {m : Type → Type} [Monad m] (around : Surroundings m) (o : RunOptions) :
    runCommand around o = (do
      match ← (preparation around o).run with
      | .error messages => return ⟨1, .empty, failureNotice messages⟩
      | .ok (config, payload) =>
        match ← runPayload around o config payload with
        | (output, .ok ()) => return ⟨0, output, ""⟩
        | (output, .error messages) => return ⟨1, output, failureNotice messages⟩) := rfl

/-- Cleaning up is passed over where there is nothing to clean up. -/
theorem clean_up_skipped {α : Type} {c : Config} (h : o.skipCleanup = true ∨ c.engine = none)
    {f : PUnit → Stage (StateM Tree) α} {result : Except Messages α} {t' : Tree}
    (hf : (f ⟨⟩).Yields t result t') :
    Stage.Yields (if (!o.skipCleanup) = true then
      cleanUpEngine around c >>= f else f ⟨⟩) t result t' := by
  split
  · rename_i hskip
    rcases h with h | h
    · rw [h] at hskip
      cases hskip
    · refine Stage.Yields.bind (a := ⟨⟩) ?_ hf
      rw [cleanUpEngine, h]
      rfl
  · exact hf

/-- Everything that comes before the payload of a run passes: settings are found and pass all
checks with what the command line sets, the pattern of their markers compiles, and the control
program is a text. -/
structure Launches (compile : Pattern.Compiler) (t : Tree) (directory : String) (o : RunOptions)
    (c : Config) (source : String) : Prop where
  settings : ∃ found, Config.found t o.source.config directory = .ok found ∧ c = o.override found
  checked : c.check = .ok ()
  compiles : compile (Pattern.anyOf c.markers) = .ok ()
  program : ∃ content, t.read c.target = .ok content ∧ String.fromUTF8? content = some source

/-- No process is to be cleaned up. -/
def IsQuiet (t : Tree) (directory : String) (o : RunOptions) : Prop :=
  ∀ found, Config.found t o.source.config directory = .ok found →
    o.skipCleanup = true ∨ found.engine = none

/-- When everything before it passes, a run comes to its payload. -/
theorem preparation_ok (hfiles : around.files = Tree.files)
    (hquiet : IsQuiet t around.directory o) {c : Config} {source : String}
    (h : Launches around.compile t around.directory o c source) :
    (preparation around o).Yields t (.ok (c, payloadOf c source)) t := by
  obtain ⟨⟨found, hfound, rfl⟩, hcheck, hcompile, content, hread, htext⟩ := h
  refine (run_settings_ok hfiles hfound hcheck).bind (clean_up_skipped (hquiet found hfound) ?_)
  exact (load_payload_ok hfiles hcheck hcompile hread htext).bind (Stage.yields_pure _ t)

/-- Settings that pass all checks do not bring a run to its payload when their pattern does not
compile. -/
theorem preparation_refused (hfiles : around.files = Tree.files)
    (hquiet : IsQuiet t around.directory o) {found : Config}
    (hfound : Config.found t o.source.config around.directory = .ok found)
    (hcheck : (o.override found).check = .ok ()) {cause : String}
    (hcompile : around.compile (Pattern.anyOf (o.override found).markers) = .error cause) :
    (preparation around o).Yields t (.error (MarkerFault.badPattern cause).messages) t :=
  (run_settings_ok hfiles hfound hcheck).bind
    (clean_up_skipped (hquiet found hfound) ((load_payload_refused hcheck hcompile).stop _))

/-- When something before it fails, a run does not come to its payload. -/
theorem preparation_error (hfiles : around.files = Tree.files)
    (hquiet : IsQuiet t around.directory o)
    (h : ∀ c source, ¬ Launches around.compile t around.directory o c source) :
    (preparation around o).Fails t t := by
  by_cases hsettings : ∃ found, Config.found t o.source.config around.directory = .ok found ∧
      (o.override found).check = .ok ()
  · obtain ⟨found, hfound, hcheck⟩ := hsettings
    obtain ⟨messages, hmessages, hload⟩ := load_payload_error hfiles hcheck
      fun hcompile content source hread htext =>
        h _ source ⟨⟨found, hfound, rfl⟩, hcheck, hcompile, content, hread, htext⟩
    exact ⟨messages, hmessages, (run_settings_ok hfiles hfound hcheck).bind
      (clean_up_skipped (hquiet found hfound) (hload.stop _))⟩
  · exact (run_settings_error hfiles fun found hfound hcheck =>
      hsettings ⟨found, hfound, hcheck⟩).stop _

end

end CommandLine

/-- The tree with the directory of a path, which is made where it is missing. -/
def Tree.withParent (t : Tree) (path : String) : Except FileFault Tree :=
  match Path.parent? path with
  | some parent => t.createDirectory parent
  | none => .ok t

/-- A report can be written under the path. -/
def Tree.Writable (t : Tree) (path : String) : Prop :=
  ∃ ready content written, t.withParent path = .ok ready ∧ ready.write path content = .ok written

/-! ## Reports -/

namespace CommandLine

section

variable {around : Surroundings (StateM Tree)} {t : Tree} {path : String}

/-- The last step of writing a report. -/
def writeText (path text : String) : Stage (StateM Tree) Unit := do
  Stage.ofExcept (fun fault : FileFault => [s!"write {path}", fault.message])
    (← Stage.ask (Tree.files.write path text.toUTF8))

/-- A change that succeeds is made. -/
theorem change_ok (act : Tree → Except FileFault Tree) {t' : Tree} (h : act t = .ok t') :
    Tree.change act t = (.ok (), t') := by
  rw [Tree.change, h]

/-- A change that fails leaves the tree as it was. -/
theorem change_error (act : Tree → Except FileFault Tree) {fault : FileFault}
    (h : act t = .error fault) : Tree.change act t = (.error fault, t) := by
  rw [Tree.change, h]

/-- A text that can be written is written. -/
theorem write_text_ok {text : String} {t' : Tree} (h : t.write path text.toUTF8 = .ok t') :
    (writeText path text).Yields t (.ok ()) t' := by
  have hfile : Tree.files.write path text.toUTF8 t = (.ok (), t') :=
    change_ok (fun t => t.write path text.toUTF8) h
  exact (Stage.yields_ask hfile).bind rfl

/-- A text that cannot be written leaves the tree as it was. -/
theorem write_text_error {text : String} {fault : FileFault}
    (h : t.write path text.toUTF8 = .error fault) :
    (writeText path text).Yields t (.error [s!"write {path}", fault.message]) t := by
  have hfile : Tree.files.write path text.toUTF8 t = (.error fault, t) :=
    change_error (fun t => t.write path text.toUTF8) h
  exact (Stage.yields_ask hfile).bind rfl

/-- A directory that can be made is made. -/
theorem create_directory_ok {parent : String} {ready : Tree}
    (h : t.createDirectory parent = .ok ready) :
    (Stage.ask (Tree.files.createDirectory parent)).Yields t (.ok (.ok ())) ready :=
  Stage.yields_ask (change_ok (fun t => t.createDirectory parent) h)

/-- A directory that cannot be made leaves the tree as it was. -/
theorem create_directory_error {parent : String} {fault : FileFault}
    (h : t.createDirectory parent = .error fault) :
    (Stage.ask (Tree.files.createDirectory parent)).Yields t (.ok (.error fault)) t :=
  Stage.yields_ask (change_error (fun t => t.createDirectory parent) h)

/-- A report that can be written is written. -/
theorem write_report_ok (hfiles : around.files = Tree.files) (h : t.Writable path)
    (text : String) : ∃ t', (writeReport around path text).Yields t (.ok ()) t' ∧
      t'.read path = .ok text.toUTF8 := by
  obtain ⟨ready, content, written, hready, hwritten⟩ := h
  obtain ⟨t', ht'⟩ := Tree.write_any hwritten text.toUTF8
  refine ⟨t', ?_, Tree.read_of_write ht'⟩
  rw [Tree.withParent] at hready
  rw [writeReport, hfiles]
  cases hparent : Path.parent? path with
  | none =>
      rw [hparent] at hready
      obtain rfl := Except.ok.inj hready
      exact write_text_ok ht'
  | some parent =>
      rw [hparent] at hready
      exact (create_directory_ok hready).bind ((Stage.yields_of_ok _ _ ready).bind
        (write_text_ok ht'))

/-- A report that cannot be written fails with messages. -/
theorem write_report_error (hfiles : around.files = Tree.files) (h : ¬ t.Writable path)
    (text : String) : ∃ t', (writeReport around path text).Fails t t' := by
  have hwrite {ready : Tree} (hready : t.withParent path = .ok ready) :
      (writeText path text).Fails ready ready := by
    cases hwritten : ready.write path text.toUTF8 with
    | error fault => exact ⟨_, List.cons_ne_nil _ _, write_text_error hwritten⟩
    | ok written => exact absurd ⟨ready, _, written, hready, hwritten⟩ h
  rw [writeReport, hfiles]
  cases hparent : Path.parent? path with
  | none => exact ⟨t, hwrite (by rw [Tree.withParent, hparent])⟩
  | some parent =>
      cases hready : t.createDirectory parent with
      | error fault =>
          exact ⟨t, _, List.cons_ne_nil _ _, (create_directory_error hready).bind
            ((Stage.yields_of_error _ _ t).stop _)⟩
      | ok ready =>
          have hfails := hwrite (by rw [Tree.withParent, hparent]; exact hready)
          exact ⟨ready, (create_directory_ok hready).fails
            ((Stage.yields_of_ok _ _ ready).fails hfails)⟩

end

end CommandLine

end RobotBench
