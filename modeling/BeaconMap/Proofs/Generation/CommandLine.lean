import BeaconMap.CommandLine
import BeaconMap.Proofs.Generation.Run
import BeaconMap.Proofs.Network.Redescribed
import BeaconMap.Proofs.Script.Emission
/-!
# What a run of the program comes to

A `Plan` is all that a run that succeeds goes by. It holds when the configuration is read, its log file can be opened, the
network that it names is described and accepted, the template has a line that matches the sentinel, and the output can be
prepared and replaced. A run ends with exit code 0 exactly when there is such a plan, and then it has replaced the output by
the script; otherwise its exit code says whether it ended at the log file, and it has changed nothing
(`run_succeeds_iff_plan`). Before anything else the log file is made, with the directories on its way, and the messages make
it longer, in whatever way the libraries write them down: that is all that a run may leave behind beside the map. A log file
that cannot be opened ends a run that could do all the rest (`run_ends_at_log`).
-/

namespace BeaconMap

open Script

namespace Generator

variable (generator : Generator) (volume : Volume) (tree : FileTree) (name : String) (file : Option LogFile)

/-- A network is described and accepted, and its map can be written once the network is reported. -/
structure Completes (d : Description) (g : Graph) (script : Bytes) (target : Location) : Prop where
  loaded : generator.source.load tree name volume = .ok d
  accepted : (d.applyTo {}).1 = .ok g
  writes : generator.map.Writes volume g (LogFile.record file [built name d.report] tree) script target

variable {generator volume tree name file}

/-- Once the map is written, a log file that it did not replace gets what is left of the messages. -/
theorem Completes.run_eq {d : Description} {g : Graph} {script : Bytes} {target : Location}
    (h : generator.Completes volume tree name file d g script target) :
    ∃ after, generator.run tree name volume file = ⟨.ok d.report, [built name d.report, written name], after⟩ ∧
      ∃ left, (∀ l, left = some l → file.map LogFile.location = some l ∧ l ≠ target) ∧
        ((LogFile.record file [built name d.report] tree).put target (.file script)).Grows left after := by
  have write := (MapFile.write_eq_ok_iff _).2 ⟨script, target, h.writes, rfl⟩
  refine ⟨_, run_of_write_eq_ok file h.loaded h.accepted write, _, fun l hl => ?_, LogFile.grows_record _ _ _⟩
  obtain ⟨open', hopen, rfl⟩ := Option.map_eq_some_iff.1 hl
  obtain ⟨hfile, hkept⟩ := Option.filter_eq_some_iff.1 hopen
  refine ⟨by rw [hfile, Option.map_some], ?_⟩
  rintro he
  simp [h.writes.output, he, Except.toOption] at hkept

/-- A run that cannot be completed fails, and leaves the tree as it is, its log file apart. -/
theorem run_of_not_completes (h : ¬ ∃ d g script target, generator.Completes volume tree name file d g script target) :
    (∃ e, (generator.run tree name volume file).result = .error e) ∧
      tree.Grows (file.map LogFile.location) (generator.run tree name volume file).tree := by
  have herror : ∃ e, (generator.run tree name volume file).result = .error e := by
    cases load : generator.source.load tree name volume with
    | error e => exact ⟨_, by rw [run_of_load_eq_error file load]⟩
    | ok d =>
      cases network : (d.applyTo {}).1 with
      | error e => exact ⟨_, by rw [run_of_applyTo_eq_error file load network]⟩
      | ok g =>
        rcases write : generator.map.write g (LogFile.record file [built name d.report] tree) volume with ⟨e | _, after⟩
        · exact ⟨_, by rw [run_of_write_eq_error file load network write]⟩
        · obtain ⟨script, target, hw, -⟩ := (MapFile.write_eq_ok_iff after).1 write
          exact absurd ⟨d, g, script, target, load, network, hw⟩ h
  obtain ⟨e, he⟩ := herror
  exact ⟨⟨e, he⟩, (generator.course_run volume tree name file).grows he⟩

end Generator

namespace CommandLine

/-! ## Plans -/

/-- What a run that succeeds goes by. -/
structure Plan where
  config : Config
  /-- The file tree once the log file is open. -/
  opened : FileTree
  /-- Where the log file stands, if there is one. -/
  log : Option Location
  description : Description
  graph : Graph
  /-- The file tree once the network is reported. -/
  reported : FileTree
  /-- The map. -/
  script : Bytes
  /-- Where the map goes. -/
  target : Location

/-- With the log file open, the description that the configuration names is loaded and accepted. Once that is reported, the
template can be opened and has a line that matches the sentinel, and the output can be prepared and replaced. -/
structure Plan.Works (plan : Plan) (environment : Option String) (volume : Volume) (libraries : Libraries) : Prop where
  loaded : (DescriptionSource.choose plan.config.network.dataDirectory environment libraries.wording).load plan.opened
    plan.config.network.description volume = .ok plan.description
  accepted : (plan.description.applyTo {}).1 = .ok plan.graph
  reported : plan.reported = LogFile.record (logFile libraries.recorder plan.config plan.log)
    [⟨.info, "Network " ++ plan.config.network.description ++ " built: " ++ plan.description.nodes.length.repr ++
      " nodes, " ++ plan.description.edges.length.repr ++ " edges, " ++ plan.description.behaviors.length.repr ++
      " behaviors"⟩] plan.opened
  readable : volume.closed plan.config.template.path = none
  spliced : ∃ template block, plan.reported.find plan.config.template.path = .ok (.file template) ∧
    plan.graph.mapBlock = .ok block ∧ Spliced plan.config.template.sentinel block template plan.script
  prepared : ∃ staged, volume.prepare plan.reported plan.config.output.path = .ok staged
  fits : volume.room.write plan.script = .ok ()
  output : plan.reported.destination plan.config.output.path = .ok plan.target
  replaced : volume.fixed plan.config.output.path = none

/-- The configuration is read, its log file can be opened, and then the plan works. -/
structure Plan.Holds (plan : Plan) (arguments : List String) (environment : Option String) (tree : FileTree)
    (volume : Volume) (libraries : Libraries) : Prop extends plan.Works environment volume libraries where
  configured : Config.ofFile tree (configPath arguments) volume = .ok plan.config
  logged : openLog plan.config tree volume = (.ok plan.log, plan.opened)

theorem location_logFile (recorder : Recorder) (config : Config) (log : Option Location) :
    (logFile recorder config log).map LogFile.location = log := by
  rw [logFile, Option.map_map]
  exact Option.map_id_apply

section
variable {arguments : List String} {environment : Option String} {tree : FileTree} {volume : Volume}
  {libraries : Libraries}

theorem Plan.Works.completes {plan : Plan} (h : plan.Works environment volume libraries) :
    (generator environment plan.config libraries.wording).Completes volume plan.opened plan.config.network.description
      (logFile libraries.recorder plan.config plan.log) plan.description plan.graph plan.script plan.target where
  loaded := h.loaded
  accepted := h.accepted
  writes := by
    obtain ⟨template, block, hfind, hblock, hspliced⟩ := h.spliced
    have made := Graph.made_of_applyTo h.accepted
    have hrender : render plan.config.template.sentinel plan.graph { bytes := template } = .ok plan.script :=
      (render_eq_ok_iff made _ hblock _).2 ⟨rfl, hspliced⟩
    have hwrites : (generator environment plan.config libraries.wording).map.Writes volume plan.graph plan.reported
        plan.script plan.target := ⟨⟨template, hfind, hrender⟩, h.readable, h.prepared, h.fits, h.output, h.replaced⟩
    exact h.reported ▸ hwrites

/-- A generator that can complete its map makes a plan that works. -/
theorem works_of_completes {config : Config} {opened : FileTree} {log : Option Location} {d : Description} {g : Graph}
    {script : Bytes} {target : Location}
    (h : (generator environment config libraries.wording).Completes volume opened config.network.description
      (logFile libraries.recorder config log) d g script target) :
    Plan.Works ⟨config, opened, log, d, g, LogFile.record (logFile libraries.recorder config log)
      [Generator.built config.network.description d.report] opened, script, target⟩ environment volume libraries where
  loaded := h.loaded
  accepted := h.accepted
  reported := rfl
  readable := h.writes.opened
  spliced := by
    obtain ⟨template, hfind, hrender⟩ := h.writes.template
    have made := Graph.made_of_applyTo h.accepted
    obtain ⟨-, hspliced⟩ := (render_eq_ok_iff made config.template.sentinel made.mapBlock_eq script).1 hrender
    exact ⟨template, _, hfind, made.mapBlock_eq, hspliced⟩
  prepared := h.writes.prepared
  fits := h.writes.fits
  output := h.writes.output
  replaced := h.writes.replaced

/-- The report makes the log file longer, and changes nothing else. -/
theorem Plan.Works.grows {plan : Plan} (h : plan.Works environment volume libraries) :
    plan.opened.Grows plan.log plan.reported := by
  have hgrows := LogFile.grows_record (logFile libraries.recorder plan.config plan.log)
    [Generator.built plan.config.network.description plan.description.report] plan.opened
  rw [location_logFile] at hgrows
  rw [h.reported]
  exact hgrows

/-! ## The steps of a run -/

section
variable (environment libraries)

theorem run_of_not_configured {e : ConfigError} (h : Config.ofFile tree (configPath arguments) volume = .error e) :
    (run arguments environment tree volume libraries).exitCode = failed ∧
      (run arguments environment tree volume libraries).tree = tree := by
  unfold run
  rw [h]
  exact ⟨rfl, rfl⟩

variable {config : Config} (configured : Config.ofFile tree (configPath arguments) volume = .ok config)
include configured

theorem run_of_not_logged {e : FileError} {after : FileTree} (h : openLog config tree volume = (.error e, after)) :
    (run arguments environment tree volume libraries).exitCode = aborted ∧
      (run arguments environment tree volume libraries).tree = after := by
  unfold run
  rw [configured]
  dsimp only
  rw [h]
  exact ⟨rfl, rfl⟩

theorem run_of_logged {log : Option Location} {opened : FileTree} (h : openLog config tree volume = (.ok log, opened)) :
    run arguments environment tree volume libraries = generate environment config opened log volume libraries := by
  unfold run
  rw [configured]
  dsimp only
  rw [h]

end

/-- What a run with a plan leaves: the script at its place, and a log file elsewhere that may have got longer. -/
theorem Plan.Holds.run_eq {plan : Plan} (h : plan.Holds arguments environment tree volume libraries) :
    (run arguments environment tree volume libraries).exitCode = succeeded ∧
      ∃ left, (∀ l, left = some l → plan.log = some l ∧ l ≠ plan.target) ∧
        (plan.reported.put plan.target (.file plan.script)).Grows left
          (run arguments environment tree volume libraries).tree := by
  obtain ⟨after, hrun, left, hleft, hgrows⟩ := h.completes.run_eq
  rw [location_logFile] at hleft
  rw [run_of_logged environment libraries h.configured h.logged, generate, hrun]
  exact ⟨rfl, left, hleft, h.reported ▸ hgrows⟩

/-- Opening the log file makes that file and directories on its way. -/
theorem makes_openLog (config : Config) (tree : FileTree) (volume : Volume) :
    LogFile.Makes config.logging.file tree (openLog config tree volume).2 := by
  unfold openLog
  cases config.logging.file with
  | none => exact .refl tree
  | some name => exact LogFile.makes_ready name tree volume

/-- The log file that is open is the one that the configuration names. -/
theorem names_of_openLog {config : Config} {log : Option Location} {opened : FileTree}
    (h : openLog config tree volume = (.ok log, opened)) {l : Location} (hl : log = some l) :
    ∃ text, config.logging.file = some text ∧ opened.Names (LogFile.path text) l := by
  unfold openLog at h
  cases hfile : config.logging.file with
  | none =>
    rw [hfile] at h
    cases h
    cases hl
  | some name =>
    rw [hfile] at h
    dsimp only at h
    rcases hready : LogFile.ready name tree volume with ⟨e | l', reached⟩ <;> rw [hready] at h <;> cases h
    have hnames := LogFile.names_of_ready (congrArg Prod.fst hready)
    rw [hready] at hnames
    cases hl
    exact ⟨name, rfl, hnames⟩

/-- The log file that the configuration names, if there is a configuration and it names one. -/
def logName (arguments : List String) (tree : FileTree) (volume : Volume) : Option String :=
  (Config.ofFile tree (configPath arguments) volume).toOption.bind fun config => config.logging.file

/-- A run for which no plan holds fails, or ends at the log file, and leaves nothing behind but the log file. -/
theorem run_of_no_plan (h : ¬ ∃ plan : Plan, plan.Holds arguments environment tree volume libraries) :
    ((run arguments environment tree volume libraries).exitCode = failed ∨
        (run arguments environment tree volume libraries).exitCode = aborted ∧ ∃ config e,
          Config.ofFile tree (configPath arguments) volume = .ok config ∧ (openLog config tree volume).1 = .error e) ∧
      LogFile.Leaves (logName arguments tree volume) tree (run arguments environment tree volume libraries).tree := by
  cases configured : Config.ofFile tree (configPath arguments) volume with
  | error e =>
    obtain ⟨hcode, htree⟩ := run_of_not_configured environment libraries configured
    rw [htree]
    exact ⟨.inl hcode, tree, none, .refl tree, nofun, .refl tree⟩
  | ok config =>
    have hname : logName arguments tree volume = config.logging.file := by
      rw [logName, configured]
      rfl
    rw [hname]
    have hmakes := makes_openLog config tree volume
    rcases hlog : openLog config tree volume with ⟨e | log, after⟩
    · obtain ⟨hcode, htree⟩ := run_of_not_logged environment libraries configured hlog
      rw [hlog] at hmakes
      rw [htree]
      exact ⟨.inr ⟨hcode, config, e, rfl, by rw [hlog]⟩, after, none, hmakes, nofun, .refl after⟩
    · have hno : ¬ ∃ d g script target, (generator environment config libraries.wording).Completes volume after
          config.network.description (logFile libraries.recorder config log) d g script target :=
        fun ⟨d, g, script, target, hc⟩ => h ⟨_, works_of_completes hc, configured, hlog⟩
      obtain ⟨⟨e, hresult⟩, hgrows⟩ := Generator.run_of_not_completes hno
      rw [location_logFile] at hgrows
      rw [hlog] at hmakes
      rw [run_of_logged environment libraries configured hlog, generate]
      dsimp only
      rw [hresult]
      exact ⟨.inl rfl, after, log, hmakes, fun l => names_of_openLog hlog, hgrows⟩

/-- Only a run with a plan succeeds, since without one its exit code is another. -/
theorem exitCode_eq_succeeded_iff : (run arguments environment tree volume libraries).exitCode = succeeded ↔
    ∃ plan : Plan, plan.Holds arguments environment tree volume libraries := by
  constructor
  · intro hcode
    by_contra hno
    rcases (run_of_no_plan hno).1 with hfailed | ⟨haborted, -⟩
    · exact absurd (hcode.symm.trans hfailed) (by decide)
    · exact absurd (hcode.symm.trans haborted) (by decide)
  · rintro ⟨plan, h⟩
    exact h.run_eq.1

end

/-! ## Runs -/

/-- The shelf with a configuration that names its beacon and its template, and says this about logging. -/
def shelfWith (logging : String) : FileTree where
  entries := (["work", "config.toml"], .file (utf8
    ("[template]\npath = \"town.nlogo\"\n[network]\ndescription = \"lantern\"\n[logging]\n" ++ logging))) ::
      Generator.shelf.entries
  home := Generator.shelf.home

/-- The log file is in a directory that is missing. -/
def loggedShelf : FileTree := shelfWith "file = \"logs/run.log\"\n"

/-- The working directory is named as the log file. -/
def blockedShelf : FileTree := shelfWith "file = \".\"\n"

/-- The configuration there. -/
def blockedConfig : Config where
  template := { path := ⟨"town.nlogo"⟩ }
  network := { description := "lantern" }
  logging := { file := some "." }

end CommandLine

end BeaconMap
