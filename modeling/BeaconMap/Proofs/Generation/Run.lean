import BeaconMap.Generation.Run
import BeaconMap.Proofs.Generation.LogFile
import BeaconMap.Proofs.Generation.MapFile
import BeaconMap.Proofs.Network.Described
/-!
# A run as one transaction

A run ends at the first of its steps that fails, or at the last one (`Generator.Course`). Its log tells which: it has an
error exactly when the run fails, as its last message, and then the file tree is what it was. The numbers that are
reported are those of the description (`Description.report`).
-/

namespace BeaconMap

/-- How much a description asks for. -/
def Description.report (d : Description) : Report := ⟨d.nodes.length, d.edges.length, d.behaviors.length⟩

/-- A graph that is handed over has as much as was asked for. -/
theorem Description.report_of_applyTo {d : Description} {b : Builder} {g : Graph} (h : (d.applyTo b).1 = .ok g) :
    Report.ofGraph g = d.report := by
  obtain ⟨hf, -, -, b', hh⟩ := holds_of_applyTo h
  have hd := hh.records.describes hf hh.indexed
  have hbehaviors : g.behaviors.size = d.behaviors.length := by
    have hlength := hd.behaviorIds.length_eq
    rwa [IdTable.ids, List.length_map, List.length_map] at hlength
  rw [Report.ofGraph, Description.report, hd.nodeCount, hd.edgeCount, hbehaviors]

/-- The text of what failed in a run. -/
def GenerationError.cause : GenerationError → String
  | .network error => error.message
  | .script error => error.message
  | error => error.message

/-- The message is an error that has a name and a cause in its text. -/
structure LogMessage.Blames (m : LogMessage) (name cause : String) : Prop where
  severity : m.severity = .error
  name : name.toList <:+: m.text.toList
  cause : cause.toList <:+: m.text.toList

/-- A description that is not loaded is named by its path. -/
theorem DescriptionSource.load_eq_error {source : DescriptionSource} {volume : Volume} {tree : FileTree} {name : String}
    {e : GenerationError} (h : source.load tree name volume = .error e) :
    ∃ failure, e = .description (source.path name) failure := by
  rcases (bind_eq_error_iff _ _ _).1 h with h | ⟨text, -, h⟩
  · obtain ⟨error, -, rfl⟩ := (mapError_eq_error_iff _ _ _).1 h
    exact ⟨_, rfl⟩
  · obtain ⟨problem, -, rfl⟩ := (mapError_eq_error_iff _ _ _).1 h
    exact ⟨_, rfl⟩

namespace Generator

/-! ## Messages -/

/-- A text with a name in it and a cause at its end. -/
theorem blames_of_text {m : LogMessage} {before name between cause : String} (hseverity : m.severity = .error)
    (htext : m.text = before ++ name ++ between ++ cause) : m.Blames name cause := by
  refine ⟨hseverity, ⟨before.toList, between.toList ++ cause.toList, ?_⟩, ⟨(before ++ name ++ between).toList, [], ?_⟩⟩
  all_goals simp [htext]

theorem notLoaded_blames (name : String) (e : GenerationError) : (notLoaded name e).Blames name e.message :=
  blames_of_text rfl rfl

theorem rejected_blames (name : String) (e : NetworkError) : (rejected name e).Blames name e.message :=
  blames_of_text rfl rfl

theorem notWritten_blames (name : String) (e : ScriptError) : (notWritten name e).Blames name e.message :=
  blames_of_text rfl rfl

/-! ## The course of a run -/

section
variable {generator : Generator} {volume : Volume} {tree : FileTree} {name : String} (file : Option LogFile)

theorem run_of_load_eq_error {e : GenerationError} (load : generator.source.load tree name volume = .error e) :
    generator.run tree name volume file = ⟨.error e, [notLoaded name e], LogFile.record file [notLoaded name e] tree⟩ := by
  unfold run build
  rw [load]

section
variable {d : Description} (load : generator.source.load tree name volume = .ok d)
include load

theorem run_of_applyTo_eq_error {e : NetworkError} (network : (d.applyTo {}).1 = .error e) :
    generator.run tree name volume file =
      ⟨.error (.network e), [rejected name e], LogFile.record file [rejected name e] tree⟩ := by
  unfold run build
  rw [load]
  dsimp only
  rw [network]

variable {g : Graph} (network : (d.applyTo {}).1 = .ok g) {after : FileTree}
include network

theorem build_of_applyTo_eq_ok : generator.build tree name volume = (.ok g, [built name d.report]) := by
  unfold build
  rw [load]
  dsimp only
  rw [network, ← d.report_of_applyTo network]

theorem run_of_write_eq_error {e : ScriptError}
    (write : generator.map.write g (LogFile.record file [built name d.report] tree) volume = (.error e, after)) :
    generator.run tree name volume file =
      ⟨.error (.script e), [built name d.report, notWritten name e],
        LogFile.record file [built name d.report, notWritten name e] (LogFile.record file [built name d.report] tree)⟩ := by
  obtain rfl := MapFile.write_error write
  unfold run
  rw [build_of_applyTo_eq_ok load network]
  dsimp only
  rw [write]
  rfl

theorem run_of_write_eq_ok
    (write : generator.map.write g (LogFile.record file [built name d.report] tree) volume = (.ok (), after)) :
    generator.run tree name volume file =
      ⟨.ok d.report, [built name d.report, written name],
        LogFile.record (generator.unreplaced (LogFile.record file [built name d.report] tree) file)
          [built name d.report, written name] after⟩ := by
  unfold run
  rw [build_of_applyTo_eq_ok load network]
  dsimp only
  rw [write, d.report_of_applyTo network]
  rfl

end

variable (generator volume tree name)

/-- What can come of a run, but for what it leaves in the file tree when it is done: it ends where its description is not
loaded, where the network is refused, where the map is not written, or when all is done. -/
inductive Course : Outcome → Prop
  | unloaded (e : GenerationError) (failure : LoadFailure) (he : e = .description (generator.source.path name) failure) :
      Course ⟨.error e, [notLoaded name e], LogFile.record file [notLoaded name e] tree⟩
  | refused (e : NetworkError) :
      Course ⟨.error (.network e), [rejected name e], LogFile.record file [rejected name e] tree⟩
  | unwritten (report : Report) (e : ScriptError) :
      Course ⟨.error (.script e), [built name report, notWritten name e],
        LogFile.record file [built name report, notWritten name e] (LogFile.record file [built name report] tree)⟩
  | done (report : Report) (after : FileTree) : Course ⟨.ok report, [built name report, written name], after⟩

theorem course_run : generator.Course tree name file (generator.run tree name volume file) := by
  cases load : generator.source.load tree name volume with
  | error e =>
    obtain ⟨failure, he⟩ := DescriptionSource.load_eq_error load
    exact run_of_load_eq_error file load ▸ .unloaded e failure he
  | ok d =>
    cases network : (d.applyTo {}).1 with
    | error e => exact run_of_applyTo_eq_error file load network ▸ .refused e
    | ok g =>
      rcases write : generator.map.write g (LogFile.record file [built name d.report] tree) volume with ⟨e | _, after⟩
      · exact run_of_write_eq_error file load network write ▸ .unwritten _ e
      · exact run_of_write_eq_ok file load network write ▸ .done _ _

variable {generator volume tree name file} {outcome : Outcome} (h : generator.Course tree name file outcome)
include h

/-- A run that fails says so last. -/
theorem Course.blames {e : GenerationError} (he : outcome.result = .error e) :
    ∃ before m, outcome.log = before ++ [m] ∧ m.Blames name e.cause ∧ ∀ earlier ∈ before, earlier.severity = .info := by
  cases h with
  | unloaded e failure hdescription =>
    cases he
    subst hdescription
    exact ⟨[], _, rfl, notLoaded_blames name _, List.forall_mem_nil _⟩
  | refused e =>
    cases he
    exact ⟨[], _, rfl, rejected_blames name e, List.forall_mem_nil _⟩
  | unwritten report e =>
    cases he
    exact ⟨[built name report], _, rfl, notWritten_blames name e, List.forall_mem_singleton.2 rfl⟩
  | done report after => cases he

/-- A run that fails leaves the file tree as it was, its log file apart. -/
theorem Course.grows {e : GenerationError} (he : outcome.result = .error e) :
    tree.Grows (file.map LogFile.location) outcome.tree := by
  cases h with
  | unloaded e failure hdescription => exact LogFile.grows_record file _ tree
  | refused e => exact LogFile.grows_record file _ tree
  | unwritten report e => exact (LogFile.grows_record file _ tree).trans (LogFile.grows_record file _ _)
  | done report after => cases he

/-- A run has an error in its log exactly when it fails. -/
theorem Course.error_logged_iff :
    (∃ m ∈ outcome.log, m.severity = .error) ↔ ∃ e, outcome.result = .error e := by
  cases h <;> simp [notLoaded, rejected, built, notWritten, written]

omit h in
/-- Without a log file a run that fails leaves the file tree as it was. -/
theorem Course.tree_eq (h : generator.Course tree name none outcome) {e : GenerationError}
    (he : outcome.result = .error e) : outcome.tree = tree := by
  cases h with
  | done report after => cases he
  | _ => rfl

end

/-- A run is one transaction with a faithful log. Where the description is not loaded or the network is refused, that is
all that is logged, with the cause. A network that is accepted is reported with the numbers of its description, and then
that the map was written, or why it was not. A run has an error in its log exactly when it fails; then that is the last
message, it names the description and the cause, and the file tree is what it was. -/
theorem run_transaction (generator : Generator) (volume : Volume) (tree : FileTree) (name : String) :
    (∀ e, generator.source.load tree name volume = .error e →
      ∃ failure, e = .description (generator.source.path name) failure ∧
        generator.run tree name volume = ⟨.error e,
          [⟨.error, "Failed to load " ++ name ++ ": " ++
            ("Description error: " ++ (generator.source.path name).text ++ ": " ++ failure.message)⟩], tree⟩) ∧
    (∀ d, generator.source.load tree name volume = .ok d →
      (∀ e, (d.applyTo {}).1 = .error e →
        generator.run tree name volume = ⟨.error (.network e),
          [⟨.error, "Network " ++ name ++ " rejected: " ++ e.message⟩], tree⟩) ∧
      ∀ g, (d.applyTo {}).1 = .ok g →
        (∀ e, (generator.map.write g tree volume).1 = .error e →
          generator.run tree name volume = ⟨.error (.script e),
            [⟨.info, "Network " ++ name ++ " built: " ++ d.nodes.length.repr ++ " nodes, " ++ d.edges.length.repr ++
                " edges, " ++ d.behaviors.length.repr ++ " behaviors"⟩,
              ⟨.error, "Map generation for " ++ name ++ " failed: " ++ e.message⟩], tree⟩) ∧
        ((generator.map.write g tree volume).1 = .ok () → ∃ after,
          generator.run tree name volume = ⟨.ok ⟨d.nodes.length, d.edges.length, d.behaviors.length⟩,
            [⟨.info, "Network " ++ name ++ " built: " ++ d.nodes.length.repr ++ " nodes, " ++ d.edges.length.repr ++
                " edges, " ++ d.behaviors.length.repr ++ " behaviors"⟩,
              ⟨.info, "Map for " ++ name ++ " written"⟩], after⟩ ∧
            generator.map.Written g tree after)) ∧
    ((∃ m ∈ (generator.run tree name volume).log, m.severity = .error) ↔
      ∃ e, (generator.run tree name volume).result = .error e) ∧
    ∀ e, (generator.run tree name volume).result = .error e →
      (generator.run tree name volume).tree = tree ∧
        ∃ before m, (generator.run tree name volume).log = before ++ [m] ∧ m.Blames name e.cause ∧
          ∀ earlier ∈ before, earlier.severity = .info := by
  have course := generator.course_run volume tree name none
  refine ⟨fun e load => ?_, ?_, course.error_logged_iff, fun e he => ⟨course.tree_eq he, course.blames he⟩⟩
  · obtain ⟨failure, rfl⟩ := DescriptionSource.load_eq_error load
    exact ⟨failure, rfl, run_of_load_eq_error none load⟩
  · refine fun d load => ⟨fun e => run_of_applyTo_eq_error none load, fun g network => ⟨fun e he => ?_, fun hok => ?_⟩⟩
    · exact run_of_write_eq_error none load network (Prod.ext he rfl)
    · have write : generator.map.write g tree volume = (.ok (), (generator.map.write g tree volume).2) := Prod.ext hok rfl
      exact ⟨_, run_of_write_eq_ok none load network write, MapFile.written_of_write write⟩

/-- A beacon alone. -/
def lantern : Description where
  behaviors := []
  nodes := [⟨.regular, ⟨⟨3, 4⟩, 1, 1, 1, .zero false⟩, .zero false, 0, []⟩]
  edges := []

/-- A working directory with the description of the beacon and with a template for its map. -/
def shelf : FileTree where
  entries := (["work", "lantern"], .file (utf8 "[[nodes]]\nx = 3\ny = 4\nwidth = 1\nheight = 1\nradius = 1\n")) ::
    MapFile.desk.entries
  home := MapFile.desk.home

/-- The generator of the map there. -/
def ofShelf : Generator := ⟨.choose none none, MapFile.ofTown "map.nlogo" defaultSentinel⟩

/-- The map of the beacon is written. A description that is missing is reported, and nothing else happens. -/
theorem run_transaction_shelf :
    (∃ g after, ofShelf.run shelf "lantern" = ⟨.ok ⟨1, 0, 0⟩,
        [⟨.info, "Network lantern built: 1 nodes, 0 edges, 0 behaviors"⟩, ⟨.info, "Map for lantern written"⟩], after⟩ ∧
      ofShelf.map.Written g shelf after) ∧
    ofShelf.run shelf "torch" = ⟨.error (.description ⟨"./torch"⟩ (.unreadable .noSuchFile)),
      [⟨.error, "Failed to load torch: Description error: ./torch: No such file or directory (os error 2)"⟩], shelf⟩ := by
  constructor
  · obtain ⟨-, hloaded, -⟩ := run_transaction ofShelf .unlimited shelf "lantern"
    have load : ofShelf.source.load shelf "lantern" = .ok lantern := by decide +kernel
    have hwrite : (lantern.applyTo {}).1.toOption.map (fun g => (ofShelf.map.write g shelf).1) = some (.ok ()) := by
      decide +kernel
    cases network : (lantern.applyTo {}).1 with
    | error e =>
      rw [network] at hwrite
      cases hwrite
    | ok g =>
      rw [network] at hwrite
      obtain ⟨after, hrun, hwritten⟩ := ((hloaded lantern load).2 g network).2 (Option.some.inj hwrite)
      exact ⟨g, after, hrun, hwritten⟩
  · obtain ⟨hfailed, -⟩ := run_transaction ofShelf .unlimited shelf "torch"
    obtain ⟨failure, he, hrun⟩ := hfailed (.description ⟨"./torch"⟩ (.unreadable .noSuchFile)) (by decide +kernel)
    obtain ⟨-, rfl⟩ := GenerationError.description.inj he
    exact hrun

end Generator

end BeaconMap
