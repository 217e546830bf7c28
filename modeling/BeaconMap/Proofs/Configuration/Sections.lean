import BeaconMap.Configuration.Reader
import BeaconMap.Proofs.Document.Parts
import BeaconMap.Proofs.Toml.Keys
import BeaconMap.Proofs.Toml.Trees
/-!
# Sections are read apart

A configuration is read from the entries of a document section by section (`Config.ReadApart`). It can be read exactly
when each of its sections can be read from a document that holds nothing else; what is read as a section depends on this
section alone; a section that is left out has its default, and so has a field that is left out of a section, unless the
section requires it. Keys that neither the document nor a section knows make no difference at all.
-/

namespace BeaconMap

open Record

/-- The value without the keys that are not among these, when it is a table. -/
def TomlValue.restrict (keys : List String) : TomlValue → TomlValue
  | .table origin entries => .table origin (entries.filter fun entry => entry.1 ∈ keys)
  | value => value

theorem TomlValue.record_restrict {α : Type} {r : Record TomlValue α} {keys : List String}
    (hkeys : ∀ f ∈ r.fields, f.name ∈ keys) (value : TomlValue) : record r (value.restrict keys) = record r value := by
  cases value with
  | table origin entries =>
    rw [restrict, record, record, readEntries_eq, readEntries_eq]
    exact ofEntries_known hkeys entries
  | _ => rfl

namespace Config

open ConfigSchema

/-- Reads a configuration from the entries of a document. -/
def ofEntries (entries : TomlEntries) : Except Problem Config := TomlValue.readEntries (config TomlValue.format) entries

theorem ofToml_eq {text : String} {entries : TomlEntries} (h : TomlEntries.ofText? text = some entries) :
    ofToml text = ofEntries entries := by
  rw [ofToml, Record.ofToml, h, ofEntries]

theorem ofEntries_eq (entries : TomlEntries) :
    ofEntries entries = (config TomlValue.format).ofEntries (fun _ => .ok ()) entries :=
  TomlValue.readEntries_eq _ _

/-- The names of the sections. -/
def sectionNames : List String := ["template", "output", "network", "logging"]

/-- The keys that a section knows. -/
def sectionKeys : String → List String
  | "template" => ["path", "sentinel"]
  | "output" => ["path"]
  | "network" => ["data_dir", "description"]
  | "logging" => ["level", "file"]
  | _ => []

/-- The entries of a document without all keys that are unknown to it or to a section. -/
def known (entries : TomlEntries) : TomlEntries :=
  (entries.filter fun entry => entry.1 ∈ sectionNames).map fun entry => (entry.1, entry.2.restrict (sectionKeys entry.1))

/-- The configuration with one of its sections, and with the defaults in the place of the others. -/
def keep (name : String) (c : Config) : Config where
  template := if name = "template" then c.template else {}
  output := if name = "output" then c.output else {}
  network := if name = "network" then c.network else {}
  logging := if name = "logging" then c.logging else {}

theorem name_mem : ∀ f ∈ (config TomlValue.format).fields, f.name ∈ sectionNames := by simp [config, sectionNames]

theorem not_required : ∀ f ∈ (config TomlValue.format).fields, f.required = false := by simp [config]

theorem ofEntries_known (entries : TomlEntries) : ofEntries (known entries) = ofEntries entries := by
  have hread : ∀ f ∈ (config TomlValue.format).fields, ∀ value,
      f.read (value.restrict (sectionKeys f.name)) = f.read value := by
    intro f hf
    fin_cases hf
    all_goals exact TomlValue.record_restrict (by
      simp [sectionKeys, ConfigSchema.template, ConfigSchema.output, ConfigSchema.network, ConfigSchema.logging])
  rw [ofEntries_eq, ofEntries_eq, ← Record.ofEntries_known name_mem entries]
  exact ofEntries_map (fun name => TomlValue.restrict (sectionKeys name)) hread _

theorem keeps_keep {name : String} (h : name ∈ sectionNames) : (config TomlValue.format).Keeps name (keep name) := by
  intro f hf
  fin_cases h <;> fin_cases hf <;> intro value target <;> rfl

/-- A document can be read when each of its sections can be. -/
theorem exists_ofEntries_iff (entries : TomlEntries) :
    (∃ c, ofEntries entries = .ok c) ↔
      ∀ name ∈ sectionNames, name ∈ entries.map Prod.fst → ∃ c, ofEntries (only name entries) = .ok c := by
  have hiff (entries : TomlEntries) : (∃ c, ofEntries entries = .ok c) ↔
      ∀ e ∈ entries, ∃ change, (config TomlValue.format).effect (fun _ => .ok ()) e = some change := by
    simp only [ofEntries_eq, Record.exists_ofEntries_iff, and_iff_left_iff_imp]
    intro _ f hf hrequired
    rw [not_required f hf] at hrequired
    cases hrequired
  simp only [hiff, only, List.mem_filter, decide_eq_true_eq]
  constructor
  · exact fun h name _ _ e he => h e he.1
  · intro h e he
    by_cases hname : e.1 ∈ sectionNames
    · exact h e.1 hname (List.mem_map_of_mem he) e ⟨he, rfl⟩
    · exact ⟨id, by rw [effect, field?_eq_none name_mem hname]; rfl⟩

/-- What a document holds of one section is what this section is read as, apart from the others. -/
theorem ofEntries_only {entries : TomlEntries} {c : Config} (h : ofEntries entries = .ok c) {name : String}
    (hname : name ∈ sectionNames) : ofEntries (only name entries) = .ok (c.keep name) := by
  rw [ofEntries_eq] at h ⊢
  refine (keeps_keep hname).ofEntries_only ?_ not_required h
  fin_cases hname <;> rfl

/-! ## One section -/

section
variable {inner : TomlEntries}

theorem template_of_readEntries {s : TemplateConfig}
    (h : TomlValue.readEntries (ConfigSchema.template TomlValue.format) inner = .ok s) :
    "path" ∈ inner.map Prod.fst ∧ ("sentinel" ∉ inner.map Prod.fst → s.sentinel = defaultSentinel) := by
  rw [TomlValue.readEntries_eq] at h
  refine ⟨(ofEntries_eq_ok_iff.1 h).2 _ List.mem_cons_self rfl, fun hname => ?_⟩
  refine ofEntries_absent (fun f hf hne value target => ?_) hname h
  fin_cases hf
  · rfl
  · exact absurd rfl hne

theorem output_of_readEntries {s : OutputConfig}
    (h : TomlValue.readEntries (ConfigSchema.output TomlValue.format) inner = .ok s) : "path" ∈ inner.map Prod.fst := by
  rw [TomlValue.readEntries_eq] at h
  exact (ofEntries_eq_ok_iff.1 h).2 _ List.mem_cons_self rfl

theorem network_of_readEntries {s : NetworkConfig}
    (h : TomlValue.readEntries (ConfigSchema.network TomlValue.format) inner = .ok s) :
    "description" ∈ inner.map Prod.fst ∧ ("data_dir" ∉ inner.map Prod.fst → s.dataDirectory = none) := by
  rw [TomlValue.readEntries_eq] at h
  refine ⟨(ofEntries_eq_ok_iff.1 h).2 _ (List.mem_cons_of_mem _ List.mem_cons_self) rfl, fun hname => ?_⟩
  refine ofEntries_absent (fun f hf hne value target => ?_) hname h
  fin_cases hf
  · exact absurd rfl hne
  · rfl

theorem logging_of_readEntries {s : LoggingConfig}
    (h : TomlValue.readEntries (ConfigSchema.logging TomlValue.format) inner = .ok s) :
    ("level" ∉ inner.map Prod.fst → s.level = .info) ∧ ("file" ∉ inner.map Prod.fst → s.file = none) := by
  rw [TomlValue.readEntries_eq] at h
  constructor <;> intro hname <;> refine ofEntries_absent (fun f hf hne value target => ?_) hname h <;> fin_cases hf
  · exact absurd rfl hne
  · rfl
  · rfl
  · exact absurd rfl hne

end

/-! ## Documents -/

/-- Section by section, how a configuration is read from a document. -/
structure ReadApart (entries : TomlEntries) : Prop where
  /-- Every section that is there can be read from a document of its own. -/
  succeeds : (∃ c, ofEntries entries = .ok c) ↔
    ∀ name ∈ sectionNames, name ∈ entries.map Prod.fst → ∃ c, ofEntries (only name entries) = .ok c
  /-- What is read from that document is this section, and the defaults of the others. -/
  values : ∀ c, ofEntries entries = .ok c → ∀ name ∈ sectionNames, ofEntries (only name entries) = .ok (c.keep name)
  absent : ∀ c, ofEntries entries = .ok c →
    ("template" ∉ entries.map Prod.fst → c.template = {}) ∧ ("output" ∉ entries.map Prod.fst → c.output = {}) ∧
      ("network" ∉ entries.map Prod.fst → c.network = {}) ∧ ("logging" ∉ entries.map Prod.fst → c.logging = {})
  template : ∀ c, ofEntries entries = .ok c → ∀ origin inner, ("template", .table origin inner) ∈ entries →
    "path" ∈ inner.map Prod.fst ∧ ("sentinel" ∉ inner.map Prod.fst → c.template.sentinel = defaultSentinel)
  output : ∀ c, ofEntries entries = .ok c → ∀ origin inner, ("output", .table origin inner) ∈ entries →
    "path" ∈ inner.map Prod.fst
  network : ∀ c, ofEntries entries = .ok c → ∀ origin inner, ("network", .table origin inner) ∈ entries →
    "description" ∈ inner.map Prod.fst ∧ ("data_dir" ∉ inner.map Prod.fst → c.network.dataDirectory = none)
  logging : ∀ c, ofEntries entries = .ok c → ∀ origin inner, ("logging", .table origin inner) ∈ entries →
    ("level" ∉ inner.map Prod.fst → c.logging.level = .info) ∧ ("file" ∉ inner.map Prod.fst → c.logging.file = none)
  /-- Documents that say the same under the keys that are known are read alike. -/
  unknown : ∀ other, known other = known entries → ofEntries other = ofEntries entries

section
variable {entries : TomlEntries} (hn : (entries.map Prod.fst).Nodup) {c : Config} (h : ofEntries entries = .ok c)
include h

theorem absent_of_ofEntries :
    ("template" ∉ entries.map Prod.fst → c.template = {}) ∧ ("output" ∉ entries.map Prod.fst → c.output = {}) ∧
      ("network" ∉ entries.map Prod.fst → c.network = {}) ∧ ("logging" ∉ entries.map Prod.fst → c.logging = {}) := by
  rw [ofEntries_eq] at h
  refine ⟨fun hname => ?_, fun hname => ?_, fun hname => ?_, fun hname => ?_⟩ <;>
    refine ofEntries_absent (fun f hf hne value target => ?_) hname h <;> fin_cases hf <;>
      first | rfl | exact absurd rfl hne

include hn

theorem read_section {name : String} (hname : name ∈ sectionNames) {value : TomlValue} (hmem : (name, value) ∈ entries)
    {f : Field TomlValue Config} (hf : (config TomlValue.format).field? name = some f) :
    ∃ read, f.read value = .ok read ∧ f.put read {} = c.keep name := by
  have honly := ofEntries_only h hname
  rw [only_eq_singleton hn hmem, ofEntries_eq] at honly
  exact read_of_ofEntries_singleton honly hf

end

theorem readApart {entries : TomlEntries} (hn : (entries.map Prod.fst).Nodup) : ReadApart entries where
  succeeds := exists_ofEntries_iff entries
  values _ h _ hname := ofEntries_only h hname
  absent _ h := absent_of_ofEntries h
  template c h origin inner hmem := by
    obtain ⟨s, hread, hput⟩ := read_section hn h (by decide) hmem rfl
    have hs : s = c.template := congrArg Config.template hput
    exact template_of_readEntries (hs ▸ hread)
  output c h origin inner hmem := by
    obtain ⟨s, hread, hput⟩ := read_section hn h (by decide) hmem rfl
    exact output_of_readEntries hread
  network c h origin inner hmem := by
    obtain ⟨s, hread, hput⟩ := read_section hn h (by decide) hmem rfl
    have hs : s = c.network := congrArg Config.network hput
    exact network_of_readEntries (hs ▸ hread)
  logging c h origin inner hmem := by
    obtain ⟨s, hread, hput⟩ := read_section hn h (by decide) hmem rfl
    have hs : s = c.logging := congrArg Config.logging hput
    exact logging_of_readEntries (hs ▸ hread)
  unknown other hother := by rw [← ofEntries_known other, hother, ofEntries_known]

/-- The configuration of a text that is well-formed is read from the entries of its document, section by section. -/
theorem ofToml_readApart {text : String} {entries : TomlEntries} (h : TomlEntries.ofText? text = some entries) :
    ofToml text = ofEntries entries ∧ ReadApart entries :=
  ⟨ofToml_eq h, readApart (TomlEntries.nodup_of_ofText? h)⟩

/-- Two sections, with a key that the first does not know, and a table that is no section. -/
def cityText : String :=
  "[template]\npath = \"city.nlogo\"\nowner = 3\n[legend]\npath = 1\n[logging]\nlevel = \"debug\"\n"

theorem ofToml_readApart_city :
    ∃ entries, TomlEntries.ofText? cityText = some entries ∧ (ofToml cityText = ofEntries entries ∧ ReadApart entries) ∧
      entries.map Prod.fst = ["template", "legend", "logging"] ∧
      (ofToml cityText).toOption = some { template := { path := ⟨"city.nlogo"⟩ }, logging := { level := .debug } } := by
  obtain ⟨entries, h⟩ : ∃ entries, TomlEntries.ofText? cityText = some entries :=
    Option.isSome_iff_exists.1 (by decide +kernel)
  have hnames : (TomlEntries.ofText? cityText).map (List.map Prod.fst) = some ["template", "legend", "logging"] := by
    decide +kernel
  rw [h, Option.map_some] at hnames
  exact ⟨entries, h, ofToml_readApart h, Option.some.inj hnames, by decide +kernel⟩

end Config

end BeaconMap
