import SandboxProfile.Proofs.Config.Origin
import SandboxProfile.Proofs.Text.Utf8

/-!
# Which configuration files are accepted

A configuration file stands for a configuration exactly if it is valid: its known sections are
tables, and the known keys in them, spelt with hyphens or underscores, have values that their
settings can have. Each setting then has the value of its key, or else its default. Nothing else
in the file matters, neither what is unknown nor how a key is spelt nor in which order sections and
keys come, as long as no two keys of a section are spellings of one setting.

What is said here of the values of settings does not mention how they are looked up or checked; the
two are shown to agree.

A file that is not valid is reported, and the report shows the value that is refused. The one
thing that can go wrong there is that the value holds an integer with too many digits to be shown.
A file can give such an integer, for only its decimal numbers are bounded.

## Main definitions

* `Setting.Permits` says which values a setting can have, and `Setting.GivenBy` which value a file
  gives it.
* `SpeltOnce` says that no two keys are spellings of one setting.
* `IsValid` says that a file is valid.
* `SameSettings` says that two files give all settings the same values.
* `MapsSettings` says how the outcome of loading follows from the file.

## Main results

* `Config.exists_ofTable_iff` — the tables that stand for a configuration.
* `Config.ofTable_of_sameSettings` — nothing but sections and settings matters.
* `Config.load_mapsSettings` — loading, and when an invalid file is reported.
-/

namespace SandboxProfile

variable {t : FileTree} {root : Text} {override : Option Text} {entries entries' : Entries}

/-! ### What a file gives -/

/-- The values that a setting can have. -/
def Setting.Permits : Setting → Value → Prop
  | offset, v => ∃ i, v = .int i ∧ 0 ≤ i
  | tabWidth, v => ∃ i, v = .int i ∧ 1 ≤ i
  | useTabs, v => ∃ b, v = .bool b
  | format, v => v = .text "terminal".toList ∨ v = .text "json".toList ∨ v = .text "semantic".toList
  | extensions, v | exclude, v | keywords _, v => ∃ texts : List Text, v = .list (texts.map .text)

/-- The section is there and is no table. -/
def Section.Misused (s : Section) (entries : Entries) : Prop :=
  ∃ v, Value.get? s.name.toList entries = some v ∧ ∀ inner, v ≠ .table inner

/-- A key of the section, spelt with hyphens or underscores, gives the setting the value. -/
def Setting.GivenBy (s : Setting) (entries : Entries) (v : Value) : Prop :=
  ∃ inner key, Value.get? s.home.name.toList entries = some (.table inner) ∧
    (.text key, v) ∈ inner ∧ Text.replaced '-' '_' key = s.name

/-- No two keys of a section are spellings of one setting. -/
def SpeltOnce (entries : Entries) : Prop :=
  ∀ s ∈ Setting.all, ((s.home.entriesIn entries).filter fun e => s.isSpelling e.1).length ≤ 1

instance (entries : Entries) : Decidable (SpeltOnce entries) :=
  inferInstanceAs (Decidable (∀ s ∈ Setting.all, _))

/-- The table of a file is valid. -/
structure IsValid (entries : Entries) : Prop where
  /-- The known sections that are there are tables. -/
  sections : ∀ s : Section, ¬s.Misused entries
  /-- The settings can have the values that they are given. -/
  values : ∀ (s : Setting) (v : Value), s.GivenBy entries v → s.Permits v

/-- Two tables misuse the same sections and give all settings the same values. -/
structure SameSettings (entries entries' : Entries) : Prop where
  /-- The same sections are no tables. -/
  sections : ∀ s : Section, s.Misused entries ↔ s.Misused entries'
  /-- The settings are given the same values. -/
  values : ∀ (s : Setting) (v : Value), s.GivenBy entries v ↔ s.GivenBy entries' v

/-! ### What is looked up and checked -/

/-- A section is looked up as a table unless it is misused. -/
theorem Section.exists_table_iff {s : Section} :
    (∃ inner, s.table entries = .ok inner) ↔ ¬s.Misused entries := by
  rw [Section.table, Section.Misused]
  cases Value.get? s.name.toList entries with
  | none => simp
  | some v => cases v <;> simp

/-- A misused section is reported as such. -/
theorem Section.report_table_eq_error_iff {s : Section} {e : Failure ConfigError} :
    report (s.table entries) = .error e ↔ s.Misused entries ∧ e = .reported (.notTable s) := by
  rw [Section.table, Section.Misused]
  cases Value.get? s.name.toList entries with
  | none => simp [report]
  | some v => cases v <;> simp [report, eq_comm]

/-- The entries of a section are those of its table. -/
theorem Section.mem_entriesIn_iff {s : Section} {e : Value × Value} :
    e ∈ s.entriesIn entries ↔
      ∃ inner, Value.get? s.name.toList entries = some (.table inner) ∧ e ∈ inner := by
  rw [Section.entriesIn, Section.table]
  cases Value.get? s.name.toList entries with
  | none => simp
  | some v => cases v <;> simp

/-- The value that is looked up is the one that is given. -/
theorem Setting.valueIn?_eq_some_iff (hspelt : SpeltOnce entries) {s : Setting} {v : Value} :
    s.valueIn? entries = some v ↔ s.GivenBy entries v := by
  have hgiven : s.GivenBy entries v ↔
      ∃ e ∈ (s.home.entriesIn entries).filter fun e => s.isSpelling e.1, e.2 = v := by
    constructor
    · rintro ⟨inner, key, hinner, hmem, hname⟩
      refine ⟨(.text key, v), List.mem_filter.mpr ⟨?_, decide_eq_true hname⟩, rfl⟩
      exact Section.mem_entriesIn_iff.mpr ⟨inner, hinner, hmem⟩
    · rintro ⟨⟨key, w⟩, he, rfl⟩
      obtain ⟨hmem, hspelling⟩ := List.mem_filter.mp he
      obtain ⟨inner, hinner, hmem⟩ := Section.mem_entriesIn_iff.mp hmem
      cases key with
      | text key => exact ⟨inner, key, hinner, hmem, of_decide_eq_true hspelling⟩
      | _ => cases hspelling
  rw [hgiven, valueIn?, value?]
  have hlength := hspelt s s.mem_all
  generalize ((s.home.entriesIn entries).filter fun e => s.isSpelling e.1) = spelt at hlength
  match spelt, hlength with
  | [], _ => simp
  | [e], _ => simp

/-- The values that are accepted are those that the setting can have. -/
theorem Setting.accepts_iff_permits {s : Setting} {v : Value} :
    s.accepts v = true ↔ s.Permits v := by
  cases s with
  | offset | tabWidth => exact Value.isSome_integerFrom?_iff
  | useTabs => cases v <;> simp [accepts, Permits, Value.truth?]
  | format =>
      cases v with
      | text name =>
          rw [accepts, Value.format?, OutputFormat.ofName?, List.find?_isSome]
          simp [OutputFormat.all, OutputFormat.name, Permits, eq_comm]
      | _ => simp [accepts, Permits, Value.format?]
  | extensions | exclude | keywords => exact Value.isSome_texts?_iff

/-! ### What a table stands for -/

/-- **A table stands for a configuration exactly if it is valid.** -/
theorem Config.exists_ofTable_iff (hspelt : SpeltOnce entries) :
    (∃ c, Config.ofTable entries = .ok c) ↔ IsValid entries := by
  constructor
  · rintro ⟨c, hc⟩
    refine ⟨fun q hq => ?_, fun s v hv => ?_⟩
    · -- Otherwise there would be a first section that is misused.
      have hmisused : ∃ q ∈ Section.all, ¬∃ inner, report (q.table entries) = .ok inner :=
        ⟨q, q.mem_all, fun h =>
          Section.exists_table_iff.mp (report_table_ok_iff.mp h) hq⟩
      obtain ⟨s, e, hfirst⟩ := exists_firstError hmisused
      cases (ofTable_of_section hfirst).symm.trans hc
    · have hvalue := (Setting.valueIn?_eq_some_iff hspelt).mpr hv
      exact Setting.accepts_iff_permits.mp ((Config.valueOf_ofTable hc s).2 v hvalue)
  · intro hvalid
    cases hc : Config.ofTable entries with
    | ok c => exact ⟨c, rfl⟩
    | error e =>
        exfalso
        rcases ofTable_eq_error_iff.mp hc with ⟨s, hfirst⟩ | ⟨s, v, hfirst, -⟩
        · exact hvalid.sections s (Section.report_table_eq_error_iff.mp hfirst.eq_error.2).1
        · have hgiven := (Setting.valueIn?_eq_some_iff hspelt).mp hfirst.value
          have haccepts := Setting.accepts_iff_permits.mpr (hvalid.values s v hgiven)
          rw [hfirst.refused] at haccepts
          cases haccepts

/-- Tables that misuse the same sections and have the same values are refused alike. -/
theorem Config.ofTable_eq_error_of_same {e : Failure ConfigError}
    (hsections : ∀ s : Section, s.Misused entries ↔ s.Misused entries')
    (hvalues : ∀ s : Setting, s.valueIn? entries = s.valueIn? entries')
    (h : Config.ofTable entries = .error e) : Config.ofTable entries' = .error e := by
  rw [ofTable_eq_error_iff] at h ⊢
  rcases h with ⟨s, hfirst⟩ | ⟨s, v, hfirst, hrefusing⟩
  · refine .inl ⟨s, hfirst.congr fun q e => ?_⟩
    rw [Section.report_table_eq_error_iff, Section.report_table_eq_error_iff, hsections]
  · refine .inr ⟨s, v, ⟨fun q => ?_, ?_, ?_, hfirst.refused⟩, hrefusing⟩
    · rw [Section.exists_table_iff, ← hsections, ← Section.exists_table_iff]
      exact hfirst.tables q
    · simpa only [hvalues] using hfirst.before
    · rw [← hvalues, hfirst.value]

/-- **Nothing but sections and settings matters**: tables with the same settings stand for the same
configuration, or are refused alike. -/
theorem Config.ofTable_of_sameSettings (hspelt : SpeltOnce entries) (hspelt' : SpeltOnce entries')
    (h : SameSettings entries entries') : Config.ofTable entries = Config.ofTable entries' := by
  have hvalues (s : Setting) : s.valueIn? entries = s.valueIn? entries' := Option.ext fun v => by
    rw [Setting.valueIn?_eq_some_iff hspelt, Setting.valueIn?_eq_some_iff hspelt', h.values]
  cases hc : Config.ofTable entries with
  | error e => exact (ofTable_eq_error_of_same h.sections hvalues hc).symm
  | ok c =>
      cases hc' : Config.ofTable entries' with
      | error e =>
          have herror := ofTable_eq_error_of_same (fun s => (h.sections s).symm)
            (fun s => (hvalues s).symm) hc'
          cases herror.symm.trans hc
      | ok c' =>
          refine congrArg Except.ok (ext_valueOf fun s => ?_)
          rw [(valueOf_ofTable hc s).1, (valueOf_ofTable hc' s).1, hvalues]

/-! ### Loading -/

/-- The outcome of loading follows from the table of the file. -/
structure MapsSettings (entries : Entries) (outcome : Except (Failure ConfigError) Config) :
    Prop where
  /-- A configuration is loaded exactly if the table is valid. -/
  loads_iff : (∃ c, outcome = .ok c) ↔ IsValid entries
  /-- A setting that is given a value has it. -/
  given : ∀ c, outcome = .ok c → ∀ s v, Setting.GivenBy s entries v → c.valueOf s = v
  /-- A setting that is given none has its default. -/
  absent : ∀ c, outcome = .ok c → ∀ s, (∀ v, ¬Setting.GivenBy s entries v) →
    c.valueOf s = ({} : Config).valueOf s
  /-- Wherever else a file gives the same settings, the outcome is the same. -/
  same : ∀ (t : FileTree) (root : Text) (override : Option Text) (entries' : Entries),
    Config.InUse t root override entries' → SpeltOnce entries' → SameSettings entries entries' →
    Config.load t root override {} = outcome

/-- A table that is not valid is reported. -/
def ReportsInvalid (entries : Entries) (outcome : Except (Failure ConfigError) Config) : Prop :=
  (∃ e, outcome = .error (.reported e)) ↔ ¬IsValid entries

theorem Config.load_empty (huse : Config.InUse t root override entries) :
    Config.load t root override {} = Config.ofTable entries := by
  rw [load_of_inUse huse]
  cases Config.ofTable entries <;> rfl

/-- **Loading follows from the table of the file**, and a table that is not valid is reported
exactly if the first value that is refused can be shown. -/
theorem Config.load_mapsSettings (huse : Config.InUse t root override entries)
    (hspelt : SpeltOnce entries) :
    MapsSettings entries (Config.load t root override {}) ∧
      (ReportsInvalid entries (Config.load t root override {}) ↔
        ¬∃ s v, FirstRefused entries s v ∧ HoldsLong v) := by
  rw [load_empty huse]
  have hok := Config.exists_ofTable_iff hspelt
  refine ⟨⟨hok, fun c hc s v hv => ?_, fun c hc s hnone => ?_, ?_⟩, ?_⟩
  · rw [(valueOf_ofTable hc s).1, (Setting.valueIn?_eq_some_iff hspelt).mpr hv, Option.getD_some]
  · have hvalue : s.valueIn? entries = none := by
      rw [Option.eq_none_iff_forall_ne_some]
      exact fun v hv => hnone v ((Setting.valueIn?_eq_some_iff hspelt).mp hv)
    rw [(valueOf_ofTable hc s).1, hvalue, Option.getD_none]
  · intro t' root' override' entries' huse' hspelt' hsame
    rw [load_empty huse', ofTable_of_sameSettings hspelt hspelt' hsame]
  · have hfault : (∃ s v, FirstRefused entries s v ∧ HoldsLong v) ↔
        Config.ofTable entries = .error (.fault .tooLongToShow) := by
      rw [ofTable_eq_fault_iff, and_iff_right rfl]
    rw [hfault, ReportsInvalid, ← hok]
    cases hc : Config.ofTable entries with
    | ok c => simp
    | error e =>
        cases e with
        | reported e => simp
        | fault f =>
            obtain ⟨rfl, -⟩ := ofTable_eq_fault_iff.mp hc
            simp

/-- A working directory with the configuration file of the given text. -/
def withConfig (text : Text) : FileTree :=
  FileTree.empty.put [Config.fileName] (.file ⟨Utf8.encode text, .full⟩)

/-- The configuration file is in use. -/
theorem inUse_withConfig {text : Text} (h : Toml.read text = .ok entries) :
    Config.InUse (withConfig text) [] none entries := by
  have hfind : ConfigFile.find (withConfig text) [] none =
      .ok (some ⟨Config.fileName, Path.below [] [Config.fileName]⟩) := rfl
  exact .file hfind (ConfigFile.table_eq_ok_iff.mpr ⟨_, text, rfl, Utf8.decode_encode text, h⟩)

/-- A file with an unknown section, an unknown key, and a key that is spelt with a hyphen. -/
def foreignKeys : Text :=
  "[other]\nx = 1\n[indent]\nuse-tabs = true\ncolour = 3\n".toList

/-- The known key is taken over, and the unknown ones are ignored. -/
theorem load_mapsSettings_foreignKeys :
    ∃ entries, (Config.InUse (withConfig foreignKeys) [] none entries ∧ SpeltOnce entries) ∧
      MapsSettings entries (Config.load (withConfig foreignKeys) [] none {}) ∧
      (Config.load (withConfig foreignKeys) [] none {}).toOption.map Config.indent =
        some ⟨2, true, 8⟩ := by
  have hread : (Toml.read foreignKeys).toOption.any (fun entries => decide (SpeltOnce entries)) =
      true := by decide +kernel
  obtain ⟨entries, hentries, hdecide⟩ := exists_eq_ok_of_any hread
  have huse := inUse_withConfig hentries
  have hspelt : SpeltOnce entries := of_decide_eq_true hdecide
  exact ⟨entries, ⟨huse, hspelt⟩, (Config.load_mapsSettings huse hspelt).1, by decide +kernel⟩

/-- A number with too many decimal digits. -/
def longNumber : Nat :=
  Nat.pow 16 3600 - 1

/-- A file that gives a setting the number, with the digits of base sixteen. -/
def longTabs : Text :=
  "[indent]\nuse_tabs = 0x".toList ++ List.replicate 3600 'f' ++ ['\n']

/-- The table of the file. -/
def longTabsTable : Entries :=
  [(.text "indent".toList, .table [(.text "use_tabs".toList, .int longNumber)])]

/-- Does the table give one key of one section an integer, and nothing else? -/
def givesInteger (section_ key : Text) (i : Int) : Entries → Bool
  | [(.text s, .table [(.text k, .int j)])] => s = section_ ∧ k = key ∧ j = i
  | _ => false

/-- There is one such table. -/
theorem eq_of_givesInteger {section_ key : Text} {i : Int}
    (h : givesInteger section_ key i entries = true) :
    entries = [(.text section_, .table [(.text key, .int i)])] := by
  unfold givesInteger at h
  split at h
  · obtain ⟨rfl, rfl, rfl⟩ := of_decide_eq_true h
    rfl
  · cases h

/-- The number is not too long to be read. -/
theorem read_longTabs : Toml.read longTabs = .ok longTabsTable := by
  have hread : (Toml.read longTabs).toOption.any
      (givesInteger "indent".toList "use_tabs".toList longNumber) = true := by decide +kernel
  obtain ⟨entries, hentries, hgives⟩ := exists_eq_ok_of_any hread
  rw [hentries, eq_of_givesInteger hgives, longTabsTable]

/-- The value of the setting is the first that is refused. -/
theorem firstRefused_longTabs : FirstRefused longTabsTable .useTabs (.int longNumber) := by
  refine ⟨fun q => ?_, ⟨[.offset, .tabWidth], _, rfl, fun q hq w hw => ?_⟩, rfl, rfl⟩
  · cases q <;> exact ⟨_, rfl⟩
  · have hnone : ∀ q ∈ [Setting.offset, .tabWidth], q.valueIn? longTabsTable = none := by
      intro q hq
      simp only [List.mem_cons, List.not_mem_nil, or_false] at hq
      rcases hq with rfl | rfl <;> rfl
    cases (hnone q hq).symm.trans hw

/-- The file is not valid, and it is not reported. -/
theorem not_reportsInvalid_longTabs :
    Config.InUse (withConfig longTabs) [] none longTabsTable ∧ SpeltOnce longTabsTable ∧
      ¬ReportsInvalid longTabsTable (Config.load (withConfig longTabs) [] none {}) := by
  have huse := inUse_withConfig read_longTabs
  have hspelt : SpeltOnce longTabsTable := by decide +kernel
  have hlong : HoldsLong (.int longNumber) := .int (by decide +kernel)
  have hfault : Config.ofTable longTabsTable = .error (.fault .tooLongToShow) :=
    ofTable_eq_fault_iff.mpr ⟨rfl, _, _, firstRefused_longTabs, hlong⟩
  refine ⟨huse, hspelt, fun h => ?_⟩
  rw [ReportsInvalid, Config.load_empty huse, ← Config.exists_ofTable_iff hspelt, hfault] at h
  simp at h

end SandboxProfile
