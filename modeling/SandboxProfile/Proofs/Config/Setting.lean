import SandboxProfile.Config.Setting
import SandboxProfile.Proofs.Except
import SandboxProfile.Proofs.Value.Literal

/-!
# Settings that are refused

Whether the table of a file stands for a configuration is decided section by section and then
setting by setting, and the first one that is refused is the one in the message. The checks do
not need the results of each other, so they can be told apart from what they read. A setting
whose value is refused and cannot be shown is the only fault.

## Main definitions

* `Setting.accepts` says which values a setting can have.
* `Setting.valueIn?` is the value of a setting in the table of a file.
* `FirstRefused` is the first setting whose value is refused.

## Main results

* `ofTable_eq_error_iff` — a table is refused for its first section that is no table, or else
  for its first setting whose value is refused.
* `ofTable_eq_fault_iff` — when that value cannot be shown.
-/

namespace SandboxProfile

/-! ### Checks -/

/-- All sections, in the order in which they are checked. -/
def Section.all : List Section :=
  [indent, output, files, keywords]

/-- The table of a section; it is empty if the section is no table. -/
def Section.entriesIn (s : Section) (entries : Entries) : Entries :=
  match s.table entries with
  | .ok inner => inner
  | .error _ => []

namespace Setting

/-- All settings, in the order in which they are checked. -/
def all : List Setting :=
  [offset, tabWidth, useTabs, format, extensions, exclude] ++ Category.all.map keywords

/-- Can the setting have the value? -/
def accepts : Setting → Value → Bool
  | offset, v => (v.integerFrom? 0).isSome
  | tabWidth, v => (v.integerFrom? 1).isSome
  | useTabs, v => v.truth?.isSome
  | format, v => v.format?.isSome
  | extensions, v | exclude, v | keywords _, v => v.texts?.isSome

/-- The value of a setting in the table of a file. -/
def valueIn? (s : Setting) (entries : Entries) : Option Value :=
  s.value? (s.home.entriesIn entries)

/-- The failure for a value that a setting cannot have. -/
def refusing (s : Setting) (v : Value) : Failure ConfigError :=
  match v.literal? with
  | some literal => .reported (.invalid s literal)
  | none => .fault .tooLongToShow

/-- Check the value of a setting in the table of its section. -/
def check (s : Setting) (section_ : Entries) : Except (Failure ConfigError) Unit :=
  match s.value? section_ with
  | none => .ok ()
  | some v => if s.accepts v then .ok () else .error (s.refusing v)

/-- Reading a setting checks it. -/
theorem finished_read {α : Type} {s : Setting} {accept : Value → Option α} (fallback : α)
    (h : ∀ v, s.accepts v = (accept v).isSome) (entries : Entries) :
    finished (s.read accept fallback entries) = s.check entries := by
  rw [read, check]
  cases s.value? entries with
  | none => rfl
  | some v =>
      dsimp only
      rw [h v, refusing]
      cases accept v with
      | some a => rfl
      | none => cases v.literal? <;> rfl

/-- A setting is refused if it has a value that it cannot have. -/
theorem check_eq_error_iff {s : Setting} {entries : Entries} {e : Failure ConfigError} :
    s.check entries = .error e ↔
      ∃ v, s.value? entries = some v ∧ s.accepts v = false ∧ s.refusing v = e := by
  rw [check]
  cases s.value? entries with
  | none => simp
  | some v => cases haccepts : s.accepts v <;> simp [haccepts]

/-- A setting is not refused if it can have its value. -/
theorem check_ok_iff {s : Setting} {entries : Entries} :
    (∃ u, s.check entries = .ok u) ↔ ∀ v, s.value? entries = some v → s.accepts v = true := by
  rw [check]
  cases s.value? entries with
  | none => simp
  | some v => cases haccepts : s.accepts v <;> simp [haccepts]

end Setting

/-! ### Tables -/

/-- A section that is a table has its entries. -/
theorem Section.entriesIn_eq {s : Section} {entries inner : Entries}
    (h : s.table entries = .ok inner) : s.entriesIn entries = inner := by
  rw [entriesIn, h]

/-- Every section is checked. -/
theorem Section.mem_all (s : Section) : s ∈ all := by
  cases s <;> decide

/-- Every setting is checked. -/
theorem Setting.mem_all (s : Setting) : s ∈ all := by
  cases s with
  | keywords c => cases c <;> decide
  | offset | tabWidth | useTabs | format | extensions | exclude => decide

/-- Reading keywords checks the lists of all categories. -/
theorem finished_readKeywords (entries : Entries) :
    finished (readKeywords entries) =
      forM Category.all fun c => (Setting.keywords c).check entries := by
  have hcheck (c : Category) : (Setting.keywords c).check entries =
      finished ((Setting.keywords c).read Value.texts? [] entries) :=
    (Setting.finished_read [] (fun _ => rfl) entries).symm
  simp only [Category.all, List.forM_cons, List.forM_nil, hcheck, bind_finished]
  simp only [readKeywords, finished_bind, finished_pure]

/-- The settings are checked one after another, and the keywords last. -/
theorem forM_check (entries : Entries) :
    (forM Setting.all fun s => s.check (s.home.entriesIn entries)) = (do
      Setting.offset.check (Section.indent.entriesIn entries)
      Setting.tabWidth.check (Section.indent.entriesIn entries)
      Setting.useTabs.check (Section.indent.entriesIn entries)
      Setting.format.check (Section.output.entriesIn entries)
      Setting.extensions.check (Section.files.entriesIn entries)
      Setting.exclude.check (Section.files.entriesIn entries)
      finished (readKeywords (Section.keywords.entriesIn entries))) := by
  rw [finished_readKeywords]
  rfl

/-- Where all sections are tables, the settings are checked. -/
theorem finished_ofTable {entries indent output files keywords : Entries}
    (hindent : Section.indent.table entries = .ok indent)
    (houtput : Section.output.table entries = .ok output)
    (hfiles : Section.files.table entries = .ok files)
    (hkeywords : Section.keywords.table entries = .ok keywords) :
    finished (Config.ofTable entries) =
      forM Setting.all fun s => s.check (s.home.entriesIn entries) := by
  have hoffset := Setting.finished_read (s := .offset) ({} : Config).indent.offset fun _ => rfl
  have htabWidth := Setting.finished_read (s := .tabWidth) ({} : Config).indent.tabWidth fun _ => rfl
  have huseTabs := Setting.finished_read (s := .useTabs) ({} : Config).indent.useTabs fun _ => rfl
  have hformat := Setting.finished_read (s := .format) ({} : Config).format fun _ => rfl
  have hextensions :=
    Setting.finished_read (s := .extensions) ({} : Config).extensions fun _ => rfl
  have hexclude := Setting.finished_read (s := .exclude) ({} : Config).exclude fun _ => rfl
  rw [forM_check, Section.entriesIn_eq hindent, Section.entriesIn_eq houtput,
    Section.entriesIn_eq hfiles, Section.entriesIn_eq hkeywords, ← hoffset, ← htabWidth,
    ← huseTabs, ← hformat, ← hextensions, ← hexclude, Config.ofTable, hindent, houtput, hfiles,
    hkeywords]
  simp only [bind_finished, finished_bind, finished_pure, finished_eq_bind (readKeywords _)]
  rfl

/-- Where a section is no table, the first such section is refused. -/
theorem ofTable_of_section {entries : Entries} {s : Section} {e : Failure ConfigError}
    (h : FirstError (fun s => report (s.table entries)) Section.all s e) :
    Config.ofTable entries = .error e := by
  rw [Config.ofTable]
  rcases firstError_cons.mp h with ⟨rfl, hindent⟩ | ⟨⟨indent, hindent⟩, h⟩
  · rw [hindent]
    rfl
  rcases firstError_cons.mp h with ⟨rfl, houtput⟩ | ⟨⟨output, houtput⟩, h⟩
  · rw [hindent, houtput]
    rfl
  rcases firstError_cons.mp h with ⟨rfl, hfiles⟩ | ⟨⟨files, hfiles⟩, h⟩
  · rw [hindent, houtput, hfiles]
    rfl
  rcases firstError_cons.mp h with ⟨rfl, hkeywords⟩ | ⟨-, h⟩
  · rw [hindent, houtput, hfiles, hkeywords]
    rfl
  cases h

/-- A section that is reported as no table is none. -/
theorem report_table_ok_iff {s : Section} {entries : Entries} :
    (∃ inner, report (s.table entries) = .ok inner) ↔ ∃ inner, s.table entries = .ok inner := by
  cases s.table entries with
  | ok inner => exact ⟨fun _ => ⟨inner, rfl⟩, fun _ => ⟨inner, rfl⟩⟩
  | error e => exact ⟨fun ⟨_, h⟩ => (nomatch h), fun ⟨_, h⟩ => nomatch h⟩

/-- All sections are tables, and the value of the setting is the first one that its setting
cannot have. -/
structure FirstRefused (entries : Entries) (s : Setting) (v : Value) : Prop where
  /-- All sections are tables. -/
  tables : ∀ q : Section, ∃ inner, q.table entries = .ok inner
  /-- The settings before this one can have their values. -/
  before : ∃ before after, Setting.all = before ++ s :: after ∧
    ∀ q ∈ before, ∀ w, q.valueIn? entries = some w → q.accepts w = true
  /-- The setting has the value. -/
  value : s.valueIn? entries = some v
  /-- It cannot have it. -/
  refused : s.accepts v = false

/-- The first setting that is refused is the first whose check fails. -/
theorem exists_firstRefused_iff {entries : Entries} {e : Failure ConfigError}
    (htables : ∀ q : Section, ∃ inner, q.table entries = .ok inner) :
    (∃ s, FirstError (fun s => s.check (s.home.entriesIn entries)) Setting.all s e) ↔
      ∃ s v, FirstRefused entries s v ∧ s.refusing v = e := by
  constructor
  · rintro ⟨s, h⟩
    obtain ⟨before, after, hall, hbefore, hfails⟩ := firstError_iff_append.mp h
    obtain ⟨v, hv, hrefused, rfl⟩ := Setting.check_eq_error_iff.mp hfails
    refine ⟨s, v, ⟨htables, ⟨before, after, hall, fun q hq => ?_⟩, hv, hrefused⟩, rfl⟩
    exact Setting.check_ok_iff.mp (hbefore q hq)
  · rintro ⟨s, v, h, rfl⟩
    obtain ⟨before, after, hall, hbefore⟩ := h.before
    refine ⟨s, firstError_iff_append.mpr ⟨before, after, hall, fun q hq => ?_, ?_⟩⟩
    · exact Setting.check_ok_iff.mpr (hbefore q hq)
    · exact Setting.check_eq_error_iff.mpr ⟨v, h.value, h.refused, rfl⟩

/-- **A table is refused** for the first section that is no table, or else for the first setting
whose value the setting cannot have. -/
theorem ofTable_eq_error_iff {entries : Entries} {e : Failure ConfigError} :
    Config.ofTable entries = .error e ↔
      (∃ s, FirstError (fun s => report (s.table entries)) Section.all s e) ∨
        ∃ s v, FirstRefused entries s v ∧ s.refusing v = e := by
  by_cases htables : ∀ q : Section, ∃ inner, q.table entries = .ok inner
  · obtain ⟨indent, hindent⟩ := htables .indent
    obtain ⟨output, houtput⟩ := htables .output
    obtain ⟨files, hfiles⟩ := htables .files
    obtain ⟨keywords, hkeywords⟩ := htables .keywords
    rw [← finished_eq_error, finished_ofTable hindent houtput hfiles hkeywords,
      forM_eq_error_iff, exists_firstRefused_iff htables]
    refine ⟨.inr, ?_⟩
    rintro (⟨s, h⟩ | h)
    · exact absurd (report_table_ok_iff.mpr (htables s)) (not_ok_of_error h.eq_error.2)
    · exact h
  · obtain ⟨q, hq⟩ := not_forall.mp htables
    obtain ⟨s, e', hfirst⟩ : ∃ s e', FirstError (fun s => report (s.table entries))
        Section.all s e' := exists_firstError ⟨q, q.mem_all, fun h => hq (report_table_ok_iff.mp h)⟩
    have herror := ofTable_of_section hfirst
    constructor
    · intro h
      obtain rfl := Except.error.inj (herror.symm.trans h)
      exact .inl ⟨s, hfirst⟩
    · rintro (⟨s', h⟩ | ⟨s', v, h, -⟩)
      · exact ofTable_of_section h
      · exact absurd h.tables htables

/-- **The value that is refused cannot be shown** if an integer with too many digits is in it. -/
theorem ofTable_eq_fault_iff {entries : Entries} {f : Fault} :
    Config.ofTable entries = .error (.fault f) ↔
      f = .tooLongToShow ∧ ∃ s v, FirstRefused entries s v ∧ HoldsLong v := by
  rw [ofTable_eq_error_iff]
  constructor
  · rintro (⟨s, h⟩ | ⟨s, v, h, hrefusing⟩)
    · have hreport := h.eq_error.2
      cases htable : s.table entries with
      | ok inner =>
          rw [htable] at hreport
          cases hreport
      | error e =>
          rw [htable] at hreport
          cases hreport
    · rw [Setting.refusing] at hrefusing
      split at hrefusing
      · cases hrefusing
      · rename_i hlong
        cases hrefusing
        exact ⟨rfl, s, v, h, Value.literal?_eq_none_iff.mp hlong⟩
  · rintro ⟨rfl, s, v, h, hlong⟩
    refine .inr ⟨s, v, h, ?_⟩
    rw [Setting.refusing, Value.literal?_of_holdsLong hlong]

end SandboxProfile
