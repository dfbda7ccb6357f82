import SandboxProfile.Command.Run
import SandboxProfile.Proofs.Config.Origin
import SandboxProfile.Proofs.Indent.Limits
import SandboxProfile.Proofs.Keyword.Extra

/-!
# Configurations can be used

A file is checked before the environment and the command line override settings of it, and without
a file nothing is checked at all. This is no gap: what is looked up last was checked as well. The
environment gives no negative offset, the command line takes none, neither can change the width
of a tab, and the defaults pass the check.

What the check is for then holds of the configuration that was loaded. A tab has a width, so no
line is indented by a division by zero, and the additional keywords are lists of texts, so a
catalog fails to load for a mistake in a keyword file only. A text whose lines need more blanks
than a machine word can count still cannot be indented; the check does not bound the offset.

## Main definitions

* `Config.Usable` says that the settings can have their values and what follows from it.

## Main results

* `Config.load_usable` — a configuration that was loaded can be used.
-/

namespace SandboxProfile

variable {t : FileTree} {root : Text} {override : Option Text} {environment : Environment}

/-- The error is that of the first keyword file with a mistake, and if it is reported it names that
file. -/
def KeywordFile.IsMistake (t : FileTree) (shown : Text) (e : Failure CatalogError) : Prop :=
  ∃ d file, t.directory? (Path.normal directoryName) = some d ∧
    FirstError (ofFile (Path.normal shown)) ((t.children d).filter isKeywordFile) file e ∧
    ∀ r, e = .reported r → r.file? = some (Path.below (Path.normal shown) [file.1])

/-- The configuration can be used. -/
structure Config.Usable (c : Config) : Prop where
  /-- Every setting passes the check that a file has to pass. -/
  accepts : ∀ s : Setting, s.accepts (c.valueOf s) = true
  /-- The offset is not negative. -/
  offset_nonneg : 0 ≤ c.indent.offset
  /-- A tab has a column. -/
  one_le_tabWidth : 1 ≤ c.indent.tabWidth
  /-- The offset of the command line is not negative either if none was asked for. -/
  indent_nonneg : ∀ o : FormatOptions, (∀ n ∈ o.indent, 0 ≤ n) → 0 ≤ (indentStyle c o).offset
  /-- Whatever the command line asks for, no text is indented by a division by zero. -/
  indents : ∀ (o : FormatOptions) (s : Text), formatText (indentStyle c o) s ≠ .error .zeroTabWidth
  /-- A catalog fails to load for a mistake in a keyword file only. -/
  catalog : ∀ (u : FileTree) (shown : Text) (e : Failure CatalogError),
    Catalog.load c u shown = .error e →
      KeywordFile.IsMistake u (Path.below shown [KeywordFile.directoryName]) e
  /-- It does not fail for the additional keywords of the configuration. -/
  keywords : ∀ (u : FileTree) (shown : Text) (category : Category) (literal : Text),
    Catalog.load c u shown ≠ .error (.reported (.invalidList category literal))

/-- A configuration whose tabs have a column does not divide by zero. -/
theorem hasWidth_indentStyle {c : Config} (h : 1 ≤ c.indent.tabWidth) (o : FormatOptions) :
    (indentStyle c o).HasWidth := by
  intro _
  have hwidth : (indentStyle c o).tabWidth = c.indent.tabWidth := rfl
  omega

/-- A catalog fails to load with the first mistake in a keyword file. -/
theorem isMistake_of_load {c : Config} {shown : Text} {e : Failure CatalogError}
    (h : Catalog.load c t shown = .error e) :
    KeywordFile.IsMistake t (Path.below shown [KeywordFile.directoryName]) e := by
  obtain ⟨d, file, hd, hfirst⟩ :=
    KeywordFile.readAll_eq_error_iff.mp (Catalog.load_eq_error_iff.mp h)
  refine ⟨d, file, hd, hfirst, fun r hr => ?_⟩
  have hfile := hfirst.eq_error.2
  rw [hr] at hfile
  exact KeywordFile.ofFile_eq_reported hfile

/-- A configuration can be used if its settings can have their values. -/
theorem usable_of_accepts {c : Config} (h : ∀ s : Setting, s.accepts (c.valueOf s) = true) :
    c.Usable := by
  obtain ⟨hoffset, hwidth⟩ := Config.accepts_valueOf_iff.mp h
  refine ⟨h, hoffset, hwidth, ?_, ?_, ?_, ?_⟩
  · intro o ho
    have hgiven : (indentStyle c o).offset = o.indent.getD c.indent.offset := rfl
    rw [hgiven]
    cases hindent : o.indent with
    | none => exact hoffset
    | some n => exact ho n hindent
  · intro o s hzero
    cases formatText_eq_error (hasWidth_indentStyle hwidth o) hzero
  · intro u shown e hload
    exact isMistake_of_load hload
  · intro u shown category literal hload
    obtain ⟨d, file, -, -, hname⟩ := isMistake_of_load hload
    cases hname _ rfl

/-- **A configuration that was loaded can be used.** Each of its settings comes from the
environment, or else from the table of the file in use, which was checked, or else it has its
default. -/
theorem Config.load_usable {c : Config} (h : Config.load t root override environment = .ok c) :
    c.Usable ∧ ∃ entries, Config.InUse t root override entries ∧
      (∀ s v, Setting.valueIn? s entries = some v → s.accepts v = true) ∧
      ∀ s, c.valueOf s = (environment.value? s).getD
        ((s.valueIn? entries).getD (({} : Config).valueOf s)) := by
  exact ⟨usable_of_accepts (accepts_valueOf_load h), valueOf_load h⟩

/-- A working directory with a configuration file that turns tabs on and makes them narrow. -/
def narrowTabs : FileTree :=
  FileTree.empty.put [Config.fileName]
    (.file ⟨Utf8.encode "[indent]\nuse-tabs = true\ntab_width = 1\n".toList, .full⟩)

/-- The configuration file is loaded, and the environment turns tabs off again. -/
theorem load_usable_narrowTabs :
    ∃ c, Config.load narrowTabs [] none { useTabs := some "no".toList } = .ok c ∧
      c.indent = ⟨2, false, 1⟩ ∧ c.Usable := by
  have hload : (Config.load narrowTabs [] none { useTabs := some "no".toList }).toOption.map
      Config.indent = some ⟨2, false, 1⟩ := by decide +kernel
  cases hc : Config.load narrowTabs [] none { useTabs := some "no".toList } with
  | error e =>
      rw [hc] at hload
      cases hload
  | ok c =>
      rw [hc] at hload
      exact ⟨c, rfl, Option.some.inj hload, (Config.load_usable hc).1⟩

end SandboxProfile
