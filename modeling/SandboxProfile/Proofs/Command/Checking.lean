import SandboxProfile.Proofs.Command.Modes
import SandboxProfile.Proofs.Config.Usable
import SandboxProfile.Proofs.Indent.Accepted

/-!
# Checking profiles

A run that checks indents all of its profiles and names those that change. So what it names are
the profiles with a line that is not indented as it should be, and it names them in the order in
which they were read. Mistakes on several lines cannot cancel out, as the texts that indentation
leaves alone are those whose lines it leaves alone.

Where one of the profiles has a line whose blanks no machine word can count, the run ends before
it has named anything.

## Main definitions

* `Misindented` says that some line of a text is not indented as it should be.
* `ReportsLines` is a run that names the profiles with such lines.

## Main results

* `check_reports_lines` — a text is left alone if its lines are well indented, and a run that
  checks names the profiles that are not.
-/

namespace SandboxProfile

/-- Some line of the text is not indented as it should be. -/
def Misindented (style : IndentStyle) (s : Text) : Prop :=
  ∃ l ∈ splitLines s, ¬WellIndented style l.body

instance (style : IndentStyle) (s : Text) : Decidable (Misindented style s) :=
  inferInstanceAs (Decidable (∃ l ∈ splitLines s, ¬WellIndented style l.body))

/-- The blanks of every line of the profiles can be written. -/
def CanIndent (style : IndentStyle) (ps : List Profile) : Prop :=
  ∀ p ∈ ps, HasIndentedLine p.text → style.CanWrite style.offset

instance (style : IndentStyle) (ps : List Profile) : Decidable (CanIndent style ps) :=
  inferInstanceAs (Decidable (∀ p ∈ ps, HasIndentedLine p.text → style.CanWrite style.offset))

/-- What a run that checks the profiles says about their lines. -/
structure ReportsLines (style : IndentStyle) (ps : List Profile) (o : Outcome) : Prop where
  /-- It names the profiles with a line that is not indented as it should be, in order. -/
  named : CanIndent style ps →
    o.named = (ps.filter fun p => Misindented style p.text).map Profile.path
  /-- Its exit code says whether there is one. -/
  ending : CanIndent style ps →
    o.ending = .exit (if ∃ p ∈ ps, Misindented style p.text then 1 else 0)
  /-- If the blanks of some line cannot be written, it names none and ends with a fault. -/
  beyondWord : ¬CanIndent style ps → o.named = [] ∧ o.ending = .fault .beyondWord

variable {s : Surroundings} {o : FormatOptions} {loaded : Loaded} {style : IndentStyle}
  {ps : List Profile}

/-- The texts that indentation changes are those with a line that is not indented as it should
be. -/
theorem indentedText_ne_iff {t : Text} (h : ∃ out, formatText style t = .ok out) :
    indentedText style t ≠ t ↔ Misindented style t := by
  have hsame : indentedText style t = t ↔ formatText style t = .ok t := by
    rw [formatText_indentedText h, Except.ok.injEq]
  rw [Ne, hsame, formatText_eq_self_iff, Misindented]
  push Not
  rfl

/-- The paths that are named are those of the profiles with such lines. -/
theorem changedPaths_map_indentedText
    (h : ∀ p ∈ ps, ∃ out, formatText style p.text = .ok out) :
    changedPaths (ps.map fun p => (p, indentedText style p.text)) =
      (ps.filter fun p => Misindented style p.text).map Profile.path := by
  induction ps with
  | nil => rfl
  | cons p rest ih =>
      obtain ⟨hp, hrest⟩ := List.forall_mem_cons.mp h
      have hchanged := indentedText_ne_iff hp
      rw [changedPaths] at ih ⊢
      rw [List.map_cons, List.filterMap_cons, List.filter_cons, ih hrest]
      by_cases hsame : indentedText style p.text = p.text
      · have hwell : ¬Misindented style p.text := fun hbad => hchanged.mpr hbad hsame
        simp only [hsame, hwell, if_true, decide_false, Bool.false_eq_true, if_false]
      · have hbad : Misindented style p.text := hchanged.mp hsame
        simp only [hsame, hbad, if_false, decide_true, if_true, List.map_cons]

/-- Profiles can be indented if the blanks of all of their lines can be written. -/
theorem canIndent_iff (hwidth : style.HasWidth) :
    CanIndent style ps ↔ ∀ p ∈ ps, ∃ out, formatText style p.text = .ok out :=
  forall₂_congr fun _ _ => (formatText_ok_iff hwidth).symm

/-- Where a tab has a width, profiles cannot be indented only for a line with too many blanks. -/
theorem formatAll_eq_error (hwidth : style.HasWidth) {notes : List Note} {stop : Stop}
    (h : formatAll style notes ps = .error stop) : stop = ⟨.fault .beyondWord, notes⟩ := by
  induction ps with
  | nil => cases h
  | cons p rest ih =>
      rw [formatAll] at h
      split at h
      · rename_i e he
        obtain rfl := formatText_eq_error hwidth he
        exact (Except.error.inj h).symm
      · rcases bind_eq_error.mp h with h | ⟨fs, -, h⟩
        · exact ih h
        · cases h

/-- What a run that checks says about the profiles that it has read. -/
theorem reportsLines_runMode (hload : load s o.common = .ok loaded)
    (hread : readProfiles loaded.config s.tree s.input
      (if o.paths = [] then [standardInput] else o.paths) = .ok ps) (write : Bool) :
    ReportsLines (indentStyle loaded.config o) ps (runMode s o true write) := by
  have hwidth : (indentStyle loaded.config o).HasWidth :=
    hasWidth_indentStyle (Config.load_usable (config_of_load hload)).1.one_le_tabWidth o
  obtain ⟨notes, hnotes, hrun⟩ := runMode_eq_finish hload hread
  have hreport (hcan : CanIndent (indentStyle loaded.config o) ps) :
      runMode s o true write = reportChanges s.tree o.common.verbose notes
        (ps.map fun p => (p, indentedText (indentStyle loaded.config o) p.text)) := by
    rw [hrun, formatAll_of_ok notes ((canIndent_iff hwidth).mp hcan)]
    rfl
  have hnamed (hcan : CanIndent (indentStyle loaded.config o) ps) :
      (runMode s o true write).named =
        (ps.filter fun p => Misindented (indentStyle loaded.config o) p.text).map
          Profile.path := by
    rw [hreport hcan, named_reportChanges _ hnotes,
      changedPaths_map_indentedText ((canIndent_iff hwidth).mp hcan)]
  refine ⟨hnamed, fun hcan => ?_, fun hcannot => ?_⟩
  · have hending : (runMode s o true write).ending =
        .exit (if (runMode s o true write).named = [] then 0 else 1) := by
      rw [hreport hcan, named_reportChanges _ hnotes]
      rfl
    have hnone : (runMode s o true write).named = [] ↔
        ¬∃ p ∈ ps, Misindented (indentStyle loaded.config o) p.text := by
      rw [hnamed hcan, List.map_eq_nil_iff, List.filter_eq_nil_iff]
      simp
    rw [hending]
    by_cases hbad : ∃ p ∈ ps, Misindented (indentStyle loaded.config o) p.text
    · rw [if_pos hbad, if_neg fun h => hnone.mp h hbad]
    · rw [if_neg hbad, if_pos (hnone.mpr hbad)]
  · obtain ⟨f, hf⟩ := formatAll_of_error notes fun h => hcannot ((canIndent_iff hwidth).mpr h)
    rw [hrun, hf, formatAll_eq_error hwidth hf]
    exact ⟨hnotes, rfl⟩

/-- **Checking finds the lines that are not indented as they should be.** Indentation leaves a
text alone exactly if each of its lines is empty or begins with the blanks for its indentation and
goes on with a character that is not blank; and a run that checks names exactly the profiles with
another line. -/
theorem check_reports_lines :
    (∀ (style : IndentStyle) (t : Text),
      formatText style t = .ok t ↔ ∀ l ∈ splitLines t, WellIndented style l.body) ∧
    ∀ (s : Surroundings) (o : FormatOptions) (loaded : Loaded) (ps : List Profile),
      load s o.common = .ok loaded →
      readProfiles loaded.config s.tree s.input
        (if o.paths = [] then [standardInput] else o.paths) = .ok ps →
      ∀ write, ReportsLines (indentStyle loaded.config o) ps (runMode s o true write) := by
  refine ⟨fun style t => formatText_eq_self_iff, ?_⟩
  intro s o loaded ps hload hread write
  exact reportsLines_runMode hload hread write

/-- The file of a directory with one file is read if its bytes are a text. -/
theorem readProfiles_directoryWith {text : Text} {bytes : List UInt8}
    (h : Utf8.decode bytes = .ok text) :
    readProfiles builtinOnly.config (directoryWith bytes).tree (directoryWith bytes).input
      ["a.profile".toList] = .ok [⟨"a.profile".toList, text⟩] := by
  have htext : textAt (directoryWith bytes).tree "a.profile".toList = text := by
    rw [textAt, readProfile_directoryWith h]
  have hread := (formattable_directoryWith h).toReadable.readProfiles_eq_ok
  rw [inputPaths_directoryWith, List.map_singleton, htext] at hread
  exact hread

/-- A line that is well indented does not hide a blank one. -/
theorem check_reports_lines_blankLine :
    load (directoryWith (Utf8.encode "  net\n \n".toList)) {} = .ok builtinOnly ∧
      readProfiles builtinOnly.config (directoryWith (Utf8.encode "  net\n \n".toList)).tree []
        ["a.profile".toList] = .ok [⟨"a.profile".toList, "  net\n \n".toList⟩] ∧
      (runMode (directoryWith (Utf8.encode "  net\n \n".toList)) soleProfile true false).named =
        ["a.profile".toList] := by
  have hload : load (directoryWith (Utf8.encode "  net\n \n".toList)) {} = .ok builtinOnly := rfl
  have hread := readProfiles_directoryWith (Utf8.decode_encode "  net\n \n".toList)
  have hreports := check_reports_lines.2 _ soleProfile _ _ hload hread false
  exact ⟨hload, hread, hreports.named (by decide)⟩

/-- The options that ask for an offset that no machine word holds. -/
def wideOffset : FormatOptions :=
  { soleProfile with indent := some 9223372036854775808 }

/-- A profile is not named for a line that takes an offset that no machine word holds. -/
theorem not_named_beyondWord :
    0 ≤ (indentStyle builtinOnly.config wideOffset).offset ∧
      1 ≤ (indentStyle builtinOnly.config wideOffset).tabWidth ∧
      Misindented (indentStyle builtinOnly.config wideOffset) "net\n".toList ∧
      "a.profile".toList ∉
        (runMode (directoryWith (Utf8.encode "net\n".toList)) wideOffset true false).named := by
  have hread := readProfiles_directoryWith (Utf8.decode_encode "net\n".toList)
  have hreports := reportsLines_runMode (o := wideOffset) rfl hread false
  have hcannot : ¬CanIndent (indentStyle builtinOnly.config wideOffset)
      [⟨"a.profile".toList, "net\n".toList⟩] := by
    decide
  refine ⟨by decide, by decide, by decide, ?_⟩
  rw [(hreports.beyondWord hcannot).1]
  exact List.not_mem_nil

end SandboxProfile
