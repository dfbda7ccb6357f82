import SandboxProfile.Proofs.Command.Modes
import SandboxProfile.Proofs.FileTree.Path
import SandboxProfile.Proofs.Indent.Breaks

/-!
# The standard input and files

A profile can come from a file or from the standard input. The bytes are read as the same
text, except that the line breaks of the standard input are unified. So the two are processed
alike exactly if there is nothing to unify, unless the text cannot be indented anyway: then
nothing is printed, and only the spans can tell the two apart.

## Main definitions

* `runSpans` is a run of the command that highlights.
* `LikeFile` says that the standard input is processed like a file with the same bytes.
* `SameBytes` says what is read from the two.

## Main results

* `likeFile_iff` — when the standard input is processed like a file.
-/

namespace SandboxProfile

/-! ### Statement -/

/-- A run of the command that highlights, with the spans of one profile as output. -/
def runSpans (s : Surroundings) (o : CommonOptions) (path : Text) : Outcome :=
  (Command.highlight { paths := [path], format := some "json".toList, common := o }).run s

/-- The command that highlights ends alike for the standard input and for the file, and if it
ends well it reports the same spans. -/
structure SpansLikeFile (s : Surroundings) (o : CommonOptions) (path : Text) : Prop where
  /-- The two runs end alike. -/
  ending : (runSpans s o standardInput).ending = (runSpans s o path).ending
  /-- They report the same spans. -/
  spans : (runSpans s o standardInput).ending = .exit 0 → ∃ t u spans,
    (runSpans s o standardInput).output = present .json [⟨standardInput, t, spans⟩] ∧
    (runSpans s o path).output = present .json [⟨path, u, spans⟩]

/-- The standard input is processed like the file at the path. -/
structure LikeFile (s : Surroundings) (o : FormatOptions) (path : Text) : Prop where
  /-- The same is printed. -/
  printed : (runMode s { o with paths := [standardInput] } false false).output =
    (runMode s { o with paths := [path] } false false).output
  /-- Checking ends alike. -/
  checked : (runMode s { o with paths := [standardInput] } true false).ending =
    (runMode s { o with paths := [path] } true false).ending
  /-- The spans are the same. -/
  highlighted : SpansLikeFile s o.common path

/-! ### Runs on one profile -/

variable {s : Surroundings} {o : FormatOptions} {loaded : Loaded} {q : Text} {p : Profile}

/-- A run on one profile goes as its text can be indented. -/
theorem runMode_sole (hload : load s o.common = .ok loaded)
    (hread : readProfiles loaded.config s.tree s.input [q] = .ok [p]) (check write : Bool) :
    ∃ notes, runMode s { o with paths := [q] } check write =
      match formatText (indentStyle loaded.config o) p.text with
      | .error e => { ending := .fault e.fault, notes := notes, tree := s.tree }
      | .ok text =>
        if check then reportChanges s.tree o.common.verbose notes [(p, text)]
        else emit write o.common.verbose notes [] s.tree [(p, text)] := by
  have hstyle : indentStyle loaded.config { o with paths := [q] } =
      indentStyle loaded.config o := rfl
  obtain ⟨notes, -, hrun⟩ := runMode_eq_finish (o := { o with paths := [q] }) hload hread
  refine ⟨notes, ?_⟩
  rw [hrun, hstyle, formatAll]
  cases formatText (indentStyle loaded.config o) p.text with
  | error e => rfl
  | ok text => cases check <;> rfl

/-- What is printed of one profile. -/
theorem output_sole (hload : load s o.common = .ok loaded)
    (hread : readProfiles loaded.config s.tree s.input [q] = .ok [p]) :
    (runMode s { o with paths := [q] } false false).output =
      match formatText (indentStyle loaded.config o) p.text with
      | .error _ => []
      | .ok text => Terminal.stripSequences text := by
  obtain ⟨notes, hrun⟩ := runMode_sole hload hread false false
  rw [hrun]
  cases formatText (indentStyle loaded.config o) p.text with
  | error e => rfl
  | ok text =>
      dsimp only
      rw [if_neg Bool.false_ne_true, emit_print]
      simp

/-- How the check of one profile ends. -/
theorem ending_sole (hload : load s o.common = .ok loaded)
    (hread : readProfiles loaded.config s.tree s.input [q] = .ok [p]) :
    (runMode s { o with paths := [q] } true false).ending =
      match formatText (indentStyle loaded.config o) p.text with
      | .error e => .fault e.fault
      | .ok text => .exit (if text = p.text then 0 else 1) := by
  obtain ⟨notes, hrun⟩ := runMode_sole hload hread true false
  rw [hrun]
  cases formatText (indentStyle loaded.config o) p.text with
  | error e => rfl
  | ok text =>
      by_cases hsame : text = p.text
      · simp [reportChanges, changedPaths, hsame]
      · simp [reportChanges, changedPaths, hsame]

/-- The spans of one profile. -/
theorem runSpans_sole {o : CommonOptions} (hload : load s o = .ok loaded)
    (hread : readProfiles loaded.config s.tree s.input [q] = .ok [p]) :
    (runSpans s o q).ending = .exit 0 ∧
      (runSpans s o q).output =
        present .json [⟨p.path, p.text, highlight loaded.catalog p.text⟩] := by
  have hwanted : readProfiles loaded.config s.tree s.input
      (if [q] = [] then [standardInput] else [q]) = .ok [p] := hread
  obtain ⟨notes, -, hall⟩ := readAllProfiles_of_ok o hwanted loaded.notes
  have hform : chooseFormat loaded.config loaded.notes (some "json".toList) = .ok .json := rfl
  rw [runSpans, Command.run, runHighlight]
  simp only [hload, hform, hall, bind, Except.bind]
  exact ⟨rfl, rfl⟩

/-- A failure is no good end. -/
theorem ending_of_orStop {ε α : Type} {notes : List Note} {note : ε → Note}
    {r : Except (Failure ε) α} {stop : Stop} (h : orStop notes note r = .error stop) :
    stop.ending ≠ .exit 0 := by
  obtain ⟨e, -, rfl⟩ := orStop_eq_error h
  cases e <;> simp [Stop.ofFailure]

/-- A run for which nothing can be loaded does not end well. -/
theorem ending_of_load {o : CommonOptions} {stop : Stop} (h : load s o = .error stop) :
    stop.ending ≠ .exit 0 := by
  unfold load at h
  cases hconfig : orStop [] (fun e => Note.notLoaded (.config e))
      (Config.load s.tree s.root o.config s.environment) with
  | error e =>
      rw [hconfig] at h
      obtain rfl := Except.error.inj h
      exact ending_of_orStop hconfig
  | ok config =>
      rw [hconfig] at h
      cases hcatalog : orStop [] (fun e => Note.notLoaded (.catalog e))
          (Catalog.load config s.tree s.root) with
      | error e =>
          simp only [bind, Except.bind, hcatalog] at h
          obtain rfl := Except.error.inj h
          exact ending_of_orStop hcatalog
      | ok catalog =>
          simp only [bind, Except.bind, hcatalog] at h
          cases h

/-- If nothing can be loaded, it does not matter where the profile comes from. -/
theorem likeFile_of_error {stop : Stop} (hload : load s o.common = .error stop) (path : Text) :
    LikeFile s o path := by
  have hmode (q : Text) (check write : Bool) :
      runMode s { o with paths := [q] } check write = stop.outcome s.tree := by
    rw [runMode, Command.run, runFormat]
    simp only [hload, bind, Except.bind]
    rfl
  have hspans (q : Text) : runSpans s o.common q = stop.outcome s.tree := by
    rw [runSpans, Command.run, runHighlight]
    simp only [hload, bind, Except.bind]
    rfl
  refine ⟨by rw [hmode, hmode], by rw [hmode, hmode], by rw [hspans, hspans], fun hending => ?_⟩
  rw [hspans] at hending
  exact absurd hending (ending_of_load hload)

/-! ### The two readings -/

variable {path text : Text}

/-- The standard input and the file at the path are both read from the bytes of one text. -/
structure SameBytes (s : Surroundings) (config : Config) (path text : Text) : Prop where
  /-- The standard input is read with unified line breaks. -/
  input : readProfiles config s.tree s.input [standardInput] =
    .ok [⟨standardInput, unifyBreaks text⟩]
  /-- The file is read as it is. -/
  file : readProfiles config s.tree s.input [path] = .ok [⟨path, text⟩]

/-- The standard input is read with unified line breaks. -/
theorem readProfiles_input (config : Config) (hdecode : Utf8.decode s.input = .ok text) :
    readProfiles config s.tree s.input [standardInput] =
      .ok [⟨standardInput, unifyBreaks text⟩] := by
  have hdiscover : discover config s.tree [standardInput] = [standardInput] := rfl
  have hinput : readInput s.input = .ok ⟨standardInput, unifyBreaks text⟩ := by
    rw [readInput, hdecode]
  have hshort : holdsTooLong s.tree [standardInput] = false := rfl
  rw [readProfiles, hshort, hdiscover, readPaths, if_pos rfl, hinput]
  rfl

/-- A file is read as it is. -/
theorem readProfiles_file (config : Config) (hpath : path ≠ standardInput)
    (hread : s.tree.read path = .ok s.input) (hdecode : Utf8.decode s.input = .ok text) :
    readProfiles config s.tree s.input [path] = .ok [⟨path, text⟩] := by
  obtain ⟨l, f, hleads, -, -⟩ := FileTree.read_eq_ok hread
  have hdiscover : discover config s.tree [path] = [path] := by
    rw [discover, List.flatMap_singleton, expand, if_neg hpath]
    simp only [FileTree.directory?_normal_of_leads hleads]
  have hprofile : readProfile s.tree path = .ok ⟨path, text⟩ :=
    readProfile_eq_ok.mpr ⟨s.input, hread, hdecode⟩
  have hshort : holdsTooLong s.tree [path] = false :=
    holdsTooLong_of_readable fun q hq => by
      rw [hdiscover] at hq
      rw [List.mem_singleton.mp hq]
      exact ⟨text, hprofile⟩
  rw [readProfiles, hshort, hdiscover, readPaths, if_neg hpath, hprofile]
  rfl

/-- A file with the bytes of the standard input is read from the same bytes. -/
theorem sameBytes_of_read (config : Config) (hpath : path ≠ standardInput)
    (hread : s.tree.read path = .ok s.input) (hdecode : Utf8.decode s.input = .ok text) :
    SameBytes s config path text :=
  ⟨readProfiles_input config hdecode, readProfiles_file config hpath hread hdecode⟩

/-- A text without carriage returns is processed alike. -/
theorem likeFile_of_not_mem (hload : load s o.common = .ok loaded)
    (h : SameBytes s loaded.config path text) (hreturn : '\r' ∉ text) : LikeFile s o path := by
  have hinput := h.input
  rw [unifyBreaks_of_not_mem hreturn] at hinput
  obtain ⟨hending, hspans⟩ := runSpans_sole hload hinput
  obtain ⟨hending', hspans'⟩ := runSpans_sole hload h.file
  refine ⟨?_, ?_, ?_, fun _ => ⟨_, _, _, hspans, hspans'⟩⟩
  · rw [output_sole hload hinput, output_sole hload h.file]
  · rw [ending_sole hload hinput, ending_sole hload h.file]
  · rw [hending, hending']

/-- Printing shows that line breaks have been unified. -/
theorem stripSequences_ne_of_mem {style : IndentStyle} {t t' : Text} (hreturn : '\r' ∈ text)
    (h : formatText style text = .ok t) (h' : formatText style (unifyBreaks text) = .ok t') :
    Terminal.stripSequences t' ≠ Terminal.stripSequences t := by
  intro hsame
  have hcount {c : Char} (hc : isBlank c = true) : t'.count c = t.count c := by
    rw [← Terminal.count_stripSequences hc t', hsame, Terminal.count_stripSequences hc]
  rcases breaks_differ hreturn h h' with hne | hne
  · exact hne (hcount (by decide))
  · exact hne (hcount (by decide))

/-- The fault tells why a text cannot be indented. -/
theorem IndentError.fault_inj {e e' : IndentError} (h : e.fault = e'.fault) : e = e' := by
  cases e with
  | zeroTabWidth =>
      cases e' with
      | zeroTabWidth => rfl
      | beyondWord => cases h
  | beyondWord =>
      cases e' with
      | zeroTabWidth => cases h
      | beyondWord => rfl

/-- If a text with carriage returns is processed alike, it cannot be indented. -/
theorem error_of_likeFile (hload : load s o.common = .ok loaded)
    (h : SameBytes s loaded.config path text) (hreturn : '\r' ∈ text)
    (hlike : LikeFile s o path) :
    ∃ e, formatText (indentStyle loaded.config o) text = .error e ∧
      formatText (indentStyle loaded.config o) (unifyBreaks text) = .error e := by
  have hprinted := hlike.printed
  have hchecked := hlike.checked
  rw [output_sole hload h.input, output_sole hload h.file] at hprinted
  rw [ending_sole hload h.input, ending_sole hload h.file] at hchecked
  dsimp only at hprinted hchecked
  cases hf : formatText (indentStyle loaded.config o) text with
  | ok t =>
      rw [hf] at hprinted hchecked
      cases hf' : formatText (indentStyle loaded.config o) (unifyBreaks text) with
      | ok t' =>
          rw [hf'] at hprinted
          exact absurd hprinted (stripSequences_ne_of_mem hreturn hf hf')
      | error e =>
          rw [hf'] at hchecked
          cases hchecked
  | error e =>
      rw [hf] at hchecked
      cases hf' : formatText (indentStyle loaded.config o) (unifyBreaks text) with
      | ok t' =>
          rw [hf'] at hchecked
          cases hchecked
      | error e' =>
          rw [hf'] at hchecked
          have hsame : e' = e := IndentError.fault_inj (Ending.fault.inj hchecked)
          exact ⟨e, rfl, congrArg Except.error hsame⟩

/-- A text that cannot be indented either way is printed and checked alike. -/
theorem likeFile_of_format_error (hload : load s o.common = .ok loaded)
    (h : SameBytes s loaded.config path text) {e : IndentError}
    (hf : formatText (indentStyle loaded.config o) text = .error e)
    (hf' : formatText (indentStyle loaded.config o) (unifyBreaks text) = .error e)
    (hspans : SpansLikeFile s o.common path) : LikeFile s o path := by
  refine ⟨?_, ?_, hspans⟩
  · rw [output_sole hload h.input, output_sole hload h.file, hf, hf']
  · rw [ending_sole hload h.input, ending_sole hload h.file, hf, hf']

/-- **The standard input is processed like a file** exactly if it holds no carriage return, or
if its text cannot be indented either way and the spans are the same. -/
theorem likeFile_iff (hpath : path ≠ standardInput) (hread : s.tree.read path = .ok s.input)
    (hdecode : Utf8.decode s.input = .ok text) :
    LikeFile s o path ↔ ∀ loaded, load s o.common = .ok loaded →
      '\r' ∉ text ∨
        ((∃ e, formatText (indentStyle loaded.config o) text = .error e ∧
          formatText (indentStyle loaded.config o) (unifyBreaks text) = .error e) ∧
          SpansLikeFile s o.common path) := by
  constructor
  · intro hlike loaded hload
    have hsame := sameBytes_of_read loaded.config hpath hread hdecode
    by_cases hreturn : '\r' ∈ text
    · exact .inr ⟨error_of_likeFile hload hsame hreturn hlike, hlike.highlighted⟩
    · exact .inl hreturn
  · intro h
    cases hload : load s o.common with
    | error stop => exact likeFile_of_error hload path
    | ok loaded =>
        have hsame := sameBytes_of_read loaded.config hpath hread hdecode
        rcases h loaded hload with hreturn | ⟨⟨e, herror, herror'⟩, hspans⟩
        · exact likeFile_of_not_mem hload hsame hreturn
        · exact likeFile_of_format_error hload hsame herror herror' hspans

/-! ### A directory with one profile -/

/-- The directory with one profile that also stands on the standard input. -/
def directoryAndInput (bytes : List UInt8) : Surroundings :=
  { directoryWith bytes with input := bytes }

/-- A text with line feeds only is processed alike. -/
theorem likeFile_iff_net :
    "a.profile".toList ≠ standardInput ∧
      (directoryAndInput (Utf8.encode "net\n".toList)).tree.read "a.profile".toList =
        .ok (Utf8.encode "net\n".toList) ∧
      Utf8.decode (Utf8.encode "net\n".toList) = .ok "net\n".toList ∧
      (LikeFile (directoryAndInput (Utf8.encode "net\n".toList)) soleProfile "a.profile".toList ↔
        ∀ loaded, load (directoryAndInput (Utf8.encode "net\n".toList)) {} = .ok loaded →
          '\r' ∉ "net\n".toList ∨
            ((∃ e, formatText (indentStyle loaded.config soleProfile) "net\n".toList = .error e ∧
              formatText (indentStyle loaded.config soleProfile)
                (unifyBreaks "net\n".toList) = .error e) ∧
              SpansLikeFile (directoryAndInput (Utf8.encode "net\n".toList)) {}
                "a.profile".toList)) :=
  ⟨by decide, rfl, Utf8.decode_encode _,
    likeFile_iff (by decide) rfl (Utf8.decode_encode "net\n".toList)⟩

/-- A carriage return before a line feed is kept for a file and lost for the standard input. -/
theorem not_likeFile_of_return :
    (directoryAndInput (Utf8.encode "net\r\n".toList)).tree.read "a.profile".toList =
        .ok (Utf8.encode "net\r\n".toList) ∧
      ¬LikeFile (directoryAndInput (Utf8.encode "net\r\n".toList)) soleProfile
        "a.profile".toList := by
  refine ⟨rfl, fun hlike => ?_⟩
  have hload : load (directoryAndInput (Utf8.encode "net\r\n".toList)) soleProfile.common =
      .ok builtinOnly := rfl
  have hsame : SameBytes (directoryAndInput (Utf8.encode "net\r\n".toList)) builtinOnly.config
      "a.profile".toList "net\r\n".toList :=
    sameBytes_of_read _ (by decide) rfl (Utf8.decode_encode _)
  obtain ⟨e, herror, -⟩ := error_of_likeFile hload hsame (by decide) hlike
  have hformat : formatText (indentStyle builtinOnly.config soleProfile) "net\r\n".toList =
      .ok "  net\r\n".toList := by decide
  rw [hformat] at herror
  cases herror

end SandboxProfile
