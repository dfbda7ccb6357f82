import SandboxProfile.Proofs.Config.Origin
import SandboxProfile.Proofs.FileTree.Listing
import SandboxProfile.Proofs.Keyword.Extra
import SandboxProfile.Proofs.Keyword.Order

/-!
# Which declaration of a keyword counts

The keywords of a run are declared in three places: they are builtin, or given in the
configuration, or stand in keyword files. Here it is said which declarations each place makes,
without the reading: a keyword file declares what its entries do, in their order, and the files
come in the order of their names. The catalog of a run is that of all these declarations, one
place after the other.

The lists of a configuration are declared in the order of the categories, so it does not matter in
which order the file has them.

## Main definitions

* `EntryDeclares` and `FileDeclares` say what an entry and a keyword file declare.
* `keywordFiles` are the keyword files of a tree.
* `Catalog.Resolves` says that a catalog knows words by their first declarations.

## Main results

* `Catalog.load_eq_ok_iff` — a catalog is loaded if all files declare something, and what from.
* `pairwise_keywordFiles` — keyword files come in the order of their names.
* `keywords_of_perm` — the order of the lists in the configuration file decides nothing.
* `Catalog.load_resolves` — all of this for each configuration and each tree.
-/

namespace SandboxProfile

variable {t : FileTree} {root path directory : Text}

/-! ### Entries -/

/-- An entry declares words in a category: its category is named in any accepted spelling, and its
words are a list of texts. An entry without words declares none. -/
inductive EntryDeclares : Value → List Declaration → Prop where
  /-- An entry is a table with a category and words. -/
  | table {es : Entries} {name : Text} {c : Category} {words : List Text} :
      Value.get? "category".toList es = some (.text name) → Category.parse name = .ok c →
      KeywordFile.wordsOf es = Value.ofTexts words →
      EntryDeclares (.table es) (declareAll c words)

namespace KeywordFile

/-- A category is named by a text. -/
theorem categoryOf_eq_ok_iff {v : Value} {c : Category} :
    categoryOf path v = .ok c ↔ ∃ name, v = .text name ∧ Category.parse name = .ok c := by
  have hrefuse (w : Value) :
      (do let literal ← w.literal
          Except.error (.reported (.unknownCategory path literal)) :
        Except (Failure CatalogError) Category) ≠ .ok c := fun h => by
    obtain ⟨literal, -, h⟩ := bind_eq_ok.mp h
    cases h
  cases v with
  | text name =>
      unfold categoryOf
      dsimp only
      cases hparse : Category.parse name with
      | ok c' => simp [Except.toOption, hparse]
      | error e =>
          refine ⟨fun h => absurd h (hrefuse _), ?_⟩
          rintro ⟨name', hname, h⟩
          cases hname
          cases hparse.symm.trans h
  | _ => exact ⟨fun h => absurd h (hrefuse _), fun ⟨_, hv, _⟩ => nomatch hv⟩

/-- Words are a list of texts. -/
theorem textsOr_eq_ok_iff {v : Value} {refuse : Text → CatalogError} {words : List Text} :
    textsOr v refuse = .ok words ↔ v = Value.ofTexts words := by
  constructor
  · intro h
    rw [textsOr] at h
    cases htexts : v.texts? with
    | some ts =>
        rw [htexts] at h
        obtain rfl := Except.ok.inj h
        exact (Value.ofTexts_of_texts? htexts).symm
    | none =>
        rw [htexts] at h
        obtain ⟨literal, -, h⟩ := bind_eq_ok.mp h
        cases h
  · rintro rfl
    exact textsOr_ofTexts words refuse

/-- **Reading an entry** gives what it declares. -/
theorem entry_eq_ok_iff {v : Value} {ds : List Declaration} :
    entry path v = .ok ds ↔ EntryDeclares v ds := by
  constructor
  · intro h
    cases v with
    | table es =>
        rw [entry] at h
        cases hcategory : Value.get? "category".toList es with
        | none =>
            rw [hcategory] at h
            cases h
        | some category =>
            rw [hcategory] at h
            dsimp only at h
            obtain ⟨c, hc, h⟩ := bind_eq_ok.mp h
            obtain ⟨words, hwords, h⟩ := bind_eq_ok.mp h
            obtain rfl := pure_eq_ok.mp h
            obtain ⟨name, rfl, hparse⟩ := categoryOf_eq_ok_iff.mp hc
            exact .table hcategory hparse (textsOr_eq_ok_iff.mp hwords)
    | _ => cases h
  · rintro ⟨hcategory, hparse, hwords⟩
    rw [entry, hcategory]
    dsimp only
    exact bind_eq_ok.mpr ⟨_, categoryOf_eq_ok_iff.mpr ⟨_, rfl, hparse⟩,
      bind_eq_ok.mpr ⟨_, textsOr_eq_ok_iff.mpr hwords, rfl⟩⟩

/-- Several entries declare what each of them does, in order. -/
theorem entries_eq_ok_iff {vs : List Value} {ds : List Declaration} :
    entries path vs = .ok ds ↔ ∃ dss, List.Forall₂ EntryDeclares vs dss ∧ ds = dss.flatten := by
  induction vs generalizing ds with
  | nil =>
      rw [entries]
      constructor
      · intro h
        exact ⟨[], .nil, (Except.ok.inj h).symm⟩
      · rintro ⟨dss, hdss, rfl⟩
        cases hdss
        rfl
  | cons v rest ih =>
      rw [entries, combine_eq_ok]
      constructor
      · rintro ⟨first, others, hfirst, hothers, rfl⟩
        obtain ⟨dss, hdss, rfl⟩ := ih.mp hothers
        exact ⟨first :: dss, .cons (entry_eq_ok_iff.mp hfirst) hdss, rfl⟩
      · rintro ⟨dss, hdss, rfl⟩
        cases hdss with
        | cons hfirst hrest =>
            exact ⟨_, _, entry_eq_ok_iff.mpr hfirst, ih.mpr ⟨_, hrest, rfl⟩, rfl⟩

theorem entries_singleton (v : Value) : entries path [v] = entry path v := by
  simp only [entries]
  cases entry path v with
  | ok first => exact congrArg Except.ok (List.append_nil first)
  | error e => rfl

/-- A keyword file declares what its entries do. -/
theorem declarations_eq_ok_iff {v : Value} {ds : List Declaration} :
    declarations path v = .ok ds ↔
      ∃ dss, List.Forall₂ EntryDeclares (entriesOf v) dss ∧ ds = dss.flatten := by
  have hentries : declarations path v = entries path (entriesOf v) := by
    cases v with
    | null | list => rfl
    | _ => simp only [declarations, entriesOf, entries_singleton]
  rw [hentries, entries_eq_ok_iff]

end KeywordFile

/-! ### Files -/

/-- A keyword file that can be read declares what the entries of its document do, one after
another. -/
inductive FileDeclares : Item → List Declaration → Prop where
  /-- The file has a document with entries. -/
  | file {f : File} {text : Text} {v : Value} {dss : List (List Declaration)} :
      f.access ≠ .none → Utf8.decodeStream f.content = .ok text →
      Yaml.read (unifyBreaks text) = .ok v →
      List.Forall₂ EntryDeclares (KeywordFile.entriesOf v) dss → FileDeclares (.file f) dss.flatten

/-- The keyword files of a tree, with their names; there are none without their directory. -/
def keywordFiles (t : FileTree) : List (Text × Item) :=
  match t.directory? (Path.normal KeywordFile.directoryName) with
  | none => []
  | some d => (t.children d).filter KeywordFile.isKeywordFile

namespace KeywordFile

/-- **Reading a keyword file** gives what it declares. -/
theorem ofFile_eq_ok_iff {file : Text × Item} {ds : List Declaration} :
    ofFile directory file = .ok ds ↔ FileDeclares file.2 ds := by
  obtain ⟨name, item⟩ := file
  rw [ofFile, bind_eq_ok]
  constructor
  · rintro ⟨v, hv, h⟩
    obtain ⟨f, text, hitem, haccess, htext, hread⟩ := value_eq_ok_iff.mp hv
    obtain ⟨dss, hdss, rfl⟩ := declarations_eq_ok_iff.mp h
    rw [hitem]
    exact .file haccess htext hread hdss
  · rintro ⟨haccess, htext, hread, hdss⟩
    exact ⟨_, value_eq_ok_iff.mpr ⟨_, _, rfl, haccess, htext, hread⟩,
      declarations_eq_ok_iff.mpr ⟨_, hdss, rfl⟩⟩

/-- Several files declare what each of the keyword files does, in order. -/
theorem readFiles_eq_ok_iff {files : List (Text × Item)} {ds : List Declaration} :
    readFiles directory files = .ok ds ↔
      ∃ dss, List.Forall₂ (fun file => FileDeclares file.2) (files.filter isKeywordFile) dss ∧
        ds = dss.flatten := by
  induction files generalizing ds with
  | nil =>
      rw [readFiles, List.filter_nil]
      constructor
      · intro h
        exact ⟨[], .nil, (Except.ok.inj h).symm⟩
      · rintro ⟨dss, hdss, rfl⟩
        cases hdss
        rfl
  | cons file rest ih =>
      rw [readFiles_cons]
      by_cases hname : isKeywordFile file = true
      · rw [if_pos hname, List.filter_cons_of_pos hname, combine_eq_ok]
        constructor
        · rintro ⟨first, others, hfirst, hothers, rfl⟩
          obtain ⟨dss, hdss, rfl⟩ := ih.mp hothers
          exact ⟨first :: dss, .cons (ofFile_eq_ok_iff.mp hfirst) hdss, rfl⟩
        · rintro ⟨dss, hdss, rfl⟩
          cases hdss with
          | cons hfirst hrest =>
              exact ⟨_, _, ofFile_eq_ok_iff.mpr hfirst, ih.mpr ⟨_, hrest, rfl⟩, rfl⟩
      · rw [if_neg hname, List.filter_cons_of_neg hname, ih]

/-- All keyword files of a tree declare what each of them does, in order. -/
theorem readAll_eq_ok_iff {shown : Text} {ds : List Declaration} :
    readAll t directoryName shown = .ok ds ↔
      ∃ dss, List.Forall₂ (fun file => FileDeclares file.2) (keywordFiles t) dss ∧
        ds = dss.flatten := by
  rw [readAll, isTooLong_directoryName, if_neg Bool.false_ne_true, keywordFiles]
  cases t.directory? (Path.normal directoryName) with
  | none =>
      have hnone : readFiles [] [] = .ok ds ↔ _ := readFiles_eq_ok_iff
      exact hnone
  | some d => exact readFiles_eq_ok_iff

end KeywordFile

/-- **Keyword files come in the order of their names.** -/
theorem pairwise_keywordFiles (t : FileTree) :
    (keywordFiles t).Pairwise fun a b => a.1 < b.1 := by
  rw [keywordFiles]
  cases t.directory? (Path.normal KeywordFile.directoryName) with
  | none => exact .nil
  | some d => exact (t.pairwise_children d).filter _

/-! ### Catalogs -/

/-- **A catalog is loaded** if all keyword files declare something; it is made from the builtin
declarations, those of the configuration and those of the files. -/
theorem Catalog.load_eq_ok_iff {config : Config} {k : Catalog} :
    Catalog.load config t root = .ok k ↔
      ∃ dss, List.Forall₂ (fun file => FileDeclares file.2) (keywordFiles t) dss ∧
        Catalog.ofDeclarations (builtinDeclarations ++
          (givenDeclarations config.keywords Category.all ++ dss.flatten)) = k := by
  rw [Catalog.load, Catalog.loadFrom, combine_eq_ok, declareLists_ofTexts]
  constructor
  · rintro ⟨given, custom, hgiven, hcustom, rfl⟩
    obtain rfl := Except.ok.inj hgiven
    obtain ⟨dss, hdss, rfl⟩ := KeywordFile.readAll_eq_ok_iff.mp hcustom
    exact ⟨dss, hdss, by rw [List.append_assoc]⟩
  · rintro ⟨dss, hdss, rfl⟩
    exact ⟨_, _, rfl, KeywordFile.readAll_eq_ok_iff.mpr ⟨dss, hdss, rfl⟩, by rw [List.append_assoc]⟩

/-- The catalog knows each word by the first of its declarations, which are the builtin ones and
those that were added to them. -/
structure Catalog.Resolves (k : Catalog) (added : List Declaration) : Prop where
  /-- The first declaration of a word decides its category. -/
  classify_eq_some : ∀ w c,
    k.classify w = some c ↔ FirstDeclared w c (builtinDeclarations ++ added)
  /-- Words that are not declared have none. -/
  classify_eq_none : ∀ w,
    k.classify w = none ↔ w ∉ declaredWords (builtinDeclarations ++ added)
  /-- Builtin words keep their category. -/
  classify_builtin : ∀ c, ∀ w ∈ builtinWords c, k.classify w.toList = some c
  /-- The builtin words come first, and then those that are new, in the order of their first
  declarations. -/
  words : ∃ new, k.words = declaredWords builtinDeclarations ++ new ∧
    (∀ w, w ∈ new ↔ w ∈ declaredWords added ∧ w ∉ declaredWords builtinDeclarations) ∧
    new.Pairwise fun u v => (declaredWords added).idxOf u < (declaredWords added).idxOf v
  /-- No word is repeated. -/
  nodup : k.words.Nodup
  /-- More declarations at the end change the category of no word that was declared. -/
  extended : ∀ more, ∀ w ∈ declaredWords (builtinDeclarations ++ added),
    (Catalog.ofDeclarations (builtinDeclarations ++ added ++ more)).classify w = k.classify w

/-- The words of a catalog are the builtin ones and then those that are new. -/
theorem Catalog.words_ofDeclarations_builtin_append (added : List Declaration) :
    (Catalog.ofDeclarations (builtinDeclarations ++ added)).words =
      declaredWords builtinDeclarations ++ declaredWords
        ((firstDeclarations added).filter fun d => d.1 ∉ declaredWords builtinDeclarations) := by
  rw [← declaredWords_append]
  refine congrArg declaredWords ((firstDeclarations_append builtinDeclarations added).trans ?_)
  rw [firstDeclarations_of_nodup nodup_builtin]

/-- **The catalog of the builtin declarations and others** resolves words by them. -/
theorem Catalog.resolves_ofDeclarations (added : List Declaration) :
    (Catalog.ofDeclarations (builtinDeclarations ++ added)).Resolves added where
  classify_eq_some _ _ := classify_ofDeclarations_eq_some_iff
  classify_eq_none _ := classify_ofDeclarations_eq_none_iff
  classify_builtin _ _ h := SandboxProfile.classify_builtin h added
  words := by
    refine ⟨_, words_ofDeclarations_builtin_append added, fun w => ?_, ?_⟩
    · have hword : w ∈ declaredWords (firstDeclarations added) ↔ w ∈ declaredWords added :=
        mem_words_ofDeclarations
      rw [← hword]
      constructor
      · intro h
        obtain ⟨d, hd, rfl⟩ := List.mem_map.mp h
        obtain ⟨hd, hnew⟩ := List.mem_filter.mp hd
        exact ⟨List.mem_map_of_mem hd, of_decide_eq_true hnew⟩
      · rintro ⟨h, hnew⟩
        obtain ⟨d, hd, rfl⟩ := List.mem_map.mp h
        exact List.mem_map_of_mem (List.mem_filter.mpr ⟨hd, decide_eq_true hnew⟩)
    · exact (pairwise_words added).sublist (List.filter_sublist.map Prod.fst)
  nodup := firstDeclarations_nodup _
  extended more _ h := classify_ofDeclarations_append h more

/-! ### The lists of a configuration -/

/-- The value of a setting does not depend on where its keys stand among those of others. -/
theorem Setting.value?_of_perm {s : Setting} {entries entries' : Entries}
    (hperm : entries'.Perm entries)
    (hsingle : (entries.filter fun e => s.isSpelling e.1).length ≤ 1) :
    s.value? entries' = s.value? entries := by
  have hfilter := hperm.filter fun e => s.isSpelling e.1
  have hsame : (entries'.filter fun e => s.isSpelling e.1) =
      entries.filter fun e => s.isSpelling e.1 := by
    rcases Nat.le_one_iff_eq_zero_or_eq_one.mp hsingle with hlength | hlength
    · rw [List.length_eq_zero_iff] at hlength
      rw [hlength] at hfilter ⊢
      exact hfilter.eq_nil
    · obtain ⟨e, he⟩ := List.length_eq_one_iff.mp hlength
      rw [he] at hfilter ⊢
      exact hfilter.eq_singleton
  rw [value?, value?, hsame]

/-- **The order of the lists in the configuration file decides nothing.** -/
theorem Config.keywords_of_perm {entries entries' : Entries} {c c' : Config}
    (h : Config.ofTable entries = .ok c) (h' : Config.ofTable entries' = .ok c')
    (hperm : (Section.keywords.entriesIn entries').Perm (Section.keywords.entriesIn entries))
    (hsingle : ∀ category, ((Section.keywords.entriesIn entries).filter fun e =>
      (Setting.keywords category).isSpelling e.1).length ≤ 1) :
    c'.keywords = c.keywords := by
  funext category
  have hvalue : (Setting.keywords category).valueIn? entries' =
      (Setting.keywords category).valueIn? entries :=
    Setting.value?_of_perm hperm (hsingle category)
  refine Value.ofTexts_injective ?_
  have hc := (Config.valueOf_ofTable h (.keywords category)).1
  have hc' := (Config.valueOf_ofTable h' (.keywords category)).1
  rw [hvalue, ← hc] at hc'
  exact hc'

/-- **The catalog of a run** resolves words by the declarations of its configuration, category by
category, and then by those of its keyword files, by the names of the files. Where the lists of
the configuration stand in their table does not matter. -/
theorem Catalog.load_resolves (config : Config) (root : Text) {dss : List (List Declaration)}
    (h : List.Forall₂ (fun file => FileDeclares file.2) (keywordFiles t) dss) :
    (keywordFiles t).Pairwise (fun a b => a.1 < b.1) ∧
    ∃ k, Catalog.load config t root = .ok k ∧
      k.Resolves (givenDeclarations config.keywords Category.all ++ dss.flatten) ∧
      ∀ entries entries' config', Config.ofTable entries = .ok config →
        Config.ofTable entries' = .ok config' →
        (Section.keywords.entriesIn entries').Perm (Section.keywords.entriesIn entries) →
        (∀ c, ((Section.keywords.entriesIn entries).filter fun e =>
          (Setting.keywords c).isSpelling e.1).length ≤ 1) →
        Catalog.load config' t root = .ok k := by
  refine ⟨pairwise_keywordFiles t, _, Catalog.load_eq_ok_iff.mpr ⟨dss, h, rfl⟩,
    resolves_ofDeclarations _, ?_⟩
  intro entries entries' config' hconfig hconfig' hperm hsingle
  refine Catalog.load_eq_ok_iff.mpr ⟨dss, h, ?_⟩
  rw [Config.keywords_of_perm hconfig hconfig' hperm hsingle]

/-- A configuration that has one word in two lists and another that is builtin. -/
def sharedLists : Config where
  keywords
    | .option => ["solo".toList]
    | .directive => ["solo".toList, "net".toList]
    | _ => []

/-- A keyword file with an entry for two words. -/
def laterFile : Item :=
  .file ⟨Utf8.encode "- category: option\n  keywords: [late, solo]\n".toList, .full⟩

/-- A keyword file that is a single entry. -/
def earlierFile : Item :=
  .file ⟨Utf8.encode "category: dbus_option\nkeywords: [late]\n".toList, .full⟩

/-- A working directory with two keyword files that share a word. -/
def sharedWords : FileTree :=
  let directory := KeywordFile.directoryName
  ((FileTree.empty.put [directory] .directory).put [directory, "b.yaml".toList] laterFile).put
    [directory, "a.yml".toList] earlierFile

/-- The builtin category of a word counts, then the first list of the configuration, and then the
first file by name. -/
theorem load_resolves_sharedWords :
    ∃ k, Catalog.load sharedLists sharedWords [] = .ok k ∧
      k.classify "net".toList = some .option ∧ k.classify "solo".toList = some .directive ∧
      k.classify "late".toList = some .dbusOption := by
  have hearlier : FileDeclares earlierFile [("late".toList, .dbusOption)] := by
    have hread : KeywordFile.ofFile [] ("a.yml".toList, earlierFile) =
        .ok [("late".toList, .dbusOption)] := by decide +kernel
    exact KeywordFile.ofFile_eq_ok_iff.mp hread
  have hlater : FileDeclares laterFile
      [("late".toList, .option), ("solo".toList, .option)] := by
    have hread : KeywordFile.ofFile [] ("b.yaml".toList, laterFile) =
        .ok [("late".toList, .option), ("solo".toList, .option)] := by decide +kernel
    exact KeywordFile.ofFile_eq_ok_iff.mp hread
  have hfiles : keywordFiles sharedWords =
      [("a.yml".toList, earlierFile), ("b.yaml".toList, laterFile)] := by decide +kernel
  have hdeclare : List.Forall₂ (fun file => FileDeclares file.2) (keywordFiles sharedWords)
      [[("late".toList, .dbusOption)], [("late".toList, .option), ("solo".toList, .option)]] :=
    hfiles ▸ .cons hearlier (.cons hlater .nil)
  obtain ⟨-, k, hload, hresolves, -⟩ := Catalog.load_resolves sharedLists [] hdeclare
  refine ⟨k, hload, hresolves.classify_builtin .option "net" (by decide),
    (hresolves.classify_eq_some _ _).mpr ?_, (hresolves.classify_eq_some _ _).mpr ?_⟩
  all_goals
    refine find?_eq_some_iff_firstDeclared.mp ?_
    decide +kernel

end SandboxProfile
