import SandboxProfile.Proofs.Config.Load

/-!
# Where the settings of a configuration come from

Each setting of a configuration that was loaded comes from the environment, or else from the file
in use, or else it has its default. A value that a file gives is taken as it is, so the settings
of a configuration can be compared with values of the file, and the check that refuses values of
the file can be made of the configuration itself: nothing that is loaded fails it, because the
file was checked, and neither the environment nor a default can have a value that a file could
not have.

## Main definitions

* `Config.valueOf` is a setting of a configuration as the value that a file would give it.
* `Environment.value?` is the value that the environment gives a setting.
* `Config.InUse` says which table the settings are looked up in.

## Main results

* `Config.valueOf_ofTable` — the settings of the configuration that a table stands for.
* `Config.valueOf_load` — the settings of a configuration that was loaded.
* `Config.accepts_valueOf_load` — they are values that the settings can have.
-/

namespace SandboxProfile

variable {t : FileTree} {root : Text} {override : Option Text} {environment : Environment}

/-! ### Values -/

namespace Value

/-- An integer that is accepted is the value. -/
theorem int_of_integerFrom? {least i : Int} {v : Value} (h : v.integerFrom? least = some i) :
    Value.int i = v := by
  cases v with
  | int j =>
      rw [integerFrom?] at h
      split at h
      · rw [Option.some.inj h]
      · cases h
  | _ => cases h

/-- A truth value that is accepted is the value. -/
theorem bool_of_truth? {b : Bool} {v : Value} (h : v.truth? = some b) : Value.bool b = v := by
  cases v with
  | bool b' => rw [Option.some.inj h]
  | _ => cases h

/-- A form of output that is accepted is named by the value. -/
theorem text_of_format? {f : OutputFormat} {v : Value} (h : v.format? = some f) :
    Value.text f.name.toList = v := by
  cases v with
  | text s =>
      have hname := List.find?_some h
      rw [of_decide_eq_true hname]
  | _ => cases h

/-- Values that are all texts are these texts. -/
theorem map_text_of_allTexts? {vs : List Value} {ts : List Text} (h : allTexts? vs = some ts) :
    ts.map Value.text = vs := by
  induction vs generalizing ts with
  | nil =>
      obtain rfl := Option.some.inj h
      rfl
  | cons v rest ih =>
      cases v with
      | text s =>
          obtain ⟨ts', hts', rfl⟩ := Option.map_eq_some_iff.mp h
          rw [List.map_cons, ih hts']
      | _ => cases h

/-- A list of texts that is accepted is the value. -/
theorem ofTexts_of_texts? {ts : List Text} {v : Value} (h : v.texts? = some ts) :
    Value.ofTexts ts = v := by
  cases v with
  | list vs => rw [ofTexts, map_text_of_allTexts? h]
  | _ => cases h

/-- An integer that is large enough is accepted, and nothing else. -/
theorem isSome_integerFrom?_iff {least : Int} {v : Value} :
    (v.integerFrom? least).isSome = true ↔ ∃ i, v = .int i ∧ least ≤ i := by
  cases v with
  | int i => by_cases h : least ≤ i <;> simp [integerFrom?, h]
  | _ => simp [integerFrom?]

/-- A list of texts is accepted, and nothing else. -/
theorem isSome_texts?_iff {v : Value} :
    v.texts?.isSome = true ↔ ∃ texts : List Text, v = .list (texts.map .text) := by
  constructor
  · intro h
    obtain ⟨texts, htexts⟩ := Option.isSome_iff_exists.mp h
    exact ⟨texts, (ofTexts_of_texts? htexts).symm⟩
  · rintro ⟨texts, rfl⟩
    exact congrArg Option.isSome (texts?_ofTexts texts)

theorem ofTexts_injective {ts us : List Text} (h : ofTexts ts = ofTexts us) : ts = us :=
  Option.some.inj ((texts?_ofTexts ts).symm.trans ((congrArg _ h).trans (texts?_ofTexts us)))

end Value

theorem OutputFormat.name_injective {f g : OutputFormat} (h : f.name = g.name) : f = g :=
  Option.some.inj ((ofName?_name f).symm.trans ((congrArg _ (congrArg _ h)).trans (ofName?_name g)))

/-! ### Settings as values -/

namespace Config

/-- A setting of a configuration, as the value that a file would give it. -/
def valueOf (c : Config) : Setting → Value
  | .offset => .int c.indent.offset
  | .tabWidth => .int c.indent.tabWidth
  | .useTabs => .bool c.indent.useTabs
  | .format => .text c.format.name.toList
  | .extensions => Value.ofTexts c.extensions
  | .exclude => Value.ofTexts c.exclude
  | .keywords category => Value.ofTexts (c.keywords category)

/-- A configuration is told by its settings. -/
theorem ext_valueOf {c d : Config} (h : ∀ s, c.valueOf s = d.valueOf s) : c = d := by
  obtain ⟨⟨offset, useTabs, tabWidth⟩, format, extensions, exclude, keywords⟩ := c
  obtain ⟨⟨offset', useTabs', tabWidth'⟩, format', extensions', exclude', keywords'⟩ := d
  obtain rfl : offset = offset' := Value.int.inj (h .offset)
  obtain rfl : useTabs = useTabs' := Value.bool.inj (h .useTabs)
  obtain rfl : tabWidth = tabWidth' := Value.int.inj (h .tabWidth)
  obtain rfl : format = format' :=
    OutputFormat.name_injective (String.toList_injective (Value.text.inj (h .format)))
  obtain rfl : extensions = extensions' := Value.ofTexts_injective (h .extensions)
  obtain rfl : exclude = exclude' := Value.ofTexts_injective (h .exclude)
  obtain rfl : keywords = keywords' :=
    funext fun category => Value.ofTexts_injective (h (.keywords category))
  rfl

/-- The settings can have their values exactly if the offset is not negative and a tab has a
column. The types of the other settings exclude all other values. -/
theorem accepts_valueOf_iff {c : Config} :
    (∀ s : Setting, s.accepts (c.valueOf s) = true) ↔
      0 ≤ c.indent.offset ∧ 1 ≤ c.indent.tabWidth := by
  have hinteger (least i : Int) :
      ((Value.int i).integerFrom? least).isSome = true ↔ least ≤ i := by
    simp [Value.isSome_integerFrom?_iff]
  constructor
  · intro h
    exact ⟨(hinteger 0 _).mp (h .offset), (hinteger 1 _).mp (h .tabWidth)⟩
  · rintro ⟨hoffset, hwidth⟩ s
    cases s with
    | offset => exact (hinteger 0 _).mpr hoffset
    | tabWidth => exact (hinteger 1 _).mpr hwidth
    | useTabs => rfl
    | format => exact congrArg Option.isSome (OutputFormat.ofName?_name c.format)
    | extensions | exclude | keywords => exact congrArg Option.isSome (Value.texts?_ofTexts _)

end Config

/-- The value that the environment gives a setting. -/
def Environment.value? (e : Environment) : Setting → Option Value
  | .offset => e.offset?.map .int
  | .useTabs => e.tabs?.map .bool
  | .format => e.format?.map fun f => .text f.name.toList
  | _ => none

/-- The environment comes before the configuration. -/
theorem Environment.valueOf_apply (e : Environment) (c : Config) (s : Setting) :
    (e.apply c).valueOf s = (e.value? s).getD (c.valueOf s) := by
  cases s with
  | offset => cases h : e.offset? <;> simp [Config.valueOf, apply, value?, h]
  | useTabs => cases h : e.tabs? <;> simp [Config.valueOf, apply, value?, h]
  | format => cases h : e.format? <;> simp [Config.valueOf, apply, value?, h]
  | tabWidth | extensions | exclude | keywords => rfl

/-- The environment gives no setting a value that it cannot have. -/
theorem Environment.accepts_value? {e : Environment} {s : Setting} {v : Value}
    (h : e.value? s = some v) : s.accepts v = true := by
  cases s with
  | offset =>
      obtain ⟨i, hi, rfl⟩ := Option.map_eq_some_iff.mp h
      obtain ⟨text, -, hi⟩ := Option.bind_eq_some_iff.mp hi
      obtain ⟨j, -, hj⟩ := Option.bind_eq_some_iff.mp hi
      split at hj
      · rename_i hpos
        obtain rfl := Option.some.inj hj
        simp [Setting.accepts, Value.integerFrom?, hpos]
      · cases hj
  | useTabs =>
      obtain ⟨b, -, rfl⟩ := Option.map_eq_some_iff.mp h
      rfl
  | format =>
      obtain ⟨f, -, rfl⟩ := Option.map_eq_some_iff.mp h
      exact congrArg Option.isSome (OutputFormat.ofName?_name f)
  | tabWidth | extensions | exclude | keywords => cases h

/-! ### Tables -/

/-- A setting that was read has its value in the table, or else its default, and a value in the
table is one that it can have. -/
theorem Setting.read_eq_ok {α : Type} {s : Setting} {accept : Value → Option α} {fallback a : α}
    {section_ : Entries} {toValue : α → Value} (htoValue : ∀ v b, accept v = some b → toValue b = v)
    (haccepts : ∀ v, s.accepts v = (accept v).isSome)
    (h : s.read accept fallback section_ = .ok a) :
    toValue a = (s.value? section_).getD (toValue fallback) ∧
      ∀ v, s.value? section_ = some v → s.accepts v = true := by
  rw [read] at h
  cases hvalue : s.value? section_ with
  | none =>
      rw [hvalue] at h
      obtain rfl := Except.ok.inj h
      refine ⟨rfl, ?_⟩
      rintro v ⟨⟩
  | some v =>
      rw [hvalue] at h
      dsimp only at h
      cases haccept : accept v with
      | none =>
          rw [haccept] at h
          cases hliteral : v.literal? <;> rw [hliteral] at h <;> cases h
      | some b =>
          rw [haccept] at h
          obtain rfl := Except.ok.inj h
          refine ⟨htoValue v b haccept, fun w hw => ?_⟩
          obtain rfl := Option.some.inj hw
          rw [haccepts, haccept]
          rfl

/-- The keywords that were read are those of each category. -/
theorem readKeywords_eq_ok {section_ : Entries} {keywords : Category → List Text}
    (h : readKeywords section_ = .ok keywords) (c : Category) :
    (Setting.keywords c).read Value.texts? [] section_ = .ok (keywords c) := by
  rw [readKeywords] at h
  obtain ⟨directive, hdirective, h⟩ := bind_eq_ok.mp h
  obtain ⟨option, hoption, h⟩ := bind_eq_ok.mp h
  obtain ⟨privateOption, hprivateOption, h⟩ := bind_eq_ok.mp h
  obtain ⟨dbusOption, hdbusOption, h⟩ := bind_eq_ok.mp h
  obtain ⟨specialOption, hspecialOption, h⟩ := bind_eq_ok.mp h
  obtain ⟨landlockOption, hlandlockOption, h⟩ := bind_eq_ok.mp h
  obtain ⟨allowOption, hallowOption, h⟩ := bind_eq_ok.mp h
  obtain rfl := pure_eq_ok.mp h
  cases c with
  | directive => exact hdirective
  | option => exact hoption
  | privateOption => exact hprivateOption
  | dbusOption => exact hdbusOption
  | specialOption => exact hspecialOption
  | landlockOption => exact hlandlockOption
  | allowOption => exact hallowOption

/-- A section that is reported as a table is one. -/
theorem Section.entriesIn_of_report {s : Section} {entries inner : Entries}
    (h : report (s.table entries) = .ok inner) : s.entriesIn entries = inner := by
  cases htable : s.table entries with
  | ok found =>
      rw [htable] at h
      obtain rfl := Except.ok.inj h
      exact Section.entriesIn_eq htable
  | error e =>
      rw [htable] at h
      cases h

/-- **The settings of the configuration that a table stands for** are those of the table, or else
the defaults, and the table has no value that its setting cannot have. -/
theorem Config.valueOf_ofTable {entries : Entries} {c : Config} (h : Config.ofTable entries = .ok c)
    (s : Setting) :
    c.valueOf s = (s.valueIn? entries).getD (({} : Config).valueOf s) ∧
      ∀ v, s.valueIn? entries = some v → s.accepts v = true := by
  rw [Config.ofTable] at h
  obtain ⟨indent, hindent, h⟩ := bind_eq_ok.mp h
  obtain ⟨output, houtput, h⟩ := bind_eq_ok.mp h
  obtain ⟨files, hfiles, h⟩ := bind_eq_ok.mp h
  obtain ⟨keywords, hkeywords, h⟩ := bind_eq_ok.mp h
  obtain ⟨offset, hoffset, h⟩ := bind_eq_ok.mp h
  obtain ⟨tabWidth, htabWidth, h⟩ := bind_eq_ok.mp h
  obtain ⟨useTabs, huseTabs, h⟩ := bind_eq_ok.mp h
  obtain ⟨format, hformat, h⟩ := bind_eq_ok.mp h
  obtain ⟨extensions, hextensions, h⟩ := bind_eq_ok.mp h
  obtain ⟨exclude, hexclude, h⟩ := bind_eq_ok.mp h
  obtain ⟨lists, hlists, h⟩ := bind_eq_ok.mp h
  obtain rfl := pure_eq_ok.mp h
  have hindent := Section.entriesIn_of_report hindent
  have houtput := Section.entriesIn_of_report houtput
  have hfiles := Section.entriesIn_of_report hfiles
  have hkeywords := Section.entriesIn_of_report hkeywords
  subst hindent houtput hfiles hkeywords
  cases s with
  | offset => exact Setting.read_eq_ok (fun _ _ => Value.int_of_integerFrom?) (fun _ => rfl) hoffset
  | tabWidth =>
      exact Setting.read_eq_ok (fun _ _ => Value.int_of_integerFrom?) (fun _ => rfl) htabWidth
  | useTabs => exact Setting.read_eq_ok (fun _ _ => Value.bool_of_truth?) (fun _ => rfl) huseTabs
  | format =>
      have hvalue : ∀ v (f : OutputFormat), v.format? = some f → Value.text f.name.toList = v :=
        fun _ _ => Value.text_of_format?
      exact Setting.read_eq_ok hvalue (fun _ => rfl) hformat
  | extensions =>
      exact Setting.read_eq_ok (fun _ _ => Value.ofTexts_of_texts?) (fun _ => rfl) hextensions
  | exclude => exact Setting.read_eq_ok (fun _ _ => Value.ofTexts_of_texts?) (fun _ => rfl) hexclude
  | keywords category =>
      exact Setting.read_eq_ok (fun _ _ => Value.ofTexts_of_texts?) (fun _ => rfl)
        (readKeywords_eq_ok hlists category)

/-! ### Loading -/

/-- The table that the settings are looked up in: that of the file in use, and an empty one if
there is no file. -/
inductive Config.InUse (t : FileTree) (root : Text) (override : Option Text) : Entries → Prop where
  /-- There is no file. -/
  | none : ConfigFile.find t root override = .ok .none → InUse t root override []
  /-- There is a file that holds the table. -/
  | file {file : ConfigFile} {entries : Entries} :
      ConfigFile.find t root override = .ok (some file) → file.table t = .ok entries →
      InUse t root override entries

theorem Config.ofTable_nil : Config.ofTable [] = .ok {} := by
  have hkeywords : readKeywords [] = .ok fun _ => [] :=
    congrArg Except.ok (funext fun c => by cases c <;> rfl)
  have hread : Config.ofTable [] = (do
      let keywords ← readKeywords []
      return { keywords := keywords }) := rfl
  rw [hread, hkeywords]
  rfl

/-- Loading depends on the table in use and on the environment. -/
theorem Config.load_of_inUse {entries : Entries} (h : Config.InUse t root override entries) :
    Config.load t root override environment =
      (do return environment.apply (← Config.ofTable entries)) := by
  cases h with
  | none hfind =>
      rw [Config.load, hfind, ofTable_nil]
      rfl
  | @file file entries hfind htable =>
      have hfile : Config.ofFile t (some file) = Config.ofTable entries := by
        rw [Config.ofFile, htable]
        rfl
      rw [Config.load, hfind, ← hfile]
      rfl

/-- A configuration is loaded from the table in use and the environment. -/
theorem Config.load_eq_ok_iff {c : Config} :
    Config.load t root override environment = .ok c ↔
      ∃ entries d, Config.InUse t root override entries ∧ Config.ofTable entries = .ok d ∧
        environment.apply d = c := by
  constructor
  · intro h
    obtain ⟨found, hfind, h⟩ := bind_eq_ok.mp h
    obtain ⟨d, hfile, h⟩ := bind_eq_ok.mp h
    have happly := pure_eq_ok.mp h
    cases found with
    | none =>
        obtain rfl := Except.ok.inj hfile
        exact ⟨[], {}, .none hfind, ofTable_nil, happly⟩
    | some file =>
        obtain ⟨entries, htable, hd⟩ := bind_eq_ok.mp hfile
        exact ⟨entries, d, .file hfind htable, hd, happly⟩
  · rintro ⟨entries, d, huse, hd, rfl⟩
    rw [load_of_inUse huse]
    exact bind_eq_ok.mpr ⟨d, hd, rfl⟩

/-- **The settings of a configuration that was loaded** come from the environment, or else from
the table in use, or else they are the defaults. -/
theorem Config.valueOf_load {c : Config}
    (h : Config.load t root override environment = .ok c) :
    ∃ entries, Config.InUse t root override entries ∧
      (∀ s v, Setting.valueIn? s entries = some v → s.accepts v = true) ∧
      ∀ s, c.valueOf s = (environment.value? s).getD
        ((s.valueIn? entries).getD (({} : Config).valueOf s)) := by
  obtain ⟨entries, d, huse, hd, rfl⟩ := Config.load_eq_ok_iff.mp h
  refine ⟨entries, huse, fun s => (valueOf_ofTable hd s).2, fun s => ?_⟩
  rw [Environment.valueOf_apply, (valueOf_ofTable hd s).1]

/-- The settings can have their default values. -/
theorem Config.accepts_valueOf_default (s : Setting) :
    s.accepts (({} : Config).valueOf s) = true :=
  accepts_valueOf_iff.mpr ⟨by decide, by decide⟩ s

/-- **The settings of a configuration that was loaded** can have their values. -/
theorem Config.accepts_valueOf_load {c : Config}
    (h : Config.load t root override environment = .ok c) (s : Setting) :
    s.accepts (c.valueOf s) = true := by
  obtain ⟨entries, -, haccepts, hvalue⟩ := valueOf_load h
  rw [hvalue]
  cases henvironment : environment.value? s with
  | some v => exact Environment.accepts_value? henvironment
  | none =>
      cases htable : s.valueIn? entries with
      | some v => exact haccepts s v htable
      | none => exact accepts_valueOf_default s

end SandboxProfile
