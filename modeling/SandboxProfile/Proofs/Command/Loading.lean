import SandboxProfile.Command.Run
import SandboxProfile.Proofs.Except
import SandboxProfile.Proofs.FileTree.Alike
import SandboxProfile.Proofs.Profile.Discovery

/-!
# What loading depends on

A command looks at the tree to find its configuration and its keyword files. Of the bytes of
files, only those of the configuration and of the keyword files decide what is loaded.

## Main results

* `config_of_load` — the configuration of a run has been loaded.
* `load_of_alike` — the same configuration and catalog are loaded.
-/

namespace SandboxProfile

/-! ### Results and failures -/

theorem orStop_eq_ok {ε α : Type} {notes : List Note} {note : ε → Note}
    {x : Except (Failure ε) α} {a : α} (h : orStop notes note x = .ok a) : x = .ok a := by
  cases x with
  | ok b => exact congrArg _ (Except.ok.inj h)
  | error e => cases h

theorem orStop_eq_error {ε α : Type} {notes : List Note} {note : ε → Note}
    {x : Except (Failure ε) α} {stop : Stop} (h : orStop notes note x = .error stop) :
    ∃ e, x = .error e ∧ stop = Stop.ofFailure notes note e := by
  cases x with
  | ok a => cases h
  | error e => exact ⟨e, rfl, (Except.error.inj h).symm⟩

/-- The configuration of a run has been loaded. -/
theorem config_of_load {s : Surroundings} {o : CommonOptions} {loaded : Loaded}
    (h : load s o = .ok loaded) :
    Config.load s.tree s.root o.config s.environment = .ok loaded.config := by
  obtain ⟨config, hconfig, h⟩ := bind_eq_ok.mp h
  obtain ⟨catalog, -, h⟩ := bind_eq_ok.mp h
  obtain rfl := pure_eq_ok.mp h
  exact orStop_eq_ok hconfig

variable {R : Location → File → File → Prop} {t u : FileTree}

/-! ### Configuration and keywords -/

/-- The same configuration file is found. -/
theorem configFile_of_alike (h : t.Alike R u) (root : Text) (override : Option Text) :
    ConfigFile.find u root override = ConfigFile.find t root override := by
  unfold ConfigFile.find
  split
  · rw [h.isFile]
  · rw [h.isFile]
  · simp only [h.isFile, h.isTooLong]

/-- The same configuration is loaded if its file has not changed. -/
theorem config_of_alike (h : t.Alike R u) (root : Text) (override : Option Text)
    (environment : Environment)
    (hread : ∀ f, ConfigFile.find t root override = .ok (some f) → u.read f.path = t.read f.path) :
    Config.load u root override environment = Config.load t root override environment := by
  rw [Config.load, Config.load, configFile_of_alike h]
  cases hfind : ConfigFile.find t root override with
  | error e => rfl
  | ok file =>
      cases file with
      | none => rfl
      | some f =>
          have htable : f.table u = f.table t := by
            rw [ConfigFile.table, ConfigFile.table, hread f hfind]
          have hof : Config.ofFile u (some f) = Config.ofFile t (some f) := by
            rw [Config.ofFile, Config.ofFile, htable]
          simp only [bind, Except.bind, hof]

/-- The same catalog is loaded if no keyword file has changed. -/
theorem catalog_of_alike (h : t.Alike R u) (config : Config) (root : Text)
    (hsame : ∀ d name f g, t.directory? (Path.normal KeywordFile.directoryName) = some d →
      R (d ++ [name]) f g → g = f) :
    Catalog.load config u root = Catalog.load config t root := by
  have hall (shown : Text) : KeywordFile.readAll u KeywordFile.directoryName shown =
      KeywordFile.readAll t KeywordFile.directoryName shown := by
    rw [KeywordFile.readAll, KeywordFile.readAll, h.directory?, h.isTooLong]
    cases hd : t.directory? (Path.normal KeywordFile.directoryName) with
    | none => rfl
    | some d =>
        have hchildren := h.children fun name f g => hsame d name f g hd
        simp only [hchildren]
  rw [Catalog.load, Catalog.load, Catalog.loadFrom, Catalog.loadFrom]
  simp only [hall]

/-- **The same configuration and catalog are loaded** if neither the configuration file nor a
keyword file has changed. -/
theorem load_of_alike {s : Surroundings} (h : s.tree.Alike R u) (o : CommonOptions)
    (hconfig : ∀ f l g g', ConfigFile.find s.tree s.root o.config = .ok (some f) →
      s.tree.locate f.path = .ok l → R l g g' → g' = g)
    (hkeywords : ∀ d name g g', s.tree.directory? (Path.normal KeywordFile.directoryName) = some d →
      R (d ++ [name]) g g' → g' = g) :
    load { s with tree := u } o = load s o := by
  have hpath : configPath? { s with tree := u } o.config = configPath? s o.config := by
    rw [configPath?, configPath?, configFile_of_alike h]
  rw [load, load, hpath]
  simp only [config_of_alike h s.root o.config s.environment fun f hf =>
    h.read fun l g g' hl hR => hconfig f l g g' hf hl hR,
    catalog_of_alike h _ s.root hkeywords]

end SandboxProfile
