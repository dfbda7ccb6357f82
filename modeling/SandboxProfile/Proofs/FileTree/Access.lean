import SandboxProfile.FileTree.Access
import SandboxProfile.Proofs.Except

/-!
# Files that can be read and written

What it takes to read a file and to write one is spread over the steps of following its path.
Here it is collected in one place: where the path leads, what is there, and what the path may
look like.

## Main definitions

* `FileTree.Leads` says that a path leads to a file.

## Main results

* `FileTree.read_eq_ok` — what is read is in a file to which the path leads.
* `FileTree.read_eq_fault_iff` — only a path with a NUL is a fault.
* `FileTree.Leads.write` — such a file is rewritten at its place.
-/

namespace SandboxProfile

namespace FileTree

variable {t : FileTree} {path : Text} {l : Location} {f : File}

/-- The path leads to a file at a place, and can be used to open it. -/
structure Leads (t : FileTree) (path : Text) (l : Location) (f : File) : Prop where
  /-- The path leads to the place. -/
  locate : t.locate path = .ok l
  /-- The file is there. -/
  get? : t.get? l = some (.file f)
  /-- The path demands no directory. -/
  no_slash : Path.endsInSlash path = false
  /-- The path holds no NUL. -/
  no_nul : path.contains '\x00' = false

/-- A file that is found is at the place to which the path leads. -/
theorem find_file_eq_ok (h : t.find path = .ok (l, .file f)) :
    t.locate path = .ok l ∧ t.get? l = some (.file f) ∧ Path.endsInSlash path = false := by
  obtain ⟨l', hl, h⟩ := bind_eq_ok.mp h
  cases hv : t.get? l' with
  | none =>
      rw [hv] at h
      cases h
  | some v =>
      rw [hv] at h
      cases v with
      | directory => cases pure_eq_ok.mp h
      | file g =>
          dsimp only at h
          split at h
          · cases h
          · rename_i hslash
            cases pure_eq_ok.mp h
            exact ⟨hl, hv, by simpa using hslash⟩

theorem Leads.find (h : t.Leads path l f) : t.find path = .ok (l, .file f) := by
  simp [FileTree.find, h.locate, h.get?, h.no_slash, bind, Except.bind, pure, Except.pure]

/-- A path that leads to a file can be used to read it. -/
theorem Leads.read (h : t.Leads path l f) (ha : f.access ≠ .none) :
    t.read path = .ok f.content := by
  rw [FileTree.read, h.no_nul, h.find]
  exact if_neg ha

/-- What is read is in a file to which the path leads. -/
theorem read_eq_ok {bytes : List UInt8} (h : t.read path = .ok bytes) :
    ∃ l f, t.Leads path l f ∧ f.access ≠ .none ∧ f.content = bytes := by
  unfold FileTree.read at h
  split at h
  · cases h
  · rename_i hnul
    split at h
    · cases h
    · cases h
    · rename_i l f hfind
      split at h
      · cases h
      · rename_i haccess
        obtain ⟨hl, hf, hslash⟩ := find_file_eq_ok hfind
        exact ⟨l, f, ⟨hl, hf, hslash, by simpa using hnul⟩, haccess, Except.ok.inj h⟩

/-- Only a path that holds a NUL is a fault. -/
theorem read_eq_fault_iff {e : Fault} :
    t.read path = .error (.fault e) ↔ path.contains '\x00' = true ∧ e = .nulInPath := by
  rw [FileTree.read]
  by_cases hnul : path.contains '\x00' = true
  · rw [if_pos hnul, Except.error.injEq, Failure.fault.injEq]
    exact ⟨fun h => ⟨hnul, h.symm⟩, fun h => h.2.symm⟩
  · rw [if_neg hnul]
    refine ⟨fun h => ?_, fun h => absurd h.1 hnul⟩
    split at h
    · cases h
    · cases h
    · split at h
      · cases h
      · cases h

/-- A path leads to one file only. -/
theorem Leads.unique {m : Location} {g : File} (h : t.Leads path l f) (h' : t.Leads path m g) :
    l = m ∧ f = g := by
  obtain rfl : l = m := Except.ok.inj (h.locate.symm.trans h'.locate)
  have hfile : Item.file f = .file g := Option.some.inj (h.get?.symm.trans h'.get?)
  exact ⟨rfl, Item.file.inj hfile⟩

/-- **A file to which a path leads is rewritten at its place.** -/
theorem Leads.write (h : t.Leads path l f) (ha : f.access = .full) (bytes : List UInt8) :
    t.write path bytes = .ok (t.put l (.file ⟨bytes, .full⟩)) := by
  have hat : t.writeAt l bytes = .ok (t.put l (.file ⟨bytes, .full⟩)) := by
    rw [writeAt, h.get?]
    exact if_pos ha
  rw [FileTree.write, h.no_nul]
  simp [reportAccess, h.locate, h.no_slash, hat, bind, Except.bind]

end FileTree

end SandboxProfile
