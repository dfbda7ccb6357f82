import SandboxProfile.Proofs.Command.Modes

/-!
# Inputs that cannot be read

A command that shows or formats profiles reads all of its inputs before it prints or writes
anything. So a single input that cannot be read, wherever it stands among the others, leaves
the output empty and all files as they are. What the command reports is the first failure, in
the order in which the inputs are discovered. Two kinds of paths are not reported but end the
run at once: one that is too long to ask whether a directory is at it, and one that holds a
NUL.

## Main definitions

* `Command.inputs` are the paths of the inputs in the order of their discovery.
* `Prepared` says that everything is loaded that a command needs apart from its inputs.
* `StopsAtFirst` is a run that reports the first failure and does nothing else.

## Main results

* `run_of_read_error` — a run whose inputs cannot be read.
* `stopsAtFirst_iff` — such a run does nothing, and when it reports the first failure.
-/

namespace SandboxProfile

/-! ### Statement -/

/-- The paths that a command asks for: that of the standard input if it is given none. -/
def Command.asked (c : Command) : List Text :=
  if c.paths = [] then [standardInput] else c.paths

/-- The paths of the inputs of a command, in the order of their discovery. -/
def Command.inputs (c : Command) (config : Config) (t : FileTree) : List Text :=
  discover config t c.asked

/-- The command shows or formats profiles. Its configuration and its catalog are loaded, and
there is a form of output for what it shows. -/
inductive Prepared (s : Surroundings) (loaded : Loaded) : Command → Prop where
  /-- The profiles can be shown. -/
  | highlight {o : HighlightOptions} {form : OutputFormat} :
      load s o.common = .ok loaded →
      chooseFormat loaded.config loaded.notes o.format = .ok form →
      Prepared s loaded (.highlight o)
  /-- The profiles can be formatted. -/
  | format {o : FormatOptions} : load s o.common = .ok loaded → Prepared s loaded (.format o)

/-- The run ends with an error code, prints nothing, changes no file, and reports the failure of
the first input that cannot be read. -/
structure StopsAtFirst (s : Surroundings) (loaded : Loaded) (c : Command) (o : Outcome) :
    Prop where
  /-- It ends with an error code. -/
  ending : o.ending = .exit 2
  /-- It prints nothing. -/
  output : o.output = []
  /-- It changes no file. -/
  tree : o.tree = s.tree
  /-- It reports the first failure. -/
  first : ∃ path e,
    FirstError (readAt s.tree s.input) (c.inputs loaded.config s.tree) path (.reported e) ∧
      o.notes = loaded.notes ++ [.failed e]

/-! ### Runs that stop -/

variable {s : Surroundings} {loaded : Loaded} {c : Command}

/-- A run whose inputs cannot be read stops with their failure. -/
theorem run_of_read_error (hc : Prepared s loaded c) {e : Failure ProfileError}
    (h : readProfiles loaded.config s.tree s.input c.asked = .error e) :
    c.run s = (Stop.ofFailure loaded.notes .failed e).outcome s.tree := by
  have hall (o : CommonOptions) : readAllProfiles s loaded.config o c.paths loaded.notes =
      .error (Stop.ofFailure loaded.notes .failed e) := by
    have hread : readProfiles loaded.config s.tree s.input
        (if c.paths = [] then [standardInput] else c.paths) = .error e := h
    rw [readAllProfiles, hread]
    rfl
  cases hc with
  | @highlight o form hload hform =>
      have hpaths : readAllProfiles s loaded.config o.common o.paths loaded.notes =
          .error (Stop.ofFailure loaded.notes .failed e) := hall o.common
      rw [Command.run, runHighlight]
      simp only [hload, hform, hpaths, bind, Except.bind]
      rfl
  | @format o hload =>
      have hpaths : readAllProfiles s loaded.config o.common o.paths loaded.notes =
          .error (Stop.ofFailure loaded.notes .failed e) := hall o.common
      rw [Command.run, runFormat]
      simp only [hload, hpaths, bind, Except.bind]
      rfl

theorem output_of_stop (stop : Stop) (t : FileTree) : (stop.outcome t).output = [] := rfl

/-- The inputs of a command cannot be read if one of them cannot: a path is too long, or there
is a first failure. -/
theorem readProfiles_of_not_canRead {config : Config} {t : FileTree} {input : List UInt8}
    (hfails : ∃ path ∈ c.inputs config t, ¬CanRead t input path) :
    (holdsTooLong t c.asked = true ∧
        readProfiles config t input c.asked = .error (.fault .pathTooLong)) ∨
      (holdsTooLong t c.asked = false ∧
        ∃ path e, FirstError (readAt t input) (c.inputs config t) path e ∧
          readProfiles config t input c.asked = .error e) := by
  cases hlong : holdsTooLong t c.asked with
  | true => exact .inl ⟨rfl, by rw [readProfiles, hlong, if_pos rfl]⟩
  | false =>
      obtain ⟨path, hpath, hfails⟩ := hfails
      obtain ⟨first, e, hfirst⟩ : ∃ first e, FirstError (readAt t input) (c.inputs config t)
          first e := exists_firstError ⟨path, hpath, fun h => hfails (readAt_ok_iff.mp h)⟩
      refine .inr ⟨rfl, first, e, hfirst, ?_⟩
      rw [readProfiles, hlong]
      exact readPaths_eq_error_iff.mpr ⟨first, hfirst⟩

/-- **Nothing is printed and no file changes if an input cannot be read**, wherever it stands
among the others. The first failure is what is reported, unless a path is too long or the first
input that cannot be read has a NUL in its path. -/
theorem stopsAtFirst_iff {arguments : List Text} (hline : Command.ofArguments arguments = .ok c)
    (hc : Prepared s loaded c)
    (hfails : ∃ path ∈ c.inputs loaded.config s.tree, ¬CanRead s.tree s.input path) :
    (runArguments s arguments).output = [] ∧ (runArguments s arguments).tree = s.tree ∧
      (StopsAtFirst s loaded c (runArguments s arguments) ↔
        holdsTooLong s.tree c.asked = false ∧
          ∀ path e, FirstError (readAt s.tree s.input) (c.inputs loaded.config s.tree) path e →
            path.contains '\x00' = false) := by
  have hrun : runArguments s arguments = c.run s := by rw [runArguments, hline]
  rw [hrun]
  rcases readProfiles_of_not_canRead hfails with
    ⟨hlong, hread⟩ | ⟨hshort, first, e, hfirst, hread⟩
  · rw [run_of_read_error hc hread]
    refine ⟨rfl, rfl, fun h => ?_, fun h => ?_⟩
    · cases h.ending
    · rw [hlong] at h
      cases h.1
  · rw [run_of_read_error hc hread]
    refine ⟨output_of_stop _ _, rfl, fun h => ⟨hshort, fun path e' hpath => ?_⟩, fun h => ?_⟩
    · -- The one failure that there is has been reported, so it is no fault.
      obtain ⟨rfl, rfl⟩ := hpath.unique hfirst
      cases hnul : path.contains '\x00' with
      | false => rfl
      | true =>
          have hfault : readAt s.tree s.input path = .error (.fault .nulInPath) :=
            readAt_eq_fault_iff.mpr ⟨hnul, rfl⟩
          obtain rfl : e' = .fault .nulInPath :=
            Except.error.inj (hpath.eq_error.2.symm.trans hfault)
          cases h.ending
    · cases e with
      | reported e => exact ⟨rfl, rfl, rfl, first, e, hfirst, rfl⟩
      | fault f =>
          have hnul := (readAt_eq_fault_iff.mp hfirst.eq_error.2).1
          rw [h.2 first _ hfirst] at hnul
          cases hnul

/-- A directory with one profile. -/
abbrev oneProfile : Surroundings :=
  directoryWith (Utf8.encode "net\n".toList)

/-- The command that writes this profile and another one. -/
abbrev writeTwo : Command :=
  .format { paths := ["a.profile".toList, "b".toList], write := true }

/-- The second of two profiles is missing, and the first one is not written. -/
theorem stopsAtFirst_iff_missing :
    Command.ofArguments ["format".toList, "-w".toList, "a.profile".toList, "b".toList] =
        .ok writeTwo ∧
      Prepared oneProfile builtinOnly writeTwo ∧
      ¬CanRead oneProfile.tree oneProfile.input "b".toList ∧
      StopsAtFirst oneProfile builtinOnly writeTwo (runArguments oneProfile
        ["format".toList, "-w".toList, "a.profile".toList, "b".toList]) := by
  have hline : Command.ofArguments
      ["format".toList, "-w".toList, "a.profile".toList, "b".toList] = .ok writeTwo := by
    decide +kernel
  have hc : Prepared oneProfile builtinOnly writeTwo := .format rfl
  have hmissing : readAt oneProfile.tree oneProfile.input "b".toList =
      .error (.reported (.missing "b".toList)) := rfl
  have hfails : ¬CanRead oneProfile.tree oneProfile.input "b".toList :=
    fun h => not_ok_of_error hmissing (readAt_ok_iff.mpr h)
  have hinput : "b".toList ∈ writeTwo.inputs builtinOnly.config oneProfile.tree :=
    List.mem_cons_of_mem _ List.mem_cons_self
  have hnul : ∀ path ∈ ["a.profile".toList, "b".toList], path.contains '\x00' = false := by
    decide
  refine ⟨hline, hc, hfails, (stopsAtFirst_iff hline hc ⟨_, hinput, hfails⟩).2.2.mpr ?_⟩
  exact ⟨rfl, fun path e h => hnul path h.eq_error.1⟩

/-- A name of one byte more than names may have. -/
def overlongName : Text :=
  List.replicate 256 'a'

/-- A missing file is not reported if its name is too long. -/
theorem not_stopsAtFirst_overlong :
    Command.ofArguments ["format".toList, overlongName] =
        .ok (.format { paths := [overlongName] }) ∧
      Prepared { tree := .empty, root := [] } builtinOnly (.format { paths := [overlongName] }) ∧
      ¬CanRead .empty [] overlongName ∧
      ¬StopsAtFirst { tree := .empty, root := [] } builtinOnly (.format { paths := [overlongName] })
        (runArguments { tree := .empty, root := [] } ["format".toList, overlongName]) := by
  have hline : Command.ofArguments ["format".toList, overlongName] =
      .ok (.format { paths := [overlongName] }) := by
    decide +kernel
  have hc : Prepared { tree := .empty, root := [] } builtinOnly
      (.format { paths := [overlongName] }) := .format rfl
  have hlocate : FileTree.empty.locate overlongName = .error .tooLong := by decide +kernel
  have hlong : holdsTooLong .empty [overlongName] = true := by decide +kernel
  refine ⟨hline, hc, fun h => ?_, fun h => ?_⟩
  · obtain ⟨l, f, text, hleads, -, -⟩ := (if_neg (by decide)).mp h
    rw [hleads.locate] at hlocate
    cases hlocate
  · have hread : readProfiles builtinOnly.config .empty [] [overlongName] =
        .error (.fault .pathTooLong) := by
      rw [readProfiles, hlong, if_pos rfl]
    have hending := h.ending
    rw [runArguments, hline] at hending
    dsimp only at hending
    rw [run_of_read_error hc hread] at hending
    cases hending

end SandboxProfile
