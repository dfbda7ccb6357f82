import SandboxProfile.Proofs.Command.Modes
import SandboxProfile.Proofs.Indent.Meaning

/-!
# Sessions

A session is one command line after another on the same files, each with its own environment
and standard input. A file that one command writes may be the configuration of the next, and
an error may stop a command after it has written some of its files. Whatever happens, no file
is lost: what a command writes to a file is the indented form of the text that was there, so
the file keeps its tokens, and by induction it keeps them for the whole session.

The invariant of one command that writes is that every file is as it was or `Rewritten`, and so
`Kept`; of the session, that the tree is `Preserved`.

## Main definitions

* `Call` is a command line with its environment and its standard input.
* `session` are the files after several calls.
* `Kept` relates a file to what may become of it, `Preserved` a tree to what may become of it.
* `CallSafe` says what a single call may do.

## Main results

* `emit_alike` — a run that writes leaves every file as it is or indented, even if an error stops
  it.
* `callSafe` and `preserved_call` — what one call does.
* `session_safe` — what a session does.
-/

namespace SandboxProfile

/-! ### Statement -/

/-- A command line with its environment and its standard input. -/
structure Call where
  arguments : List Text
  environment : Environment := {}
  input : List UInt8 := []

/-- What the call does to a tree whose working directory has the given path. -/
def Call.run (c : Call) (root : Text) (t : FileTree) : Outcome :=
  runArguments ⟨t, root, c.environment, c.input⟩ c.arguments

/-- The files after several calls, one after another. -/
def session (root : Text) (t : FileTree) (calls : List Call) : FileTree :=
  calls.foldl (fun u c => (c.run root u).tree) t

/-- May the command write to files that are there? -/
def Command.rewrites : Command → Bool
  | .format o => o.write && !o.check
  | _ => false

/-- May the call write to files that are there? -/
def Call.rewrites (c : Call) : Bool :=
  match Command.ofArguments c.arguments with
  | .ok command => command.rewrites
  | .error _ => false

/-- What may become of a file: it can be read and written as before, and either its bytes are the
same, or they were a text and are a text with the same tokens, comments included. -/
structure Kept (f g : File) : Prop where
  /-- It can be read and written as before. -/
  access : g.access = f.access
  /-- Its bytes or its tokens are the same. -/
  content : g.content = f.content ∨ ∃ s t,
    Utf8.decode f.content = .ok s ∧ Utf8.decode g.content = .ok t ∧
      (tokenize true t).map Token.content = (tokenize true s).map Token.content

/-- What may become of a tree. -/
structure Preserved (t u : FileTree) : Prop where
  /-- No file is lost, and every file is kept. -/
  files : ∀ l f, t.get? l = some (.file f) → ∃ g, u.get? l = some (.file g) ∧ Kept f g
  /-- No directory is lost. -/
  directories : ∀ l, t.get? l = some .directory → u.get? l = some .directory
  /-- Nothing is new but the configuration file. -/
  created : ∀ l, t.get? l = none → u.get? l ≠ none → l = [Config.fileName]

/-- What a single call may do. -/
structure CallSafe (root : Text) (t : FileTree) (c : Call) : Prop where
  /-- Something new is a configuration file to start from, by the command that creates it. -/
  created : ∀ l v, t.get? l = none → (c.run root t).tree.get? l = some v →
    l = [Config.fileName] ∧ v = .file ⟨Utf8.encode Config.starter, .full⟩ ∧
      Command.ofArguments c.arguments = .ok .init
  /-- Nothing that is there changes unless the call formats files in place. -/
  unchanged : c.rewrites = false → ∀ l v, t.get? l = some v →
    (c.run root t).tree.get? l = some v

/-! ### Files that are kept -/

theorem Kept.refl (f : File) : Kept f f :=
  ⟨rfl, .inl rfl⟩

/-- What becomes of a file that is kept is kept. -/
theorem Kept.trans {f g h : File} (hfg : Kept f g) (hgh : Kept g h) : Kept f h := by
  refine ⟨hgh.access.trans hfg.access, ?_⟩
  rcases hfg.content with hsame | ⟨s, t, hs, ht, htokens⟩
  · rw [← hsame]
    exact hgh.content
  · rcases hgh.content with hsame' | ⟨t', u, ht', hu, htokens'⟩
    · refine .inr ⟨s, t, hs, ?_, htokens⟩
      rw [hsame']
      exact ht
    · obtain rfl : t = t' := Except.ok.inj (ht.symm.trans ht')
      exact .inr ⟨s, u, hs, hu, htokens'.trans htokens⟩

/-- The bytes of a file that is no text stay as they are. -/
theorem Kept.eq_of_not_text {f g : File} (h : Kept f g)
    (htext : ∀ s, Utf8.decode f.content ≠ .ok s) : g = f := by
  rcases h.content with hsame | ⟨s, -, hs, -⟩
  · obtain ⟨content, access⟩ := f
    obtain ⟨content', access'⟩ := g
    obtain rfl : content' = content := hsame
    obtain rfl : access' = access := h.access
    rfl
  · exact absurd hs (htext s)

/-! ### Trees that are preserved -/

variable {t u v : FileTree}

theorem Preserved.refl (t : FileTree) : Preserved t t :=
  ⟨fun _ f hf => ⟨f, hf, .refl f⟩, fun _ hd => hd, fun _ hnone hsome => absurd hnone hsome⟩

/-- What becomes of a tree that is preserved is preserved. -/
theorem Preserved.trans (htu : Preserved t u) (huv : Preserved u v) : Preserved t v where
  files := by
    intro l f hf
    obtain ⟨g, hg, hfg⟩ := htu.files l f hf
    obtain ⟨h, hh, hgh⟩ := huv.files l g hg
    exact ⟨h, hh, hfg.trans hgh⟩
  directories := fun l hd => huv.directories l (htu.directories l hd)
  created := by
    intro l hnone hsome
    by_cases hu : u.get? l = none
    · exact huv.created l hu hsome
    · exact htu.created l hnone hu

/-- A tree whose files are kept at their places is preserved, and has nothing new. -/
theorem Preserved.of_alike (h : t.Alike (fun _ => Kept) u) : Preserved t u where
  files := fun _ _ hf => h.get?_file hf
  directories := by
    intro l hd
    rcases h.get? l with ⟨hnone, -⟩ | ⟨v, w, hv, hw, hvw⟩
    · rw [hd] at hnone
      cases hnone
    · obtain rfl := Option.some.inj (hd.symm.trans hv)
      cases hvw
      exact hw
  created := by
    intro l hnone hsome
    rcases h.get? l with ⟨-, hu⟩ | ⟨v, w, hv, -, -⟩
    · exact absurd hu hsome
    · rw [hnone] at hv
      cases hv

/-- What is there stays as it is when something is put where nothing was. -/
theorem get?_put_of_some {k l : Location} {w : Item} (hk : t.get? k = none)
    (hl : t.get? l = some w) (item : Item) : (t.put k item).get? l = some w := by
  rw [FileTree.get?_put_of_ne]
  · exact hl
  · rintro rfl
    rw [hk] at hl
    cases hl

/-- A tree is preserved when something is put where nothing was, if only the configuration file
is put there. -/
theorem Preserved.of_put {item : Item} (hnone : t.get? [Config.fileName] = none) :
    Preserved t (t.put [Config.fileName] item) := by
  have hsame {l : Location} {w : Item} (hw : t.get? l = some w) :
      (t.put [Config.fileName] item).get? l = some w := get?_put_of_some hnone hw item
  refine ⟨fun l f hf => ⟨f, hsame hf, .refl f⟩, fun l hd => hsame hd, fun l hl hsome => ?_⟩
  by_contra hne
  rw [FileTree.get?_put_of_ne hne] at hsome
  exact hsome hl

/-! ### Writing -/

variable {style : IndentStyle} {profileAt : Location → Prop}

/-- What a run that indents leaves of a file is kept. -/
theorem Rewritten.kept {l : Location} {f g : File} (h : Rewritten style profileAt l f g) :
    Kept f g := by
  rcases h with rfl | ⟨-, haccess, rfl⟩
  · exact .refl g
  · refine ⟨haccess.symm, (reindented_cases style f.content).imp_right ?_⟩
    rintro ⟨s, t, hs, ht, hbytes⟩
    refine ⟨s, t, hs, ?_, contents_of_formatText ht⟩
    rw [hbytes, Utf8.decode_encode]

/-- The profile stands in a file, and the text is its text indented. -/
def IsIndentation (style : IndentStyle) (profileAt : Location → Prop) (t : FileTree) (p : Profile)
    (text : Text) : Prop :=
  ∃ l f, t.Leads p.path l f ∧ profileAt l ∧ Utf8.decode f.content = .ok p.text ∧
    formatText style p.text = .ok text

/-- An indented text that is written to the file of its profile leaves that file indented. -/
theorem alike_of_writeProfile {p : Profile} {text : Text}
    (hp : IsIndentation style profileAt t p text) (hu : t.Alike (Rewritten style profileAt) u)
    (hwrite : writeProfile u p.path text = .ok v) : t.Alike (Rewritten style profileAt) v := by
  obtain ⟨l, f, hleads, hat, hdecode, hformat⟩ := hp
  obtain ⟨g, hg, hfg⟩ := hu.leads hleads
  obtain ⟨-, -, m, hm, hv⟩ := FileTree.write_eq_ok (writeProfile_eq_ok_iff.mp hwrite)
  obtain rfl : l = m := Except.ok.inj (hg.locate.symm.trans hm)
  unfold FileTree.writeAt at hv
  rw [hg.get?] at hv
  dsimp only at hv
  split at hv
  · rename_i haccess
    obtain rfl := Except.ok.inj hv
    refine hu.put hleads.get? (.inr ⟨hat, hfg.kept.access.symm.trans haccess, ?_⟩)
    rw [reindented_eq_encode hdecode hformat]
  · cases hv

/-- **A run that writes leaves every file as it is or indented**, even if an error stops it
half-way. -/
theorem emit_alike (write verbose : Bool) (notes : List Note) (output : Text)
    {fs : List (Profile × Text)}
    (hfs : ∀ e ∈ fs, e.1.path ≠ standardInput → IsIndentation style profileAt t e.1 e.2)
    (hu : t.Alike (Rewritten style profileAt) u) :
    t.Alike (Rewritten style profileAt) (emit write verbose notes output u fs).tree := by
  induction fs generalizing notes output u with
  | nil => exact hu
  | cons e rest ih =>
      obtain ⟨p, text⟩ := e
      obtain ⟨hp, hrest⟩ := List.forall_mem_cons.mp hfs
      rw [emit]
      split
      · rename_i hwrites
        split
        · exact ih _ _ hrest hu
        · cases hwrite : writeProfile u p.path text with
          | ok after =>
              exact ih _ _ hrest (alike_of_writeProfile (hp hwrites.2) hu hwrite)
          | error e => exact hu
      · exact ih _ _ hrest hu

/-- Indented profiles are profiles with their indented texts. -/
theorem formatAll_eq_ok {notes : List Note} {ps : List Profile}
    {fs : List (Profile × Text)} (h : formatAll style notes ps = .ok fs) :
    ∀ e ∈ fs, e.1 ∈ ps ∧ formatText style e.1.text = .ok e.2 := by
  induction ps generalizing fs with
  | nil =>
      obtain rfl := Except.ok.inj h
      exact List.forall_mem_nil _
  | cons p rest ih =>
      rw [formatAll] at h
      split at h
      · cases h
      · rename_i text htext
        obtain ⟨others, hothers, h⟩ := bind_eq_ok.mp h
        obtain rfl := pure_eq_ok.mp h
        refine List.forall_mem_cons.mpr ⟨⟨List.mem_cons_self, htext⟩, fun e he => ?_⟩
        exact ⟨List.mem_cons_of_mem _ (ih hothers e he).1, (ih hothers e he).2⟩

/-- Profiles that were read and indented are the indented texts of their files. -/
theorem isIndentation_of_formatAll {notes : List Note} {input : List UInt8} {paths : List Text}
    {ps : List Profile} {fs : List (Profile × Text)} (hread : readPaths t input paths = .ok ps)
    (hformat : formatAll style notes ps = .ok fs) :
    ∀ e ∈ fs, e.1.path ≠ standardInput → IsIndentation style (fun _ => True) t e.1 e.2 := by
  have hformatted : ∀ e ∈ fs, e.1 ∈ ps ∧ formatText style e.1.text = .ok e.2 :=
    formatAll_eq_ok hformat
  intro e he hpath
  obtain ⟨hp, htext⟩ := hformatted e he
  obtain ⟨bytes, hbytes, hdecode⟩ :=
    readProfile_eq_ok.mp (readProfile_of_readPaths hread e.1 hp hpath)
  obtain ⟨l, f, hleads, -, rfl⟩ := FileTree.read_eq_ok hbytes
  exact ⟨l, f, hleads, trivial, hdecode, htext⟩

/-! ### Commands -/

variable {s : Surroundings}

/-- Profiles that were read were read one after another. -/
theorem readPaths_of_readAllProfiles {config : Config} {o : CommonOptions} {paths : List Text}
    {notes notes' : List Note} {ps : List Profile}
    (h : readAllProfiles s config o paths notes = .ok (ps, notes')) :
    ∃ found, readPaths s.tree s.input found = .ok ps := by
  obtain ⟨profiles, hread, h⟩ := bind_eq_ok.mp h
  obtain ⟨rfl, -⟩ := Prod.mk.inj (pure_eq_ok.mp h)
  exact ⟨_, readPaths_of_readProfiles (orStop_eq_ok hread)⟩

/-- A run leaves the tree as it is if it does so when it is not stopped. -/
theorem tree_finish {x : Except Stop Outcome} (h : ∀ o, x = .ok o → o.tree = t) :
    (finish t x).tree = t := by
  cases x with
  | ok o => exact h o rfl
  | error stop => rfl

/-- Formatting leaves every file as it is or indented. -/
theorem alike_runFormat (s : Surroundings) (o : FormatOptions) :
    ∃ style, s.tree.Alike (Rewritten style fun _ => True) ((Command.format o).run s).tree := by
  have hrefl (style : IndentStyle) : s.tree.Alike (Rewritten style fun _ => True) s.tree :=
    FileTree.Alike.refl (fun _ _ => .inl rfl) _
  rw [Command.run]
  cases h : runFormat s o with
  | error stop => exact ⟨{}, hrefl _⟩
  | ok outcome =>
      obtain ⟨loaded, -, h⟩ := bind_eq_ok.mp h
      obtain ⟨⟨ps, notes⟩, hps, h⟩ := bind_eq_ok.mp h
      obtain ⟨fs, hfs, h⟩ := bind_eq_ok.mp h
      obtain ⟨found, hfound⟩ := readPaths_of_readAllProfiles hps
      refine ⟨indentStyle loaded.config o, ?_⟩
      split at h
      · rw [← pure_eq_ok.mp h]
        exact hrefl _
      · rw [← pure_eq_ok.mp h]
        exact emit_alike _ _ _ _ (isIndentation_of_formatAll hfound hfs) (hrefl _)

/-- Formatting changes nothing unless it writes in place. -/
theorem tree_runFormat {o : FormatOptions} (h : (Command.format o).rewrites = false) :
    ((Command.format o).run s).tree = s.tree := by
  refine tree_finish fun outcome hrun => ?_
  obtain ⟨loaded, -, hrun⟩ := bind_eq_ok.mp hrun
  obtain ⟨⟨ps, notes⟩, -, hrun⟩ := bind_eq_ok.mp hrun
  obtain ⟨fs, -, hrun⟩ := bind_eq_ok.mp hrun
  split at hrun
  · rw [← pure_eq_ok.mp hrun]
    rfl
  · rename_i hcheck
    have hwrite : o.write = false := by simpa [Command.rewrites, hcheck] using h
    rw [← pure_eq_ok.mp hrun, hwrite, emit_print]

/-- Showing profiles changes nothing. -/
theorem tree_runHighlight (o : HighlightOptions) :
    ((Command.highlight o).run s).tree = s.tree := by
  refine tree_finish fun outcome h => ?_
  obtain ⟨loaded, -, h⟩ := bind_eq_ok.mp h
  obtain ⟨form, -, h⟩ := bind_eq_ok.mp h
  obtain ⟨⟨profiles, notes⟩, -, h⟩ := bind_eq_ok.mp h
  rw [← pure_eq_ok.mp h]

/-- Listing keywords changes nothing. -/
theorem tree_runKeywords (category : Option Text) (o : CommonOptions) :
    ((Command.keywords category o).run s).tree = s.tree := by
  refine tree_finish fun outcome h => ?_
  obtain ⟨loaded, -, h⟩ := bind_eq_ok.mp h
  obtain ⟨chosen, -, h⟩ := bind_eq_ok.mp h
  rw [← pure_eq_ok.mp h]

/-- Creating a configuration file changes nothing if there is something at its path, and else
puts it there. -/
theorem tree_runInit (s : Surroundings) :
    ((runInit s).tree = s.tree ∧ s.tree.get? [Config.fileName] ≠ none) ∨
      (s.tree.get? [Config.fileName] = none ∧
        (runInit s).tree =
          s.tree.put [Config.fileName] (.file ⟨Utf8.encode Config.starter, .full⟩)) := by
  rw [runInit]
  cases h : s.tree.get? [Config.fileName] with
  | some v => exact .inl ⟨rfl, Option.some_ne_none v⟩
  | none => exact .inr ⟨rfl, rfl⟩

/-- A command that is neither the one that creates a configuration file nor one that formats in
place leaves the tree as it is. -/
theorem tree_run {c : Command} (hinit : c ≠ .init) (h : c.rewrites = false) :
    (c.run s).tree = s.tree := by
  cases c with
  | format o => exact tree_runFormat h
  | highlight o => exact tree_runHighlight o
  | keywords category o => exact tree_runKeywords category o
  | init => exact absurd rfl hinit
  | version => rfl
  | help => rfl

/-- A command that creates no configuration file keeps every file. -/
theorem alike_run {c : Command} (hinit : c ≠ .init) :
    s.tree.Alike (fun _ => Kept) (c.run s).tree := by
  cases hwrites : c.rewrites with
  | false =>
      rw [tree_run hinit hwrites]
      exact FileTree.Alike.refl (fun _ => Kept.refl) _
  | true =>
      cases c with
      | format o =>
          obtain ⟨style, halike⟩ := alike_runFormat s o
          exact halike.imp fun _ _ _ => Rewritten.kept
      | highlight | keywords | init | version | help => cases hwrites

/-- Every command preserves the tree. -/
theorem preserved_run (s : Surroundings) (c : Command) : Preserved s.tree (c.run s).tree := by
  by_cases hinit : c = .init
  · subst hinit
    rw [Command.run]
    rcases tree_runInit s with ⟨hsame, -⟩ | ⟨hnone, hput⟩
    · rw [hsame]
      exact .refl _
    · rw [hput]
      exact .of_put hnone
  · exact .of_alike (alike_run hinit)

/-- What a command creates is a configuration file to start from. -/
theorem created_run {c : Command} {l : Location} {w : Item} (hnone : s.tree.get? l = none)
    (hsome : (c.run s).tree.get? l = some w) :
    l = [Config.fileName] ∧ w = .file ⟨Utf8.encode Config.starter, .full⟩ ∧ c = .init := by
  have hplace : l = [Config.fileName] :=
    (preserved_run s c).created l hnone (hsome ▸ Option.some_ne_none w)
  subst hplace
  by_cases hinit : c = .init
  · subst hinit
    rw [Command.run] at hsome
    rcases tree_runInit s with ⟨-, hthere⟩ | ⟨-, hput⟩
    · exact absurd hnone hthere
    · rw [hput, FileTree.get?_put_self (by decide)] at hsome
      exact ⟨rfl, (Option.some.inj hsome).symm, rfl⟩
  · rcases (alike_run (s := s) hinit).get? [Config.fileName] with ⟨-, hu⟩ | ⟨v, _, hv, -, -⟩
    · rw [hu] at hsome
      cases hsome
    · rw [hnone] at hv
      cases hv

/-- What is there stays as it is unless a command formats in place. -/
theorem unchanged_run {c : Command} (h : c.rewrites = false) {l : Location} {w : Item}
    (hw : s.tree.get? l = some w) : (c.run s).tree.get? l = some w := by
  by_cases hinit : c = .init
  · subst hinit
    rw [Command.run]
    rcases tree_runInit s with ⟨hsame, -⟩ | ⟨hnone, hput⟩
    · rw [hsame]
      exact hw
    · rw [hput]
      exact get?_put_of_some hnone hw _
  · rw [tree_run hinit h]
    exact hw

/-! ### Calls and sessions -/

/-- A call asks for no command and does nothing, or does what its command does. -/
theorem run_cases (root : Text) (t : FileTree) (c : Call) :
    (∃ e, Command.ofArguments c.arguments = .error e ∧ (c.run root t).tree = t) ∨
      ∃ command, Command.ofArguments c.arguments = .ok command ∧
        c.run root t = command.run ⟨t, root, c.environment, c.input⟩ := by
  rw [Call.run, runArguments]
  cases Command.ofArguments c.arguments with
  | error e => exact .inl ⟨e, rfl, rfl⟩
  | ok command => exact .inr ⟨command, rfl, rfl⟩

/-- Every call preserves the tree. -/
theorem preserved_call (root : Text) (t : FileTree) (c : Call) :
    Preserved t (c.run root t).tree := by
  rcases run_cases root t c with ⟨e, -, hsame⟩ | ⟨command, -, hrun⟩
  · rw [hsame]
    exact .refl t
  · rw [hrun]
    exact preserved_run ⟨t, root, c.environment, c.input⟩ command

/-- **What a single call may do.** -/
theorem callSafe (root : Text) (t : FileTree) (c : Call) : CallSafe root t c := by
  rcases run_cases root t c with ⟨e, hline, hsame⟩ | ⟨command, hline, hrun⟩
  · refine ⟨fun l w hnone hsome => ?_, fun _ l w hw => ?_⟩
    · rw [hsame, hnone] at hsome
      cases hsome
    · rw [hsame]
      exact hw
  · refine ⟨fun l w hnone hsome => ?_, fun hwrites l w hw => ?_⟩
    · rw [hrun] at hsome
      obtain ⟨hl, hv, rfl⟩ := created_run (s := ⟨t, root, c.environment, c.input⟩) hnone hsome
      exact ⟨hl, hv, hline⟩
    · rw [Call.rewrites, hline] at hwrites
      rw [hrun]
      exact unchanged_run (s := ⟨t, root, c.environment, c.input⟩) hwrites hw

/-- The tree is preserved for a whole session. -/
theorem preserved_session (root : Text) (t : FileTree) (calls : List Call) :
    Preserved t (session root t calls) := by
  induction calls generalizing t with
  | nil => exact .refl t
  | cons c rest ih =>
      have hrest : Preserved (c.run root t).tree (session root t (c :: rest)) := ih _
      exact (preserved_call root t c).trans hrest

/-- **A session loses no file**: every file that was there at the start keeps its bytes, or it
was a text and has kept its tokens. Nothing is ever created but the configuration file, by the
call that is there for it, and only a call that formats in place changes what is there. -/
theorem session_safe (root : Text) (t : FileTree) (calls : List Call) :
    Preserved t (session root t calls) ∧
      (∀ l f, t.get? l = some (.file f) → (∀ s, Utf8.decode f.content ≠ .ok s) →
        (session root t calls).get? l = some (.file f)) ∧
      ∀ before c after, calls = before ++ c :: after →
        CallSafe root (session root t before) c := by
  have hpreserved := preserved_session root t calls
  refine ⟨hpreserved, fun l f hf htext => ?_, fun before c _ _ => callSafe root _ c⟩
  obtain ⟨g, hg, hkept⟩ := hpreserved.files l f hf
  rw [hg, hkept.eq_of_not_text htext]

end SandboxProfile
