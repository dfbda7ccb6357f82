import SandboxProfile.Proofs.FileTree.Alike
import SandboxProfile.Proofs.FileTree.Path

/-!
# What a listing holds

A tree lists what is inside of a directory by the names that lead there. Such a listing is
complete: everything to which names lead on from the directory is in it, and nothing else, and it
is in order. The names that lead inside of a directory begin with a name that does not lead
around it.

## Main definitions

* `LeadInside` says that names lead inside of a directory and not around it.
* `FileTree.IsNamed` and `FileTree.IsClosed` say that everything has a proper name and is in a
  directory.

## Main results

* `FileTree.mem_below_iff` and `FileTree.mem_children_iff` — what is inside of a directory.
* `FileTree.locate_below` — the paths of what is inside of a directory lead there.
* `FileTree.pairwise_below` and `FileTree.pairwise_children` — listings are in order.
-/

namespace SandboxProfile

namespace FileTree

variable {t : FileTree} {d l : Location} {steps : List Text} {item : Item}

/-- There are names, and the first of them does not lead around a directory. -/
def LeadInside (steps : List Text) : Prop :=
  ∃ name rest, steps = name :: rest ∧ name ≠ Path.parent ∧ name ≠ ['/']

/-- In an ordered list what is looked up at a place is what is listed there. -/
theorem lookup_eq_some_iff {items : List (Location × Item)}
    (hsorted : items.Pairwise fun a b => a.1 < b.1) :
    items.lookup l = some item ↔ (l, item) ∈ items := by
  constructor
  · intro h
    obtain ⟨before, after, rfl, -⟩ := List.lookup_eq_some_iff.mp h
    exact List.mem_append_right _ List.mem_cons_self
  · intro h
    obtain ⟨before, after, rfl⟩ := List.append_of_mem h
    refine List.lookup_eq_some_iff.mpr ⟨before, after, rfl, fun e he => ?_⟩
    have hlt := (List.pairwise_append.mp hsorted).2.2 e he (l, item) List.mem_cons_self
    refine bne_iff_ne.mpr fun heq => ?_
    rw [heq] at hlt
    exact List.lt_irrefl _ hlt

/-- A file that is at a place is listed there. -/
theorem mem_items_of_get?_file {f : File} (h : t.get? l = some (.file f)) :
    (l, .file f) ∈ t.items := by
  unfold FileTree.get? at h
  split at h
  · cases h
  · exact (lookup_eq_some_iff t.sorted).mp h

/-- The steps from a directory are the names that lead on from it. -/
theorem stepsFrom?_eq_some_iff :
    stepsFrom? d l = some steps ↔ l = d ++ steps ∧ LeadInside steps := by
  constructor
  · intro h
    refine ⟨eq_append_of_stepsFrom? h, ?_⟩
    unfold stepsFrom? at h
    split at h
    · cases h
    · rename_i name rest hdrop
      split at h
      · rename_i hname
        exact ⟨name, rest, (Option.some.inj h).symm, hname.2⟩
      · cases h
  · rintro ⟨rfl, name, rest, rfl, hname⟩
    have hstart : d.isPrefixOf (d ++ name :: rest) = true :=
      List.isPrefixOf_iff_prefix.mpr (List.prefix_append _ _)
    rw [stepsFrom?, List.drop_left]
    exact if_pos ⟨hstart, hname⟩

/-- A place inside of a directory is not around the working directory. -/
theorem isAround_append (h : LeadInside steps) : isAround (d ++ steps) = false := by
  obtain ⟨name, rest, rfl, hparent, hroot⟩ := h
  have hmem : name ∈ d ++ name :: rest := List.mem_append_right _ List.mem_cons_self
  rw [isAround, Bool.or_eq_false_iff, decide_eq_false_iff_not, List.all_eq_false]
  refine ⟨fun heq => ?_, name, hmem, by simpa using hparent⟩
  rw [heq, List.mem_singleton] at hmem
  exact hroot hmem

/-- **What is inside of a directory at any depth** is what names lead to from there. -/
theorem mem_below_iff :
    (steps, item) ∈ t.below d ↔ LeadInside steps ∧ t.get? (d ++ steps) = some item := by
  rw [below, List.mem_filterMap]
  constructor
  · rintro ⟨⟨l, item'⟩, hmem, h⟩
    obtain ⟨steps', hsteps, h⟩ := Option.map_eq_some_iff.mp h
    obtain ⟨rfl, rfl⟩ := Prod.mk.inj h
    obtain ⟨rfl, hinside⟩ := stepsFrom?_eq_some_iff.mp hsteps
    refine ⟨hinside, ?_⟩
    rw [FileTree.get?, isAround_append hinside, if_neg Bool.false_ne_true]
    exact (lookup_eq_some_iff t.sorted).mpr hmem
  · rintro ⟨hinside, h⟩
    rw [FileTree.get?, isAround_append hinside, if_neg Bool.false_ne_true] at h
    refine ⟨(d ++ steps, item), (lookup_eq_some_iff t.sorted).mp h, ?_⟩
    exact Option.map_eq_some_iff.mpr ⟨steps, stepsFrom?_eq_some_iff.mpr ⟨rfl, hinside⟩, rfl⟩

/-- The names that lead on to a place from the working directory, from one around it, or from the
root. -/
def namesInside (l : Location) : List Text :=
  if l.head? = some ['/'] then l.tail else l.dropWhile (· = Path.parent)

/-- Everything in the tree has a proper name. -/
def IsNamed (t : FileTree) : Prop :=
  ∀ e ∈ t.items, ∀ name ∈ namesInside e.1, Path.IsName name

instance (t : FileTree) : Decidable t.IsNamed :=
  inferInstanceAs (Decidable (∀ e ∈ t.items, ∀ name ∈ namesInside e.1, Path.IsName name))

/-- Names that lead inside of a directory lead on to the place. -/
theorem mem_namesInside (h : LeadInside steps) {name : Text} (hname : name ∈ steps) :
    name ∈ namesInside (d ++ steps) := by
  obtain ⟨first, rest, rfl, hparent, hroot⟩ := h
  have hfirst : (first :: rest).dropWhile (· = Path.parent) = first :: rest :=
    List.dropWhile_cons_of_neg (by simpa using hparent)
  rw [namesInside]
  split
  · rename_i hhead
    cases d with
    | nil => exact absurd (Option.some.inj hhead) hroot
    | cons outer d => exact List.mem_append_right _ hname
  · rw [List.dropWhile_append]
    split
    · rw [hfirst]
      exact hname
    · exact List.mem_append_right _ hname

/-- **Proper names lead to what is inside of a directory.** -/
theorem leadInside_iff (hnamed : t.IsNamed) (h : t.get? (d ++ steps) = some item) :
    LeadInside steps ↔ steps ≠ [] ∧ ∀ name ∈ steps, Path.IsName name := by
  constructor
  · intro hinside
    rw [FileTree.get?, isAround_append hinside, if_neg Bool.false_ne_true] at h
    have hmem := (lookup_eq_some_iff t.sorted).mp h
    have hall (name : Text) (hname : name ∈ steps) : Path.IsName name :=
      hnamed _ hmem name (mem_namesInside hinside hname)
    obtain ⟨first, rest, rfl, -⟩ := hinside
    exact ⟨List.cons_ne_nil _ _, hall⟩
  · rintro ⟨hne, hall⟩
    obtain ⟨first, rest, rfl⟩ := List.exists_cons_of_ne_nil hne
    obtain ⟨-, hslash, -, hparent⟩ := hall first List.mem_cons_self
    refine ⟨first, rest, rfl, hparent, ?_⟩
    rintro rfl
    exact hslash List.mem_cons_self

/-! ### Paths -/

/-- Everything in the tree is in a directory. -/
def IsClosed (t : FileTree) : Prop :=
  ∀ e ∈ t.items, t.get? e.1.dropLast = some .directory

instance (t : FileTree) : Decidable t.IsClosed :=
  inferInstanceAs (Decidable (∀ e ∈ t.items, t.get? e.1.dropLast = some .directory))

/-- A place around the working directory is in such a place. -/
theorem isAround_of_concat {name : Text} (h : isAround (l ++ [name]) = true) :
    isAround l = true := by
  rw [isAround, Bool.or_eq_true, decide_eq_true_eq] at h
  rcases h with hroot | hall
  · have hnil : l = [] := List.length_eq_zero_iff.mp (by simpa using congrArg List.length hroot)
    rw [hnil]
    rfl
  · rw [List.all_append, Bool.and_eq_true] at hall
    rw [isAround, hall.1, Bool.or_true]

/-- What is at a place is immediately inside of a directory. -/
theorem IsClosed.get?_parent (hclosed : t.IsClosed) {name : Text}
    (h : t.get? (d ++ [name]) = some item) : t.get? d = some .directory := by
  cases ha : isAround (d ++ [name]) with
  | true => rw [FileTree.get?, isAround_of_concat ha, if_pos rfl]
  | false =>
      rw [FileTree.get?, ha, if_neg Bool.false_ne_true] at h
      have hparent := hclosed _ ((lookup_eq_some_iff t.sorted).mp h)
      rw [List.dropLast_concat] at hparent
      exact hparent

/-- What names lead to from a place is inside of a directory. -/
theorem IsClosed.get?_directory (hclosed : t.IsClosed) (hne : steps ≠ [])
    (h : t.get? (d ++ steps) = some item) : t.get? d = some .directory := by
  induction steps generalizing d with
  | nil => exact absurd rfl hne
  | cons name rest ih =>
      rw [List.append_cons] at h
      by_cases hnil : rest = []
      · rw [hnil, List.append_nil] at h
        exact hclosed.get?_parent h
      · exact hclosed.get?_parent (ih hnil h)

/-- There is a directory at a path that leads to one. -/
theorem directory?_eq_some_iff {path : Text} :
    t.directory? path = some l ↔ t.locate path = .ok l ∧ t.get? l = some .directory := by
  constructor
  · intro h
    unfold FileTree.directory? at h
    split at h
    · rename_i k hfind
      obtain rfl := Option.some.inj h
      obtain ⟨m, hlocate, hfind⟩ := bind_eq_ok.mp hfind
      cases hitem : t.get? m with
      | none =>
          rw [hitem] at hfind
          cases hfind
      | some item =>
          rw [hitem] at hfind
          cases item with
          | directory =>
              cases pure_eq_ok.mp hfind
              exact ⟨hlocate, hitem⟩
          | file f =>
              dsimp only at hfind
              split at hfind
              · cases hfind
              · cases pure_eq_ok.mp hfind
    · cases h
  · rintro ⟨hlocate, hdirectory⟩
    rw [FileTree.directory?, FileTree.find, hlocate]
    simp only [bind, Except.bind, hdirectory, pure, Except.pure]

/-- Proper names lead on from a directory to what is inside of it. -/
theorem foldlM_step_inside (hclosed : t.IsClosed)
    (hnames : ∀ name ∈ steps, Path.IsName name ∧ Utf8.size name ≤ Path.nameLimit)
    (h : t.get? (d ++ steps) = some item) : steps.foldlM t.step d = .ok (d ++ steps) := by
  induction steps generalizing d with
  | nil =>
      rw [List.append_nil]
      rfl
  | cons name rest ih =>
      obtain ⟨⟨⟨-, -, hhere, hparent⟩, hshort⟩, hrest⟩ := List.forall_mem_cons.mp hnames
      have hd : t.get? d = some .directory := hclosed.get?_directory (List.cons_ne_nil _ _) h
      have hstep : t.step d name = .ok (d ++ [name]) := by
        rw [FileTree.step, hd]
        dsimp only
        rw [if_neg (Nat.not_lt_of_le hshort), follow, if_neg hhere, if_neg hparent]
      rw [List.append_cons d name rest] at h ⊢
      rw [List.foldlM_cons, hstep]
      exact ih hrest h

/-- **The path of something inside of a directory leads there**, if it can be opened. -/
theorem locate_below (hclosed : t.IsClosed) {directory : Text}
    (hd : t.directory? directory = some d) (hne : steps ≠ [])
    (hnames : ∀ name ∈ steps, Path.IsName name) (h : t.get? (d ++ steps) = some item)
    (hopen : Path.CanBeOpened (Path.below directory steps)) :
    t.locate (Path.below directory steps) = .ok (d ++ steps) := by
  obtain ⟨hlocate, -⟩ := directory?_eq_some_iff.mp hd
  obtain ⟨hdirectory, -, hfold⟩ := locate_eq_ok hlocate
  have hbelow := Path.names_below hnames hne directory
  have hinside : steps.foldlM t.step d = .ok (d ++ steps) := by
    refine foldlM_step_inside hclosed (fun name hname => ⟨hnames name hname, ?_⟩) h
    exact hopen.names_short name (hbelow ▸ List.mem_append_right _ hname)
  have hstart : startOf (Path.below directory steps) = startOf directory := by
    rw [startOf, startOf, Path.isAbsolute_below hnames hdirectory]
  have hpath : Path.below directory steps ≠ [] := by
    intro hnil
    rw [hnil] at hbelow
    exact hne (List.append_eq_nil_iff.mp hbelow.symm).2
  rw [FileTree.locate, if_neg hpath, if_neg (Nat.not_lt_of_le hopen.short), hbelow, hstart,
    List.foldlM_append]
  -- The step to the working directory itself can be left out.
  have hfirst : (if directory = Path.here then [] else Path.names directory).foldlM t.step
      (startOf directory) = .ok d := by
    split
    · rename_i hhere
      subst hhere
      exact hfold
    · exact hfold
  rw [hfirst]
  exact hinside

/-! ### Order -/

/-- What leads from a directory to a later place is later. -/
theorem lt_of_append_lt_append {steps' : List Text} (h : d ++ steps < d ++ steps') :
    steps < steps' := by
  induction d with
  | nil => exact h
  | cons name rest ih =>
      rw [List.cons_append, List.cons_append, List.cons_lt_cons_iff] at h
      rcases h with h | ⟨-, h⟩
      · exact absurd h (List.lt_irrefl name)
      · exact ih h

/-- **A directory lists what is inside of it in order**, name by name. -/
theorem pairwise_below (t : FileTree) (d : Location) :
    (t.below d).Pairwise fun a b => a.1 < b.1 := by
  refine t.sorted.filterMap _ fun a a' hlt b hb b' hb' => ?_
  obtain ⟨steps, hsteps, rfl⟩ := Option.map_eq_some_iff.mp hb
  obtain ⟨steps', hsteps', rfl⟩ := Option.map_eq_some_iff.mp hb'
  rw [eq_append_of_stepsFrom? hsteps, eq_append_of_stepsFrom? hsteps'] at hlt
  exact lt_of_append_lt_append hlt

/-- A directory lists what is immediately inside of it by name. -/
theorem pairwise_children (t : FileTree) (d : Location) :
    (t.children d).Pairwise fun a b => a.1 < b.1 := by
  refine (t.pairwise_below d).filterMap _ fun a a' hlt b hb b' hb' => ?_
  obtain ⟨steps, v⟩ := a
  obtain ⟨steps', v'⟩ := a'
  match steps, steps', hb, hb' with
  | [name], [name'], hb, hb' =>
      obtain rfl := Option.some.inj hb
      obtain rfl := Option.some.inj hb'
      rcases List.cons_lt_cons_iff.mp hlt with h | ⟨-, h⟩
      · exact h
      · exact absurd h (List.lt_irrefl [])

end FileTree

end SandboxProfile
