import SandboxProfile.FileTree.Path

/-!
# Trees of files

The files that a run can see form a tree below its working directory. A place in the tree
is the list of names that leads to it. The tree keeps what is at each place in the order of
the places, which is compared name by name; so a listing of the tree is in order, and
nothing is listed twice.

The tree leaves out three things. It has no links, so nothing is at two places. Names that
differ are different, also where only the case of a letter differs. And only files have
rights: a directory can always be entered, listed and added to.

## Main definitions

* `Location` is a place in the tree.
* `File` and `Item` are what can be there.
* `FileTree` is the type of trees.
* `FileTree.get?` and `FileTree.put` look at a place and change what is there.
* `FileTree.below` lists what is inside a directory.
* `FileTree.changes` are the files in which two trees differ.

## Main results

* `get?_put_self` and `get?_put_of_ne` — a change can be seen where it was made, and nowhere
  else.
-/

namespace SandboxProfile

/-- The names that lead to a place. -/
abbrev Location := List Text

/-- What may be done with a file. -/
inductive Access where
  /-- It can be read and written. -/
  | full
  /-- It can only be read. -/
  | readOnly
  /-- It can be neither read nor written. -/
  | none
  deriving DecidableEq, Repr

/-- A file. -/
structure File where
  content : List UInt8
  access : Access := .full
  deriving DecidableEq, Repr

/-- What is at a place. -/
inductive Item where
  | directory
  | file (f : File)
  deriving DecidableEq, Repr

/-- A tree of files, as what is at each of its places in order. -/
structure FileTree where
  /-- The places with what is there. -/
  items : List (Location × Item)
  /-- Places are in strictly increasing order. -/
  sorted : items.Pairwise fun a b => a.1 < b.1

namespace FileTree

/-! ### Ordered insertion -/

/-- Put an item at a place of an ordered list. -/
def insertItem (l : Location) (item : Item) : List (Location × Item) → List (Location × Item)
  | [] => [(l, item)]
  | (k, v) :: rest =>
    if l < k then (l, item) :: (k, v) :: rest
    else if k = l then (l, item) :: rest
    else (k, v) :: insertItem l item rest

/-- The places of the list are the old ones and the new one. -/
theorem mem_insertItem {l : Location} {item : Item} {e : Location × Item} :
    ∀ {items : List (Location × Item)}, e ∈ insertItem l item items → e = (l, item) ∨ e ∈ items
  | [], h => by
    rw [insertItem, List.mem_singleton] at h
    exact Or.inl h
  | (k, v) :: rest, h => by
    rw [insertItem] at h
    split at h
    · exact List.mem_cons.mp h
    · split at h
      · rcases List.mem_cons.mp h with h | h
        · exact Or.inl h
        · exact Or.inr (List.mem_cons_of_mem _ h)
      · rcases List.mem_cons.mp h with h | h
        · exact Or.inr (h ▸ List.mem_cons_self)
        · exact (mem_insertItem h).imp_right (List.mem_cons_of_mem _)

/-- Two places that are not in order and differ are in the opposite order. -/
theorem lt_of_not_lt_of_ne {a b : Location} (h : ¬a < b) (hne : b ≠ a) : b < a := by
  by_cases hb : b < a
  · exact hb
  · exact absurd (List.le_antisymm (List.not_lt.mp h) (List.not_lt.mp hb)) hne

/-- The order is kept. -/
theorem sorted_insertItem (l : Location) (item : Item) :
    ∀ {items : List (Location × Item)}, (items.Pairwise fun a b => a.1 < b.1) →
      (insertItem l item items).Pairwise fun a b => a.1 < b.1
  | [], _ => by
    rw [insertItem]
    exact List.pairwise_singleton _ _
  | (k, v) :: rest, h => by
    obtain ⟨hk, hrest⟩ := List.pairwise_cons.mp h
    rw [insertItem]
    split
    · rename_i hl
      refine List.pairwise_cons.mpr ⟨fun e he => ?_, h⟩
      rcases List.mem_cons.mp he with rfl | he
      · exact hl
      · exact List.lt_trans hl (hk e he)
    · rename_i hl
      split
      · rename_i hkl
        exact List.pairwise_cons.mpr ⟨fun e he => hkl ▸ hk e he, hrest⟩
      · rename_i hkl
        refine List.pairwise_cons.mpr ⟨fun e he => ?_, sorted_insertItem l item hrest⟩
        rcases mem_insertItem he with rfl | he
        · exact lt_of_not_lt_of_ne hl hkl
        · exact hk e he

/-! ### Looking and changing -/

/-- The tree with nothing in it. -/
def empty : FileTree :=
  ⟨[], List.Pairwise.nil⟩

/-- Is this the working directory or a directory around it? These are always there. -/
def isAround (l : Location) : Bool :=
  l = [['/']] || l.all (· = Path.parent)

/-- What is at a place. -/
def get? (t : FileTree) (l : Location) : Option Item :=
  if isAround l then some .directory else t.items.lookup l

/-- Put an item at a place. -/
def put (l : Location) (item : Item) (t : FileTree) : FileTree :=
  ⟨insertItem l item t.items, sorted_insertItem l item t.sorted⟩

theorem lookup_cons_eq (k a : Location) (v : Item) (rest : List (Location × Item)) :
    ((a, v) :: rest).lookup k = if k = a then some v else rest.lookup k := by
  by_cases h : k = a
  · simp [h]
  · have hb : (k == a) = false := by simpa using h
    simp [List.lookup_cons, hb, h]

/-- A look-up after an insertion. -/
theorem lookup_insertItem (l k : Location) (item : Item) :
    ∀ items : List (Location × Item),
      (insertItem l item items).lookup k = if k = l then some item else items.lookup k
  | [] => by rw [insertItem, lookup_cons_eq]
  | (a, v) :: rest => by
    rw [insertItem]
    split
    · rw [lookup_cons_eq]
    · split
      · rename_i hal
        subst hal
        rw [lookup_cons_eq, lookup_cons_eq]
        split <;> rfl
      · rename_i hal
        rw [lookup_cons_eq, lookup_insertItem l k item rest, lookup_cons_eq]
        by_cases hk : k = a
        · rw [if_pos hk, if_pos hk, if_neg fun hl => hal (hk.symm.trans hl)]
        · rw [if_neg hk, if_neg hk]

/-- An item that was put at a place is there. -/
theorem get?_put_self {l : Location} (h : isAround l = false) (item : Item) (t : FileTree) :
    (t.put l item).get? l = some item := by
  simp [get?, put, h, lookup_insertItem]

/-- Nothing else has changed. -/
theorem get?_put_of_ne {l k : Location} (h : k ≠ l) (item : Item) (t : FileTree) :
    (t.put l item).get? k = t.get? k := by
  simp [get?, put, lookup_insertItem, h]

/-- Put an item at a place and make directories of the places that lead to it, where nothing
is yet. -/
def plant (l : Location) (item : Item) (t : FileTree) : FileTree :=
  let parents := (List.range l.length).map fun n => l.take n
  (parents.foldl (fun t k => if (t.get? k).isSome then t else t.put k .directory) t).put l item

/-! ### Listings -/

/-- The names that lead from a directory to a place inside of it. A place around a directory is
not inside of it. -/
def stepsFrom? (directory l : Location) : Option (List Text) :=
  match l.drop directory.length with
  | [] => none
  | name :: rest =>
    if directory.isPrefixOf l ∧ name ≠ Path.parent ∧ name ≠ ['/'] then some (name :: rest)
    else none

/-- What is inside a directory at any depth, by the names that lead there, in order. -/
def below (t : FileTree) (directory : Location) : List (List Text × Item) :=
  t.items.filterMap fun e => (stepsFrom? directory e.1).map fun steps => (steps, e.2)

/-- What is immediately inside a directory, by name, in order. -/
def children (t : FileTree) (directory : Location) : List (Text × Item) :=
  (t.below directory).filterMap fun e =>
    match e.1 with
    | [name] => some (name, e.2)
    | _ => none

/-- The files that one tree has and another has not, or not with the same bytes. -/
def changes (before after : FileTree) : List (Location × List UInt8) :=
  after.items.filterMap fun e =>
    match e.2, before.get? e.1 with
    | .directory, _ => none
    | .file f, some (.file g) => if f.content = g.content then none else some (e.1, f.content)
    | .file f, _ => some (e.1, f.content)

/-- Is there a file that cannot be read? -/
def hasUnreadable (t : FileTree) : Bool :=
  t.items.any fun e =>
    match e.2 with
    | .file f => f.access = .none
    | .directory => false

end FileTree

end SandboxProfile
