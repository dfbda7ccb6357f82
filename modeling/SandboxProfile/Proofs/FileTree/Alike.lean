import Mathlib.Data.List.Forall2
import SandboxProfile.FileTree.Access

/-!
# Trees with the same places

Rewriting files changes neither which places there are nor what kind of thing is at each of
them. Two trees that agree so far cannot be told apart by following paths, by asking for
files and directories, or by listing; only reading a file tells them apart, and only where
its bytes differ.

## Main definitions

* `ItemsAgree` relates two items of one kind, `FileTree.Alike` two trees with the same places.

## Main results

* `FileTree.Alike.locate` — paths lead to the same places.
* `FileTree.Alike.read` — files that have not changed are read alike.
* `FileTree.Alike.filterMap_below` — listings that look at no more than is alike.
* `FileTree.Alike.put` — a tree stays alike when a file is rewritten.
-/

namespace SandboxProfile

/-- Two directories, or two files that are related. -/
inductive ItemsAgree (R : File → File → Prop) : Item → Item → Prop where
  | directory : ItemsAgree R .directory .directory
  | file {f g : File} : R f g → ItemsAgree R (.file f) (.file g)

namespace FileTree

/-- The two trees have the same places, and what is there is of the same kind. The files at a
place are related, by a relation that may depend on the place. -/
def Alike (R : Location → File → File → Prop) (t u : FileTree) : Prop :=
  List.Forall₂ (fun a b => b.1 = a.1 ∧ ItemsAgree (R a.1) a.2 b.2) t.items u.items

variable {R : Location → File → File → Prop} {t u : FileTree}

theorem Alike.refl (hR : ∀ l f, R l f f) (t : FileTree) : Alike R t t := by
  refine List.forall₂_same.mpr fun a _ => ⟨rfl, ?_⟩
  cases a.2 with
  | directory => exact .directory
  | file f => exact .file (hR a.1 f)

/-- Files that are related are also related by a weaker relation. -/
theorem Alike.imp {Q : Location → File → File → Prop} (hRQ : ∀ l f g, R l f g → Q l f g)
    (h : Alike R t u) : Alike Q t u := by
  refine List.Forall₂.imp (fun a b hab => ?_) h
  obtain ⟨l, v⟩ := a
  obtain ⟨m, w⟩ := b
  obtain ⟨hplace, hitem⟩ := hab
  cases hitem with
  | directory => exact ⟨hplace, .directory⟩
  | file hR => exact ⟨hplace, .file (hRQ _ _ _ hR)⟩

/-! ### Looking -/

/-- What is listed at a place is of the same kind. -/
theorem lookup_of_forall₂ {items items' : List (Location × Item)}
    (h : List.Forall₂ (fun a b => b.1 = a.1 ∧ ItemsAgree (R a.1) a.2 b.2) items items')
    (l : Location) :
    (items.lookup l = none ∧ items'.lookup l = none) ∨
      ∃ v w, items.lookup l = some v ∧ items'.lookup l = some w ∧ ItemsAgree (R l) v w := by
  induction h with
  | nil => exact .inl ⟨rfl, rfl⟩
  | @cons a b as bs hab _ ih =>
      obtain ⟨k, v⟩ := a
      obtain ⟨k', w⟩ := b
      obtain ⟨hk, hvw⟩ := hab
      obtain rfl : k' = k := hk
      rw [lookup_cons_eq, lookup_cons_eq]
      by_cases hl : l = k'
      · subst hl
        rw [if_pos rfl, if_pos rfl]
        exact .inr ⟨v, w, rfl, rfl, hvw⟩
      · rw [if_neg hl, if_neg hl]
        exact ih

/-- What is at a place is of the same kind. -/
theorem Alike.get? (h : Alike R t u) (l : Location) :
    (t.get? l = none ∧ u.get? l = none) ∨
      ∃ v w, t.get? l = some v ∧ u.get? l = some w ∧ ItemsAgree (R l) v w := by
  by_cases ha : isAround l = true
  · exact .inr ⟨.directory, .directory, if_pos ha, if_pos ha, .directory⟩
  · rw [FileTree.get?, FileTree.get?, if_neg ha, if_neg ha]
    exact lookup_of_forall₂ h l

/-- A file is at a place of both trees. -/
theorem Alike.get?_file (h : Alike R t u) {l : Location} {f : File}
    (hf : t.get? l = some (.file f)) : ∃ g, u.get? l = some (.file g) ∧ R l f g := by
  rcases h.get? l with ⟨hnone, -⟩ | ⟨v, w, hv, hw, hvw⟩
  · rw [hf] at hnone
    cases hnone
  · obtain rfl := Option.some.inj (hf.symm.trans hv)
    cases hvw with
    | file hR => exact ⟨_, hw, hR⟩

/-- A step leads to the same place. -/
theorem Alike.step (h : Alike R t u) : u.step = t.step := by
  funext l name
  rw [FileTree.step, FileTree.step]
  rcases h.get? l with ⟨ht, hu⟩ | ⟨v, w, ht, hu, hvw⟩
  · rw [ht, hu]
  · rw [ht, hu]
    cases hvw <;> rfl

/-- **Paths lead to the same places.** -/
theorem Alike.locate (h : Alike R t u) (path : Text) : u.locate path = t.locate path := by
  rw [FileTree.locate, FileTree.locate, h.step]

theorem Alike.isTooLong (h : Alike R t u) (path : Text) : u.isTooLong path = t.isTooLong path := by
  rw [FileTree.isTooLong, FileTree.isTooLong, h.locate]

/-- What is found at a path is the same, the error included, unless it is a file. -/
theorem Alike.find (h : Alike R t u) (path : Text) :
    u.find path = t.find path ∨
      ∃ l f g, t.locate path = .ok l ∧ t.find path = .ok (l, .file f) ∧
        u.find path = .ok (l, .file g) ∧ R l f g := by
  rw [FileTree.find, FileTree.find, h.locate path]
  cases t.locate path with
  | error e => exact .inl rfl
  | ok l =>
      simp only [bind, Except.bind, pure, Except.pure]
      rcases h.get? l with ⟨ht, hu⟩ | ⟨v, w, ht, hu, hvw⟩
      · rw [ht, hu]
        exact .inl rfl
      · rw [ht, hu]
        cases hvw with
        | directory => exact .inl rfl
        | @file f g hR =>
            by_cases hslash : Path.endsInSlash path = true
            · simp only [if_pos hslash, true_or]
            · simp only [if_neg hslash]
              exact .inr ⟨l, f, g, rfl, rfl, rfl, hR⟩

/-- The same paths are those of files. -/
theorem Alike.isFile (h : Alike R t u) (path : Text) : u.isFile path = t.isFile path := by
  rw [FileTree.isFile, FileTree.isFile]
  rcases h.find path with hsame | ⟨l, f, g, -, ht, hu, -⟩
  · rw [hsame]
  · rw [ht, hu]

/-- The same paths are those of directories. -/
theorem Alike.directory? (h : Alike R t u) (path : Text) :
    u.directory? path = t.directory? path := by
  rw [FileTree.directory?, FileTree.directory?]
  rcases h.find path with hsame | ⟨l, f, g, -, ht, hu, -⟩
  · rw [hsame]
  · rw [ht, hu]

/-- **Files that have not changed are read alike.** -/
theorem Alike.read (h : Alike R t u) {path : Text}
    (hsame : ∀ l f g, t.locate path = .ok l → R l f g → g = f) : u.read path = t.read path := by
  have hfind : u.find path = t.find path := by
    rcases h.find path with heq | ⟨l, f, g, hl, ht, hu, hR⟩
    · exact heq
    · rw [ht, hu, hsame l f g hl hR]
  rw [FileTree.read, FileTree.read, hfind]

/-! ### Listing -/

/-- The steps to what is inside of a directory lead on from it. -/
theorem eq_append_of_stepsFrom? {d l : Location} {steps : List Text}
    (h : stepsFrom? d l = some steps) : l = d ++ steps := by
  unfold stepsFrom? at h
  split at h
  · cases h
  · rename_i name rest hdrop
    split at h
    · rename_i hprefix
      obtain ⟨after, rfl⟩ := List.isPrefixOf_iff_prefix.mp hprefix.1
      rw [List.drop_left] at hdrop
      rw [hdrop, ← Option.some.inj h]
    · cases h

/-- The same steps lead to what is inside of a directory. -/
theorem Alike.below (h : Alike R t u) (d : Location) :
    List.Forall₂ (fun a b => b.1 = a.1 ∧ ItemsAgree (R (d ++ a.1)) a.2 b.2)
      (t.below d) (u.below d) := by
  refine List.rel_filterMap (fun a b hab => ?_) h
  obtain ⟨hplace, hitem⟩ := hab
  rw [hplace]
  cases hs : stepsFrom? d a.1 with
  | none => exact .none
  | some steps =>
      rw [eq_append_of_stepsFrom? hs] at hitem
      exact .some ⟨rfl, hitem⟩

/-- What is picked out of the inside of a directory is the same if related items are picked
alike. -/
theorem Alike.filterMap_below {β : Type} (h : Alike R t u) (d : Location)
    {pick : List Text × Item → Option β}
    (hpick : ∀ steps v w, ItemsAgree (R (d ++ steps)) v w → pick (steps, w) = pick (steps, v)) :
    (u.below d).filterMap pick = (t.below d).filterMap pick := by
  have hbelow := h.below d
  generalize t.below d = es, u.below d = es' at hbelow
  induction hbelow with
  | nil => rfl
  | @cons a b as bs hab _ ih =>
      obtain ⟨steps, v⟩ := a
      obtain ⟨steps', w⟩ := b
      obtain ⟨hsteps, hvw⟩ := hab
      obtain rfl : steps' = steps := hsteps
      rw [List.filterMap_cons, List.filterMap_cons, ih, hpick steps' v w hvw]

/-- A directory has the same items if no file immediately inside of it has changed. -/
theorem Alike.children (h : Alike R t u) {d : Location}
    (hsame : ∀ name f g, R (d ++ [name]) f g → g = f) : u.children d = t.children d := by
  refine h.filterMap_below d fun steps v w hvw => ?_
  match steps with
  | [] | _ :: _ :: _ => rfl
  | [name] =>
      cases hvw with
      | directory => rfl
      | file hR => rw [hsame name _ _ hR]

/-! ### Rewriting -/

/-- What is put at a place takes the place of what is there. -/
theorem forall₂_insertItem {l : Location} {v item : Item} (hitem : ItemsAgree (R l) v item)
    {items items' : List (Location × Item)}
    (h : List.Forall₂ (fun a b => b.1 = a.1 ∧ ItemsAgree (R a.1) a.2 b.2) items items')
    (hsorted : items.Pairwise fun a b => a.1 < b.1) (hv : items.lookup l = some v) :
    List.Forall₂ (fun a b => b.1 = a.1 ∧ ItemsAgree (R a.1) a.2 b.2) items
      (insertItem l item items') := by
  induction h with
  | nil => cases hv
  | @cons a b as bs hab hrest ih =>
      obtain ⟨k, w⟩ := a
      obtain ⟨k', w'⟩ := b
      obtain ⟨hk, hww⟩ := hab
      obtain rfl : k' = k := hk
      obtain ⟨hhead, htail⟩ := List.pairwise_cons.mp hsorted
      rw [lookup_cons_eq] at hv
      rw [insertItem]
      by_cases hkl : l = k'
      · subst hkl
        rw [if_pos rfl] at hv
        obtain rfl := Option.some.inj hv
        rw [if_neg (List.lt_irrefl _), if_pos rfl]
        exact .cons ⟨rfl, hitem⟩ hrest
      · rw [if_neg hkl] at hv
        have hlt : k' < l := by
          obtain ⟨before, after, has, -⟩ := List.lookup_eq_some_iff.mp hv
          exact hhead (l, v) (has ▸ List.mem_append_right _ List.mem_cons_self)
        rw [if_neg (fun hlk => List.lt_irrefl _ (List.lt_trans hlk hlt)),
          if_neg fun he => hkl he.symm]
        exact .cons ⟨rfl, hww⟩ (ih htail hv)

/-- **A tree stays alike when a file is rewritten.** -/
theorem Alike.put (h : Alike R t u) {l : Location} {f g : File}
    (hf : t.get? l = some (.file f)) (hR : R l f g) : Alike R t (u.put l (.file g)) := by
  have hv : t.items.lookup l = some (.file f) := by
    unfold FileTree.get? at hf
    split at hf
    · cases hf
    · exact hf
  exact forall₂_insertItem (.file hR) h t.sorted hv

/-- Trees are equal if they have the same files at the same places. -/
theorem Alike.eq (h : Alike (fun _ => Eq) t u) : t = u := by
  have hitems : List.Forall₂ Eq t.items u.items := by
    refine List.Forall₂.imp (fun a b hab => ?_) h
    obtain ⟨l, v⟩ := a
    obtain ⟨m, w⟩ := b
    obtain ⟨hplace, hitem⟩ := hab
    obtain rfl : m = l := hplace
    cases hitem with
    | directory => rfl
    | file hsame => rw [hsame]
  rw [List.forall₂_eq_eq_eq] at hitems
  cases t
  cases u
  cases hitems
  rfl

/-- Nothing changes when a file is put where it is. -/
theorem put_eq_self {l : Location} {f : File} (h : t.get? l = some (.file f)) :
    t.put l (.file f) = t := by
  have hrefl : Alike (fun _ => Eq) t t := Alike.refl (fun _ _ => rfl) t
  exact (hrefl.put h rfl).eq.symm

end FileTree

end SandboxProfile
