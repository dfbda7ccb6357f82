import SandboxProfile.Keyword.Category

/-!
# Keyword catalogs

A catalog says to which category each keyword belongs. It is made from a list of
declarations; where a word is declared more than once its first declaration counts. Words
are compared exactly.

## Main definitions

* `firstDeclarations` drops every declaration of a word that was declared before.
* `Catalog.ofDeclarations` is the catalog that a list of declarations makes.
* `Catalog.classify`, `Catalog.words`, `Catalog.wordsOf`, `Catalog.categories` are its views.

## Main results

* `firstDeclarations_nodup` — no word is declared twice in a catalog.
* `find?_firstDeclarations` — the first declaration of a word decides.
-/

namespace SandboxProfile

/-- A keyword together with the category that it is declared in. -/
abbrev Declaration := Text × Category

/-- The declarations that are the first of their word, in order. -/
def firstDeclarations : List Declaration → List Declaration
  | [] => []
  | d :: rest => d :: (firstDeclarations rest).filter fun e => e.1 ≠ d.1

/-- No word is declared twice among the first declarations. -/
theorem firstDeclarations_nodup (ds : List Declaration) :
    ((firstDeclarations ds).map Prod.fst).Nodup := by
  induction ds with
  | nil => exact List.nodup_nil
  | cons d rest ih =>
    rw [firstDeclarations, List.map_cons, List.nodup_cons]
    refine ⟨?_, ih.sublist (List.Sublist.map _ List.filter_sublist)⟩
    intro h
    obtain ⟨e, he, hword⟩ := List.mem_map.mp h
    have := (List.mem_filter.mp he).2
    exact of_decide_eq_true this hword

/-- The first declaration of a word is found among the first declarations. -/
theorem find?_firstDeclarations (w : Text) (ds : List Declaration) :
    (firstDeclarations ds).find? (fun d => d.1 = w) = ds.find? (fun d => d.1 = w) := by
  induction ds with
  | nil => rfl
  | cons d rest ih =>
    by_cases h : d.1 = w
    · simp [firstDeclarations, h]
    · rw [firstDeclarations, List.find?_cons_of_neg (by simpa using h),
        List.find?_cons_of_neg (by simpa using h), List.find?_filter, ← ih]
      congr 1
      funext e
      by_cases he : e.1 = w
      · have : e.1 ≠ d.1 := fun h' => h (h' ▸ he)
        simp [he, Ne.symm h]
      · simp [he]

/-- A keyword catalog: declarations in order, of which no two share a word. -/
structure Catalog where
  declarations : List Declaration
  /-- No word is declared twice. -/
  nodup : (declarations.map Prod.fst).Nodup

namespace Catalog

/-- The catalog that a list of declarations makes. -/
def ofDeclarations (ds : List Declaration) : Catalog :=
  ⟨firstDeclarations ds, firstDeclarations_nodup ds⟩

/-- The category of a word, if the word is a keyword. -/
def classify (k : Catalog) (w : Text) : Option Category :=
  (k.declarations.find? fun d => d.1 = w).map Prod.snd

/-- All keywords in the order of their declaration. -/
def words (k : Catalog) : List Text :=
  k.declarations.map Prod.fst

/-- The keywords of one category in the order of their declaration. -/
def wordsOf (k : Catalog) (c : Category) : List Text :=
  (k.declarations.filter fun d => d.2 = c).map Prod.fst

/-- The categories that have a keyword, in their fixed order. -/
def categories (k : Catalog) : List Category :=
  Category.all.filter fun c => k.declarations.any fun d => d.2 = c

/-- The number of keywords. -/
def size (k : Catalog) : Nat :=
  k.declarations.length

/-- Is the word a keyword? -/
def contains (k : Catalog) (w : Text) : Bool :=
  k.declarations.any fun d => d.1 = w

/-- The category of a word is that of its first declaration. -/
theorem classify_ofDeclarations (ds : List Declaration) (w : Text) :
    (ofDeclarations ds).classify w = (ds.find? fun d => d.1 = w).map Prod.snd := by
  rw [classify, ofDeclarations, find?_firstDeclarations]

end Catalog

end SandboxProfile
