import Mathlib.Data.List.Induction
import Mathlib.Logic.Function.Basic
import SandboxProfile.Proofs.Keyword.Order

/-!
# The views of a catalog

A catalog grows by one declaration at a time, and a declaration adds nothing if its word is there
already. All that can be asked about a catalog follows from the declarations that were added: which
words there are and in which order, the category of a word, the words of a category, and which
categories have words. So the answers fit together. In particular the words of the seven categories
have no word in common, and together they are all words; as each of the seven lists keeps the order
of the whole, the whole interleaves them.

## Main definitions

* `Catalog.declare` adds a declaration to a catalog.
* `Interleaves` says that a list is made of other lists, each in its order.
* `Catalog.ViewsAgree` says how the views of a catalog fit together and what they show.

## Main results

* `foldl_declare` — a catalog is made by adding one declaration after another.
* `wordsOf_eq_filter` — the words of a category are those that are classified in it.
* `interleaves_filter` — a list interleaves the classes of its members.
* `Catalog.views_agree` — the views of every catalog fit together.
-/

namespace SandboxProfile

/-! ### One declaration after another -/

namespace Catalog

/-- The catalog without keywords. -/
def empty : Catalog :=
  ⟨[], List.nodup_nil⟩

/-- A catalog with one more declaration, unless its word is declared already. -/
def declare (k : Catalog) (d : Declaration) : Catalog :=
  if h : d.1 ∈ k.words then k
  else ⟨k.declarations ++ [d], by
    rw [List.map_append]
    exact List.Nodup.append k.nodup (List.nodup_singleton _) (List.disjoint_singleton.mpr h)⟩

/-- Catalogs with the same declarations are the same. -/
theorem ext_declarations {k k' : Catalog} (h : k.declarations = k'.declarations) : k = k' := by
  cases k
  cases k'
  cases h
  rfl

end Catalog

/-- **One more declaration** at the end is added, unless its word is declared already. -/
theorem declare_ofDeclarations (ds : List Declaration) (d : Declaration) :
    (Catalog.ofDeclarations ds).declare d = Catalog.ofDeclarations (ds ++ [d]) := by
  refine Catalog.ext_declarations ?_
  have hgrow : (Catalog.ofDeclarations (ds ++ [d])).declarations =
      firstDeclarations ds ++ [d].filter fun e => e.1 ∉ declaredWords ds :=
    firstDeclarations_append ds [d]
  rw [hgrow, Catalog.declare]
  by_cases h : d.1 ∈ declaredWords ds
  · rw [dif_pos (mem_words_ofDeclarations.mpr h), List.filter_cons_of_neg (by simpa using h),
      List.filter_nil, List.append_nil]
    rfl
  · rw [dif_neg fun hw => h (mem_words_ofDeclarations.mp hw),
      List.filter_cons_of_pos (by simpa using h), List.filter_nil]
    rfl

/-- **A catalog is made by adding one declaration after another.** -/
theorem foldl_declare (ds : List Declaration) :
    ds.foldl Catalog.declare Catalog.empty = Catalog.ofDeclarations ds := by
  induction ds using List.reverseRecOn with
  | nil => rfl
  | append_singleton ds d ih => rw [List.foldl_concat, ih, declare_ofDeclarations]

/-! ### Lists that interleave -/

/-- The list is made of the members of the parts, and each part is in its order. -/
inductive Interleaves {ι α : Type} [DecidableEq ι] : (ι → List α) → List α → Prop where
  /-- Empty parts make the empty list. -/
  | nil : Interleaves (fun _ => []) []
  /-- A member in front of the list comes first in one part. -/
  | cons {parts : ι → List α} {l : List α} (i : ι) (a : α) :
      Interleaves parts l → Interleaves (Function.update parts i (a :: parts i)) (a :: l)

/-- **A list interleaves the classes of its members.** -/
theorem interleaves_filter {ι α : Type} [DecidableEq ι] {f : α → Option ι} {l : List α}
    (h : ∀ a ∈ l, ∃ i, f a = some i) : Interleaves (fun i => l.filter fun a => f a = some i) l := by
  induction l with
  | nil => exact .nil
  | cons a rest ih =>
      obtain ⟨⟨i, hi⟩, hrest⟩ := List.forall_mem_cons.mp h
      have hparts : (fun j => (a :: rest).filter fun a => f a = some j) =
          Function.update (fun j => rest.filter fun a => f a = some j) i
            (a :: rest.filter fun a => f a = some i) := by
        funext j
        by_cases hj : j = i
        · subst hj
          rw [Function.update_self, List.filter_cons_of_pos (by simpa using hi)]
        · have hne : f a ≠ some j := fun hf => hj (Option.some.inj (hf.symm.trans hi))
          rw [Function.update_of_ne hj, List.filter_cons_of_neg (by simpa using hne)]
      rw [hparts]
      exact .cons i a (ih hrest)

/-! ### Words and categories -/

variable {k : Catalog} {w : Text} {c : Category}

/-- What is declared in a catalog is what words are classified as. -/
theorem mem_declarations_iff : (w, c) ∈ k.declarations ↔ k.classify w = some c := by
  rw [Catalog.classify, find?_eq_some_iff_firstDeclared]
  constructor
  · exact firstDeclared_of_nodup k.nodup
  · rintro ⟨before, after, hds, -⟩
    rw [hds]
    exact List.mem_append_right _ List.mem_cons_self

theorem contains_iff : k.contains w = true ↔ w ∈ k.words := by
  rw [Catalog.contains, Catalog.words, List.any_eq_true, List.mem_map]
  simp only [decide_eq_true_eq]

/-- **The words of a category** are those that are classified in it. -/
theorem wordsOf_eq_filter (k : Catalog) (c : Category) :
    k.wordsOf c = k.words.filter fun w => k.classify w = some c := by
  rw [Catalog.wordsOf, Catalog.words, List.filter_map]
  refine congrArg (List.map Prod.fst) (List.filter_congr fun d hd => ?_)
  have hclass : k.classify d.1 = some d.2 := mem_declarations_iff.mp hd
  simp only [Function.comp_apply, hclass, Option.some.injEq]

theorem mem_wordsOf_iff : w ∈ k.wordsOf c ↔ k.classify w = some c := by
  rw [wordsOf_eq_filter, List.mem_filter, decide_eq_true_eq]
  exact and_iff_right_of_imp fun h => mem_words_iff.mpr ⟨c, h⟩

/-- The words of two categories have no word in common. -/
theorem disjoint_wordsOf (k : Catalog) {c c' : Category} (h : c ≠ c') :
    (k.wordsOf c).Disjoint (k.wordsOf c') := by
  intro w hw hw'
  rw [mem_wordsOf_iff] at hw hw'
  exact h (Option.some.inj (hw.symm.trans hw'))

/-- The words of a catalog interleave the words of its categories. -/
theorem interleaves_words (k : Catalog) : Interleaves k.wordsOf k.words := by
  have hparts : k.wordsOf = fun c => k.words.filter fun w => k.classify w = some c :=
    funext (wordsOf_eq_filter k)
  rw [hparts]
  exact interleaves_filter fun w hw => mem_words_iff.mp hw

/-- The categories of a catalog are those that have words. -/
theorem categories_eq_filter (k : Catalog) :
    k.categories = Category.all.filter fun c => k.wordsOf c ≠ [] := by
  refine List.filter_congr fun c _ => ?_
  rw [Bool.eq_iff_iff, List.any_eq_true, decide_eq_true_eq, ne_eq, Catalog.wordsOf,
    List.map_eq_nil_iff, List.filter_eq_nil_iff]
  push Not
  rfl

/-- A catalog that is made again from its own declarations is the same. -/
theorem ofDeclarations_declarations (k : Catalog) : Catalog.ofDeclarations k.declarations = k :=
  Catalog.ext_declarations (firstDeclarations_of_nodup k.nodup)

/-! ### All views -/

/-- What the views of a catalog show that is made of declarations, and how they fit together. -/
structure Catalog.ViewsAgree (k : Catalog) (ds : List Declaration) : Prop where
  /-- The declarations were added one after another, each unless its word was there. -/
  declared : k = ds.foldl Catalog.declare Catalog.empty
  /-- Every word that is declared is listed once, and no other word is. -/
  count_words : ∀ w, k.words.count w = if w ∈ declaredWords ds then 1 else 0
  /-- Words are listed in the order of their first declarations. -/
  pairwise_words : k.words.Pairwise fun u v =>
    (declaredWords ds).idxOf u < (declaredWords ds).idxOf v
  /-- A word is in the catalog exactly if it has a category. -/
  contains_iff : ∀ w, k.contains w = true ↔ ∃ c, k.classify w = some c
  /-- The category of a word is that of its first declaration. -/
  classify_iff : ∀ w c, k.classify w = some c ↔ FirstDeclared w c ds
  /-- The table has each word with its category. -/
  mem_declarations_iff : ∀ w c, (w, c) ∈ k.declarations ↔ k.classify w = some c
  /-- The size is the number of words. -/
  size_eq : k.size = k.words.length
  /-- The words of a category are those that are classified in it, in order. -/
  wordsOf_eq : ∀ c, k.wordsOf c = k.words.filter fun w => k.classify w = some c
  /-- The words of two categories have no word in common. -/
  disjoint : ∀ c c', c ≠ c' → (k.wordsOf c).Disjoint (k.wordsOf c')
  /-- All words interleave the words of the categories. -/
  interleaves : Interleaves k.wordsOf k.words
  /-- The categories are those that have words, in their fixed order. -/
  categories_eq : k.categories = Category.all.filter fun c => k.wordsOf c ≠ []
  /-- The catalog that is made from the table is the same. -/
  rebuilt : Catalog.ofDeclarations k.declarations = k

/-- **The views of every catalog fit together**, whatever it is made of. -/
theorem Catalog.views_agree (ds : List Declaration) :
    (Catalog.ofDeclarations ds).ViewsAgree ds where
  declared := (foldl_declare ds).symm
  count_words w := by
    have hnodup : (Catalog.ofDeclarations ds).words.Nodup := firstDeclarations_nodup ds
    rw [hnodup.count]
    exact if_congr mem_words_ofDeclarations rfl rfl
  pairwise_words := SandboxProfile.pairwise_words ds
  contains_iff _ := SandboxProfile.contains_iff.trans mem_words_iff
  classify_iff _ _ := classify_ofDeclarations_eq_some_iff
  mem_declarations_iff _ _ := SandboxProfile.mem_declarations_iff
  size_eq := (List.length_map Prod.fst).symm
  wordsOf_eq := wordsOf_eq_filter _
  disjoint _ _ := disjoint_wordsOf _
  interleaves := interleaves_words _
  categories_eq := categories_eq_filter _
  rebuilt := ofDeclarations_declarations _

/-- A word that is declared in two categories, between two others. -/
example : (Catalog.ofDeclarations [("net".toList, .option), ("seccomp".toList, .directive),
    ("net".toList, .directive), ("caps".toList, .option)]).wordsOf .option =
      ["net".toList, "caps".toList] := by
  decide

end SandboxProfile
