import Mathlib.Data.List.Nodup
import SandboxProfile.Keyword.Builtin

/-!
# The order of declarations

A catalog keeps the first declaration of each word, in the order of the first declarations. So
declarations that come later can neither change the category of a word nor move it: a catalog
that is extended at its end begins with what it was.

The builtin keywords come first of all, and no word is among them twice.

## Main definitions

* `FirstDeclared` says which category the first declaration of a word names.

## Main results

* `classify_ofDeclarations_eq_some_iff` — the first declaration of a word decides.
* `firstDeclarations_append` — what declarations at the end add.
* `pairwise_words` — words stand in the order of their first declarations.
* `classify_builtin` — what the builtin keywords are.
-/

namespace SandboxProfile

/-- The first declaration of the word is in the category. -/
def FirstDeclared (w : Text) (c : Category) (ds : List Declaration) : Prop :=
  ∃ before after, ds = before ++ (w, c) :: after ∧ ∀ d ∈ before, d.1 ≠ w

/-- The words of declarations, one for each. -/
def declaredWords (ds : List Declaration) : List Text :=
  ds.map Prod.fst

@[simp] theorem declaredWords_append (ds es : List Declaration) :
    declaredWords (ds ++ es) = declaredWords ds ++ declaredWords es :=
  List.map_append

/-! ### Categories -/

/-- The first declaration of a word is the one that is found. -/
theorem find?_eq_some_iff_firstDeclared {w : Text} {c : Category} {ds : List Declaration} :
    (ds.find? fun d => d.1 = w).map Prod.snd = some c ↔ FirstDeclared w c ds := by
  rw [Option.map_eq_some_iff]
  constructor
  · rintro ⟨⟨v, c'⟩, hfind, rfl⟩
    obtain ⟨hv, before, after, hds, hbefore⟩ := List.find?_eq_some_iff_append.mp hfind
    obtain rfl : v = w := of_decide_eq_true hv
    exact ⟨before, after, hds, fun d hd => by simpa using hbefore d hd⟩
  · rintro ⟨before, after, hds, hbefore⟩
    refine ⟨(w, c), List.find?_eq_some_iff_append.mpr ⟨decide_eq_true rfl, before, after, hds, ?_⟩,
      rfl⟩
    exact fun d hd => by simpa using hbefore d hd

/-- **The first declaration of a word decides.** -/
theorem classify_ofDeclarations_eq_some_iff {w : Text} {c : Category} {ds : List Declaration} :
    (Catalog.ofDeclarations ds).classify w = some c ↔ FirstDeclared w c ds := by
  rw [Catalog.classify_ofDeclarations, find?_eq_some_iff_firstDeclared]

/-- Words that are not declared are no keywords. -/
theorem classify_ofDeclarations_eq_none_iff {w : Text} {ds : List Declaration} :
    (Catalog.ofDeclarations ds).classify w = none ↔ w ∉ declaredWords ds := by
  rw [Catalog.classify_ofDeclarations, Option.map_eq_none_iff, List.find?_eq_none, declaredWords,
    List.mem_map]
  constructor
  · rintro h ⟨d, hd, rfl⟩
    exact h d hd (decide_eq_true rfl)
  · exact fun h d hd hw => h ⟨d, hd, of_decide_eq_true hw⟩

/-- Declarations at the end leave the category of a word that was declared. -/
theorem classify_ofDeclarations_append {w : Text} {ds : List Declaration}
    (h : w ∈ declaredWords ds) (more : List Declaration) :
    (Catalog.ofDeclarations (ds ++ more)).classify w = (Catalog.ofDeclarations ds).classify w := by
  cases hc : (Catalog.ofDeclarations ds).classify w with
  | none => exact absurd h (classify_ofDeclarations_eq_none_iff.mp hc)
  | some c =>
      obtain ⟨before, after, rfl, hbefore⟩ := classify_ofDeclarations_eq_some_iff.mp hc
      refine classify_ofDeclarations_eq_some_iff.mpr ⟨before, after ++ more, ?_, hbefore⟩
      rw [List.append_assoc, List.cons_append]

/-! ### Words -/

/-- The words of a catalog are those that have a category. -/
theorem mem_words_iff {k : Catalog} {w : Text} : w ∈ k.words ↔ ∃ c, k.classify w = some c := by
  constructor
  · intro h
    obtain ⟨d, hd, hw⟩ := List.mem_map.mp h
    have hsome : (k.declarations.find? fun d => d.1 = w).isSome :=
      List.find?_isSome.mpr ⟨d, hd, decide_eq_true hw⟩
    obtain ⟨e, he⟩ := Option.isSome_iff_exists.mp hsome
    exact ⟨e.2, by rw [Catalog.classify, he, Option.map_some]⟩
  · rintro ⟨c, hc⟩
    obtain ⟨d, hd, -⟩ := Option.map_eq_some_iff.mp hc
    obtain rfl : d.1 = w := by simpa using List.find?_some hd
    exact List.mem_map_of_mem (List.mem_of_find?_eq_some hd)

theorem mem_words_ofDeclarations {w : Text} {ds : List Declaration} :
    w ∈ (Catalog.ofDeclarations ds).words ↔ w ∈ declaredWords ds := by
  rw [mem_words_iff, ← Option.ne_none_iff_exists', ne_eq, classify_ofDeclarations_eq_none_iff,
    not_not]

/-- **Declarations at the end add the first declarations of new words** behind the old ones. -/
theorem firstDeclarations_append (ds es : List Declaration) :
    firstDeclarations (ds ++ es) =
      firstDeclarations ds ++ (firstDeclarations es).filter fun e => e.1 ∉ declaredWords ds := by
  induction ds with
  | nil => simp [firstDeclarations, declaredWords]
  | cons d rest ih =>
      rw [List.cons_append, firstDeclarations, firstDeclarations, ih, List.filter_append,
        List.filter_filter, List.cons_append]
      refine congrArg (fun l => d :: (List.filter _ _ ++ l)) (List.filter_congr fun e _ => ?_)
      rw [Bool.eq_iff_iff, Bool.and_eq_true, decide_eq_true_iff, decide_eq_true_iff,
        decide_eq_true_iff, ← not_or]
      exact not_congr List.mem_cons.symm

/-- The words of declarations none of which repeats a word. -/
theorem firstDeclarations_of_nodup {ds : List Declaration} (h : (declaredWords ds).Nodup) :
    firstDeclarations ds = ds := by
  induction ds with
  | nil => rfl
  | cons d rest ih =>
      obtain ⟨hd, hrest⟩ := List.nodup_cons.mp h
      rw [firstDeclarations, ih hrest, List.filter_eq_self.mpr fun e he => ?_]
      exact decide_eq_true fun hword => hd (hword ▸ List.mem_map_of_mem he)

/-- **Words stand in the order of their first declarations.** -/
theorem pairwise_words (ds : List Declaration) :
    (declaredWords (firstDeclarations ds)).Pairwise fun u v =>
      (declaredWords ds).idxOf u < (declaredWords ds).idxOf v := by
  induction ds with
  | nil => exact List.Pairwise.nil
  | cons d rest ih =>
      have hword (v : Text) (hv : v ∈ declaredWords ((firstDeclarations rest).filter
          fun e => e.1 ≠ d.1)) : d.1 ≠ v := by
        obtain ⟨e, he, rfl⟩ := List.mem_map.mp hv
        exact Ne.symm (of_decide_eq_true (List.mem_filter.mp he).2)
      refine List.pairwise_cons.mpr ⟨fun v hv => ?_, ?_⟩
      · rw [declaredWords, List.map_cons, List.idxOf_cons_self, List.idxOf_cons_ne _ (hword v hv)]
        exact Nat.succ_pos _
      · have hsub := ih.sublist (List.Sublist.map Prod.fst
          (List.filter_sublist (p := fun e : Declaration => e.1 ≠ d.1)))
        refine hsub.imp_of_mem fun {u v} hu hv hlt => ?_
        rw [declaredWords, List.map_cons, List.idxOf_cons_ne _ (hword u hu),
          List.idxOf_cons_ne _ (hword v hv)]
        exact Nat.succ_lt_succ hlt

/-! ### Builtin keywords -/

/-- No builtin keyword is declared twice. -/
theorem nodup_builtin : (declaredWords builtinDeclarations).Nodup := by
  have hnodup : (Category.all.flatMap builtinWords).Nodup := by decide +kernel
  have hwords : declaredWords builtinDeclarations =
      (Category.all.flatMap builtinWords).map String.toList := by
    simp only [declaredWords, builtinDeclarations, List.map_flatMap, List.map_map]
    rfl
  rw [hwords]
  exact List.Nodup.map (fun _ _ => String.toList_inj.mp) hnodup

/-- Among declarations without repeated words each is the first of its word. -/
theorem firstDeclared_of_nodup {w : Text} {c : Category} {ds : List Declaration}
    (h : (declaredWords ds).Nodup) (hmem : (w, c) ∈ ds) : FirstDeclared w c ds := by
  obtain ⟨before, after, rfl⟩ := List.append_of_mem hmem
  refine ⟨before, after, rfl, fun d hd hword => ?_⟩
  rw [declaredWords_append] at h
  refine (List.nodup_append.mp h).2.2 w ?_ w List.mem_cons_self rfl
  exact hword ▸ List.mem_map_of_mem hd

/-- **Builtin keywords have their builtin category**, whatever is declared after them. -/
theorem classify_builtin {c : Category} {w : String} (h : w ∈ builtinWords c)
    (more : List Declaration) :
    (Catalog.ofDeclarations (builtinDeclarations ++ more)).classify w.toList = some c := by
  have hmem : (w.toList, c) ∈ builtinDeclarations :=
    List.mem_flatMap.mpr ⟨c, c.mem_all, List.mem_map_of_mem h⟩
  rw [classify_ofDeclarations_append (List.mem_map_of_mem hmem),
    classify_ofDeclarations_eq_some_iff]
  exact firstDeclared_of_nodup nodup_builtin hmem

end SandboxProfile
