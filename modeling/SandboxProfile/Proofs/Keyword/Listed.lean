import SandboxProfile.Proofs.Config.Accepted
import SandboxProfile.Proofs.Keyword.Resolution

/-!
# Which listed keywords are kept

The section of keywords in a configuration file has a key for each category, spelt with hyphens or
with underscores, and a list of words for each key. A section may have both spellings of one
category. Then it is the later key that counts, and the list of the earlier one is dropped as a
whole, whatever it holds. So a catalog knows exactly the words that are builtin, those in the lists
that count, and those that keyword files declare; and no word of the section is lost exactly if
each word that is only in a list that was dropped is known from elsewhere.

## Main definitions

* `Category.IsSpeltBy` says that a key names a category in an accepted spelling.
* `IsListed`, `IsTaken` and `IsDropped` say that a word is in a list of the section, in one that
  counts, and in one that a later key replaces.
* `KeepsListed` says that a catalog knows all words of the section.

## Main results

* `Setting.valueIn?_eq_some_iff_last` — the last key of a setting gives its value.
* `mem_keywords_iff` — the keywords of a configuration are those of the lists that count.
* `Catalog.load_keepsListed` — which words are known, and when all that are listed are.
-/

namespace SandboxProfile

variable {t u : FileTree} {root : Text} {override : Option Text} {entries : Entries}

/-! ### Statement -/

/-- The key names the category, with hyphens or with underscores. -/
def Category.IsSpeltBy (c : Category) (key : Value) : Prop :=
  ∃ name, key = .text name ∧ Text.replaced '-' '_' name = Text.replaced '-' '_' c.name.toList

/-- The word is in a list of the section of keywords whose key names the category; the entries
`after` follow this key. -/
def ListedBefore (entries : Entries) (c : Category) (w : Text) (after : Entries) : Prop :=
  ∃ inner before key words,
    Value.get? "keywords".toList entries = some (.table inner) ∧
      inner = before ++ (key, .list words) :: after ∧ c.IsSpeltBy key ∧ .text w ∈ words

/-- The section of keywords lists the word under the category. -/
def IsListed (entries : Entries) (c : Category) (w : Text) : Prop :=
  ∃ after, ListedBefore entries c w after

/-- The last list of the category has the word. -/
def IsTaken (entries : Entries) (c : Category) (w : Text) : Prop :=
  ∃ after, ListedBefore entries c w after ∧ ∀ e ∈ after, ¬c.IsSpeltBy e.1

/-- A list of the category that is not the last has the word. -/
def IsDropped (entries : Entries) (c : Category) (w : Text) : Prop :=
  ∃ after, ListedBefore entries c w after ∧ ∃ e ∈ after, c.IsSpeltBy e.1

/-- The word is one of the builtin keywords. -/
def IsBuiltin (w : Text) : Prop :=
  ∃ c, ∃ word ∈ builtinWords c, word.toList = w

/-- The catalog knows every word that the section of keywords lists. -/
def KeepsListed (entries : Entries) (k : Catalog) : Prop :=
  ∀ c w, IsListed entries c w → ∃ c', k.classify w = some c'

/-! ### The last key -/

/-- The last member that passes a test has none behind it. -/
theorem getLast?_filter_eq_some_iff {α : Type} {p : α → Bool} {l : List α} {a : α} :
    (l.filter p).getLast? = some a ↔
      p a = true ∧ ∃ before after, l = before ++ a :: after ∧ ∀ b ∈ after, p b = false := by
  rw [List.getLast?_filter, List.find?_eq_some_iff_append]
  refine and_congr_right fun _ => ⟨?_, ?_⟩
  · rintro ⟨after, before, hl, hafter⟩
    refine ⟨before.reverse, after.reverse, ?_, fun b hb => ?_⟩
    · rw [← l.reverse_reverse, hl]
      simp
    · simpa using hafter b (List.mem_reverse.mp hb)
  · rintro ⟨before, after, rfl, hafter⟩
    refine ⟨after.reverse, before.reverse, by simp, fun b hb => ?_⟩
    simpa using hafter b (List.mem_reverse.mp hb)

/-- The entries of a section that is a table. -/
theorem Section.entriesIn_of_get? {s : Section} {inner : Entries}
    (h : Value.get? s.name.toList entries = some (.table inner)) : s.entriesIn entries = inner := by
  rw [entriesIn, table, h]

/-- **The last key of a setting gives its value.** -/
theorem Setting.valueIn?_eq_some_iff_last {s : Setting} {v : Value} :
    s.valueIn? entries = some v ↔
      ∃ inner before key after, Value.get? s.home.name.toList entries = some (.table inner) ∧
        inner = before ++ (key, v) :: after ∧ s.isSpelling key = true ∧
          ∀ e ∈ after, s.isSpelling e.1 = false := by
  rw [valueIn?, value?, Option.map_eq_some_iff]
  constructor
  · rintro ⟨⟨key, w⟩, he, rfl⟩
    obtain ⟨hkey, before, after, hinner, hafter⟩ := getLast?_filter_eq_some_iff.mp he
    have hmem : (key, w) ∈ s.home.entriesIn entries :=
      hinner ▸ List.mem_append_right _ List.mem_cons_self
    obtain ⟨inner, hget, -⟩ := Section.mem_entriesIn_iff.mp hmem
    rw [Section.entriesIn_of_get? hget] at hinner
    exact ⟨inner, before, key, after, hget, hinner, hkey, hafter⟩
  · rintro ⟨inner, before, key, after, hget, hinner, hkey, hafter⟩
    rw [Section.entriesIn_of_get? hget]
    exact ⟨(key, v), getLast?_filter_eq_some_iff.mpr ⟨hkey, before, after, hinner, hafter⟩, rfl⟩

/-- The spellings of a category are those of the setting with its words. -/
theorem Category.isSpelling_iff {c : Category} {key : Value} :
    (Setting.keywords c).isSpelling key = true ↔ c.IsSpeltBy key := by
  cases key with
  | text name =>
      refine decide_eq_true_iff.trans ⟨fun h => ⟨name, rfl, h⟩, ?_⟩
      rintro ⟨name', hname, h⟩
      obtain rfl := Value.text.inj hname
      exact h
  | _ =>
      refine ⟨fun h => (nomatch h), ?_⟩
      rintro ⟨name, hname, -⟩
      cases hname

/-- The lists that count are the values of the settings. -/
theorem isTaken_iff {c : Category} {w : Text} :
    IsTaken entries c w ↔ ∃ words, (Setting.keywords c).valueIn? entries = some (.list words) ∧
      .text w ∈ words := by
  constructor
  · rintro ⟨after, ⟨inner, before, key, words, hget, hinner, hkey, hword⟩, hafter⟩
    refine ⟨words, Setting.valueIn?_eq_some_iff_last.mpr ?_, hword⟩
    refine ⟨inner, before, key, after, hget, hinner, Category.isSpelling_iff.mpr hkey, ?_⟩
    exact fun e he => Bool.eq_false_iff.mpr fun h => hafter e he (Category.isSpelling_iff.mp h)
  · rintro ⟨words, hvalue, hword⟩
    obtain ⟨inner, before, key, after, hget, hinner, hkey, hafter⟩ :=
      Setting.valueIn?_eq_some_iff_last.mp hvalue
    refine ⟨after, ⟨inner, before, key, words, hget, hinner, Category.isSpelling_iff.mp hkey, hword⟩,
      fun e he h => ?_⟩
    exact absurd (Category.isSpelling_iff.mpr h) (Bool.eq_false_iff.mp (hafter e he))

/-- A word that is listed is in the last list of its category or in another one. -/
theorem isListed_iff {c : Category} {w : Text} :
    IsListed entries c w ↔ IsTaken entries c w ∨ IsDropped entries c w := by
  constructor
  · rintro ⟨after, h⟩
    by_cases hlast : ∃ e ∈ after, c.IsSpeltBy e.1
    · exact .inr ⟨after, h, hlast⟩
    · exact .inl ⟨after, h, fun e he hspelt => hlast ⟨e, he, hspelt⟩⟩
  · rintro (⟨after, h, -⟩ | ⟨after, h, -⟩)
    · exact ⟨after, h⟩
    · exact ⟨after, h⟩

/-- No word is dropped where no two keys are spellings of one setting. -/
theorem not_isDropped_of_speltOnce (h : SpeltOnce entries) {c : Category} {w : Text} :
    ¬IsDropped entries c w := by
  rintro ⟨after, ⟨inner, before, key, words, hget, rfl, hkey, -⟩, e, he, hspelt⟩
  have hfirst : (((key, .list words) :: after).filter fun e => (Setting.keywords c).isSpelling e.1) =
      (key, .list words) :: after.filter fun e => (Setting.keywords c).isSpelling e.1 :=
    List.filter_cons_of_pos (Category.isSpelling_iff.mpr hkey)
  have hsecond : e ∈ after.filter fun e => (Setting.keywords c).isSpelling e.1 :=
    List.mem_filter.mpr ⟨he, Category.isSpelling_iff.mpr hspelt⟩
  have hlength := h (.keywords c) (Setting.mem_all _)
  rw [Section.entriesIn_of_get? (s := (Setting.keywords c).home) hget, List.filter_append,
    hfirst, List.length_append, List.length_cons] at hlength
  have hpos := List.length_pos_of_mem hsecond
  omega

/-! ### Configurations and catalogs -/

/-- **The keywords of a configuration** are those of the lists that count. -/
theorem mem_keywords_iff {config : Config} (h : Config.ofTable entries = .ok config)
    {c : Category} {w : Text} : w ∈ config.keywords c ↔ IsTaken entries c w := by
  have hvalue := (Config.valueOf_ofTable h (.keywords c)).1
  rw [isTaken_iff]
  cases hlist : (Setting.keywords c).valueIn? entries with
  | none =>
      rw [hlist, Option.getD_none] at hvalue
      have hnone : config.keywords c = [] := Value.ofTexts_injective hvalue
      simp [hnone]
  | some v =>
      rw [hlist, Option.getD_some] at hvalue
      obtain rfl : Value.ofTexts (config.keywords c) = v := hvalue
      simp [Value.ofTexts]

/-- The words of the builtin declarations. -/
theorem mem_declaredWords_builtin {w : Text} :
    w ∈ declaredWords builtinDeclarations ↔ IsBuiltin w := by
  simp only [declaredWords, builtinDeclarations, IsBuiltin, List.mem_map, List.mem_flatMap]
  constructor
  · rintro ⟨d, ⟨c, -, word, hword, rfl⟩, rfl⟩
    exact ⟨c, word, hword, rfl⟩
  · rintro ⟨c, word, hword, rfl⟩
    exact ⟨_, ⟨c, c.mem_all, word, hword, rfl⟩, rfl⟩

/-- The words that are declared for categories are those that are given for them. -/
theorem mem_declaredWords_given {words : Category → List Text} {w : Text} :
    w ∈ declaredWords (givenDeclarations words Category.all) ↔ ∃ c, w ∈ words c := by
  simp only [declaredWords, givenDeclarations, declareAll, List.mem_map, List.mem_flatMap]
  constructor
  · rintro ⟨d, ⟨c, -, word, hword, rfl⟩, rfl⟩
    exact ⟨c, hword⟩
  · rintro ⟨c, hw⟩
    exact ⟨_, ⟨c, c.mem_all, w, hw, rfl⟩, rfl⟩

/-- **Which listed keywords are kept.** A catalog is loaded with a configuration from the table in
use. It knows the builtin words, those of the lists that count and those that keyword files
declare; so it knows all words that are listed exactly if every word of a list that was dropped is
one of these. -/
theorem Catalog.load_keepsListed {e : Environment} {config : Config} {dss : List (List Declaration)}
    (huse : Config.InUse t root override entries)
    (hconfig : Config.load t root override e = .ok config)
    (hfiles : List.Forall₂ (fun file => FileDeclares file.2) (keywordFiles u) dss)
    (shown : Text) :
    ∃ k, Catalog.load config u shown = .ok k ∧
      (∀ w, (∃ c, k.classify w = some c) ↔
        IsBuiltin w ∨ (∃ c, IsTaken entries c w) ∨ w ∈ declaredWords dss.flatten) ∧
      (KeepsListed entries k ↔ ∀ c w, IsDropped entries c w →
        IsBuiltin w ∨ (∃ c', IsTaken entries c' w) ∨ w ∈ declaredWords dss.flatten) := by
  have hkeywords (c : Category) (w : Text) : w ∈ config.keywords c ↔ IsTaken entries c w := by
    rw [Config.load_of_inUse huse] at hconfig
    obtain ⟨config', hentries, happly⟩ := bind_eq_ok.mp hconfig
    obtain rfl := pure_eq_ok.mp happly
    exact mem_keywords_iff hentries
  have hknown (w : Text) : (∃ c, (Catalog.ofDeclarations (builtinDeclarations ++
      (givenDeclarations config.keywords Category.all ++ dss.flatten))).classify w = some c) ↔
        IsBuiltin w ∨ (∃ c, IsTaken entries c w) ∨ w ∈ declaredWords dss.flatten := by
    rw [← mem_words_iff, mem_words_ofDeclarations, declaredWords_append, declaredWords_append,
      List.mem_append, List.mem_append, mem_declaredWords_builtin, mem_declaredWords_given]
    simp only [hkeywords]
  refine ⟨_, Catalog.load_eq_ok_iff.mpr ⟨dss, hfiles, rfl⟩, hknown, ?_⟩
  simp only [KeepsListed, hknown, isListed_iff]
  constructor
  · exact fun h c w hdropped => h c w (.inr hdropped)
  · rintro h c w (htaken | hdropped)
    · exact .inr (.inl ⟨c, htaken⟩)
    · exact h c w hdropped

/-- A section of keywords with two keys. -/
def twoLists (first second : Text × List Text) : Entries :=
  [(.text "keywords".toList, .table
    [(.text first.1, Value.ofTexts first.2), (.text second.1, Value.ofTexts second.2)])]

/-- Is there such a section, and nothing else? -/
def isTwoLists (first second : Text × List Text) : Entries → Bool
  | [(.text s, .table [(.text a, v), (.text b, w)])] =>
    s = "keywords".toList ∧ a = first.1 ∧ v.texts? = some first.2 ∧ b = second.1 ∧
      w.texts? = some second.2
  | _ => false

/-- There is one such table. -/
theorem eq_of_isTwoLists {first second : Text × List Text}
    (h : isTwoLists first second entries = true) : entries = twoLists first second := by
  unfold isTwoLists at h
  split at h
  · obtain ⟨rfl, rfl, hv, rfl, hw⟩ := of_decide_eq_true h
    rw [twoLists, Value.ofTexts_of_texts? hv, Value.ofTexts_of_texts? hw]
  · cases h

/-- A file with such a section is in use, and there are no keyword files beside it. -/
theorem inUse_twoLists (text : Text) (first second : Text × List Text)
    (h : (Toml.read text).toOption.any (isTwoLists first second) = true) :
    Config.InUse (withConfig text) [] none (twoLists first second) ∧
      List.Forall₂ (fun file => FileDeclares file.2) (keywordFiles (withConfig text)) [] := by
  obtain ⟨entries, hread, htwo⟩ := exists_eq_ok_of_any h
  obtain rfl := eq_of_isTwoLists htwo
  have hfiles : keywordFiles (withConfig text) = [] := rfl
  exact ⟨inUse_withConfig hread, hfiles ▸ .nil⟩

/-- A word has the category of its first declaration, builtin or in a file that is the only one. -/
theorem exists_load_of_classify (text w : Text) (c : Option Category)
    (h : (Config.load (withConfig text) [] none {}).toOption.any (fun config =>
      ((builtinDeclarations ++ givenDeclarations config.keywords Category.all).find?
        fun d => d.1 = w).map Prod.snd = c) = true) :
    ∃ config k, Config.load (withConfig text) [] none {} = .ok config ∧
      Catalog.load config (withConfig text) [] = .ok k ∧ k.classify w = c := by
  obtain ⟨config, hconfig, h⟩ := exists_eq_ok_of_any h
  have hfiles : keywordFiles (withConfig text) = [] := rfl
  refine ⟨config, _, hconfig, Catalog.load_eq_ok_iff.mpr ⟨[], hfiles ▸ .nil, rfl⟩, ?_⟩
  rw [Catalog.classify_ofDeclarations, List.flatten_nil, List.append_nil]
  exact of_decide_eq_true h

/-- A file with a hyphen in one key and an underscore in another. -/
def eitherSpelling : Text :=
  "[keywords]\nprivate-option = [\"vault\"]\nallow_option = [\"allow-all\"]\n".toList

/-- Both keys count, however they are spelt. -/
theorem load_keepsListed_eitherSpelling :
    ∃ entries config k, Config.InUse (withConfig eitherSpelling) [] none entries ∧
      Config.load (withConfig eitherSpelling) [] none {} = .ok config ∧
      Catalog.load config (withConfig eitherSpelling) [] = .ok k ∧ KeepsListed entries k ∧
      k.classify "vault".toList = some .privateOption := by
  obtain ⟨huse, hfiles⟩ := inUse_twoLists eitherSpelling
    ("private-option".toList, ["vault".toList]) ("allow_option".toList, ["allow-all".toList])
    (by decide +kernel)
  obtain ⟨config, k, hconfig, hk, hvault⟩ := exists_load_of_classify eitherSpelling
    "vault".toList (some .privateOption) (by decide +kernel)
  obtain ⟨k', hk', -, hkeeps⟩ := Catalog.load_keepsListed huse hconfig hfiles []
  obtain rfl : k = k' := Except.ok.inj (hk.symm.trans hk')
  refine ⟨_, config, k, huse, hconfig, hk, hkeeps.mpr fun c w hdropped => ?_, hvault⟩
  exact absurd hdropped (not_isDropped_of_speltOnce (by decide +kernel))

/-- A file with two spellings of one category, of which the first has a word. -/
def bothSpellings : Text :=
  "[keywords]\nprivate-option = [\"vault\"]\nprivate_option = []\n".toList

/-- The word of the first list is lost. -/
theorem not_keepsListed_bothSpellings :
    ∃ entries config k, Config.InUse (withConfig bothSpellings) [] none entries ∧
      Config.load (withConfig bothSpellings) [] none {} = .ok config ∧
      Catalog.load config (withConfig bothSpellings) [] = .ok k ∧ ¬KeepsListed entries k := by
  obtain ⟨huse, -⟩ := inUse_twoLists bothSpellings
    ("private-option".toList, ["vault".toList]) ("private_option".toList, []) (by decide +kernel)
  obtain ⟨config, k, hconfig, hk, hvault⟩ := exists_load_of_classify bothSpellings
    "vault".toList none (by decide +kernel)
  have hlisted : IsListed (twoLists ("private-option".toList, ["vault".toList])
      ("private_option".toList, [])) .privateOption "vault".toList :=
    ⟨_, _, [], _, _, rfl, rfl, ⟨_, rfl, by decide⟩, List.mem_cons_self⟩
  refine ⟨_, config, k, huse, hconfig, hk, fun h => ?_⟩
  obtain ⟨c, hc⟩ := h _ _ hlisted
  cases hvault.symm.trans hc

end SandboxProfile
