import SandboxProfile.Proofs.Config.Accepted

/-!
# What the environment overrides

A variable of the environment whose text means a value of its setting replaces the setting, and
leaves all others alone. A variable that is not there, is empty or holds any other text is
ignored. There is one exception: any text that is not empty decides about tabs, and one that means
neither that they are used nor that they are not turns them off. This can be seen where the file
turns tabs on, and only there.

What the texts mean is said here without the reading of variables, and for all settings at once;
most of them have no variable.

## Main definitions

* `Setting.Means` says which value of a setting a text means.
* `Environment.textFor` is the text that the environment has for a setting.
* `Overridden` says that a setting is replaced exactly if its variable means a value.
* `Environment.IsUnclear` says that the variable for tabs means nothing.

## Main results

* `Environment.overridden_apply_iff` — which settings are overridden as they should be.
* `Config.load_overridden` — the same of the configuration of a run.
-/

namespace SandboxProfile

variable {t : FileTree} {root : Text} {override : Option Text} {e : Environment} {c d : Config}

/-! ### Statement -/

/-- The text of a variable means a value of the setting. -/
inductive Setting.Means : Setting → Text → Value → Prop where
  /-- The offset is an integer that is not negative. -/
  | offset {text : Text} {i : Int} :
      Text.readInteger? text = some i → 0 ≤ i → Means .offset text (.int i)
  /-- Words that turn tabs on, in any case. -/
  | tabsOn {text : Text} :
      Text.lower text ∈ ["1".toList, "true".toList, "yes".toList] →
      Means .useTabs text (.bool true)
  /-- Words that turn tabs off, in any case. -/
  | tabsOff {text : Text} :
      Text.lower text ∈ ["0".toList, "false".toList, "no".toList] →
      Means .useTabs text (.bool false)
  /-- The form of output is given by its name. -/
  | format {text : Text} :
      text ∈ ["terminal".toList, "json".toList, "semantic".toList] →
      Means .format text (.text text)

/-- The text that the environment has for a setting. Most settings have no variable. -/
def Environment.textFor (e : Environment) : Setting → Option Text
  | .offset => e.indentOffset
  | .useTabs => e.useTabs
  | .format => e.format
  | .tabWidth | .extensions | .exclude | .keywords _ => none

/-- From the configuration `c` to the configuration `d` a setting is replaced exactly if its
variable means a value. -/
structure Overridden (e : Environment) (c d : Config) (s : Setting) : Prop where
  /-- A variable that means a value gives it to the setting. -/
  replaced : ∀ text v, e.textFor s = some text → s.Means text v → d.valueOf s = v
  /-- Every other variable is ignored, and so is one that is not there. -/
  kept : (∀ text v, e.textFor s = some text → ¬s.Means text v) → d.valueOf s = c.valueOf s

/-- The variable for tabs holds a text that means nothing. -/
def Environment.IsUnclear (e : Environment) : Prop :=
  ∃ text, e.useTabs = some text ∧ text ≠ [] ∧ ∀ v, ¬Setting.useTabs.Means text v

/-! ### What variables give -/

/-- A text that means something for tabs is what the environment reads it as, and is not empty. -/
theorem Setting.Means.eq_bool {text : Text} {v : Value} (h : Setting.useTabs.Means text v) :
    text ≠ [] ∧ v = .bool (Environment.tabWords.contains (Text.lower text)) := by
  cases h with
  | tabsOn h =>
      refine ⟨?_, congrArg Value.bool (List.contains_iff_mem.mpr h).symm⟩
      rintro rfl
      exact absurd h (by decide)
  | tabsOff h =>
      have hword : ∀ word ∈ ["0".toList, "false".toList, "no".toList],
          Environment.tabWords.contains word = false := by decide
      refine ⟨?_, congrArg Value.bool (hword _ h).symm⟩
      rintro rfl
      exact absurd h (by decide)

/-- Forms of output have one of three names. -/
theorem OutputFormat.exists_name_iff {text : Text} :
    (∃ f : OutputFormat, f.name.toList = text) ↔
      text ∈ ["terminal".toList, "json".toList, "semantic".toList] := by
  constructor
  · rintro ⟨f, rfl⟩
    cases f <;> decide
  · intro h
    simp only [List.mem_cons, List.not_mem_nil, or_false] at h
    rcases h with rfl | rfl | rfl
    exacts [⟨.terminal, rfl⟩, ⟨.json, rfl⟩, ⟨.semantic, rfl⟩]

namespace Environment

/-- The environment demands an offset by an integer that is not negative. -/
theorem offset?_eq_some_iff {i : Int} :
    e.offset? = some i ↔
      ∃ text, e.indentOffset = some text ∧ Text.readInteger? text = some i ∧ 0 ≤ i := by
  simp only [offset?, Option.bind_eq_bind, Option.bind_eq_some_iff, Option.ite_none_right_eq_some,
    Option.some.injEq]
  constructor
  · rintro ⟨text, htext, j, hj, hpos, rfl⟩
    exact ⟨text, htext, hj, hpos⟩
  · rintro ⟨text, htext, hi, hpos⟩
    exact ⟨text, htext, i, hi, hpos, rfl⟩

/-- The environment demands a form of output by its name. -/
theorem format?_eq_some_iff {f : OutputFormat} :
    e.format? = some f ↔ e.format = some f.name.toList := by
  rw [format?, Option.bind_eq_some_iff]
  constructor
  · rintro ⟨text, htext, hname⟩
    obtain rfl : f.name.toList = text := Value.text.inj (Value.text_of_format? hname)
    exact htext
  · exact fun htext => ⟨_, htext, f.ofName?_name⟩

/-- The environment decides about tabs by any text that is not empty. -/
theorem tabs?_eq_some_iff {b : Bool} :
    e.tabs? = some b ↔
      ∃ text, e.useTabs = some text ∧ text ≠ [] ∧ tabWords.contains (Text.lower text) = b := by
  rw [tabs?]
  cases e.useTabs with
  | none => simp
  | some text => cases text <;> simp

/-- **What a variable gives its setting is what its text means**, unless it is unclear. -/
theorem value?_eq_some_iff {s : Setting} {v : Value} (hclear : s = .useTabs → ¬e.IsUnclear) :
    e.value? s = some v ↔ ∃ text, e.textFor s = some text ∧ s.Means text v := by
  cases s with
  | offset =>
      rw [value?, Option.map_eq_some_iff]
      constructor
      · rintro ⟨i, h, rfl⟩
        obtain ⟨text, htext, hi, hpos⟩ := offset?_eq_some_iff.mp h
        exact ⟨text, htext, .offset hi hpos⟩
      · rintro ⟨text, htext, hi, hpos⟩
        exact ⟨_, offset?_eq_some_iff.mpr ⟨text, htext, hi, hpos⟩, rfl⟩
  | useTabs =>
      rw [value?, Option.map_eq_some_iff]
      constructor
      · rintro ⟨b, hb, rfl⟩
        obtain ⟨text, htext, hne, rfl⟩ := tabs?_eq_some_iff.mp hb
        by_contra hnone
        refine hclear rfl ⟨text, htext, hne, fun v hv => hnone ⟨text, htext, ?_⟩⟩
        exact hv.eq_bool.2 ▸ hv
      · rintro ⟨text, htext, hmeans⟩
        obtain ⟨hne, rfl⟩ := hmeans.eq_bool
        exact ⟨_, tabs?_eq_some_iff.mpr ⟨text, htext, hne, rfl⟩, rfl⟩
  | format =>
      rw [value?, Option.map_eq_some_iff]
      constructor
      · rintro ⟨f, h, rfl⟩
        have hname := OutputFormat.exists_name_iff.mp ⟨f, rfl⟩
        exact ⟨_, format?_eq_some_iff.mp h, .format hname⟩
      · rintro ⟨text, htext, hmeans⟩
        cases hmeans with
        | format h =>
            obtain ⟨f, rfl⟩ := OutputFormat.exists_name_iff.mpr h
            exact ⟨f, format?_eq_some_iff.mpr htext, rfl⟩
  | tabWidth | extensions | exclude | keywords =>
      constructor
      · intro h
        cases h
      · rintro ⟨text, htext, -⟩
        cases htext

/-- An unclear variable turns tabs off. -/
theorem value?_of_isUnclear (h : e.IsUnclear) : e.value? .useTabs = some (.bool false) := by
  obtain ⟨text, htext, hne, hmeans⟩ := h
  have hword : tabWords.contains (Text.lower text) = false := by
    rw [Bool.eq_false_iff]
    exact fun hword => hmeans _ (.tabsOn (List.contains_iff_mem.mp hword))
  exact congrArg (Option.map Value.bool) (tabs?_eq_some_iff.mpr ⟨text, htext, hne, hword⟩)

/-- A setting is overridden as it should be, unless it is that of tabs and its variable is
unclear. -/
theorem overridden_apply {s : Setting} (hclear : s = .useTabs → ¬e.IsUnclear) :
    Overridden e c (e.apply c) s where
  replaced text v htext hmeans := by
    rw [valueOf_apply, (value?_eq_some_iff hclear).mpr ⟨text, htext, hmeans⟩, Option.getD_some]
  kept hnone := by
    have hvalue : e.value? s = none := by
      rw [Option.eq_none_iff_forall_ne_some]
      intro v hv
      obtain ⟨text, htext, hmeans⟩ := (value?_eq_some_iff hclear).mp hv
      exact hnone text v htext hmeans
    rw [valueOf_apply, hvalue, Option.getD_none]

/-- **Which settings are overridden as they should be**: all but that of tabs where its variable is
unclear and tabs were on. -/
theorem overridden_apply_iff {s : Setting} :
    Overridden e c (e.apply c) s ↔ ¬(s = .useTabs ∧ e.IsUnclear ∧ c.indent.useTabs = true) := by
  by_cases hunclear : s = .useTabs ∧ e.IsUnclear
  · obtain ⟨rfl, hunclear⟩ := hunclear
    have hoff : (e.apply c).valueOf .useTabs = .bool false := by
      rw [valueOf_apply, value?_of_isUnclear hunclear, Option.getD_some]
    obtain ⟨text, htext, hne, hmeans⟩ := id hunclear
    have hnone : ∀ text' v, e.textFor .useTabs = some text' → ¬Setting.useTabs.Means text' v := by
      intro text' v htext'
      obtain rfl := Option.some.inj (htext.symm.trans htext')
      exact hmeans v
    constructor
    · rintro h ⟨-, -, hon⟩
      have hkept := hoff.symm.trans (h.kept hnone)
      rw [Config.valueOf, hon] at hkept
      cases hkept
    · intro h
      have hwas : c.indent.useTabs = false := by simpa [hunclear] using h
      refine ⟨fun text' v htext' hv => absurd hv (hnone text' v htext'), fun _ => ?_⟩
      rw [hoff, Config.valueOf, hwas]
  · refine ⟨fun _ h => hunclear ⟨h.1, h.2.1⟩, fun _ => ?_⟩
    exact overridden_apply fun hs h => hunclear ⟨hs, h⟩

end Environment

/-! ### Loading -/

/-- **A configuration that is loaded without an environment is loaded with any other**, and the
environment overrides all settings as it should, unless the file turns tabs on and the variable for
tabs means nothing; that turns them off. -/
theorem Config.load_overridden (h : Config.load t root override {} = .ok c) (e : Environment) :
    ∃ d, Config.load t root override e = .ok d ∧
      (∀ s, s ≠ .useTabs → Overridden e c d s) ∧
      (e.IsUnclear → d.indent.useTabs = false) ∧
      ((∀ s, Overridden e c d s) ↔ ¬(e.IsUnclear ∧ c.indent.useTabs = true)) := by
  obtain ⟨entries, c', huse, hentries, hc⟩ := Config.load_eq_ok_iff.mp h
  obtain rfl : c' = c := hc
  refine ⟨e.apply c', Config.load_eq_ok_iff.mpr ⟨entries, c', huse, hentries, rfl⟩, ?_, ?_, ?_⟩
  · exact fun s hs => Environment.overridden_apply_iff.mpr fun htabs => hs htabs.1
  · intro hunclear
    have hoff : (e.apply c').valueOf .useTabs = .bool false := by
      rw [Environment.valueOf_apply, Environment.value?_of_isUnclear hunclear, Option.getD_some]
    exact Value.bool.inj hoff
  · constructor
    · exact fun hall hon => Environment.overridden_apply_iff.mp (hall .useTabs) ⟨rfl, hon⟩
    · exact fun hon s => Environment.overridden_apply_iff.mpr fun htabs => hon htabs.2

/-- A file that turns tabs on and sets the offset. -/
def wideTabs : Text :=
  "[indent]\nuse_tabs = true\noffset = 4\n".toList

/-- A negative offset and a word that turns tabs off. -/
def negativeOffset : Environment where
  indentOffset := some "-1".toList
  useTabs := some "No".toList

/-- The indentation that a file and an environment stand for. -/
theorem exists_load_of_indent (text : Text) (e : Environment) (style : IndentStyle)
    (h : (Config.load (withConfig text) [] none e).toOption.any
      (fun c => decide (c.indent = style)) = true) :
    ∃ c, Config.load (withConfig text) [] none e = .ok c ∧ c.indent = style := by
  obtain ⟨c, hc, hindent⟩ := exists_eq_ok_of_any h
  exact ⟨c, hc, of_decide_eq_true hindent⟩

/-- Tabs are turned off, and the offset is kept. -/
theorem load_overridden_negativeOffset :
    ∃ c d, Config.load (withConfig wideTabs) [] none {} = .ok c ∧ c.indent = ⟨4, true, 8⟩ ∧
      Config.load (withConfig wideTabs) [] none negativeOffset = .ok d ∧
      d.indent = ⟨4, false, 8⟩ ∧ ∀ s, Overridden negativeOffset c d s := by
  obtain ⟨c, hc, hindent⟩ := exists_load_of_indent wideTabs {} ⟨4, true, 8⟩ (by decide +kernel)
  obtain ⟨d, hd, hoff⟩ := exists_load_of_indent wideTabs negativeOffset ⟨4, false, 8⟩
    (by decide +kernel)
  obtain ⟨d', hd', -, -, hall⟩ := Config.load_overridden hc negativeOffset
  obtain rfl : d = d' := Except.ok.inj (hd.symm.trans hd')
  refine ⟨c, d, hc, hindent, hd, hoff, hall.mpr ?_⟩
  rintro ⟨⟨text, htext, -, hnone⟩, -⟩
  obtain rfl : "No".toList = text := Option.some.inj htext
  exact hnone _ (.tabsOff (by decide))

/-- A word that means nothing turns off the tabs that the file turned on. -/
theorem not_overridden_maybe :
    ∃ c d, Config.load (withConfig wideTabs) [] none {} = .ok c ∧
      Config.load (withConfig wideTabs) [] none { useTabs := some "maybe".toList } = .ok d ∧
      ¬Overridden { useTabs := some "maybe".toList } c d .useTabs := by
  obtain ⟨c, hc, hindent⟩ := exists_load_of_indent wideTabs {} ⟨4, true, 8⟩ (by decide +kernel)
  obtain ⟨d, hd, hoff⟩ := exists_load_of_indent wideTabs { useTabs := some "maybe".toList }
    ⟨4, false, 8⟩ (by decide +kernel)
  refine ⟨c, d, hc, hd, fun h => ?_⟩
  have hkept := h.kept fun text v htext hmeans => by
    obtain rfl : "maybe".toList = text := Option.some.inj htext
    cases hmeans with
    | tabsOn h | tabsOff h => exact absurd h (by decide)
  rw [Config.valueOf, Config.valueOf, hindent, hoff] at hkept
  cases hkept

end SandboxProfile
