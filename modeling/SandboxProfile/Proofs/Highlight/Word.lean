import SandboxProfile.Proofs.Highlight.Column
import SandboxProfile.Proofs.Token.Lexing

/-!
# The words of a line

A word is found in its line by what surrounds it, and classified by its text alone. What a text
holds is therefore compared with what the columns of the word hold.

A variable is made of word characters, so one that meets a word lies inside of it and is found in
its text. A path can leave its word: it runs through punctuation and number signs. Only one
direction is left there: what is found in the text of a word is found in the line.

## Main results

* `InVariable.hasWordChar` — variables are made of word characters.
* `Token.IsWordOf.inKeyword_iff` — keywords are found alike in a text and in a line.
* `Token.IsWordOf.holdsVariable_iff` — so are variables.
* `Token.IsWordOf.exists_inPath` — the paths of a text are found in the line.
-/

namespace SandboxProfile

/-! ### Characters of variables -/

/-- The numbers of the characters of a name. -/
theorem toNat_of_isNameChar {c : Char} (h : isNameChar c = true) :
    (0x30 ≤ c.toNat ∧ c.toNat ≤ 0x39) ∨ (0x41 ≤ c.toNat ∧ c.toNat ≤ 0x5a) ∨ c.toNat = 0x5f := by
  simp only [isNameChar, isNameStart, Bool.or_eq_true, Bool.and_eq_true, decide_eq_true_eq,
    Char.le_def, UInt32.le_iff_toNat_le] at h
  rcases h with (h | rfl) | h
  · exact .inr (.inl h)
  · exact .inr (.inr rfl)
  · exact .inl h

/-- The characters of a name are word characters. -/
theorem isWordChar_of_isNameChar {c : Char} (h : isNameChar c = true) : isWordChar c = true := by
  have hblank : isBlank c = false := by
    by_contra hblank
    have hname := toNat_of_isNameChar h
    have hnat := toNat_of_isBlank (by simpa using hblank)
    omega
  have hsign : c ≠ '#' := by
    rintro rfl
    cases h
  have hpunctuation : isPunctuation c = false := by
    have hnone : punctuation.all (fun p => !isNameChar p) = true := rfl
    by_contra hmem
    have hother := List.all_eq_true.mp hnone c (by simpa [isPunctuation] using hmem)
    simp [h] at hother
  simp [isWordChar, hblank, hsign, hpunctuation]

/-- The characters of a variable are word characters. -/
theorem isWordChar_of_isVariable {v : Text} (hv : IsVariable v) :
    ∀ c ∈ v, isWordChar c = true := by
  obtain ⟨c, name, hc, hname, rfl⟩ := hv
  intro d hd
  simp only [List.mem_cons, List.mem_append, List.not_mem_nil, or_false] at hd
  rcases hd with rfl | rfl | rfl | hd | rfl
  · rfl
  · rfl
  · exact isWordChar_of_isNameChar (by simp [isNameChar, hc])
  · exact isWordChar_of_isNameChar (hname d hd)
  · rfl

/-- The columns of a variable hold word characters. -/
theorem hasWordChar_of_isVariable {before v after : Text} (hv : IsVariable v) {i : Nat}
    (hle : before.length ≤ i) (hlt : i < before.length + v.length) :
    HasWordChar (before ++ (v ++ after)) i := by
  have hi : i - before.length < v.length := by omega
  refine ⟨v[i - before.length], ?_, isWordChar_of_isVariable hv _ (List.getElem_mem hi)⟩
  rw [List.getElem?_append_right hle, List.getElem?_append_left hi, List.getElem?_eq_getElem hi]

theorem InVariable.hasWordChar {s : Text} {i : Nat} (h : InVariable s i) : HasWordChar s i := by
  obtain ⟨before, v, after, rfl, hv, hle, hlt⟩ := h
  exact hasWordChar_of_isVariable hv hle hlt

/-! ### Words of a line -/

namespace Token.IsWordOf

variable {k : Catalog} {s : Text} {t : Token}

/-- A word is in no comment. -/
theorem not_inComment (h : t.IsWordOf s) {i : Nat} (hi : t.Covers i) : ¬InComment s i := by
  intro hcomment
  have hle := h.stop_le
  have hcode := hcomment.1
  have hstop := hi.2
  omega

/-- The columns of a word are those of a keyword exactly if the catalog knows the word. -/
theorem inKeyword_iff (h : t.IsWordOf s) {i : Nat} (hi : t.Covers i) {c : Category} :
    InKeyword k s i c ↔ k.classify t.text = some c := by
  constructor
  · rintro ⟨a, b, hrun, ha, hb, hclass⟩
    obtain ⟨rfl, rfl⟩ := hrun.unique h.run ha hb hi.1 hi.2
    rwa [h.text_eq]
  · intro hclass
    rw [h.text_eq] at hclass
    exact ⟨t.start, t.stop, h.run, hi.1, hi.2, hclass⟩

/-- A word stands in its line. -/
theorem split (h : t.IsWordOf s) :
    s = s.take t.start ++ (t.text ++ s.drop t.stop) ∧ (s.take t.start).length = t.start := by
  have hlen : s.code.length ≤ s.length := by
    conv_rhs => rw [← code_append_comment s]
    simp
  have hle := h.stop_le
  have hlt := h.run.start_lt_stop
  have hdrop : s.drop t.stop = (s.drop t.start).drop (t.stop - t.start) := by
    rw [List.drop_drop, Nat.add_sub_cancel' (Nat.le_of_lt hlt)]
  refine ⟨?_, List.length_take_of_le (by omega)⟩
  rw [hdrop, h.text_eq, List.take_append_drop, List.take_append_drop]

/-- Places of the text are columns of the word. -/
theorem covers_add (t : Token) {j : Nat} (hj : j < t.text.length) : t.Covers (t.start + j) :=
  ⟨Nat.le_add_right _ _, Nat.add_lt_add_left hj _⟩

/-- A word does not begin with a number sign. -/
theorem startsWith_eq_false (h : t.IsWordOf s) : Text.startsWith t.text ['#'] = false := by
  obtain ⟨hs, hlen⟩ := h.split
  obtain ⟨c, hc, hword⟩ := h.run.holds t.start (Nat.le_refl _) h.run.start_lt_stop
  have hpos : 0 < t.text.length := Nat.lt_add_right_iff_pos.mp h.run.start_lt_stop
  rw [hs, List.getElem?_append_right (Nat.le_of_eq hlen), hlen, Nat.sub_self,
    List.getElem?_append_left hpos] at hc
  cases htext : t.text with
  | nil =>
      rw [htext] at hc
      cases hc
  | cons d rest =>
      rw [htext] at hc
      obtain rfl : d = c := Option.some.inj hc
      have hne : ('#' == d) = false := by
        rw [beq_eq_false_iff_ne]
        rintro rfl
        cases hword
      rw [Text.startsWith, List.isPrefixOf_cons_cons, hne, Bool.false_and]

/-- The text of a word holds a variable exactly if one of its columns lies in a variable of the
line. -/
theorem holdsVariable_iff (h : t.IsWordOf s) :
    holdsVariable t.text = true ↔ ∃ i, t.Covers i ∧ InVariable s i := by
  rw [SandboxProfile.holdsVariable_iff]
  constructor
  · rintro ⟨j, hj⟩
    obtain ⟨hs, hlen⟩ := h.split
    have hin := hj.append (s.take t.start) (s.drop t.stop)
    rw [← hs, hlen] at hin
    exact ⟨t.start + j, covers_add t hj.hasWordChar.lt_length, hin⟩
  · rintro ⟨i, hi, before, v, after, rfl, hv, hle, hlt⟩
    -- The variable is a stretch of word characters, so the word does not end inside of it.
    obtain ⟨hstart, hstop⟩ := h.run.covers (fun _ => hasWordChar_of_isVariable hv) hi.1 hi.2 hle hlt
    have htext : t.text = before.drop t.start ++
        (v ++ after.take (t.stop - (before.length + v.length))) := by
      rw [h.text_eq, List.drop_append_of_le_length hstart, List.take_append, List.take_append,
        List.length_drop, List.take_of_length_le (by rw [List.length_drop]; omega),
        List.take_of_length_le (by omega)]
      congr 3
      omega
    have hpos := length_pos_of_isVariable hv
    exact ⟨_, _, v, _, htext, hv, Nat.le_refl _, by omega⟩

/-- A path in the text of a word is one of the line. -/
theorem exists_inPath (h : t.IsWordOf s) (hpath : holdsPath t.text = true) :
    ∃ i, t.Covers i ∧ InPath s i := by
  obtain ⟨j, hj⟩ := (holdsPath_iff _).mp hpath
  obtain ⟨hs, hlen⟩ := h.split
  have hin := hj.append (s.take t.start) (s.drop t.stop)
  rw [← hs, hlen] at hin
  exact ⟨t.start + j, covers_add t hj.hasInk.lt_length, hin⟩

end Token.IsWordOf

end SandboxProfile
