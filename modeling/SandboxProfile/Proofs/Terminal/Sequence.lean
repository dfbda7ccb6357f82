import SandboxProfile.Proofs.Indent.Lines
import SandboxProfile.Terminal.Sequence

/-!
# Which texts are printed as they are

Control sequences are left out of what is printed. So a text is printed as it is exactly if
it holds none. A control sequence has no blanks; it lies within one line, blanks around it
decide nothing, and indentation neither makes nor breaks one.

## Main definitions

* `Terminal.IsSequence` is the form of a control sequence.
* `Terminal.HoldsSequence` says that there is one in a text.

## Main results

* `Terminal.stripSequences_eq_self_iff` — texts without control sequences are kept.
* `Terminal.count_stripSequences` — blanks are kept.
* `Terminal.holdsSequence_of_formatText` — indentation keeps control sequences.
-/

namespace SandboxProfile

namespace Terminal

/-- The form of a control sequence. -/
def IsSequence (q : Text) : Prop :=
  ∃ parameters letter, (∀ c ∈ parameters, isParameter c = true) ∧ letter.isAlpha = true ∧
    q = escape :: '[' :: (parameters ++ [letter])

/-- There is a control sequence in the text. -/
def HoldsSequence (s : Text) : Prop :=
  ∃ q, IsSequence q ∧ q <:+: s

/-! ### Characters of control sequences -/

/-- The numbers of the letters. -/
theorem toNat_of_isAlpha {c : Char} (h : c.isAlpha = true) :
    (0x41 ≤ c.toNat ∧ c.toNat ≤ 0x5a) ∨ (0x61 ≤ c.toNat ∧ c.toNat ≤ 0x7a) := by
  have hletter : (decide (c.val ≥ 'A'.val ∧ c.val ≤ 'Z'.val) ||
      (decide (c.val ≥ 'a'.val) && decide (c.val ≤ 'z'.val))) = true := h
  simp only [Bool.or_eq_true, decide_eq_true_eq, Bool.and_eq_true, ge_iff_le,
    UInt32.le_iff_toNat_le] at hletter
  exact hletter

/-- The numbers of the characters inside of a control sequence. -/
theorem toNat_of_isParameter {c : Char} (h : isParameter c = true) :
    c.toNat = 0x3b ∨ c.toNat = 0x3f ∨ (0x30 ≤ c.toNat ∧ c.toNat ≤ 0x39) := by
  simp only [isParameter, Char.isDigit, Bool.or_eq_true, decide_eq_true_eq, Bool.and_eq_true,
    ge_iff_le, UInt32.le_iff_toNat_le] at h
  rcases h with (rfl | rfl) | h
  · exact .inl rfl
  · exact .inr (.inl rfl)
  · exact .inr (.inr h)

/-- No letter stands inside of a control sequence. -/
theorem isParameter_of_isAlpha {c : Char} (h : c.isAlpha = true) : isParameter c = false := by
  by_contra hp
  have hletter := toNat_of_isAlpha h
  have hparameter := toNat_of_isParameter (by simpa using hp)
  omega

/-- No blank stands in a control sequence. -/
theorem not_mem_of_isSequence {q : Text} (hq : IsSequence q) {c : Char}
    (hc : isBlank c = true) : c ∉ q := by
  obtain ⟨parameters, letter, hparameters, hletter, rfl⟩ := hq
  have hblank := toNat_of_isBlank hc
  simp only [List.mem_cons, List.mem_append, List.not_mem_nil, or_false]
  rintro (rfl | rfl | h | rfl)
  · exact absurd hc (by decide)
  · exact absurd hc (by decide)
  · have hnat := toNat_of_isParameter (hparameters c h)
    omega
  · have hnat := toNat_of_isAlpha hletter
    omega

/-! ### Leaving control sequences out -/

/-- The text after a control sequence whose first two characters have been read. -/
theorem afterSequence?_eq_some {s after : Text} :
    afterSequence? s = some after ↔
      ∃ parameters letter, (∀ c ∈ parameters, isParameter c = true) ∧
        letter.isAlpha = true ∧ s = parameters ++ letter :: after := by
  constructor
  · intro h
    unfold afterSequence? at h
    split at h
    · rename_i letter rest hdrop
      split at h
      · rename_i hletter
        obtain rfl := Option.some.inj h
        refine ⟨s.takeWhile isParameter, letter, fun c hc => List.mem_takeWhile_imp hc,
          hletter, ?_⟩
        rw [← hdrop]
        exact List.takeWhile_append_dropWhile.symm
      · cases h
    · cases h
  · rintro ⟨parameters, letter, hparameters, hletter, rfl⟩
    have hdrop : (parameters ++ letter :: after).dropWhile isParameter = letter :: after := by
      rw [List.dropWhile_append_of_pos hparameters,
        List.dropWhile_cons_of_neg (by simp [isParameter_of_isAlpha hletter])]
    unfold afterSequence?
    rw [hdrop]
    exact if_pos hletter

/-- A text begins with a control sequence exactly if what follows its first two characters
completes one. -/
theorem exists_isSequence_prefix_iff {body : Text} :
    (∃ q, IsSequence q ∧ q <+: '\x1b' :: '[' :: body) ↔
      ∃ after, afterSequence? body = some after := by
  constructor
  · rintro ⟨q, ⟨parameters, letter, hparameters, hletter, rfl⟩, after, hbody⟩
    refine ⟨after, afterSequence?_eq_some.mpr ⟨parameters, letter, hparameters, hletter, ?_⟩⟩
    simpa [escape] using hbody.symm
  · rintro ⟨after, h⟩
    obtain ⟨parameters, letter, hparameters, hletter, rfl⟩ := afterSequence?_eq_some.mp h
    exact ⟨_, ⟨parameters, letter, hparameters, hletter, rfl⟩, after, by simp [escape]⟩

/-- A control sequence begins with the same two characters. -/
theorem exists_eq_cons_of_prefix {q s : Text} (hq : IsSequence q) (h : q <+: s) :
    ∃ body, s = '\x1b' :: '[' :: body := by
  obtain ⟨parameters, letter, -, -, rfl⟩ := hq
  obtain ⟨after, rfl⟩ := h
  exact ⟨_, rfl⟩

theorem holdsSequence_cons (c : Char) (s : Text) :
    HoldsSequence (c :: s) ↔ (∃ q, IsSequence q ∧ q <+: c :: s) ∨ HoldsSequence s := by
  simp only [HoldsSequence, List.infix_cons_iff, and_or_left, exists_or]

/-- What is left is not longer. -/
theorem length_stripSequences_le (s : Text) : (stripSequences s).length ≤ s.length := by
  fun_induction stripSequences s with
  | case1 body after h _ ih =>
      have hlt := length_afterSequence?_lt h
      simp only [List.length_cons]
      omega
  | case2 body h ih =>
      simp only [List.length_cons]
      omega
  | case3 c rest _ ih =>
      simp only [List.length_cons]
      omega
  | case4 => exact Nat.le_refl _

/-- It is shorter if there is something to leave out. -/
theorem length_stripSequences_lt {s : Text} (hs : HoldsSequence s) :
    (stripSequences s).length < s.length := by
  fun_induction stripSequences s with
  | case1 body after h _ ih =>
      have hle := length_stripSequences_le after
      have hlt := length_afterSequence?_lt h
      simp only [List.length_cons]
      omega
  | case2 body h ih =>
      rcases (holdsSequence_cons _ _).mp hs with hstart | hs
      · obtain ⟨after, hafter⟩ := exists_isSequence_prefix_iff.mp hstart
        rw [h] at hafter
        cases hafter
      rcases (holdsSequence_cons _ _).mp hs with ⟨q, hq, hstart⟩ | hs
      · obtain ⟨_, hcons⟩ := exists_eq_cons_of_prefix hq hstart
        exact absurd (List.cons.inj hcons).1 (by decide)
      have hlt := ih hs
      simp only [List.length_cons]
      omega
  | case3 c rest hne ih =>
      rcases (holdsSequence_cons _ _).mp hs with ⟨q, hq, hstart⟩ | hs
      · obtain ⟨body, hcons⟩ := exists_eq_cons_of_prefix hq hstart
        exact absurd (List.cons.inj hcons).2 (hne body (List.cons.inj hcons).1)
      have hlt := ih hs
      simp only [List.length_cons]
      omega
  | case4 =>
      obtain ⟨q, ⟨parameters, letter, -, -, rfl⟩, hinfix⟩ := hs
      have hlen := hinfix.length_le
      simp at hlen

/-- A text without control sequences stays as it is. -/
theorem stripSequences_of_not_holds {s : Text} (hs : ¬HoldsSequence s) : stripSequences s = s := by
  fun_induction stripSequences s with
  | case1 body after h _ ih =>
      exact absurd ((holdsSequence_cons _ _).mpr
        (.inl (exists_isSequence_prefix_iff.mpr ⟨after, h⟩))) hs
  | case2 body h ih =>
      rw [ih fun hb => hs ((holdsSequence_cons _ _).mpr
        (.inr ((holdsSequence_cons _ _).mpr (.inr hb))))]
  | case3 c rest _ ih =>
      rw [ih fun hr => hs ((holdsSequence_cons _ _).mpr (.inr hr))]
  | case4 => rfl

/-- **Texts without control sequences are kept**, and no others. -/
theorem stripSequences_eq_self_iff {s : Text} : stripSequences s = s ↔ ¬HoldsSequence s := by
  refine ⟨fun h hs => ?_, stripSequences_of_not_holds⟩
  have hlt := length_stripSequences_lt hs
  rw [h] at hlt
  exact Nat.lt_irrefl _ hlt

/-- Several texts are kept together exactly if each of them is. -/
theorem flatMap_stripSequences_eq_iff {ss : List Text} :
    ss.flatMap stripSequences = ss.flatten ↔ ∀ s ∈ ss, ¬HoldsSequence s := by
  have hle (ts : List Text) : (ts.flatMap stripSequences).length ≤ ts.flatten.length := by
    induction ts with
    | nil => exact Nat.le_refl _
    | cons t ts ih =>
        have ht := length_stripSequences_le t
        rw [List.flatMap_cons, List.flatten_cons, List.length_append, List.length_append]
        omega
  induction ss with
  | nil => simp
  | cons s ss ih =>
      rw [List.flatMap_cons, List.flatten_cons, List.forall_mem_cons,
        ← stripSequences_eq_self_iff]
      constructor
      · intro h
        have hlen := congrArg List.length h
        rw [List.length_append, List.length_append] at hlen
        have hs := length_stripSequences_le s
        have hss := hle ss
        obtain ⟨hkept, hrest⟩ := List.append_inj h (by omega)
        exact ⟨hkept, ih.mp hrest⟩
      · rintro ⟨hkept, hrest⟩
        rw [hkept, ih.mpr hrest]

/-- **Blanks are kept.** -/
theorem count_stripSequences {c : Char} (hc : isBlank c = true) (s : Text) :
    (stripSequences s).count c = s.count c := by
  fun_induction stripSequences s with
  | case1 body after h _ ih =>
      obtain ⟨parameters, letter, hparameters, hletter, rfl⟩ := afterSequence?_eq_some.mp h
      have hnot := not_mem_of_isSequence ⟨parameters, letter, hparameters, hletter, rfl⟩ hc
      have hsplit : '\x1b' :: '[' :: (parameters ++ letter :: after) =
          (escape :: '[' :: (parameters ++ [letter])) ++ after := by simp [escape]
      rw [ih, hsplit, List.count_append, List.count_eq_zero.mpr hnot, Nat.zero_add]
  | case2 body h ih => rw [List.count_cons, List.count_cons, List.count_cons, List.count_cons, ih]
  | case3 c rest _ ih => rw [List.count_cons, List.count_cons, ih]
  | case4 => rfl

/-! ### Control sequences and lines -/

/-- No control sequence begins with a blank. -/
theorem holdsSequence_cons_of_blank {c : Char} (hc : isBlank c = true) (s : Text) :
    HoldsSequence (c :: s) ↔ HoldsSequence s := by
  rw [holdsSequence_cons, or_iff_right]
  rintro ⟨q, hq, hstart⟩
  obtain ⟨body, hcons⟩ := exists_eq_cons_of_prefix hq hstart
  rw [(List.cons.inj hcons).1] at hc
  exact absurd hc (by decide)

/-- Blanks at the start neither make nor break a control sequence. -/
theorem holdsSequence_blank_append {w : Text} (hw : ∀ c ∈ w, isBlank c = true) (s : Text) :
    HoldsSequence (w ++ s) ↔ HoldsSequence s := by
  induction w with
  | nil => exact Iff.rfl
  | cons c w ih =>
      rw [List.cons_append, holdsSequence_cons_of_blank (hw c List.mem_cons_self)]
      exact ih fun d hd => hw d (List.mem_cons_of_mem _ hd)

/-- What stands before a blank without holding one stands before the first one. -/
theorem prefix_of_prefix_append_cons {q s t : Text} {c : Char} (hc : c ∉ q)
    (h : q <+: s ++ c :: t) : q <+: s := by
  by_cases hlen : q.length ≤ s.length
  · exact List.prefix_of_prefix_length_le h (List.prefix_append s (c :: t)) hlen
  · have hs : s ++ [c] <+: s ++ c :: t := ⟨t, by simp⟩
    have hsq : s ++ [c] <+: q :=
      List.prefix_of_prefix_length_le hs h (by
        rw [List.length_append, List.length_singleton]
        omega)
    exact absurd (hsq.subset (List.mem_append_right _ List.mem_cons_self)) hc

/-- A blank separates control sequences. -/
theorem holdsSequence_append_cons (s : Text) {c : Char} (hc : isBlank c = true) (t : Text) :
    HoldsSequence (s ++ c :: t) ↔ HoldsSequence s ∨ HoldsSequence t := by
  induction s with
  | nil =>
      rw [List.nil_append, holdsSequence_cons_of_blank hc, or_iff_right]
      rintro ⟨q, ⟨parameters, letter, -, -, rfl⟩, hinfix⟩
      exact absurd hinfix.length_le (by simp)
  | cons d s ih =>
      have hstart : (∃ q, IsSequence q ∧ q <+: d :: (s ++ c :: t)) ↔
          ∃ q, IsSequence q ∧ q <+: d :: s := by
        constructor
        · rintro ⟨q, hq, h⟩
          exact ⟨q, hq, prefix_of_prefix_append_cons (not_mem_of_isSequence hq hc) h⟩
        · rintro ⟨q, hq, h⟩
          exact ⟨q, hq, h.trans (List.prefix_append (d :: s) (c :: t))⟩
      rw [List.cons_append, holdsSequence_cons, hstart, ih, holdsSequence_cons, or_assoc]

theorem not_holdsSequence_nil : ¬HoldsSequence [] := by
  rw [← stripSequences_eq_self_iff]
  exact stripSequences_of_not_mem List.not_mem_nil

/-- A control sequence in a text stands in one of its lines. -/
theorem holdsSequence_joinLines {ls : List Line} (h : AreLines ls) :
    HoldsSequence (joinLines ls) ↔ ∃ l ∈ ls, HoldsSequence l.body := by
  induction ls with
  | nil => simp [joinLines, not_holdsSequence_nil]
  | cons l rest ih =>
      obtain ⟨-, hlast, hrest⟩ := h
      rw [joinLines_cons_body, List.exists_mem_cons_iff, ← ih hrest]
      cases he : l.ending with
      | none =>
          rw [hlast he]
          simp [LineEnding.text, joinLines, not_holdsSequence_nil]
      | lf => exact holdsSequence_append_cons l.body (by decide) (joinLines rest)
      | crlf =>
          refine (holdsSequence_append_cons l.body (by decide) ('\n' :: joinLines rest)).trans ?_
          rw [holdsSequence_cons_of_blank (by decide)]

/-- A control sequence in a text stands in one of its lines. -/
theorem holdsSequence_iff_splitLines (s : Text) :
    HoldsSequence s ↔ ∃ l ∈ splitLines s, HoldsSequence l.body := by
  conv_lhs => rw [← joinLines_splitLines s]
  exact holdsSequence_joinLines (areLines_splitLines s)

/-- Only what follows the first blanks of a line decides. -/
theorem holdsSequence_trimStart (s : Text) :
    HoldsSequence (Text.trimStart s) ↔ HoldsSequence s := by
  conv_rhs => rw [← Text.blankPrefix_append_trimStart s]
  exact (holdsSequence_blank_append (fun c => Text.isBlank_of_mem_blankPrefix) _).symm

/-- An empty last line holds no control sequence. -/
theorem exists_mem_dropEmptyLast {ls : List Line} :
    (∃ l ∈ dropEmptyLast ls, HoldsSequence l.body) ↔ ∃ l ∈ ls, HoldsSequence l.body := by
  have hempty : (∃ l ∈ [Line.mk [] .none], HoldsSequence l.body) =
      ∃ l ∈ ([] : List Line), HoldsSequence l.body := by
    simp [not_holdsSequence_nil]
  refine iff_of_eq (apply_dropEmptyLast (f := fun ls => ∃ l ∈ ls, HoldsSequence l.body) hempty
    (fun l ls ms h => ?_) ls)
  rw [List.exists_mem_cons_iff, List.exists_mem_cons_iff, h]

/-- Indented lines hold the control sequences that they held. -/
theorem exists_mem_formattedLines {style : IndentStyle} {ls ms : List Line}
    (h : FormattedLines style ls ms) :
    (∃ m ∈ ms, HoldsSequence m.body) ↔ ∃ l ∈ ls, HoldsSequence l.body := by
  induction h with
  | nil => exact Iff.rfl
  | @cons l m ls ms hlm _ ih =>
      rw [List.exists_mem_cons_iff, List.exists_mem_cons_iff, ih, ← holdsSequence_trimStart m.body,
        trimStart_of_formatLine hlm.1, holdsSequence_trimStart]

/-- **Indentation neither makes nor breaks a control sequence.** -/
theorem holdsSequence_of_formatText {style : IndentStyle} {s t : Text}
    (h : formatText style s = .ok t) : HoldsSequence t ↔ HoldsSequence s := by
  obtain ⟨ms, hms, -, hsplit⟩ := splitLines_of_formatText h
  rw [holdsSequence_iff_splitLines t, hsplit, exists_mem_dropEmptyLast,
    exists_mem_formattedLines hms, ← holdsSequence_iff_splitLines]

end Terminal

end SandboxProfile
