import SandboxProfile.Proofs.Indent.Lines

/-!
# Line breaks

Indentation keeps the line breaks of a text. Making every line break a line feed keeps them
only where there are no carriage returns: one that stands alone becomes a line feed more, and
one before a line feed is lost. This is seen by counting.

## Main definitions

* `crlfCount` is the number of lines that end in a carriage return and a line feed.

## Main results

* `count_feed_formatText` — indentation keeps the number of line feeds.
* `count_feed_unifyBreaks` — the number of line feeds after unifying line breaks.
* `breaks_differ` — indented texts before and after unifying differ in their line breaks.
-/

namespace SandboxProfile

/-- The number of lines that end in a carriage return and a line feed. -/
def crlfCount (ls : List Line) : Nat :=
  ls.countP fun l => l.ending = .crlf

/-! ### Unifying -/

/-- A character in front of the first line changes no ending. -/
theorem crlfCount_consToFirst (c : Char) (ls : List Line) :
    crlfCount (consToFirst c ls) = crlfCount ls := by
  cases ls with
  | nil => rfl
  | cons l rest => rw [crlfCount, consToFirst, List.countP_cons, crlfCount, List.countP_cons]

theorem unifyBreaks_return {rest : Text} (h : ∀ r, rest ≠ '\n' :: r) :
    unifyBreaks ('\r' :: rest) = '\n' :: unifyBreaks rest := by
  rw [unifyBreaks]
  exact fun r hr => h r hr

theorem unifyBreaks_cons {c : Char} (h : c ≠ '\r') (rest : Text) :
    unifyBreaks (c :: rest) = c :: unifyBreaks rest := by
  rw [unifyBreaks]
  · exact fun _ hc => absurd hc h
  · exact h

/-- **The number of line feeds after unifying.** -/
theorem count_feed_unifyBreaks (s : Text) :
    (unifyBreaks s).count '\n' + crlfCount (splitLines s) = s.count '\n' + s.count '\r' := by
  fun_induction splitLines s with
  | case1 => rfl
  | case2 rest ih =>
      have hlines : crlfCount (⟨[], .lf⟩ :: splitLines rest) = crlfCount (splitLines rest) := rfl
      rw [hlines, unifyBreaks_cons (by decide), List.count_cons_self, List.count_cons_self,
        List.count_cons_of_ne (by decide)]
      omega
  | case3 rest ih =>
      have hlines : crlfCount (⟨[], .crlf⟩ :: splitLines rest) =
          crlfCount (splitLines rest) + 1 := List.countP_cons_of_pos (by decide)
      rw [hlines, unifyBreaks, List.count_cons_self, List.count_cons_self,
        List.count_cons_of_ne (by decide), List.count_cons_self,
        List.count_cons_of_ne (by decide)]
      omega
  | case4 c rest hfeed hcrlf ih =>
      rw [crlfCount_consToFirst]
      by_cases hc : c = '\r'
      · subst hc
        rw [unifyBreaks_return fun r hr => hcrlf r rfl hr, List.count_cons_self,
          List.count_cons_self, List.count_cons_of_ne (by decide)]
        omega
      · rw [unifyBreaks_cons hc, List.count_cons_of_ne hfeed, List.count_cons_of_ne hfeed,
          List.count_cons_of_ne hc]
        exact ih

/-- No carriage return is left. -/
theorem return_not_mem_unifyBreaks (s : Text) : '\r' ∉ unifyBreaks s := by
  fun_induction unifyBreaks s with
  | case1 rest ih => simpa using ih
  | case2 rest _ ih => simpa using ih
  | case3 c rest _ hreturn ih =>
      rw [List.mem_cons]
      rintro (hc | hmem)
      · exact hreturn hc.symm
      · exact ih hmem
  | case4 => exact List.not_mem_nil

/-! ### Indentation -/

variable {style : IndentStyle}

/-- An indented line holds characters of the line and those of the indentation. -/
theorem mem_of_formatLine {line out : Text} (h : formatLine style line = .ok out) {c : Char}
    (hc : c ∈ out) : c ∈ line ∨ c = '\t' ∨ c = ' ' := by
  rcases formatLine_eq_ok h with ⟨-, rfl⟩ | ⟨w, hw, -, rfl⟩
  · cases hc
  · rcases List.mem_append.mp hc with hc | hc
    · obtain ⟨tabs, spaces, rfl⟩ := leadingBlanks_eq_ok hw
      rcases List.mem_append.mp hc with hc | hc
      · exact .inr (.inl (List.eq_of_mem_replicate hc))
      · exact .inr (.inr (List.eq_of_mem_replicate hc))
    · exact .inl ((List.dropWhile_sublist _).subset hc)

/-- Indented lines have the line feeds that they had. -/
theorem count_feed_joinLines {ls ms : List Line} (h : FormattedLines style ls ms)
    (hls : ∀ l ∈ ls, '\n' ∉ l.body) :
    (joinLines ms).count '\n' = (joinLines ls).count '\n' := by
  induction h with
  | nil => rfl
  | @cons l m ls ms hlm hms ih =>
      have hl := hls l List.mem_cons_self
      have hm := feed_not_mem_of_formatLine hlm.1 hl
      rw [joinLines_cons_body, joinLines_cons_body, List.count_append, List.count_append,
        List.count_append, List.count_append, List.count_eq_zero.mpr hl,
        List.count_eq_zero.mpr hm, hlm.2, ih fun k hk => hls k (List.mem_cons_of_mem _ hk)]

/-- **Indentation keeps the number of line feeds.** -/
theorem count_feed_formatText {s t : Text} (h : formatText style s = .ok t) :
    t.count '\n' = s.count '\n' := by
  obtain ⟨ms, hms, rfl⟩ := formatText_eq_ok h
  conv_rhs => rw [← joinLines_splitLines s]
  exact count_feed_joinLines hms fun l hl => feed_not_mem_of_mem_splitLines hl

/-- Indented lines have the endings that they had. -/
theorem crlfCount_of_formattedLines {ls ms : List Line} (h : FormattedLines style ls ms) :
    crlfCount ms = crlfCount ls := by
  induction h with
  | nil => rfl
  | @cons l m ls ms hlm _ ih =>
      rw [crlfCount, List.countP_cons, hlm.2, crlfCount, List.countP_cons]
      exact congrArg (· + _) ih

/-- Each line that ends in a carriage return and a line feed has a carriage return. -/
theorem crlfCount_le (ls : List Line) : crlfCount ls ≤ (joinLines ls).count '\r' := by
  induction ls with
  | nil => exact Nat.le_refl _
  | cons l rest ih =>
      rw [joinLines_cons_body, List.count_append, List.count_append, crlfCount, List.countP_cons]
      rw [crlfCount] at ih
      cases he : l.ending with
      | none => simpa [he] using by omega
      | lf => simpa [he] using by omega
      | crlf =>
          have hcount : LineEnding.crlf.text.count '\r' = 1 := rfl
          rw [hcount, if_pos (by decide)]
          omega

/-- Indentation adds no carriage returns. -/
theorem return_not_mem_formatText {s t : Text} (h : formatText style s = .ok t)
    (hs : '\r' ∉ s) : '\r' ∉ t := by
  obtain ⟨ms, hms, rfl⟩ := formatText_eq_ok h
  rw [← joinLines_splitLines s] at hs
  clear h
  generalize splitLines s = ls at hms hs
  induction hms with
  | nil => exact hs
  | @cons l m ls ms hlm _ ih =>
      rw [joinLines_cons_body, List.mem_append, List.mem_append, not_or, not_or] at hs
      obtain ⟨hbody, hending, hrest⟩ := hs
      rw [joinLines_cons_body, List.mem_append, List.mem_append, hlm.2]
      rintro (hmem | hmem | hmem)
      · rcases mem_of_formatLine hlm.1 hmem with hmem | hmem | hmem
        · exact hbody hmem
        · exact absurd hmem (by decide)
        · exact absurd hmem (by decide)
      · exact hending hmem
      · exact ih hrest hmem

/-- **Indented texts before and after unifying differ in their line breaks**, if there is a
carriage return to unify. -/
theorem breaks_differ {s t t' : Text} (hreturn : '\r' ∈ s) (h : formatText style s = .ok t)
    (h' : formatText style (unifyBreaks s) = .ok t') :
    t'.count '\n' ≠ t.count '\n' ∨ t'.count '\r' ≠ t.count '\r' := by
  obtain ⟨ms, hms, hjoin⟩ := formatText_eq_ok h
  have hcrlf : crlfCount (splitLines s) ≤ t.count '\r' := by
    rw [hjoin, ← crlfCount_of_formattedLines hms]
    exact crlfCount_le ms
  have hnone : t'.count '\r' = 0 :=
    List.count_eq_zero.mpr (return_not_mem_formatText h' (return_not_mem_unifyBreaks s))
  have hfeeds := count_feed_unifyBreaks s
  have hpos := List.count_pos_iff.mpr hreturn
  rw [← count_feed_formatText h, ← count_feed_formatText h'] at hfeeds
  omega

end SandboxProfile
