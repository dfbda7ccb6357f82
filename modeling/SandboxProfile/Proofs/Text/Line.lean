import Mathlib.Data.Set.List
import Mathlib.Tactic.Common
import SandboxProfile.Text.Line

/-!
# The lines of a text

`joinLines_splitLines` says that cutting a text into lines loses nothing. Here the lists of
lines that cutting can yield are described, and joining and cutting is shown to give every
such list back; so a list of lines with the right form is the list of lines of its text.

`AreLines` follows the recursion of a list, which is how it is proved. `CutsInto` says the same of
pairs of texts, the bodies and endings as they stand in the text, one condition after another. That
an ending is one of three is a condition there and no matter of its type, so what cutting yields is
set apart from all other ways to write a text as pairs.

## Main definitions

* `Line.WellFormed` and `AreLines` are the form of one line and of the lines of a text.
* `dropEmptyLast` leaves out a last line that has neither characters nor an ending.
* `Line.parts` and `CutsInto` are a line as two texts and the conditions on all such pairs.

## Main results

* `areLines_splitLines` — the lines of a text have the form.
* `splitLines_joinLines` — lines of the form are the lines of their text.
* `apply_dropEmptyLast` — what does not change without an empty last line.
* `cutsInto_iff` — a text is cut into bodies and endings in one way only.
-/

namespace SandboxProfile

/-! ### The form of lines -/

/-- A line as cutting a text can yield it. -/
structure Line.WellFormed (l : Line) : Prop where
  /-- The body holds no line feed. -/
  feed_not_mem : '\n' ∉ l.body
  /-- A carriage return directly before the line feed belongs to the ending. -/
  getLast?_ne : l.ending = .lf → l.body.getLast? ≠ some '\r'
  /-- A line without an ending has characters. -/
  body_ne_nil : l.ending = .none → l.body ≠ []

/-- Lines as cutting a text can yield them: only the last may have no ending. -/
def AreLines : List Line → Prop
  | [] => True
  | l :: rest => l.WellFormed ∧ (l.ending = .none → rest = []) ∧ AreLines rest

theorem joinLines_cons (l : Line) (rest : List Line) :
    joinLines (l :: rest) = l.text ++ joinLines rest := rfl

/-- The body of the first line comes first in the joined text, and its ending second. -/
theorem joinLines_cons_body (l : Line) (rest : List Line) :
    joinLines (l :: rest) = l.body ++ (l.ending.text ++ joinLines rest) :=
  List.append_assoc _ _ _

theorem Line.text_of_none {l : Line} (he : l.ending = .none) : l.text = l.body := by
  rw [Line.text, he, LineEnding.text, List.append_nil]

/-- The first line grows by a character that is no line feed and makes no ending with what
follows. -/
theorem splitLines_cons {c : Char} {rest : Text} (hc : c ≠ '\n')
    (hr : c = '\r' → rest.head? ≠ some '\n') :
    splitLines (c :: rest) = consToFirst c (splitLines rest) := by
  rw [splitLines.eq_4 c rest hc]
  rintro tail rfl rfl
  exact hr rfl rfl

/-- Characters without a line feed that stand before the first line belong to its body. -/
theorem splitLines_body_append {body : Text} (hb : '\n' ∉ body) {rest : Text} {l : Line}
    {ls : List Line} (h : splitLines rest = l :: ls)
    (hlast : rest.head? = some '\n' → body.getLast? ≠ some '\r') :
    splitLines (body ++ rest) = ⟨body ++ l.body, l.ending⟩ :: ls := by
  induction body with
  | nil => exact h
  | cons c body ih =>
      have hc : c ≠ '\n' := fun hc => hb (hc ▸ List.mem_cons_self)
      have hbody : '\n' ∉ body := fun hn => hb (List.mem_cons_of_mem _ hn)
      have hgrow : c = '\r' → (body ++ rest).head? ≠ some '\n' := by
        rintro rfl
        cases body with
        | nil => exact fun hn => hlast hn rfl
        | cons d body => exact fun hn => hbody (Option.some.inj hn ▸ List.mem_cons_self)
      rw [List.cons_append, splitLines_cons hc hgrow, ih hbody fun hn => ?_]
      · rfl
      · cases body with
        | nil => simp
        | cons d body => simpa using hlast hn

/-- The first line of a text, if it has an ending, is cut off. -/
theorem splitLines_text_append {l : Line} (hl : l.WellFormed) (he : l.ending ≠ .none)
    (rest : Text) : splitLines (l.text ++ rest) = l :: splitLines rest := by
  obtain ⟨body, ending⟩ := l
  rw [Line.text, List.append_assoc]
  cases ending with
  | none => exact absurd rfl he
  | lf =>
      have hrest : splitLines (LineEnding.lf.text ++ rest) = ⟨[], .lf⟩ :: splitLines rest := by
        simp [LineEnding.text, splitLines]
      rw [splitLines_body_append hl.feed_not_mem hrest fun _ => hl.getLast?_ne rfl,
        List.append_nil]
  | crlf =>
      have hrest : splitLines (LineEnding.crlf.text ++ rest) =
          ⟨[], .crlf⟩ :: splitLines rest := by
        simp [LineEnding.text, splitLines]
      rw [splitLines_body_append hl.feed_not_mem hrest (by simp [LineEnding.text]),
        List.append_nil]

/-- A text without a line feed is one line without an ending. -/
theorem splitLines_of_not_mem {s : Text} (h : '\n' ∉ s) (hs : s ≠ []) :
    splitLines s = [⟨s, .none⟩] := by
  induction s with
  | nil => exact absurd rfl hs
  | cons c rest ih =>
      have hrest : '\n' ∉ rest := fun hn => h (List.mem_cons_of_mem _ hn)
      rw [splitLines_cons fun hc => h (hc ▸ List.mem_cons_self)]
      · cases rest with
        | nil => rfl
        | cons d rest => rw [ih hrest (List.cons_ne_nil _ _)]; rfl
      · cases rest with
        | nil => simp
        | cons d rest => exact fun _ hn => hrest (Option.some.inj hn ▸ List.mem_cons_self)

/-- **Lines of the form are the lines of their text.** -/
theorem splitLines_joinLines {ls : List Line} (h : AreLines ls) :
    splitLines (joinLines ls) = ls := by
  induction ls with
  | nil => rfl
  | cons l rest ih =>
      obtain ⟨hl, hlast, hrest⟩ := h
      rw [joinLines_cons]
      by_cases he : l.ending = .none
      · obtain rfl := hlast he
        obtain ⟨body, ending⟩ := l
        obtain rfl : ending = .none := he
        have hb : body ≠ [] := hl.body_ne_nil rfl
        simpa [Line.text, LineEnding.text, joinLines] using
          splitLines_of_not_mem hl.feed_not_mem hb
      · rw [splitLines_text_append hl he, ih hrest]

/-- A character before the first line leaves the form, unless it ends a line or belongs to an
ending. -/
theorem areLines_consToFirst {c : Char} {ls : List Line} (hc : c ≠ '\n')
    (hr : c = '\r' → (joinLines ls).head? ≠ some '\n') (h : AreLines ls) :
    AreLines (consToFirst c ls) := by
  cases ls with
  | nil =>
      refine ⟨⟨?_, ?_, ?_⟩, fun _ => rfl, trivial⟩
      · simpa using hc.symm
      · intro he
        cases he
      · exact fun _ => List.cons_ne_nil _ _
  | cons l rest =>
      obtain ⟨hl, hlast, hrest⟩ := h
      refine ⟨⟨?_, fun he => ?_, fun _ => List.cons_ne_nil _ _⟩, hlast, hrest⟩
      · exact List.not_mem_cons_of_ne_of_not_mem hc.symm hl.feed_not_mem
      · have hbody := hl.getLast?_ne he
        cases hb : l.body with
        | nil =>
            rw [List.getLast?_singleton]
            intro hcr
            refine hr (Option.some.inj hcr) ?_
            simp only [joinLines, List.flatMap_cons, Line.text, hb, show l.ending = .lf from he]
            rfl
        | cons d body => rwa [hb] at hbody

/-- **The lines of a text have the form.** -/
theorem areLines_splitLines (s : Text) : AreLines (splitLines s) := by
  fun_induction splitLines s with
  | case1 => trivial
  | case2 rest ih => exact ⟨⟨List.not_mem_nil, by simp, by simp⟩, by simp, ih⟩
  | case3 rest ih => exact ⟨⟨List.not_mem_nil, by simp, by simp⟩, by simp, ih⟩
  | case4 c rest hc hr ih =>
      refine areLines_consToFirst hc (fun hcr => ?_) ih
      rw [joinLines_splitLines]
      intro hn
      obtain ⟨tail, rfl⟩ : ∃ tail, rest = '\n' :: tail := by
        cases rest with
        | nil => simp at hn
        | cons d tail => exact ⟨tail, by rw [Option.some.inj hn]⟩
      exact hr tail hcr rfl

/-- Every line of a text has the form. -/
theorem AreLines.wellFormed {ls : List Line} (h : AreLines ls) {l : Line} (hl : l ∈ ls) :
    l.WellFormed := by
  induction ls with
  | nil => cases hl
  | cons m rest ih =>
      rcases List.mem_cons.mp hl with rfl | hl
      · exact h.1
      · exact ih h.2.2 hl

/-- No line of a text holds a line feed before its ending. -/
theorem feed_not_mem_of_mem_splitLines {s : Text} {l : Line} (h : l ∈ splitLines s) :
    '\n' ∉ l.body :=
  ((areLines_splitLines s).wellFormed h).feed_not_mem

/-- Lines without a last one that has neither characters nor an ending. -/
def dropEmptyLast : List Line → List Line
  | [] => []
  | l :: rest => if l = ⟨[], .none⟩ ∧ rest = [] then [] else l :: dropEmptyLast rest

/-- What an empty line alone does not change, and what the first line makes of the rest, is
the same without an empty last line. -/
theorem apply_dropEmptyLast {β : Type} {f : List Line → β} (hempty : f [⟨[], .none⟩] = f [])
    (hcons : ∀ l ls ms, f ls = f ms → f (l :: ls) = f (l :: ms)) (ls : List Line) :
    f (dropEmptyLast ls) = f ls := by
  induction ls with
  | nil => rfl
  | cons l rest ih =>
      rw [dropEmptyLast]
      split
      · rename_i h
        rw [h.1, h.2, hempty]
      · exact hcons l _ _ ih

/-- All other lines are kept, and they come first. -/
theorem prefix_dropEmptyLast (ls : List Line) : dropEmptyLast ls <+: ls := by
  induction ls with
  | nil => exact List.prefix_refl _
  | cons l rest ih =>
      rw [dropEmptyLast]
      split
      · exact List.nil_prefix
      · exact List.cons_prefix_cons.mpr ⟨rfl, ih⟩

/-- Every line that is not empty keeps its place. -/
theorem getElem?_dropEmptyLast {ls : List Line} {i : Nat} {l : Line} (h : ls[i]? = some l)
    (hl : l ≠ ⟨[], .none⟩) : (dropEmptyLast ls)[i]? = some l := by
  induction ls generalizing i with
  | nil => cases h
  | cons m rest ih =>
      rw [dropEmptyLast]
      cases i with
      | zero =>
          obtain rfl : m = l := Option.some.inj h
          rw [if_neg fun hm => hl hm.1]
          rfl
      | succ i =>
          have hrest : rest ≠ [] := by
            rintro rfl
            cases h
          rw [if_neg fun hm => hrest hm.2]
          exact ih h

theorem joinLines_dropEmptyLast (ls : List Line) :
    joinLines (dropEmptyLast ls) = joinLines ls := by
  refine apply_dropEmptyLast rfl (fun l ls ms h => ?_) ls
  rw [joinLines_cons, joinLines_cons, h]

/-! ### The only way to cut a text -/

/-- The two texts that a line is made of. -/
def Line.parts (l : Line) : Text × Text :=
  (l.body, l.ending.text)

/-- The pairs are the bodies and endings of a text. -/
structure CutsInto (s : Text) (pairs : List (Text × Text)) : Prop where
  /-- Nothing is lost and nothing is added. -/
  joined : (pairs.flatMap fun p => p.1 ++ p.2) = s
  /-- No body holds a line feed. -/
  feed_not_mem : ∀ p ∈ pairs, '\n' ∉ p.1
  /-- An ending is a line feed, alone or behind a carriage return, or it is missing. -/
  ending_eq : ∀ p ∈ pairs, p.2 = ['\n'] ∨ p.2 = ['\r', '\n'] ∨ p.2 = []
  /-- Only the last pair may be without an ending. -/
  ending_ne_nil : ∀ p ∈ pairs.dropLast, p.2 ≠ []
  /-- Without an ending there are characters before it. -/
  body_ne_nil : ∀ p ∈ pairs, p.2 = [] → p.1 ≠ []
  /-- A carriage return directly before the line feed belongs to the ending. -/
  getLast?_ne : ∀ p ∈ pairs, p.2 = ['\n'] → p.1.getLast? ≠ some '\r'

/-- The ending without characters is the missing one. -/
theorem LineEnding.text_eq_nil_iff {e : LineEnding} : e.text = [] ↔ e = .none := by
  cases e <;> simp [LineEnding.text]

/-- The line feed alone is written by one ending only. -/
theorem LineEnding.text_eq_feed_iff {e : LineEnding} : e.text = ['\n'] ↔ e = .lf := by
  cases e <;> simp [LineEnding.text]

/-- The texts that endings are written as. -/
theorem LineEnding.exists_text_eq_iff {t : Text} :
    (∃ e : LineEnding, e.text = t) ↔ t = ['\n'] ∨ t = ['\r', '\n'] ∨ t = [] := by
  constructor
  · rintro ⟨e, rfl⟩
    cases e with
    | none => exact .inr (.inr rfl)
    | lf => exact .inl rfl
    | crlf => exact .inr (.inl rfl)
  · rintro (rfl | rfl | rfl)
    · exact ⟨.lf, rfl⟩
    · exact ⟨.crlf, rfl⟩
    · exact ⟨.none, rfl⟩

/-- Pairs whose second texts are endings are the parts of lines. -/
theorem exists_map_parts {pairs : List (Text × Text)}
    (h : ∀ p ∈ pairs, p.2 = ['\n'] ∨ p.2 = ['\r', '\n'] ∨ p.2 = []) :
    ∃ ls : List Line, ls.map Line.parts = pairs := by
  have hparts : ∀ p ∈ pairs, p ∈ Set.range Line.parts := by
    intro p hp
    obtain ⟨e, he⟩ := LineEnding.exists_text_eq_iff.mpr (h p hp)
    exact ⟨⟨p.1, e⟩, Prod.ext rfl he⟩
  rwa [← Set.mem_range, Set.range_list_map]

/-- The form of a line, said of its parts. -/
theorem Line.wellFormed_iff_parts {l : Line} :
    l.WellFormed ↔ '\n' ∉ l.parts.1 ∧ (l.parts.2 = [] → l.parts.1 ≠ []) ∧
      (l.parts.2 = ['\n'] → l.parts.1.getLast? ≠ some '\r') := by
  rw [Line.parts, LineEnding.text_eq_nil_iff, LineEnding.text_eq_feed_iff]
  constructor
  · intro h
    exact ⟨h.feed_not_mem, h.body_ne_nil, h.getLast?_ne⟩
  · rintro ⟨hfeed, hbody, hreturn⟩
    exact ⟨hfeed, hreturn, hbody⟩

/-- Lines have the form if each of them has it and all but the last have an ending. -/
theorem areLines_iff {ls : List Line} :
    AreLines ls ↔ (∀ l ∈ ls, l.WellFormed) ∧ ∀ l ∈ ls.dropLast, l.ending ≠ .none := by
  induction ls with
  | nil => simp [AreLines]
  | cons l rest ih =>
      rw [AreLines, ih, List.forall_mem_cons]
      cases rest with
      | nil => simp
      | cons m rest =>
          have hends : (∀ k ∈ (l :: m :: rest).dropLast, k.ending ≠ .none) ↔
              l.ending ≠ .none ∧ ∀ k ∈ (m :: rest).dropLast, k.ending ≠ .none := by
            rw [List.dropLast_cons_cons, List.forall_mem_cons]
          rw [hends]
          constructor
          · rintro ⟨hl, hlast, hrest, hothers⟩
            exact ⟨⟨hl, hrest⟩, fun he => List.cons_ne_nil _ _ (hlast he), hothers⟩
          · rintro ⟨⟨hl, hrest⟩, hne, hothers⟩
            exact ⟨hl, fun he => absurd he hne, hrest, hothers⟩

/-- A text is cut into the parts of lines exactly if the lines have the form and make it up. -/
theorem cutsInto_map_parts_iff {s : Text} {ls : List Line} :
    CutsInto s (ls.map Line.parts) ↔ AreLines ls ∧ joinLines ls = s := by
  have hjoin : ((ls.map Line.parts).flatMap fun p => p.1 ++ p.2) = joinLines ls :=
    List.flatMap_map Line.parts _ ls
  rw [areLines_iff]
  constructor
  · intro h
    refine ⟨⟨fun l hl => ?_, fun l hl he => ?_⟩, hjoin.symm.trans h.joined⟩
    · have hp := List.mem_map_of_mem (f := Line.parts) hl
      exact Line.wellFormed_iff_parts.mpr
        ⟨h.feed_not_mem _ hp, h.body_ne_nil _ hp, h.getLast?_ne _ hp⟩
    · have hp : l.parts ∈ (ls.map Line.parts).dropLast := by
        rw [← List.map_dropLast]
        exact List.mem_map_of_mem hl
      exact h.ending_ne_nil _ hp (LineEnding.text_eq_nil_iff.mpr he)
  · rintro ⟨⟨hform, hends⟩, rfl⟩
    have hparts := fun l hl => Line.wellFormed_iff_parts.mp (hform l hl)
    refine
      { joined := hjoin
        feed_not_mem := List.forall_mem_map.mpr fun l hl => (hparts l hl).1
        ending_eq := List.forall_mem_map.mpr fun l _ =>
          LineEnding.exists_text_eq_iff.mp ⟨l.ending, rfl⟩
        ending_ne_nil := ?_
        body_ne_nil := List.forall_mem_map.mpr fun l hl => (hparts l hl).2.1
        getLast?_ne := List.forall_mem_map.mpr fun l hl => (hparts l hl).2.2 }
    rw [← List.map_dropLast]
    exact List.forall_mem_map.mpr fun l hl he =>
      hends l hl (LineEnding.text_eq_nil_iff.mp he)

/-- **A text is cut into bodies and endings in one way only**, and that is into its lines. -/
theorem cutsInto_iff (s : Text) (pairs : List (Text × Text)) :
    CutsInto s pairs ↔ pairs = (splitLines s).map Line.parts := by
  constructor
  · intro h
    obtain ⟨ls, rfl⟩ := exists_map_parts h.ending_eq
    obtain ⟨hls, rfl⟩ := cutsInto_map_parts_iff.mp h
    rw [splitLines_joinLines hls]
  · rintro rfl
    exact cutsInto_map_parts_iff.mpr ⟨areLines_splitLines s, joinLines_splitLines s⟩

/-- Two carriage returns before a line feed, and one before the end of the text. -/
example : splitLines ['\r', '\r', '\n', '\n', 'a', '\r'] =
    [⟨['\r'], .crlf⟩, ⟨[], .lf⟩, ⟨['a', '\r'], .none⟩] := by
  decide

end SandboxProfile
