import SandboxProfile.Command.Run
import SandboxProfile.Proofs.FileTree.Access
import SandboxProfile.Proofs.FileTree.Alike
import SandboxProfile.Proofs.Indent.Lines
import SandboxProfile.Proofs.Text.Sequence

/-!
# Writing indented profiles

`emit` goes through the profiles one after another and rewrites the files of those that
indentation has changed. Several paths may lead to one file, so a file may be rewritten more
than once; as all profiles were read before, the same bytes are written each time. The
invariant of the run is that every file holds either its old bytes or their indented form.

## Main definitions

* `reindented` are the bytes of a file after indentation.
* `Rewritten` relates a file to what a run may have left of it.
* `Writable` says that a profile can be read, indented and written.

## Main results

* `emit_write` — what a run that writes leaves.
* `emit_print` — what a run that prints leaves.
-/

namespace SandboxProfile

/-- The bytes of a file after indentation. Bytes that are no text, or a text that cannot be
indented, stay as they are. -/
def reindented (style : IndentStyle) (bytes : List UInt8) : List UInt8 :=
  match Utf8.decode bytes with
  | .error _ => bytes
  | .ok s =>
    match formatText style s with
    | .error _ => bytes
    | .ok t => if t = s then bytes else Utf8.encode t

/-- The bytes of a text that can be indented become those of the indented text. -/
theorem reindented_eq_encode {style : IndentStyle} {bytes : List UInt8} {s t : Text}
    (hs : Utf8.decode bytes = .ok s) (ht : formatText style s = .ok t) :
    reindented style bytes = Utf8.encode t := by
  simp only [reindented, hs, ht]
  split
  · rename_i hsame
    rw [hsame, Utf8.decode_eq_ok_iff.mp hs]
  · rfl

/-- Bytes stay as they are, or they are those of a text and become those of the indented text. -/
theorem reindented_cases (style : IndentStyle) (bytes : List UInt8) :
    reindented style bytes = bytes ∨ ∃ s t, Utf8.decode bytes = .ok s ∧
      formatText style s = .ok t ∧ reindented style bytes = Utf8.encode t := by
  cases hs : Utf8.decode bytes with
  | error e => exact .inl (by simp only [reindented, hs])
  | ok s =>
      cases ht : formatText style s with
      | error e => exact .inl (by simp only [reindented, hs, ht])
      | ok t => exact .inr ⟨s, t, rfl, ht, reindented_eq_encode hs ht⟩

/-- What a run may have left of the file at a place: the file itself, or its indented form if a
profile is at the place. -/
def Rewritten (style : IndentStyle) (profileAt : Location → Prop) (l : Location)
    (f g : File) : Prop :=
  g = f ∨ (profileAt l ∧ f.access = .full ∧ g = ⟨reindented style f.content, .full⟩)

/-- The profile stands in a file at the place, which can be written, and its indented text is
the given one. -/
structure Writable (style : IndentStyle) (t : FileTree) (p : Profile) (text : Text)
    (l : Location) (f : File) : Prop where
  /-- The profile does not stand for the standard input. -/
  not_input : p.path ≠ standardInput
  /-- Its path leads to the file. -/
  leads : t.Leads p.path l f
  /-- The file can be written. -/
  access : f.access = .full
  /-- Its bytes are the text of the profile. -/
  decode : Utf8.decode f.content = .ok p.text
  /-- The text can be indented. -/
  format : formatText style p.text = .ok text

variable {style : IndentStyle} {profileAt : Location → Prop} {t u : FileTree} {p : Profile}
  {text : Text} {l : Location} {f : File}

/-- The indented bytes of a profile. -/
theorem Writable.reindented_eq (h : Writable style t p text l f) :
    reindented style f.content = if text = p.text then f.content else Utf8.encode text := by
  simp only [reindented, h.decode, h.format]

/-- The indented bytes are the indented text. -/
theorem Writable.decode_reindented (h : Writable style t p text l f) :
    Utf8.decode (reindented style f.content) = .ok text := by
  rw [h.reindented_eq]
  split
  · rename_i hsame
    rw [h.decode, hsame]
  · exact Utf8.decode_encode text

/-- The bytes change exactly if the text does. -/
theorem Writable.reindented_ne_iff (h : Writable style t p text l f) :
    reindented style f.content ≠ f.content ↔ text ≠ p.text := by
  constructor
  · intro hne hsame
    rw [h.reindented_eq, if_pos hsame] at hne
    exact hne rfl
  · intro hne hsame
    have hdecode := h.decode_reindented
    rw [hsame, h.decode] at hdecode
    exact hne (Except.ok.inj hdecode).symm

/-- A file that is left is what it was, or it has been rewritten. -/
theorem Rewritten.content_eq {g : File} (h : Rewritten style profileAt l f g) :
    g = f ∨ g = ⟨reindented style f.content, .full⟩ :=
  h.imp_right fun h => h.2.2

/-- What is left of a file that can be written can be written. -/
theorem Rewritten.access {g : File} (h : Rewritten style profileAt l f g)
    (ha : f.access = .full) : g.access = .full := by
  rcases h with rfl | ⟨-, -, rfl⟩
  · exact ha
  · rfl

/-- A path leads to what is left of its file. -/
theorem FileTree.Alike.leads {R : Location → File → File → Prop} (h : t.Alike R u) {path : Text}
    (hl : t.Leads path l f) : ∃ g, u.Leads path l g ∧ R l f g := by
  obtain ⟨g, hg, hR⟩ := h.get?_file hl.get?
  exact ⟨g, ⟨(h.locate path).trans hl.locate, hg, hl.no_slash, hl.no_nul⟩, hR⟩

/-! ### What has been written -/

/-- The file at the place has been rewritten. -/
def IsDone (style : IndentStyle) (t u : FileTree) (l : Location) : Prop :=
  ∀ f, t.get? l = some (.file f) →
    ∃ g, u.get? l = some (.file g) ∧ g.content = reindented style f.content

/-- What is put at the place of a file is there. -/
theorem get?_put_of_file (hl : t.get? l = some (.file f)) (item : Item) :
    (u.put l item).get? l = some item := by
  refine FileTree.get?_put_self ?_ item u
  cases ha : FileTree.isAround l with
  | false => rfl
  | true =>
      rw [FileTree.get?, if_pos ha] at hl
      cases hl

/-- A file that has just been rewritten is done. -/
theorem isDone_put (hl : t.get? l = some (.file f)) (a : Access) :
    IsDone style t (u.put l (.file ⟨reindented style f.content, a⟩)) l := by
  intro g hg
  obtain rfl : f = g := Item.file.inj (Option.some.inj (hl.symm.trans hg))
  exact ⟨_, get?_put_of_file hl _, rfl⟩

/-- Rewriting one file undoes no other. -/
theorem IsDone.put {m : Location} (h : IsDone style t u m) (hl : t.get? l = some (.file f))
    (a : Access) : IsDone style t (u.put l (.file ⟨reindented style f.content, a⟩)) m := by
  by_cases hml : m = l
  · subst hml
    exact isDone_put hl a
  · intro g hg
    rw [FileTree.get?_put_of_ne hml]
    exact h g hg

/-- A file that indentation does not change is done from the start. -/
theorem isDone_of_unchanged (hu : t.Alike (Rewritten style profileAt) u)
    (h : Writable style t p p.text l f) : IsDone style t u l := by
  intro g hg
  obtain rfl : f = g := Item.file.inj (Option.some.inj (h.leads.get?.symm.trans hg))
  obtain ⟨g', hg', hR⟩ := hu.get?_file hg
  have hsame : reindented style f.content = f.content := by
    rw [h.reindented_eq, if_pos rfl]
  refine ⟨g', hg', ?_⟩
  rcases hR.content_eq with rfl | rfl
  · exact hsame.symm
  · rfl

/-- A text is written as its bytes. -/
theorem writeProfile_eq_ok_iff {path : Text} {v : FileTree} :
    writeProfile u path text = .ok v ↔ u.write path (Utf8.encode text) = .ok v := by
  rw [writeProfile]
  cases u.write path (Utf8.encode text) with
  | ok w => exact ⟨fun h => congrArg _ (Except.ok.inj h), fun h => congrArg _ (Except.ok.inj h)⟩
  | error e => cases e <;> exact ⟨(fun h => nomatch h), fun h => nomatch h⟩

/-- A profile that indentation changes is written to its file. -/
theorem writeProfile_of_changed (hu : t.Alike (Rewritten style profileAt) u)
    (h : Writable style t p text l f) (hne : text ≠ p.text) :
    writeProfile u p.path text =
      .ok (u.put l (.file ⟨reindented style f.content, .full⟩)) := by
  obtain ⟨g, hg, hR⟩ := hu.leads h.leads
  rw [writeProfile_eq_ok_iff, hg.write (hR.access h.access), h.reindented_eq, if_neg hne]

/-! ### Runs -/

/-- **A run that writes** ends well, leaves all files either as they were or indented, and leaves
those of its profiles indented. -/
theorem emit_write (verbose : Bool) (output : Text) {fs : List (Profile × Text)}
    (hfs : ∀ e ∈ fs, ∃ l f, Writable style t e.1 e.2 l f ∧ profileAt l) (notes : List Note)
    (hu : t.Alike (Rewritten style profileAt) u) :
    ∃ notes' w, emit true verbose notes output u fs =
        { ending := .exit 0, output := output, notes := notes', tree := w } ∧
      t.Alike (Rewritten style profileAt) w ∧
      (∀ l, IsDone style t u l → IsDone style t w l) ∧
      ∀ e ∈ fs, ∀ l f, Writable style t e.1 e.2 l f → IsDone style t w l := by
  induction fs generalizing notes u with
  | nil => exact ⟨notes, u, rfl, hu, fun _ h => h, fun _ h => nomatch h⟩
  | cons e rest ih =>
      obtain ⟨p, text⟩ := e
      obtain ⟨l, f, hw, hat⟩ := hfs _ List.mem_cons_self
      have hrest : ∀ e ∈ rest, ∃ l f, Writable style t e.1 e.2 l f ∧ profileAt l :=
        fun e he => hfs e (List.mem_cons_of_mem _ he)
      -- The first profile is done when the rest begins, and the rest does not undo it.
      have hall {w : FileTree} (hl : IsDone style t w l)
          (hothers : ∀ e ∈ rest, ∀ l f, Writable style t e.1 e.2 l f → IsDone style t w l) :
          ∀ e ∈ (p, text) :: rest, ∀ l f, Writable style t e.1 e.2 l f → IsDone style t w l := by
        intro e he m g hm
        rcases List.mem_cons.mp he with rfl | he
        · obtain ⟨rfl, -⟩ := hw.leads.unique hm.leads
          exact hl
        · exact hothers e he m g hm
      rw [emit, if_pos ⟨rfl, hw.not_input⟩]
      by_cases hsame : text = p.text
      · obtain ⟨notes', w, hrun, hw', hkeep, hdone⟩ := ih hrest notes hu
        rw [if_pos hsame]
        subst hsame
        exact ⟨notes', w, hrun, hw', hkeep, hall (hkeep l (isDone_of_unchanged hu hw)) hdone⟩
      · have hput : t.Alike (Rewritten style profileAt)
            (u.put l (.file ⟨reindented style f.content, .full⟩)) :=
          hu.put hw.leads.get? (.inr ⟨hat, hw.access, rfl⟩)
        rw [if_neg hsame, writeProfile_of_changed hu hw hsame]
        obtain ⟨notes', w, hrun, hw', hkeep, hdone⟩ := ih hrest _ hput
        refine ⟨notes', w, hrun, hw', fun m hm => hkeep m (hm.put hw.leads.get? .full), ?_⟩
        exact hall (hkeep l (isDone_put hw.leads.get? .full)) hdone

/-- **A run that prints** prints all texts without their control sequences. -/
theorem emit_print (verbose : Bool) (notes : List Note) (output : Text) (t : FileTree)
    (fs : List (Profile × Text)) :
    emit false verbose notes output t fs =
      { ending := .exit 0
        output := output ++ fs.flatMap fun e => Terminal.stripSequences e.2
        notes := notes
        tree := t } := by
  induction fs generalizing output with
  | nil => simp [emit]
  | cons e rest ih =>
      obtain ⟨p, text⟩ := e
      rw [emit, if_neg (fun h => Bool.false_ne_true h.1), ih, List.flatMap_cons,
        List.append_assoc]

/-- A run that has nothing to change writes nothing. -/
theorem emit_of_unchanged (verbose : Bool) (notes : List Note) (output : Text) (t : FileTree)
    {fs : List (Profile × Text)}
    (h : ∀ e ∈ fs, e.1.path ≠ standardInput ∧ e.2 = e.1.text) :
    emit true verbose notes output t fs =
      { ending := .exit 0, output := output, notes := notes, tree := t } := by
  induction fs with
  | nil => rfl
  | cons e rest ih =>
      obtain ⟨p, text⟩ := e
      obtain ⟨hpath, hsame⟩ := h _ List.mem_cons_self
      rw [emit, if_pos ⟨rfl, hpath⟩, if_pos hsame]
      exact ih fun e he => h e (List.mem_cons_of_mem _ he)

end SandboxProfile
