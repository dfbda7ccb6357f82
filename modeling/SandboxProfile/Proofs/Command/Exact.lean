import SandboxProfile.Proofs.Command.Session

/-!
# Profiles are read and written byte for byte

The text of a file is its bytes and nothing else: carriage returns, a byte order mark and a
missing line feed at the end are characters of it or are missing from it, and a text is written as
the bytes that it is read from. So a file that is read and written again has not changed, and
neither has the tree around it.

A file that is formatted in place changes by way of its text. What changes in the text are the
blanks at the start of lines. `withoutMargins` leaves them out, and what it leaves of a text is the
same before and after, for each file and whatever else the run does.

## Main definitions

* `withoutMargins` is a text without the blanks that its lines start with.
* `OnlyMargins` relates a file to what formatting may make of it.
* `BytesExact` says that reading and writing at a path are exact.

## Main results

* `withoutMargins_of_formatText` — indentation changes only the margins.
* `bytesExact_of_ne_standardInput` — reading and writing files is exact.
-/

namespace SandboxProfile

/-! ### Statement -/

/-- Lines without the blanks that they start with, written one after another. -/
def joinWithoutMargins (ls : List Line) : Text :=
  joinLines (ls.map fun l => { l with body := Text.trimStart l.body })

/-- A text without the blanks that its lines start with. -/
def withoutMargins (s : Text) : Text :=
  joinWithoutMargins (splitLines s)

/-- What formatting may make of a file: its text keeps everything but the blanks at the start of
its lines, and bytes that are no text stay as they are. -/
structure OnlyMargins (f g : File) : Prop where
  /-- It can be read and written as before. -/
  access : g.access = f.access
  /-- A text stays a text and changes at the start of its lines only. -/
  text : ∀ s, Utf8.decode f.content = .ok s →
    ∃ t, Utf8.decode g.content = .ok t ∧ withoutMargins t = withoutMargins s
  /-- Other bytes stay as they are. -/
  bytes : ¬Utf8.IsText f.content → g.content = f.content

/-- Reading and writing at the path are exact, and formatting changes no more than margins. -/
structure BytesExact (s : Surroundings) (path : Text) : Prop where
  /-- A file can be read exactly if it may be and its bytes are a text. -/
  readable_iff : ∀ l f, s.tree.Leads path l f →
    ((∃ p, readAt s.tree s.input path = .ok p) ↔ f.access ≠ .none ∧ Utf8.IsText f.content)
  /-- Wherever the text that was read is written, the bytes of the file are there. -/
  restored : ∀ l f p, s.tree.Leads path l f → readAt s.tree s.input path = .ok p →
    ∀ t u q, writeProfile t q p.text = .ok u → u.read q = .ok f.content
  /-- Where it is written to its own file, nothing changes. -/
  unchanged : ∀ l f p, s.tree.Leads path l f → f.access = .full →
    readAt s.tree s.input path = .ok p → writeProfile s.tree path p.text = .ok s.tree
  /-- Every text can be written to a file that may be written. -/
  writable : ∀ l f text, s.tree.Leads path l f → f.access = .full →
    ∃ u, writeProfile s.tree path text = .ok u
  /-- Every text that was written is read, also from a new file. -/
  written : ∀ text u, writeProfile s.tree path text = .ok u →
    readAt u s.input path = .ok ⟨path, text⟩
  /-- Formatting changes a file at the start of its lines only. -/
  formatted : ∀ o l f, s.tree.Leads path l f →
    ∃ g, ((Command.format o).run s).tree.Leads path l g ∧ OnlyMargins f g

/-! ### Margins -/

/-- Lines that differ in their first blanks only differ in their margins only. -/
theorem FormattedLines.joinWithoutMargins {style : IndentStyle} {ls ms : List Line}
    (h : FormattedLines style ls ms) : joinWithoutMargins ms = joinWithoutMargins ls := by
  have hlines : ms.map (fun m => { m with body := Text.trimStart m.body }) =
      ls.map fun l => { l with body := Text.trimStart l.body } := by
    induction h with
    | nil => rfl
    | @cons l m ls ms hlm _ ih =>
        rw [List.map_cons, List.map_cons, ih, trimStart_of_formatLine hlm.1, hlm.2]
  rw [SandboxProfile.joinWithoutMargins, hlines, SandboxProfile.joinWithoutMargins]

/-- **Indentation changes only the margins.** A last line that vanishes held nothing else. -/
theorem withoutMargins_of_formatText {style : IndentStyle} {s t : Text}
    (h : formatText style s = .ok t) : withoutMargins t = withoutMargins s := by
  obtain ⟨ms, hms, -, hsplit⟩ := splitLines_of_formatText h
  have hlast : joinWithoutMargins (dropEmptyLast ms) = joinWithoutMargins ms := by
    refine apply_dropEmptyLast rfl (fun l ls ls' hls => ?_) ms
    rw [joinWithoutMargins, joinWithoutMargins, List.map_cons, List.map_cons, joinLines_cons,
      joinLines_cons]
    exact congrArg _ hls
  rw [withoutMargins, hsplit, hlast, hms.joinWithoutMargins, withoutMargins]

/-- A file that was left as it is or indented has changed at the start of its lines only. -/
theorem Rewritten.onlyMargins {style : IndentStyle} {profileAt : Location → Prop} {l : Location}
    {f g : File} (h : Rewritten style profileAt l f g) : OnlyMargins f g := by
  refine ⟨h.kept.access, fun s hs => ?_, fun hbytes => ?_⟩
  · rcases h.content_eq with rfl | rfl
    · exact ⟨s, hs, rfl⟩
    · rcases reindented_cases style f.content with hsame | ⟨s', t, hs', ht, hwritten⟩
      · exact ⟨s, by rw [hsame, hs], rfl⟩
      · obtain rfl : s' = s := Except.ok.inj (hs'.symm.trans hs)
        refine ⟨t, ?_, withoutMargins_of_formatText ht⟩
        rw [hwritten, Utf8.decode_encode]
  · rcases h.content_eq with rfl | rfl
    · rfl
    · rcases reindented_cases style f.content with hsame | ⟨s, -, hs, -⟩
      · exact hsame
      · exact absurd (Utf8.decode_ok_iff.mp ⟨s, hs⟩) hbytes

/-! ### Reading and writing -/

variable {t u : FileTree} {input : List UInt8} {path text : Text} {l : Location} {f : File}
  {p : Profile}

/-- The profile in a file is the text of its bytes. -/
theorem readAt_eq_ok_iff (hpath : path ≠ standardInput) (hleads : t.Leads path l f) :
    readAt t input path = .ok p ↔
      p.path = path ∧ f.access ≠ .none ∧ Utf8.encode p.text = f.content := by
  obtain ⟨path', text⟩ := p
  rw [readAt, if_neg hpath]
  constructor
  · intro h
    obtain rfl : path' = path := path_of_readProfile h
    obtain ⟨bytes, hread, hdecode⟩ := readProfile_eq_ok.mp h
    obtain ⟨m, g, hm, haccess, rfl⟩ := FileTree.read_eq_ok hread
    obtain ⟨-, rfl⟩ := hleads.unique hm
    exact ⟨rfl, haccess, Utf8.decode_eq_ok_iff.mp hdecode⟩
  · rintro ⟨rfl, haccess, hbytes⟩
    exact readProfile_eq_ok.mpr ⟨_, hleads.read haccess, Utf8.decode_eq_ok_iff.mpr hbytes⟩

/-- A text that is written to a file takes the place of its bytes. -/
theorem writeProfile_of_leads (hleads : t.Leads path l f) (haccess : f.access = .full) :
    writeProfile t path text = .ok (t.put l (.file ⟨Utf8.encode text, .full⟩)) :=
  writeProfile_eq_ok_iff.mpr (hleads.write haccess _)

/-- A text that was written is read. -/
theorem readAt_of_writeProfile (hpath : path ≠ standardInput)
    (h : writeProfile t path text = .ok u) : readAt u input path = .ok ⟨path, text⟩ := by
  rw [readAt, if_neg hpath]
  exact readProfile_eq_ok.mpr
    ⟨_, FileTree.read_of_write (writeProfile_eq_ok_iff.mp h), Utf8.decode_encode text⟩

/-- **Reading and writing files is exact** at every path that does not stand for the standard
input. -/
theorem bytesExact_of_ne_standardInput (s : Surroundings) (hpath : path ≠ standardInput) :
    BytesExact s path where
  readable_iff := by
    intro l f hleads
    rw [Utf8.isText_iff]
    constructor
    · rintro ⟨p, hp⟩
      obtain ⟨-, haccess, hbytes⟩ := (readAt_eq_ok_iff hpath hleads).mp hp
      exact ⟨haccess, p.text, hbytes⟩
    · rintro ⟨haccess, text, hbytes⟩
      exact ⟨⟨path, text⟩, (readAt_eq_ok_iff hpath hleads).mpr ⟨rfl, haccess, hbytes⟩⟩
  restored := by
    intro l f p hleads hp t u q hwrite
    obtain ⟨-, -, hbytes⟩ := (readAt_eq_ok_iff hpath hleads).mp hp
    rw [← hbytes]
    exact FileTree.read_of_write (writeProfile_eq_ok_iff.mp hwrite)
  unchanged := by
    intro l f p hleads haccess hp
    obtain ⟨-, -, hbytes⟩ := (readAt_eq_ok_iff hpath hleads).mp hp
    rw [writeProfile_of_leads hleads haccess, hbytes, ← haccess,
      FileTree.put_eq_self hleads.get?]
  writable := fun l f text hleads haccess => ⟨_, writeProfile_of_leads hleads haccess⟩
  written := fun text u hwrite => readAt_of_writeProfile hpath hwrite
  formatted := by
    intro o l f hleads
    obtain ⟨style, halike⟩ := alike_runFormat s o
    obtain ⟨g, hg, hfg⟩ := halike.leads hleads
    exact ⟨g, hg, hfg.onlyMargins⟩

/-- A byte order mark, a carriage return and a missing last line feed are kept. -/
theorem bytesExact_of_mark :
    "a.profile".toList ≠ standardInput ∧
      BytesExact (directoryWith [0xef, 0xbb, 0xbf, 0x6e, 0x0d, 0x0a, 0x20, 0x78])
        "a.profile".toList ∧
      readAt (directoryWith [0xef, 0xbb, 0xbf, 0x6e, 0x0d, 0x0a, 0x20, 0x78]).tree []
        "a.profile".toList = .ok ⟨"a.profile".toList, "\ufeffn\r\n x".toList⟩ := by
  refine ⟨by decide, bytesExact_of_ne_standardInput _ (by decide), ?_⟩
  rw [readAt, if_neg (by decide)]
  exact readProfile_directoryWith (Utf8.decode_eq_ok_iff.mpr (by decide))

end SandboxProfile
