import SandboxProfile.Proofs.Json.Strings
import SandboxProfile.Json.Rendering

/-!
# Values are read back

A value that is written on indented lines is read back in front of any text that does not go on
with a digit; only a number cares for what follows it. The induction is on the value. The
elements of an array and the members of an object come after their commas, so each of the two
has a statement of its own, an induction on the list, that takes what it says of the values in it
as a hypothesis. Reading is bounded by a number, and the length of what was written is always
enough, since every step of the reader consumes a character.

## Main definitions

* `Json.ReadsBack` says that a value is read back in front of such a text.
* `Json.showLimit` is the first natural number that is too long to be written.

## Main results

* `Json.inductionOn` is the induction over values whose hypothesis is about each value inside.
* `Json.readsBack` — every value is read back.
* `Json.read?_pretty` — a value is read back from its own text.
* `Json.isAscii_pretty` — a value is written in ASCII.
* `Json.render_eq_ok_iff` — a value is written unless an integer in it is too long.
-/

namespace SandboxProfile

namespace Json

/-! ### Induction -/

/-- The induction over values. The hypothesis for an array is about each of its elements, and the
one for an object about the value of each of its members. -/
@[elab_as_elim]
theorem inductionOn {motive : Json → Prop} (v : Json) (null : motive .null)
    (bool : ∀ b, motive (.bool b)) (int : ∀ i, motive (.int i)) (str : ∀ s, motive (.str s))
    (arr : ∀ es, (∀ e ∈ es, motive e) → motive (.arr es))
    (obj : ∀ ms, (∀ m ∈ ms, motive m.2) → motive (.obj ms)) : motive v := by
  match v with
  | .null => exact null
  | .bool b => exact bool b
  | .int i => exact int i
  | .str s => exact str s
  | .arr es =>
      refine arr es fun e he => ?_
      have hsize := List.sizeOf_lt_of_mem he
      exact inductionOn e null bool int str arr obj
  | .obj ms =>
      refine obj ms fun m hm => ?_
      have hsize : sizeOf m.2 < sizeOf ms := by
        obtain ⟨name, w⟩ := m
        have hlt : 1 + sizeOf name + sizeOf w < sizeOf ms := List.sizeOf_lt_of_mem hm
        dsimp only
        omega
      exact inductionOn m.2 null bool int str arr obj
termination_by sizeOf v
decreasing_by
  all_goals simp_wf
  all_goals omega

/-! ### Where a value begins -/

/-- The start of a line is skipped. -/
theorem skipSpace_newLine (depth : Nat) (s : Text) :
    skipSpace (newLine depth ++ s) = skipSpace s := by
  have hblanks : ∀ c ∈ newLine depth, isSpace c = true := by
    intro c hc
    rcases List.mem_cons.mp hc with rfl | hc
    · rfl
    · rw [List.eq_of_mem_replicate hc]
      rfl
  exact List.dropWhile_append_of_pos hblanks

theorem skipSpace_cons {c : Char} (h : isSpace c = false) (s : Text) :
    skipSpace (c :: s) = c :: s := by
  simp [skipSpace, h]

/-- The character is none that a reader skips or that ends an array or an object. -/
def BeginsValue (c : Char) : Prop :=
  isSpace c = false ∧ c ≠ ']' ∧ c ≠ '\x7d'

instance (c : Char) : Decidable (BeginsValue c) :=
  inferInstanceAs (Decidable (_ ∧ _ ∧ _))

theorem ne_of_isDigit {c d : Char} (h : c.isDigit = true) (hd : d.isDigit = false) : c ≠ d := by
  rintro rfl
  rw [h] at hd
  cases hd

/-- A digit begins a value. -/
theorem beginsValue_of_isDigit {c : Char} (h : c.isDigit = true) : BeginsValue c := by
  have hspace : isSpace c = false := by
    have hblank : c ≠ ' ' ∧ c ≠ '\n' ∧ c ≠ '\r' ∧ c ≠ '\t' :=
      ⟨ne_of_isDigit h rfl, ne_of_isDigit h rfl, ne_of_isDigit h rfl, ne_of_isDigit h rfl⟩
    simp [isSpace, hblank]
  exact ⟨hspace, ne_of_isDigit h rfl, ne_of_isDigit h rfl⟩

theorem ofNat_eq_cons (n : Nat) : ∃ c rest, Text.ofNat n = c :: rest ∧ c.isDigit = true := by
  obtain ⟨c, rest, hdigits⟩ := List.exists_cons_of_ne_nil (Nat.toDigits_ne_nil (b := 10) (n := n))
  have hmem : c ∈ Nat.toDigits 10 n := hdigits ▸ List.mem_cons_self
  exact ⟨c, rest, hdigits, Nat.isDigit_of_mem_toDigits (by omega) (by omega) hmem⟩

/-- A written value begins with a character that neither is skipped nor ends anything. -/
theorem prettyAt_eq_cons (depth : Nat) (v : Json) :
    ∃ c rest, prettyAt depth v = c :: rest ∧ BeginsValue c := by
  cases v with
  | null => exact ⟨'n', "ull".toList, rfl, by decide⟩
  | bool b =>
      cases b with
      | true => exact ⟨'t', "rue".toList, rfl, by decide⟩
      | false => exact ⟨'f', "alse".toList, rfl, by decide⟩
  | int i =>
      cases i with
      | ofNat n =>
          obtain ⟨c, rest, hdigits, hc⟩ := ofNat_eq_cons n
          exact ⟨c, rest, hdigits, beginsValue_of_isDigit hc⟩
      | negSucc n => exact ⟨'-', _, rfl, by decide⟩
  | str s => exact ⟨'"', _, rfl, by decide⟩
  | arr es => cases es <;> exact ⟨'[', _, rfl, by decide⟩
  | obj ms => cases ms <;> exact ⟨'\x7b', _, rfl, by decide⟩

/-- A text that begins with a written value is not skipped. -/
theorem skipSpace_prettyAt (depth : Nat) (v : Json) (s : Text) :
    ∃ c rest, prettyAt depth v ++ s = c :: rest ∧ BeginsValue c ∧
      skipSpace (prettyAt depth v ++ s) = c :: rest := by
  obtain ⟨c, rest, hbegin, hc⟩ := prettyAt_eq_cons depth v
  refine ⟨c, rest ++ s, by rw [hbegin, List.cons_append], hc, ?_⟩
  rw [hbegin, List.cons_append, skipSpace_cons hc.1]

/-- Blanks in front of a value do not change how it is read. -/
theorem readValue?_of_skipSpace {s u : Text} (h : skipSpace s = skipSpace u) (fuel : Nat) :
    readValue? fuel s = readValue? fuel u := by
  cases fuel with
  | zero => rfl
  | succ fuel => rw [readValue?, readValue?, h]

/-! ### What follows a value -/

theorem noDigitAhead_newLine (depth : Nat) (s : Text) : NoDigitAhead (newLine depth ++ s) :=
  noDigitAhead_cons rfl _

/-- What follows an element does not go on with a digit. -/
theorem noDigitAhead_prettyElements (depth below : Nat) (es : List Json) (s : Text) :
    NoDigitAhead (prettyElements depth es ++ (newLine below ++ s)) := by
  cases es with
  | nil => exact noDigitAhead_newLine below s
  | cons e rest => exact noDigitAhead_cons rfl _

/-- What follows a member does not go on with a digit. -/
theorem noDigitAhead_prettyMembers (depth below : Nat) (ms : List (Text × Json)) (s : Text) :
    NoDigitAhead (prettyMembers depth ms ++ (newLine below ++ s)) := by
  cases ms with
  | nil => exact noDigitAhead_newLine below s
  | cons m rest => exact noDigitAhead_cons rfl _

/-! ### Reading back -/

/-- The value is read back in front of a text that does not go on with a digit. -/
def ReadsBack (v : Json) : Prop :=
  ∀ fuel depth rest, (prettyAt depth v).length ≤ fuel → NoDigitAhead rest →
    readValue? fuel (prettyAt depth v ++ rest) = some (v, rest)

/-- A natural number is read as a value. -/
theorem readValue?_ofNat (fuel n : Nat) {rest : Text} (h : NoDigitAhead rest) :
    readValue? (fuel + 1) (Text.ofNat n ++ rest) = some (.int n, rest) := by
  obtain ⟨c, digits, hdigits, hc⟩ := ofNat_eq_cons n
  have hread := readNat?_ofNat n h
  rw [hdigits, List.cons_append] at hread ⊢
  rw [readValue?, skipSpace_cons (beginsValue_of_isDigit hc).1]
  -- No other kind of value begins with a digit.
  split
  any_goals
    rename_i heq
    exact absurd (List.cons.inj heq).1 (ne_of_isDigit hc rfl)
  rw [hread, Option.map_some]

theorem readValue?_minus (fuel : Nat) (s : Text) :
    readValue? (fuel + 1) ('-' :: s) =
      (readNat? s).map fun (n, after) => (.int (-(n : Int)), after) := by
  rfl

theorem readValue?_quote (fuel : Nat) (s : Text) :
    readValue? (fuel + 1) ('"' :: s) = (readString? s).map fun (t, after) => (.str t, after) := by
  rfl

/-- An array is read by its elements unless it ends at once. -/
theorem readValue?_bracket (fuel : Nat) {s rest : Text} {c : Char} (h : skipSpace s = c :: rest)
    (hc : c ≠ ']') :
    readValue? (fuel + 1) ('[' :: s) =
      (readElements? fuel s).map fun (es, after) => (.arr es, after) := by
  rw [readValue?, skipSpace_cons rfl]
  simp only [h]
  split
  · rename_i heq
    exact absurd (List.cons.inj heq).1 hc
  · rfl

/-- An object is read by its members unless it ends at once. -/
theorem readValue?_brace (fuel : Nat) {s rest : Text} {c : Char} (h : skipSpace s = c :: rest)
    (hc : c ≠ '\x7d') :
    readValue? (fuel + 1) ('\x7b' :: s) =
      (readMembers? fuel s).map fun (ms, after) => (.obj ms, after) := by
  rw [readValue?, skipSpace_cons rfl]
  simp only [h]
  split
  · rename_i heq
    exact absurd (List.cons.inj heq).1 hc
  · rfl

/-- A written value takes a step of the reader. -/
theorem exists_fuel {depth fuel : Nat} {v : Json} (h : (prettyAt depth v).length ≤ fuel) :
    ∃ f, fuel = f + 1 := by
  obtain ⟨c, rest, hbegin, -⟩ := prettyAt_eq_cons depth v
  rw [hbegin, List.length_cons] at h
  exact ⟨fuel - 1, by omega⟩

/-- An integer is read back. -/
theorem readsBack_int (i : Int) : ReadsBack (.int i) := by
  intro fuel depth rest hfuel hrest
  obtain ⟨fuel, rfl⟩ := exists_fuel hfuel
  cases i with
  | ofNat n => exact readValue?_ofNat fuel n hrest
  | negSucc n =>
      rw [prettyAt, Text.ofInt, List.cons_append, readValue?_minus, readNat?_ofNat (n + 1) hrest]
      rfl

/-- A string is read back. -/
theorem readsBack_str (s : Text) : ReadsBack (.str s) := by
  intro fuel depth rest hfuel hrest
  obtain ⟨fuel, rfl⟩ := exists_fuel hfuel
  rw [prettyAt, quotedText, List.cons_append, List.cons_append, List.append_assoc,
    List.singleton_append, readValue?_quote, readString?_quoted, Option.map_some]

/-- The elements of an array are read back if each of them is. -/
theorem readElements?_pretty (depth below : Nat) (after : Text) (e : Json) (es : List Json)
    (fuel : Nat) (hes : ∀ v ∈ e :: es, ReadsBack v)
    (hfuel : (prettyAt depth e).length + (prettyElements depth es).length + 1 ≤ fuel) :
    readElements? fuel (newLine depth ++ (prettyAt depth e ++ (prettyElements depth es ++
      (newLine below ++ ']' :: after)))) = some (e :: es, after) := by
  induction es generalizing e fuel with
  | nil =>
      obtain ⟨fuel, rfl⟩ : ∃ f, fuel = f + 1 := ⟨fuel - 1, by omega⟩
      have hfirst := hes e List.mem_cons_self fuel depth _ (by omega)
        (noDigitAhead_prettyElements depth below [] (']' :: after))
      rw [readElements?, readValue?_of_skipSpace (skipSpace_newLine depth _), hfirst]
      simp only [prettyElements, List.nil_append]
      rw [skipSpace_newLine, skipSpace_cons rfl]
      rfl
  | cons e' rest ih =>
      obtain ⟨fuel, rfl⟩ : ∃ f, fuel = f + 1 := ⟨fuel - 1, by omega⟩
      have hfirst := hes e List.mem_cons_self fuel depth _ (by omega)
        (noDigitAhead_prettyElements depth below (e' :: rest) (']' :: after))
      rw [prettyElements] at hfuel
      simp only [List.length_append, List.length_cons] at hfuel
      have hothers := ih e' fuel (fun v hv => hes v (List.mem_cons_of_mem e hv)) (by omega)
      rw [readElements?, readValue?_of_skipSpace (skipSpace_newLine depth _), hfirst]
      simp only [prettyElements, List.cons_append, List.append_assoc]
      rw [skipSpace_cons rfl]
      simp only [hothers, Option.map_some]

/-- The first member of an object is read by its name and its value. It is the only one if the
object ends behind it. -/
theorem readMembers?_first (fuel depth : Nat) (name : Text) {v : Json} {rest : Text}
    (h : readValue? fuel (prettyAt depth v ++ rest) = some (v, rest)) :
    let read := readMembers? (fuel + 1) (newLine depth ++ (quotedText name ++ (':' :: ' ' ::
      (prettyAt depth v ++ rest))))
    (∀ last, skipSpace rest = '\x7d' :: last → read = some ([(name, v)], last)) ∧
      ∀ more, skipSpace rest = ',' :: more →
        read = (readMembers? fuel more).map fun (ms, last) => ((name, v) :: ms, last) := by
  intro read
  have hblank : readValue? fuel (' ' :: (prettyAt depth v ++ rest)) = some (v, rest) := by
    have hskip : skipSpace (' ' :: (prettyAt depth v ++ rest)) =
        skipSpace (prettyAt depth v ++ rest) := rfl
    rw [← h]
    exact readValue?_of_skipSpace hskip fuel
  subst read
  rw [readMembers?, skipSpace_newLine]
  simp only [quotedText, List.cons_append, List.append_assoc, List.nil_append]
  rw [skipSpace_cons rfl]
  simp only [readString?_quoted]
  rw [skipSpace_cons rfl]
  simp only [hblank]
  exact ⟨fun last hlast => by simp only [hlast], fun more hmore => by simp only [hmore]⟩

/-- The members of an object are read back if the value of each of them is. -/
theorem readMembers?_pretty (depth below : Nat) (after name : Text) (v : Json)
    (ms : List (Text × Json)) (fuel : Nat) (hms : ∀ m ∈ (name, v) :: ms, ReadsBack m.2)
    (hfuel : (prettyAt depth v).length + (prettyMembers depth ms).length + 1 ≤ fuel) :
    readMembers? fuel (newLine depth ++ (quotedText name ++ (':' :: ' ' :: (prettyAt depth v ++
      (prettyMembers depth ms ++ (newLine below ++ '\x7d' :: after)))))) =
      some ((name, v) :: ms, after) := by
  induction ms generalizing name v fuel with
  | nil =>
      obtain ⟨fuel, rfl⟩ : ∃ f, fuel = f + 1 := ⟨fuel - 1, by omega⟩
      have hfirst := hms (name, v) List.mem_cons_self fuel depth _ (by dsimp only; omega)
        (noDigitAhead_prettyMembers depth below [] ('\x7d' :: after))
      have hlast : skipSpace (prettyMembers depth [] ++ (newLine below ++ '\x7d' :: after)) =
          '\x7d' :: after := by
        rw [prettyMembers, List.nil_append, skipSpace_newLine, skipSpace_cons rfl]
      exact (readMembers?_first fuel depth name hfirst).1 after hlast
  | cons m rest ih =>
      obtain ⟨name', w⟩ := m
      obtain ⟨fuel, rfl⟩ : ∃ f, fuel = f + 1 := ⟨fuel - 1, by omega⟩
      have hfirst := hms (name, v) List.mem_cons_self fuel depth _ (by dsimp only; omega)
        (noDigitAhead_prettyMembers depth below ((name', w) :: rest) ('\x7d' :: after))
      rw [prettyMembers] at hfuel
      simp only [List.length_append, List.length_cons] at hfuel
      have hothers := ih name' w fuel (fun m hm => hms m (List.mem_cons_of_mem _ hm)) (by omega)
      have hmore : skipSpace (prettyMembers depth ((name', w) :: rest) ++
          (newLine below ++ '\x7d' :: after)) =
          ',' :: (newLine depth ++ (quotedText name' ++ (':' :: ' ' :: (prettyAt depth w ++
            (prettyMembers depth rest ++ (newLine below ++ '\x7d' :: after)))))) := by
        simp only [prettyMembers, List.cons_append, List.append_assoc, List.nil_append]
        exact skipSpace_cons rfl _
      rw [(readMembers?_first fuel depth name hfirst).2 _ hmore, hothers, Option.map_some]

/-- **Every value is read back.** -/
theorem readsBack (v : Json) : ReadsBack v := by
  induction v using inductionOn with
  | null =>
      intro fuel depth rest hfuel hrest
      obtain ⟨fuel, rfl⟩ := exists_fuel hfuel
      rfl
  | bool b =>
      intro fuel depth rest hfuel hrest
      obtain ⟨fuel, rfl⟩ := exists_fuel hfuel
      cases b <;> rfl
  | int i => exact readsBack_int i
  | str s => exact readsBack_str s
  | arr es ih =>
      intro fuel depth rest hfuel hrest
      obtain ⟨fuel, rfl⟩ := exists_fuel hfuel
      cases es with
      | nil => rfl
      | cons e es =>
          rw [prettyAt] at hfuel ⊢
          simp only [List.length_append, List.length_cons] at hfuel
          simp only [List.cons_append, List.append_assoc, List.nil_append]
          obtain ⟨c, others, -, hc, hskip⟩ := skipSpace_prettyAt (depth + 1) e
            (prettyElements (depth + 1) es ++ (newLine depth ++ ']' :: rest))
          rw [← skipSpace_newLine (depth + 1)] at hskip
          rw [readValue?_bracket fuel hskip hc.2.1,
            readElements?_pretty (depth + 1) depth rest e es fuel ih (by omega), Option.map_some]
  | obj ms ih =>
      intro fuel depth rest hfuel hrest
      obtain ⟨fuel, rfl⟩ := exists_fuel hfuel
      cases ms with
      | nil => rfl
      | cons m ms =>
          obtain ⟨name, v⟩ := m
          rw [prettyAt] at hfuel ⊢
          simp only [List.length_append, List.length_cons] at hfuel
          simp only [List.cons_append, List.append_assoc, List.nil_append]
          have hskip (s : Text) : skipSpace (newLine (depth + 1) ++ (quotedText name ++ s)) =
              '"' :: (name.flatMap escapedChar ++ '"' :: s) := by
            rw [skipSpace_newLine, quotedText, List.cons_append, List.cons_append,
              skipSpace_cons rfl, List.append_assoc, List.singleton_append]
          rw [readValue?_brace fuel (hskip _) (by decide),
            readMembers?_pretty (depth + 1) depth rest name v ms fuel ih (by omega),
            Option.map_some]

/-- **A value is read back from its own text.** -/
theorem read?_pretty (v : Json) : read? v.pretty = some v := by
  have hread := readsBack v (2 * v.pretty.length + 2) 0 [] (by rw [pretty]; omega) noDigitAhead_nil
  rw [List.append_nil, ← pretty] at hread
  rw [read?, hread]
  rfl

/-! ### ASCII -/

/-- The start of a line is ASCII. -/
theorem isAscii_newLine (depth : Nat) : IsAscii (newLine depth) := by
  have hblanks : IsAscii (List.replicate (2 * depth) ' ') := by
    intro c hc
    rw [List.eq_of_mem_replicate hc]
    decide
  exact isAscii_cons.mpr ⟨by decide, hblanks⟩

/-- Elements are written in ASCII if each of them is. -/
theorem isAscii_prettyElements {depth : Nat} {es : List Json}
    (h : ∀ e ∈ es, ∀ depth, IsAscii (prettyAt depth e)) : IsAscii (prettyElements depth es) := by
  induction es with
  | nil => exact isAscii_nil
  | cons e rest ih =>
      have hfirst := h e List.mem_cons_self depth
      have hrest := ih fun v hv => h v (List.mem_cons_of_mem e hv)
      simp [prettyElements, isAscii_append, isAscii_newLine, hfirst, hrest]

/-- Members are written in ASCII if the value of each of them is. -/
theorem isAscii_prettyMembers {depth : Nat} {ms : List (Text × Json)}
    (h : ∀ m ∈ ms, ∀ depth, IsAscii (prettyAt depth m.2)) : IsAscii (prettyMembers depth ms) := by
  induction ms with
  | nil => exact isAscii_nil
  | cons m rest ih =>
      have hfirst := h m List.mem_cons_self depth
      have hrest := ih fun w hw => h w (List.mem_cons_of_mem m hw)
      obtain ⟨name, v⟩ := m
      simp [prettyMembers, isAscii_append, isAscii_newLine, isAscii_quotedText, hfirst, hrest]

/-- A value is written in ASCII at every depth. -/
theorem isAscii_prettyAt (v : Json) : ∀ depth, IsAscii (prettyAt depth v) := by
  induction v using inductionOn with
  | null =>
      intro depth
      simp [prettyAt]
  | bool b =>
      intro depth
      cases b <;> simp [prettyAt]
  | int i =>
      intro depth
      exact isAscii_ofInt i
  | str s =>
      intro depth
      exact isAscii_quotedText s
  | arr es ih =>
      intro depth
      cases es with
      | nil => simp [prettyAt]
      | cons e es =>
          have hfirst := ih e List.mem_cons_self (depth + 1)
          have hothers : IsAscii (prettyElements (depth + 1) es) :=
            isAscii_prettyElements fun v hv => ih v (List.mem_cons_of_mem e hv)
          simp [prettyAt, isAscii_append, isAscii_newLine, hfirst, hothers]
  | obj ms ih =>
      intro depth
      cases ms with
      | nil => simp [prettyAt]
      | cons m ms =>
          have hfirst := ih m List.mem_cons_self (depth + 1)
          have hothers : IsAscii (prettyMembers (depth + 1) ms) :=
            isAscii_prettyMembers fun w hw => ih w (List.mem_cons_of_mem m hw)
          obtain ⟨name, v⟩ := m
          simp [prettyAt, isAscii_append, isAscii_newLine, isAscii_quotedText, hfirst, hothers]

/-- **A value is written in ASCII.** -/
theorem isAscii_pretty (v : Json) : IsAscii v.pretty :=
  isAscii_prettyAt v 0

/-! ### Values that can be written -/

/-- The first natural number that has more digits. -/
def firstLonger (digits : Nat) : Nat := Nat.pow 10 digits

/-- A number has no more digits exactly if it is smaller. -/
theorem length_ofNat_le_iff {n digits : Nat} (h : 0 < digits) :
    (Text.ofNat n).length ≤ digits ↔ n < firstLonger digits :=
  Nat.length_toDigits_le_iff (by omega) h

/-- The first number with more than one digit is ten. -/
theorem ten_le_firstLonger {digits : Nat} (h : 0 < digits) : 10 ≤ firstLonger digits :=
  Nat.le_self_pow (Nat.ne_of_gt h) 10

/-- The first natural number that is too long to be written. -/
def showLimit : Nat := firstLonger Text.digitLimit

/-- A number of one digit is not too long. -/
theorem ten_le_showLimit : 10 ≤ showLimit :=
  ten_le_firstLonger (by decide)

/-- An integer can be written exactly if its distance from zero is not too long. -/
theorem isShowable_iff {i : Int} : Text.isShowable i = true ↔ i.natAbs < showLimit := by
  rw [Text.isShowable, decide_eq_true_iff]
  exact length_ofNat_le_iff (by decide)

/-- **A value is written** unless an integer in it is too long. -/
theorem render_eq_ok_iff {v : Json} {t : Text} :
    v.render = .ok t ↔ (∀ i ∈ v.integers, i.natAbs < showLimit) ∧ v.pretty = t := by
  have hall : v.integers.all Text.isShowable = true ↔
      ∀ i ∈ v.integers, i.natAbs < showLimit := by
    simp only [List.all_eq_true, isShowable_iff]
  rw [render]
  split
  · rename_i hfits
    exact ⟨fun h => ⟨hall.mp hfits, Except.ok.inj h⟩, fun h => congrArg Except.ok h.2⟩
  · rename_i hlong
    constructor
    · rintro ⟨⟩
    · rintro ⟨hfits, -⟩
      exact absurd (hall.mpr hfits) hlong

/-- The integers of elements that are made one by one. -/
theorem elementIntegers_map {α : Type} (f : α → Json) (xs : List α) :
    elementIntegers (xs.map f) = xs.flatMap fun x => (f x).integers := by
  induction xs with
  | nil => rfl
  | cons x rest ih => rw [List.map_cons, elementIntegers, ih, List.flatMap_cons]

end Json

end SandboxProfile
