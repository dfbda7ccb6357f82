import Mathlib.Data.List.Basic
import SandboxProfile.Value.Literal

/-!
# Values that cannot be shown

A message shows the value that it refuses, and a value can be shown unless an integer with too
many digits is in it, however deep. Such an integer is no text, so neither the value nor what it
is in is ever a list of texts.

## Main definitions

* `HoldsLong` says that an integer with too many digits is in a value.

## Main results

* `Value.literal?_eq_none_iff` — a value cannot be shown exactly if there is one.
* `HoldsLong.texts?` — such a value is no list of texts.
-/

namespace SandboxProfile

/-- An integer with too many digits to be shown is the value itself or in it. -/
inductive HoldsLong : Value → Prop where
  | int {i : Int} : Text.digitLimit < (Text.ofNat i.natAbs).length → HoldsLong (.int i)
  | list {vs : List Value} {v : Value} : v ∈ vs → HoldsLong v → HoldsLong (.list vs)
  | first {v w : Value} : HoldsLong v → HoldsLong (.pair v w)
  | second {v w : Value} : HoldsLong w → HoldsLong (.pair v w)
  | set {vs : List Value} {v : Value} : v ∈ vs → HoldsLong v → HoldsLong (.set vs)
  | key {es : List (Value × Value)} {e : Value × Value} :
      e ∈ es → HoldsLong e.1 → HoldsLong (.table es)
  | value {es : List (Value × Value)} {e : Value × Value} :
      e ∈ es → HoldsLong e.2 → HoldsLong (.table es)

namespace Value

/-- Several values cannot be shown if one of them cannot. -/
theorem literals?_eq_none_iff {vs : List Value} :
    literals? vs = none ↔ ∃ v ∈ vs, literal? v = none := by
  induction vs with
  | nil => simp [literals?]
  | cons v rest ih =>
      rw [literals?, List.exists_mem_cons_iff, ← ih]
      cases literal? v with
      | none => simp
      | some t => cases literals? rest <;> simp

/-- The entries of a table cannot be shown if a key or a value cannot. -/
theorem entryLiterals?_eq_none_iff {es : List (Value × Value)} :
    entryLiterals? es = none ↔ ∃ e ∈ es, literal? e.1 = none ∨ literal? e.2 = none := by
  induction es with
  | nil => simp [entryLiterals?]
  | cons e rest ih =>
      obtain ⟨k, v⟩ := e
      rw [entryLiterals?, List.exists_mem_cons_iff, ← ih]
      cases literal? k with
      | none => simp
      | some s =>
          cases literal? v with
          | none => simp
          | some t => cases entryLiterals? rest <;> simp

/-- A value in which there is an integer with too many digits cannot be shown. -/
theorem literal?_of_holdsLong {v : Value} (h : HoldsLong v) : v.literal? = none := by
  induction h with
  | int hlong => rw [literal?, if_neg (Nat.not_le_of_lt hlong)]
  | list hv _ ih => rw [literal?, literals?_eq_none_iff.mpr ⟨_, hv, ih⟩, Option.map_none]
  | first _ ih => rw [literal?, ih]
  | @second v w _ ih =>
      rw [literal?, ih]
      cases literal? v <;> rfl
  | @set vs v hv _ ih =>
      have hne : vs.isEmpty = false := List.isEmpty_eq_false_iff_exists_mem.mpr ⟨v, hv⟩
      rw [literal?, hne, literals?_eq_none_iff.mpr ⟨_, hv, ih⟩]
      rfl
  | key he _ ih => rw [literal?, entryLiterals?_eq_none_iff.mpr ⟨_, he, .inl ih⟩, Option.map_none]
  | value he _ ih =>
      rw [literal?, entryLiterals?_eq_none_iff.mpr ⟨_, he, .inr ih⟩, Option.map_none]

/-- There is an integer with too many digits in a value that cannot be shown. -/
theorem holdsLong_of_literal? : ∀ v : Value, v.literal? = none → HoldsLong v
  | .int i, h => by
      rw [literal?] at h
      split at h
      · cases h
      · rename_i hlong
        exact .int (Nat.lt_of_not_le hlong)
  | .list vs, h => by
      rw [literal?, Option.map_eq_none_iff] at h
      obtain ⟨w, hw, hnone⟩ := literals?_eq_none_iff.mp h
      have hsize := List.sizeOf_lt_of_mem hw
      exact .list hw (holdsLong_of_literal? w hnone)
  | .pair a b, h => by
      cases ha : literal? a with
      | none => exact .first (holdsLong_of_literal? a ha)
      | some s =>
          cases hb : literal? b with
          | none => exact .second (holdsLong_of_literal? b hb)
          | some t =>
              rw [literal?, ha, hb] at h
              cases h
  | .set vs, h => by
      rw [literal?] at h
      split at h
      · cases h
      · obtain ⟨w, hw, hnone⟩ := literals?_eq_none_iff.mp (Option.map_eq_none_iff.mp h)
        have hsize := List.sizeOf_lt_of_mem hw
        exact .set hw (holdsLong_of_literal? w hnone)
  | .table es, h => by
      rw [literal?, Option.map_eq_none_iff] at h
      obtain ⟨⟨k, w⟩, he, hnone⟩ := entryLiterals?_eq_none_iff.mp h
      have hsize : 1 + sizeOf k + sizeOf w < sizeOf es := List.sizeOf_lt_of_mem he
      rcases hnone with hk | hw
      · exact .key he (holdsLong_of_literal? k hk)
      · exact .value he (holdsLong_of_literal? w hw)
  | .bool true, h | .bool false, h | .null, h | .float _, h | .text _, h | .bytes _, h
  | .date _, h | .time _, h | .moment _, h | .again _, h => by
      rw [literal?] at h
      cases h
termination_by v => sizeOf v
decreasing_by
  all_goals simp_wf
  all_goals omega

/-- **A value cannot be shown** exactly if there is an integer with too many digits in it. -/
theorem literal?_eq_none_iff {v : Value} : v.literal? = none ↔ HoldsLong v :=
  ⟨holdsLong_of_literal? v, literal?_of_holdsLong⟩

end Value

/-- Values of which one is no text are not all texts. -/
theorem Value.allTexts?_eq_none {vs : List Value} (h : ∃ v ∈ vs, ∀ s, v ≠ .text s) :
    Value.allTexts? vs = none := by
  induction vs with
  | nil =>
      obtain ⟨v, hv, -⟩ := h
      cases hv
  | cons w rest ih =>
      obtain ⟨v, hv, htext⟩ := h
      cases w with
      | text s =>
          rcases List.mem_cons.mp hv with rfl | hv
          · exact absurd rfl (htext s)
          · rw [Value.allTexts?, ih ⟨v, hv, htext⟩, Option.map_none]
      | _ => rfl

/-- A value in which there is an integer is no text. -/
theorem HoldsLong.ne_text {v : Value} (h : HoldsLong v) (s : Text) : v ≠ .text s := by
  rintro rfl
  cases h

/-- **A value in which there is such an integer is no list of texts.** -/
theorem HoldsLong.texts? {v : Value} (h : HoldsLong v) : v.texts? = none := by
  cases h with
  | list hv hlong => exact Value.allTexts?_eq_none ⟨_, hv, hlong.ne_text⟩
  | int | first | second | set | key | value => rfl

end SandboxProfile
