/-!
# Maximal runs

A list is cut into *runs*: stretches of neighbouring members that have the same key. Members
without a key belong to no run. Tokens are the runs of a text by character class, and
highlight spans are the runs of a line by the mark of its columns.

## Main definitions

* `Run` is one stretch: where it starts, its key and its members.
* `runsFrom` lists the runs of a list whose first member stands at a given position.

## Main results

* `Run.key_of_mem_runsFrom` — every member of a run has the key of the run.
* `members_ne_nil_of_mem_runsFrom` — no run is empty.
* `start_of_mem_runsFrom` — no run starts before the list does.
-/

namespace SandboxProfile

variable {α κ : Type}

/-- A stretch of neighbouring members of a list with one key. -/
structure Run (α κ : Type) where
  /-- The position of the first member. -/
  start : Nat
  /-- The key that the members share. -/
  key : κ
  members : List α
  deriving DecidableEq, Repr

/-- The position after the last member. -/
def Run.stop (r : Run α κ) : Nat :=
  r.start + r.members.length

/-- Put a member in front of the runs that follow it: it joins the first of them if that one
follows directly and has the same key, and else is a run by itself. -/
def consRun [DecidableEq κ] (position : Nat) (key : κ) (a : α) : List (Run α κ) → List (Run α κ)
  | [] => [⟨position, key, [a]⟩]
  | r :: rest =>
    if r.start = position + 1 ∧ r.key = key then ⟨position, key, a :: r.members⟩ :: rest
    else ⟨position, key, [a]⟩ :: r :: rest

/-- The maximal runs of a list whose first member stands at the given position. -/
def runsFrom [DecidableEq κ] (key? : α → Option κ) : Nat → List α → List (Run α κ)
  | _, [] => []
  | position, a :: rest =>
    match key? a with
    | none => runsFrom key? (position + 1) rest
    | some key => consRun position key a (runsFrom key? (position + 1) rest)

variable [DecidableEq κ] {key? : α → Option κ}

/-- A run of an extended list is the new first one or an old one. -/
theorem mem_consRun {position : Nat} {key : κ} {a : α} {rs : List (Run α κ)} {r : Run α κ}
    (h : r ∈ consRun position key a rs) :
    r ∈ rs ∨ r = ⟨position, key, [a]⟩ ∨
      ∃ s ∈ rs, s.start = position + 1 ∧ s.key = key ∧ r = ⟨position, key, a :: s.members⟩ := by
  cases rs with
  | nil => exact .inr (.inl (List.mem_singleton.mp h))
  | cons s rest =>
    rw [consRun] at h
    split at h
    · rename_i hs
      rcases List.mem_cons.mp h with rfl | h
      · exact .inr (.inr ⟨s, List.mem_cons_self, hs.1, hs.2, rfl⟩)
      · exact .inl (List.mem_cons_of_mem _ h)
    · rcases List.mem_cons.mp h with rfl | h
      · exact .inr (.inl rfl)
      · exact .inl h

/-- Every member of a run has the key of the run. -/
theorem Run.key_of_mem_runsFrom {position : Nat} {l : List α} {r : Run α κ}
    (h : r ∈ runsFrom key? position l) : ∀ a ∈ r.members, key? a = some r.key := by
  induction l generalizing position r with
  | nil => cases h
  | cons b rest ih =>
    rw [runsFrom] at h
    split at h
    · exact ih h
    · rename_i key hkey
      rcases mem_consRun h with h | rfl | ⟨s, hs, -, rfl, rfl⟩
      · exact ih h
      · intro a ha
        rw [List.mem_singleton.mp ha, hkey]
      · intro a ha
        rcases List.mem_cons.mp ha with rfl | ha
        · exact hkey
        · exact ih hs a ha

/-- No run is empty. -/
theorem members_ne_nil_of_mem_runsFrom {position : Nat} {l : List α} {r : Run α κ}
    (h : r ∈ runsFrom key? position l) : r.members ≠ [] := by
  induction l generalizing position r with
  | nil => cases h
  | cons b rest ih =>
    rw [runsFrom] at h
    split at h
    · exact ih h
    · rcases mem_consRun h with h | rfl | ⟨s, -, -, -, rfl⟩
      · exact ih h
      · exact List.cons_ne_nil _ _
      · exact List.cons_ne_nil _ _

/-- No run starts before the list does. -/
theorem start_of_mem_runsFrom {position : Nat} {l : List α} {r : Run α κ}
    (h : r ∈ runsFrom key? position l) : position ≤ r.start := by
  induction l generalizing position r with
  | nil => cases h
  | cons b rest ih =>
    rw [runsFrom] at h
    split at h
    · exact Nat.le_of_succ_le (ih h)
    · rcases mem_consRun h with h | rfl | ⟨s, -, -, -, rfl⟩
      · exact Nat.le_of_succ_le (ih h)
      · exact Nat.le_refl _
      · exact Nat.le_refl _

end SandboxProfile
