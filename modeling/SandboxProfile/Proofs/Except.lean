/-!
# Computations that can fail

A sequence of steps that can fail succeeds exactly when each of its steps does, and otherwise
fails as the first step that fails. The same holds of one step that is done for each member of
a list.

## Main definitions

* `FirstError` finds the first member of a list at which a step fails.
* `finished` forgets the result of a computation and keeps its failure.

## Main results

* `bind_eq_ok` and `bind_eq_error` take a sequence of two steps apart.
* `FirstError.unique` — there is one such member, and one error.
* `exists_firstError` — there is one if the step fails at any member.
* `forM_eq_error_iff` — a step that is done for all members fails with the first failure.
-/

namespace SandboxProfile

variable {ε α β γ : Type}

theorem bind_eq_ok {x : Except ε α} {f : α → Except ε β} {b : β} :
    x >>= f = .ok b ↔ ∃ a, x = .ok a ∧ f a = .ok b := by
  cases x with
  | error e => exact ⟨(fun h => nomatch h), fun ⟨_, h, _⟩ => nomatch h⟩
  | ok a => exact ⟨fun h => ⟨a, rfl, h⟩, fun ⟨_, h, hf⟩ => Except.ok.inj h ▸ hf⟩

theorem pure_eq_ok {a b : α} : (pure a : Except ε α) = .ok b ↔ a = b :=
  ⟨Except.ok.inj, congrArg _⟩

/-- Two steps fail exactly when the first does or the second does with its result. -/
theorem bind_eq_error {x : Except ε α} {f : α → Except ε β} {e : ε} :
    x >>= f = .error e ↔ x = .error e ∨ ∃ a, x = .ok a ∧ f a = .error e := by
  cases x with
  | error e' =>
      refine ⟨fun h => .inl (congrArg _ (Except.error.inj h)), ?_⟩
      rintro (h | ⟨a, h, -⟩)
      · exact congrArg _ (Except.error.inj h)
      · cases h
  | ok a =>
      refine ⟨fun h => .inr ⟨a, rfl, h⟩, ?_⟩
      rintro (h | ⟨b, h, hf⟩)
      · cases h
      · obtain rfl := Except.ok.inj h
        exact hf

theorem not_ok_of_error {x : Except ε α} {e : ε} (h : x = .error e) : ¬∃ a, x = .ok a := by
  rintro ⟨a, ha⟩
  cases h.symm.trans ha

/-- A computation whose result passes a check succeeds. -/
theorem exists_eq_ok_of_any {x : Except ε α} {p : α → Bool} (h : x.toOption.any p = true) :
    ∃ a, x = .ok a ∧ p a = true := by
  cases x with
  | error e => cases h
  | ok a => exact ⟨a, rfl, h⟩

/-- Two steps of which none needs the result of the other succeed when both do. -/
theorem combine_eq_ok {x : Except ε α} {y : Except ε β} {g : α → β → γ} {c : γ} :
    (do let a ← x
        let b ← y
        return g a b) = Except.ok c ↔ ∃ a b, x = .ok a ∧ y = .ok b ∧ g a b = c := by
  simp only [bind_eq_ok, pure_eq_ok]
  exact ⟨fun ⟨a, ha, b, hb, h⟩ => ⟨a, b, ha, hb, h⟩, fun ⟨a, b, ha, hb, h⟩ => ⟨a, ha, b, hb, h⟩⟩

/-- Two steps of which none needs the result of the other fail when the first does, and when the
second does after it. -/
theorem combine_eq_error {x : Except ε α} {y : Except ε β} {g : α → β → γ} {e : ε} :
    (do let a ← x
        let b ← y
        return g a b) = Except.error e ↔ x = .error e ∨ (∃ a, x = .ok a) ∧ y = .error e := by
  rw [bind_eq_error]
  refine or_congr_right ?_
  constructor
  · rintro ⟨a, ha, h⟩
    rcases bind_eq_error.mp h with hy | ⟨b, -, h⟩
    · exact ⟨⟨a, ha⟩, hy⟩
    · cases h
  · rintro ⟨⟨a, ha⟩, hy⟩
    exact ⟨a, ha, bind_eq_error.mpr (.inl hy)⟩

/-! ### The first failure in a list -/

/-- The step fails at the member of the list, with the error, and succeeds at all members before
it. -/
inductive FirstError (f : α → Except ε β) : List α → α → ε → Prop where
  | head {a : α} {as : List α} {e : ε} : f a = .error e → FirstError f (a :: as) a e
  | tail {a b : α} {as : List α} {e : ε} :
      (∃ c, f b = .ok c) → FirstError f as a e → FirstError f (b :: as) a e

variable {f g : α → Except ε β} {a : α} {as : List α} {e : ε}

/-- The first failure is at the first member or later. -/
theorem firstError_cons {b : α} :
    FirstError f (b :: as) a e ↔
      (a = b ∧ f b = .error e) ∨ (∃ c, f b = .ok c) ∧ FirstError f as a e := by
  constructor
  · intro h
    cases h with
    | head h => exact .inl ⟨rfl, h⟩
    | tail hb h => exact .inr ⟨hb, h⟩
  · rintro (⟨rfl, h⟩ | ⟨hb, h⟩)
    · exact .head h
    · exact .tail hb h

/-- Some member is the first at which the step fails with the error, at the first member or
later. -/
theorem exists_firstError_cons {b : α} :
    (∃ a, FirstError f (b :: as) a e) ↔
      f b = .error e ∨ (∃ c, f b = .ok c) ∧ ∃ a, FirstError f as a e := by
  constructor
  · rintro ⟨a, h⟩
    rcases firstError_cons.mp h with ⟨-, h⟩ | ⟨hb, h⟩
    · exact .inl h
    · exact .inr ⟨hb, a, h⟩
  · rintro (h | ⟨hb, a, h⟩)
    · exact ⟨b, .head h⟩
    · exact ⟨a, .tail hb h⟩

theorem not_exists_firstError_nil : ¬∃ a, FirstError f [] a e := by
  rintro ⟨a, h⟩
  cases h

theorem exists_firstError_singleton {b : α} : (∃ a, FirstError f [b] a e) ↔ f b = .error e := by
  rw [exists_firstError_cons]
  exact ⟨fun h => h.resolve_right fun h => not_exists_firstError_nil h.2, .inl⟩

/-- The first failure cuts the list in two. -/
theorem firstError_iff_append :
    FirstError f as a e ↔ ∃ before after, as = before ++ a :: after ∧
      (∀ b ∈ before, ∃ c, f b = .ok c) ∧ f a = .error e := by
  constructor
  · intro h
    induction h with
    | @head a as e h => exact ⟨[], as, rfl, List.forall_mem_nil _, h⟩
    | @tail a b as e hb _ ih =>
        obtain ⟨before, after, rfl, hbefore, h⟩ := ih
        exact ⟨b :: before, after, rfl, List.forall_mem_cons.mpr ⟨hb, hbefore⟩, h⟩
  · rintro ⟨before, after, rfl, hbefore, h⟩
    induction before with
    | nil => exact .head h
    | cons b before ih =>
        obtain ⟨hb, hbefore⟩ := List.forall_mem_cons.mp hbefore
        exact .tail hb (ih hbefore)

theorem FirstError.eq_error (h : FirstError f as a e) : a ∈ as ∧ f a = .error e := by
  induction h with
  | head h => exact ⟨List.mem_cons_self, h⟩
  | tail _ _ ih => exact ⟨List.mem_cons_of_mem _ ih.1, ih.2⟩

/-- **There is one first member** at which the step fails, and one error. -/
theorem FirstError.unique {b : α} {e' : ε} (h : FirstError f as a e)
    (h' : FirstError f as b e') : a = b ∧ e = e' := by
  induction h with
  | head h =>
      rcases firstError_cons.mp h' with ⟨rfl, h'⟩ | ⟨hok, -⟩
      · exact ⟨rfl, Except.error.inj (h.symm.trans h')⟩
      · exact absurd hok (not_ok_of_error h)
  | tail hok _ ih =>
      rcases firstError_cons.mp h' with ⟨-, h'⟩ | ⟨-, h'⟩
      · exact absurd hok (not_ok_of_error h')
      · exact ih h'

/-- There is a first member at which the step fails if it fails at any. -/
theorem exists_firstError (h : ∃ a ∈ as, ¬∃ b, f a = .ok b) : ∃ a e, FirstError f as a e := by
  obtain ⟨a, ha, hfails⟩ := h
  induction as with
  | nil => cases ha
  | cons b rest ih =>
      cases hb : f b with
      | error e => exact ⟨b, e, .head hb⟩
      | ok c =>
          rcases List.mem_cons.mp ha with rfl | ha
          · exact absurd ⟨c, hb⟩ hfails
          · obtain ⟨a, e, h⟩ := ih ha
            exact ⟨a, e, .tail ⟨c, hb⟩ h⟩

/-- Steps that fail alike fail first at the same member. -/
theorem FirstError.congr (hsame : ∀ a e, g a = .error e ↔ f a = .error e)
    (h : FirstError f as a e) : FirstError g as a e := by
  induction h with
  | head h => exact .head ((hsame _ _).mpr h)
  | @tail a b as e hok _ ih =>
      refine .tail ?_ ih
      cases hb : g b with
      | error e' => exact absurd hok (not_ok_of_error ((hsame _ _).mp hb))
      | ok c => exact ⟨c, rfl⟩

/-! ### Computations without their results -/

/-- A computation without its result. -/
def finished (x : Except ε α) : Except ε Unit :=
  x.map fun _ => ()

theorem finished_eq_error {x : Except ε α} : finished x = .error e ↔ x = .error e := by
  cases x with
  | error e' => exact ⟨fun h => congrArg _ (Except.error.inj h), fun h => congrArg _ h⟩
  | ok a => exact ⟨(fun h => nomatch h), fun h => nomatch h⟩

theorem finished_bind (x : Except ε α) (h : α → Except ε β) :
    finished (x >>= h) = x >>= fun a => finished (h a) := by
  cases x <;> rfl

theorem finished_pure (a : α) : finished (pure a : Except ε α) = pure () := rfl

/-- To forget a result is to go on without it. -/
theorem finished_eq_bind (x : Except ε α) : finished x = x >>= fun _ => pure () := by
  cases x <;> rfl

theorem bind_finished (x : Except ε α) (h : Unit → Except ε β) :
    finished x >>= h = x >>= fun _ => h () := by
  cases x <;> rfl

/-- **A step that is done for all members fails with the first failure.** -/
theorem forM_eq_error_iff {f : α → Except ε Unit} :
    forM as f = .error e ↔ ∃ a, FirstError f as a e := by
  induction as with
  | nil => exact ⟨fun h => (nomatch h), fun h => absurd h not_exists_firstError_nil⟩
  | cons b rest ih =>
      rw [List.forM_cons, bind_eq_error, exists_firstError_cons, ← ih]
      refine or_congr_right ?_
      exact ⟨fun ⟨u, hu, h⟩ => ⟨⟨u, hu⟩, h⟩, fun ⟨⟨u, hu⟩, h⟩ => ⟨u, hu, h⟩⟩

end SandboxProfile
