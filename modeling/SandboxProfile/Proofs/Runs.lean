import Mathlib.Tactic.Common
import SandboxProfile.Runs

/-!
# Runs, position by position

`runsFrom` builds the runs of a list from its end to its start. Here the result is described
by what stands at each position: a run is a stretch of positions with one key that cannot be
made longer on either side, every position with a key lies in a run, and the runs stand in
order and apart.

## Main definitions

* `MaximalRun p a b` says that `p` holds from `a` up to `b` and not just outside.
* `keyAt` is the key at a position of a list.
* `Run.upTo` is what is left of a run when its list is cut off.
* `Separated` says that no run reaches over the border between two lists.

## Main results

* `exists_run_iff_maximalRun` — the runs of a list are exactly the maximal stretches of one
  key.
* `pairwise_runsFrom` — runs stand in order, and two runs that touch have different keys.
* `runsFrom_append` — cutting a list where no run reaches over the border cuts its runs.
* `runsFrom_add` — moving a list moves its runs.
* `runsFrom_take` — cutting a list off cuts its runs off.
-/

namespace SandboxProfile

variable {α κ : Type}

/-! ### Maximal stretches -/

/-- The property holds from `a` up to `b`, and neither directly before nor directly after. -/
structure MaximalRun (p : Nat → Prop) (a b : Nat) : Prop where
  /-- The stretch is not empty. -/
  start_lt_stop : a < b
  /-- The property holds on the stretch. -/
  holds : ∀ i, a ≤ i → i < b → p i
  /-- It does not hold directly before. -/
  not_before : ∀ i, i + 1 = a → ¬p i
  /-- It does not hold directly after. -/
  not_after : ¬p b

/-- Two properties that agree everywhere have the same maximal stretches. -/
theorem maximalRun_congr {p q : Nat → Prop} (h : ∀ i, p i ↔ q i) {a b : Nat} :
    MaximalRun p a b ↔ MaximalRun q a b := by
  have hpq : p = q := funext fun i => propext (h i)
  rw [hpq]

/-- A stretch on which the property holds lies inside of every maximal one that it meets. -/
theorem MaximalRun.covers {p : Nat → Prop} {a b c d i : Nat} (h : MaximalRun p a b)
    (hall : ∀ j, c ≤ j → j < d → p j) (ha : a ≤ i) (hb : i < b) (hc : c ≤ i) (hd : i < d) :
    a ≤ c ∧ d ≤ b := by
  constructor
  · by_contra hlt
    exact h.not_before (a - 1) (by omega) (hall (a - 1) (by omega) (by omega))
  · by_contra hlt
    exact h.not_after (hall b (by omega) (by omega))

/-- Two maximal stretches of one property that share a position are the same. -/
theorem MaximalRun.unique {p : Nat → Prop} {a b c d i : Nat} (h : MaximalRun p a b)
    (h' : MaximalRun p c d) (ha : a ≤ i) (hb : i < b) (hc : c ≤ i) (hd : i < d) :
    a = c ∧ b = d := by
  obtain ⟨hac, hdb⟩ := h.covers h'.holds ha hb hc hd
  obtain ⟨hca, hbd⟩ := h'.covers h.holds hc hd ha hb
  exact ⟨Nat.le_antisymm hac hca, Nat.le_antisymm hbd hdb⟩

/-! ### The runs of a list -/

/-- The key at a position of a list, if there is one. -/
def keyAt (key? : α → Option κ) (l : List α) (i : Nat) : Option κ :=
  l[i]?.bind key?

/-- The same run in a list that stands further to the right. -/
def Run.moved (d : Nat) (r : Run α κ) : Run α κ :=
  { r with start := r.start + d }

/-- What is left of a run when its list is cut off at a position. -/
def Run.upTo (stop : Nat) (r : Run α κ) : Option (Run α κ) :=
  if r.start < stop then some { r with members := r.members.take (stop - r.start) } else none

theorem filterMap_upTo_eq_nil {stop : Nat} {rs : List (Run α κ)} (h : ∀ r ∈ rs, stop ≤ r.start) :
    rs.filterMap (Run.upTo stop) = [] :=
  List.filterMap_eq_nil_iff.mpr fun r hr => if_neg (Nat.not_lt_of_le (h r hr))

variable [DecidableEq κ] {key? : α → Option κ}

/-- The members of a run stand in the list where the run says. -/
theorem exists_append_of_mem_runsFrom {position : Nat} {l : List α} {r : Run α κ}
    (h : r ∈ runsFrom key? position l) :
    ∃ before after, l = before ++ (r.members ++ after) ∧ r.start = position + before.length := by
  induction l generalizing position r with
  | nil => cases h
  | cons b rest ih =>
      have later {r : Run α κ} (h : r ∈ runsFrom key? (position + 1) rest) :
          ∃ before after, b :: rest = before ++ (r.members ++ after) ∧
            r.start = position + before.length := by
        obtain ⟨before, after, hl, hs⟩ := ih h
        exact ⟨b :: before, after, by rw [hl, List.cons_append], by
          rw [hs, List.length_cons]; omega⟩
      rw [runsFrom] at h
      split at h
      · exact later h
      · rcases mem_consRun h with h | rfl | ⟨s, hs, hstart, -, rfl⟩
        · exact later h
        · exact ⟨[], rest, rfl, rfl⟩
        · obtain ⟨before, after, hl, hs⟩ := ih hs
          have hb : before = [] := List.length_eq_zero_iff.mp (by omega)
          subst hb
          exact ⟨[], after, by rw [hl]; rfl, rfl⟩

/-- A run ends inside of its list. -/
theorem stop_le_of_mem_runsFrom {position : Nat} {l : List α} {r : Run α κ}
    (h : r ∈ runsFrom key? position l) : r.stop ≤ position + l.length := by
  obtain ⟨before, after, hl, hs⟩ := exists_append_of_mem_runsFrom h
  rw [Run.stop, hs, hl, List.length_append, List.length_append]
  omega

/-- Runs stand in order, and two runs that touch have different keys. -/
theorem pairwise_runsFrom (key? : α → Option κ) (position : Nat) (l : List α) :
    (runsFrom key? position l).Pairwise fun r s =>
      r.stop ≤ s.start ∧ (r.stop = s.start → r.key ≠ s.key) := by
  induction l generalizing position with
  | nil => exact List.Pairwise.nil
  | cons a rest ih =>
      rw [runsFrom]
      split
      · exact ih _
      · rename_i key _
        have hpair := ih (position + 1)
        have hstart : ∀ r ∈ runsFrom key? (position + 1) rest, position + 1 ≤ r.start :=
          fun _ h => start_of_mem_runsFrom h
        have hne : ∀ r ∈ runsFrom key? (position + 1) rest, r.members ≠ [] :=
          fun _ h => members_ne_nil_of_mem_runsFrom h
        generalize runsFrom key? (position + 1) rest = rs at hpair hstart hne
        cases rs with
        | nil => exact List.pairwise_singleton _ _
        | cons r rs =>
            obtain ⟨hr, hrs⟩ := List.pairwise_cons.mp hpair
            rw [consRun]
            split
            · rename_i hjoin
              refine List.pairwise_cons.mpr ⟨fun s hs => ?_, hrs⟩
              have hstop : (⟨position, key, a :: r.members⟩ : Run α κ).stop = r.stop := by
                simp only [Run.stop, List.length_cons]
                omega
              rw [hstop, ← hjoin.2]
              exact hr s hs
            · rename_i hapart
              refine List.pairwise_cons.mpr ⟨fun s hs => ?_, hpair⟩
              have hle := hstart s hs
              simp only [Run.stop, List.length_cons, List.length_nil]
              refine ⟨by omega, fun htouch hkey => ?_⟩
              rcases List.mem_cons.mp hs with rfl | hs
              · exact hapart ⟨by omega, hkey.symm⟩
              · have hpos := List.length_pos_iff.mpr (hne r List.mem_cons_self)
                have hafter := (hr s hs).1
                have hrle := hstart r List.mem_cons_self
                rw [Run.stop] at hafter
                omega

/-- A run that follows a new member is kept, or becomes longer by that member. -/
theorem exists_mem_consRun (position : Nat) (key : κ) (a : α) {rs : List (Run α κ)}
    {r : Run α κ} (h : r ∈ rs) :
    ∃ s ∈ consRun position key a rs,
      s.key = r.key ∧ s.start ≤ r.start ∧ r.stop ≤ s.stop := by
  cases rs with
  | nil => cases h
  | cons t rest =>
      rw [consRun]
      split
      · rename_i hjoin
        rcases List.mem_cons.mp h with rfl | h
        · refine ⟨_, List.mem_cons_self, hjoin.2.symm, ?_, ?_⟩
          · exact hjoin.1 ▸ Nat.le_succ position
          · simp only [Run.stop, List.length_cons]
            omega
        · exact ⟨r, List.mem_cons_of_mem _ h, rfl, Nat.le_refl _, Nat.le_refl _⟩
      · exact ⟨r, List.mem_cons_of_mem _ h, rfl, Nat.le_refl _, Nat.le_refl _⟩

/-- A new member lies in the first run. -/
theorem exists_consRun_covers (position : Nat) (key : κ) (a : α) (rs : List (Run α κ)) :
    ∃ s ∈ consRun position key a rs, s.key = key ∧ s.start = position ∧ position < s.stop := by
  cases rs with
  | nil => exact ⟨_, List.mem_cons_self, rfl, rfl, Nat.lt_succ_self _⟩
  | cons t rest =>
      rw [consRun]
      split
      · refine ⟨_, List.mem_cons_self, rfl, rfl, ?_⟩
        simp only [Run.stop, List.length_cons]
        omega
      · exact ⟨_, List.mem_cons_self, rfl, rfl, Nat.lt_succ_self _⟩

/-- Every position with a key lies in a run with that key. -/
theorem exists_run_of_keyAt (position : Nat) {l : List α} {i : Nat} {key : κ}
    (h : keyAt key? l i = some key) :
    ∃ r ∈ runsFrom key? position l,
      r.key = key ∧ r.start ≤ position + i ∧ position + i < r.stop := by
  induction l generalizing position i with
  | nil => simp [keyAt] at h
  | cons a rest ih =>
      rw [runsFrom]
      cases i with
      | zero =>
          have hkey : key? a = some key := by simpa [keyAt] using h
          rw [hkey]
          obtain ⟨s, hs, hk, hstart, hstop⟩ := exists_consRun_covers position key a
            (runsFrom key? (position + 1) rest)
          exact ⟨s, hs, hk, by omega, by omega⟩
      | succ i =>
          have hrest : keyAt key? rest i = some key := by simpa [keyAt] using h
          obtain ⟨r, hr, hk, hstart, hstop⟩ := ih (position + 1) hrest
          split
          · exact ⟨r, hr, hk, by omega, by omega⟩
          · rename_i first _
            obtain ⟨s, hs, hsk, hle, hge⟩ := exists_mem_consRun position first a hr
            exact ⟨s, hs, hsk.trans hk, by omega, by omega⟩

/-- The positions of a run have its key. -/
theorem keyAt_of_mem_runsFrom {l : List α} {r : Run α κ} (h : r ∈ runsFrom key? 0 l) {i : Nat}
    (hstart : r.start ≤ i) (hstop : i < r.stop) : keyAt key? l i = some r.key := by
  obtain ⟨before, after, hl, hs⟩ := exists_append_of_mem_runsFrom h
  rw [Run.stop] at hstop
  have hi : i - before.length < r.members.length := by omega
  have hget : l[i]? = some r.members[i - before.length] := by
    rw [hl, List.getElem?_append_right (by omega), List.getElem?_append_left hi,
      List.getElem?_eq_getElem hi]
  rw [keyAt, hget]
  exact Run.key_of_mem_runsFrom h _ (List.getElem_mem hi)

/-- Of two runs one stands before the other, unless they are the same. -/
theorem apart_of_mem_runsFrom {position : Nat} {l : List α} {r s : Run α κ}
    (hr : r ∈ runsFrom key? position l) (hs : s ∈ runsFrom key? position l) :
    r = s ∨ (r.stop ≤ s.start ∧ (r.stop = s.start → r.key ≠ s.key)) ∨
      (s.stop ≤ r.start ∧ (s.stop = r.start → s.key ≠ r.key)) := by
  have hpair := pairwise_runsFrom key? position l
  generalize runsFrom key? position l = rs at hr hs hpair
  induction hpair with
  | nil => cases hr
  | cons hhead _ ih =>
      rcases List.mem_cons.mp hr with rfl | hr' <;> rcases List.mem_cons.mp hs with rfl | hs'
      · exact .inl rfl
      · exact .inr (.inl (hhead s hs'))
      · exact .inr (.inr (hhead r hr'))
      · exact ih hr' hs'

/-- A run cannot be made longer on either side. -/
theorem maximalRun_of_mem_runsFrom {l : List α} {r : Run α κ} (h : r ∈ runsFrom key? 0 l) :
    MaximalRun (fun i => keyAt key? l i = some r.key) r.start r.stop := by
  have hlen := List.length_pos_iff.mpr (members_ne_nil_of_mem_runsFrom h)
  have hlt : r.start < r.stop := by
    rw [Run.stop]
    omega
  refine ⟨hlt, fun i ha hb => keyAt_of_mem_runsFrom h ha hb, fun i hi hkey => ?_, fun hkey => ?_⟩
  · obtain ⟨s, hs, hsk, hstart, hstop⟩ := exists_run_of_keyAt 0 hkey
    rcases apart_of_mem_runsFrom h hs with rfl | ⟨hle, -⟩ | ⟨hle, hne⟩
    · omega
    · omega
    · exact hne (by omega) hsk
  · obtain ⟨s, hs, hsk, hstart, hstop⟩ := exists_run_of_keyAt 0 hkey
    rcases apart_of_mem_runsFrom h hs with rfl | ⟨hle, hne⟩ | ⟨hle, -⟩
    · omega
    · exact hne (by omega) hsk.symm
    · omega

/-- **The runs of a list are exactly the maximal stretches of one key.** -/
theorem exists_run_iff_maximalRun {l : List α} {a b : Nat} {key : κ} :
    (∃ r ∈ runsFrom key? 0 l, r.start = a ∧ r.stop = b ∧ r.key = key) ↔
      MaximalRun (fun i => keyAt key? l i = some key) a b := by
  constructor
  · rintro ⟨r, hr, rfl, rfl, rfl⟩
    exact maximalRun_of_mem_runsFrom hr
  · intro h
    obtain ⟨r, hr, rfl, hstart, hstop⟩ := exists_run_of_keyAt 0
      (h.holds a (Nat.le_refl a) h.start_lt_stop)
    rw [Nat.zero_add] at hstart hstop
    have hsame := (maximalRun_of_mem_runsFrom hr).unique h hstart hstop (Nat.le_refl a)
      h.start_lt_stop
    exact ⟨r, hr, hsame.1, hsame.2, rfl⟩

/-! ### Moving and cutting -/

/-- Moving a list moves its runs. -/
theorem runsFrom_add (position d : Nat) (l : List α) :
    runsFrom key? (position + d) l = (runsFrom key? position l).map (Run.moved d) := by
  induction l generalizing position with
  | nil => rfl
  | cons a rest ih =>
      have hih := ih (position + 1)
      rw [Nat.add_right_comm] at hih
      rw [runsFrom, runsFrom, hih]
      split
      · rfl
      · generalize runsFrom key? (position + 1) rest = rs
        cases rs with
        | nil => rfl
        | cons r rs =>
            have hiff : r.start + d = position + d + 1 ↔ r.start = position + 1 := by omega
            simp only [List.map_cons, consRun, Run.moved, hiff]
            split <;> rfl

/-- No run reaches over the border between two lists: the members at the border have
different keys or none. -/
def Separated (key? : α → Option κ) (l m : List α) : Prop :=
  ∀ key, l.getLast?.bind key? = some key → m.head?.bind key? ≠ some key

theorem runsFrom_eq_nil {l : List α} (h : ∀ a ∈ l, key? a = none) (position : Nat) :
    runsFrom key? position l = [] := by
  induction l generalizing position with
  | nil => rfl
  | cons a rest ih =>
      rw [runsFrom, h a List.mem_cons_self]
      exact ih (fun b hb => h b (List.mem_cons_of_mem _ hb)) _

theorem runsFrom_eq_singleton (key? : α → Option κ) {a : α} {l : List α} {key : κ}
    (ha : key? a = some key) (h : ∀ b ∈ l, key? b = some key) (position : Nat) :
    runsFrom key? position (a :: l) = [⟨position, key, a :: l⟩] := by
  induction l generalizing a position with
  | nil => rw [runsFrom, ha]; rfl
  | cons b rest ih =>
      rw [runsFrom, ha, ih (h b List.mem_cons_self)
        fun c hc => h c (List.mem_cons_of_mem _ hc)]
      exact if_pos ⟨rfl, rfl⟩

/-- A run that starts where the list does has the key of the first member. -/
theorem key_of_start {position : Nat} {l : List α} {r : Run α κ}
    (h : r ∈ runsFrom key? position l) (hstart : r.start = position) :
    l.head?.bind key? = some r.key := by
  obtain ⟨before, after, hl, hs⟩ := exists_append_of_mem_runsFrom h
  have hb : before = [] := List.length_eq_zero_iff.mp (by omega)
  subst hb
  obtain ⟨a, members, hm⟩ := List.exists_cons_of_ne_nil (members_ne_nil_of_mem_runsFrom h)
  rw [hl, hm]
  exact Run.key_of_mem_runsFrom h a (hm ▸ List.mem_cons_self)

/-- A new member joins no run of a list from which it is separated. -/
theorem consRun_append (position : Nat) (key : κ) (a : α) {rs ss : List (Run α κ)}
    (h : rs = [] → ∀ s ∈ ss, s.start = position + 1 → s.key ≠ key) :
    consRun position key a (rs ++ ss) = consRun position key a rs ++ ss := by
  cases rs with
  | cons r rs =>
      rw [List.cons_append, consRun, consRun]
      split <;> rfl
  | nil =>
      cases ss with
      | nil => rfl
      | cons s ss =>
          rw [List.nil_append, consRun]
          exact if_neg fun hs => h rfl s List.mem_cons_self hs.1 hs.2

/-- **Cutting a list where no run reaches over the border cuts its runs.** -/
theorem runsFrom_append {l m : List α} (h : Separated key? l m) (position : Nat) :
    runsFrom key? position (l ++ m) =
      runsFrom key? position l ++ runsFrom key? (position + l.length) m := by
  induction l generalizing position with
  | nil => rfl
  | cons a rest ih =>
      have hrest : Separated key? rest m := by
        intro key hkey
        refine h key ?_
        cases rest with
        | nil => simp at hkey
        | cons b rest => exact hkey
      have hih := ih hrest (position + 1)
      rw [Nat.add_right_comm, Nat.add_assoc] at hih
      rw [List.cons_append, runsFrom, runsFrom, hih, List.length_cons]
      split
      · rfl
      · rename_i key hkey
        refine consRun_append position key a fun hnil s hs hstart hsk => ?_
        -- The run of `m` starts directly after `a`, so nothing stands between the two.
        have hle := start_of_mem_runsFrom hs
        have hempty : rest = [] := List.length_eq_zero_iff.mp (by omega)
        subst hempty
        have hhead := key_of_start hs (by rw [hstart]; rfl)
        exact h key (by simpa using hkey) (hsk ▸ hhead)

/-- Members without keys at the start only move the runs. -/
theorem runsFrom_append_of_none {l : List α} (h : ∀ a ∈ l, key? a = none) (m : List α)
    (position : Nat) :
    runsFrom key? position (l ++ m) = runsFrom key? (position + l.length) m := by
  have hsep : Separated key? l m := by
    intro key hkey
    obtain ⟨a, ha, hkey⟩ := Option.bind_eq_some_iff.mp hkey
    rw [h a (List.mem_of_getLast? ha)] at hkey
    cases hkey
  rw [runsFrom_append hsep, runsFrom_eq_nil h, List.nil_append]

/-- A new member joins what is left of a run as it joins the run. -/
theorem consRun_filterMap_upTo {position stop : Nat} (key : κ) (a : α) {rs : List (Run α κ)}
    (hstop : position < stop) (hpair : rs.Pairwise fun r s => r.start ≤ s.start) :
    consRun position key a (rs.filterMap (Run.upTo stop)) =
      (consRun position key a rs).filterMap (Run.upTo stop) := by
  have hfirst (members : List α) : (⟨position, key, a :: members⟩ : Run α κ).upTo stop =
      some ⟨position, key, a :: members.take (stop - (position + 1))⟩ := by
    have hlen : stop - position = stop - (position + 1) + 1 := by omega
    rw [Run.upTo, if_pos hstop, hlen, List.take_succ_cons]
  cases rs with
  | nil =>
      rw [List.filterMap_nil, consRun, List.filterMap_cons_some (hfirst []), List.take_nil,
        List.filterMap_nil]
  | cons r rest =>
      by_cases hr : r.start < stop
      · have hleft : r.upTo stop = some { r with members := r.members.take (stop - r.start) } :=
          if_pos hr
        rw [List.filterMap_cons_some hleft, consRun, consRun]
        split
        · rename_i hjoin
          rw [List.filterMap_cons_some (hfirst r.members), ← hjoin.1]
        · rw [List.filterMap_cons_some (hfirst []), List.filterMap_cons_some hleft, List.take_nil]
      · have hafter : ∀ s ∈ r :: rest, stop ≤ s.start := by
          intro s hs
          rcases List.mem_cons.mp hs with rfl | hs
          · exact Nat.le_of_not_lt hr
          · exact Nat.le_trans (Nat.le_of_not_lt hr) (List.rel_of_pairwise_cons hpair hs)
        rw [filterMap_upTo_eq_nil hafter, consRun, consRun]
        have hrest := filterMap_upTo_eq_nil fun s hs => hafter s (List.mem_cons_of_mem r hs)
        split
        · rename_i hjoin
          have hnone : stop - (position + 1) = 0 := by omega
          rw [List.filterMap_cons_some (hfirst r.members), hrest, hnone, List.take_zero]
        · rw [List.filterMap_cons_some (hfirst []), filterMap_upTo_eq_nil hafter, List.take_nil]

/-- **Cutting a list off cuts its runs off.** -/
theorem runsFrom_take (position n : Nat) (l : List α) :
    runsFrom key? position (l.take n) =
      (runsFrom key? position l).filterMap (Run.upTo (position + n)) := by
  induction l generalizing position n with
  | nil => rw [List.take_nil, runsFrom, List.filterMap_nil]
  | cons a rest ih =>
      cases n with
      | zero => exact (filterMap_upTo_eq_nil fun _ hr => start_of_mem_runsFrom hr).symm
      | succ n =>
          have hnext : position + (n + 1) = position + 1 + n := by omega
          rw [List.take_succ_cons, runsFrom, runsFrom, ih (position + 1) n, hnext]
          split
          · rfl
          · refine consRun_filterMap_upTo _ a (by omega)
              ((pairwise_runsFrom key? (position + 1) rest).imp fun {r s} h => ?_)
            exact Nat.le_trans (Nat.le_add_right r.start _) h.1

end SandboxProfile
