import Mathlib.Algebra.Order.Group.Nat
import Mathlib.Tactic.Common

/-!
# Schedules

Several parties share a state, and a **schedule** says who moves when: move `sched n` is
made at time `n`. Nothing is assumed of it but that certain moves come **again and
again** (`Vault.Schedule.Again`); between them anything may happen, in any order.

Two rules turn that into an outcome. `Vault.Schedule.reaches_rank_zero` is for moves some
of which help and some of which do not: a rank that no move raises, and that some kind of
move which comes again and again lowers, reaches zero. `Vault.Schedule.comes_to_rest` is
for moves that do nothing or bring the end nearer: when each of them comes again and
again, the state comes to one that no move changes.
-/

namespace Vault.Schedule

variable {M S : Type} {step : M → S → S} {sched : ℕ → M}

/-- The state after the first `n` moves. -/
def after (step : M → S → S) (sched : ℕ → M) (s : S) : ℕ → S
  | 0 => s
  | n + 1 => step (sched n) (after step sched s n)

/-- Moves of this kind are made again and again. -/
def Again (sched : ℕ → M) (P : M → Prop) : Prop :=
  ∀ n, ∃ k, n ≤ k ∧ P (sched k)

variable {s : S}

theorem after_succ (n : ℕ) :
    after step sched s (n + 1) = step (sched n) (after step sched s n) := rfl

/-- What happens after the first `n` moves is what the rest of the schedule makes of the state
that they lead to. -/
theorem after_add (n k : ℕ) :
    after step sched s (n + k) = after step (fun i => sched (n + i)) (after step sched s n) k := by
  induction k with
  | zero => rfl
  | succ k ih => rw [← Nat.add_assoc, after_succ, after_succ, ih]

theorem Again.shift {P : M → Prop} (h : Again sched P) (n : ℕ) :
    Again (fun i => sched (n + i)) P := by
  intro m
  obtain ⟨k, hk, hP⟩ := h (n + m)
  obtain ⟨d, rfl⟩ := Nat.exists_eq_add_of_le ((Nat.le_add_right n m).trans hk)
  exact ⟨d, by omega, hP⟩

/-- What every move keeps holds from then on. -/
theorem after_keeps (inv : S → Prop) (hkeep : ∀ m s, inv s → inv (step m s)) {n k : ℕ}
    (hn : inv (after step sched s n)) (hk : n ≤ k) : inv (after step sched s k) := by
  induction k, hk using Nat.le_induction with
  | base => exact hn
  | succ k _ ih => exact hkeep _ _ ih

/-- A schedule of moves of one kind is a schedule for whoever has no other moves. -/
theorem after_subtype {P : M → Prop} (hP : ∀ n, P (sched n)) (n : ℕ) :
    after (fun m : { m // P m } => step m.1) (fun n => ⟨sched n, hP n⟩) s n =
      after step sched s n := by
  induction n with
  | zero => rfl
  | succ n ih => rw [after_succ, after_succ, ih]

/-- **A rank that comes down**: no move raises it, and as long as it is not zero there is a
kind of move that lowers it, comes again and again, and stays helpful until the rank has
changed. -/
theorem reaches_rank_zero (inv : S → Prop) (rank : S → ℕ) (helps : S → M → Prop)
    (hinv : ∀ m s, inv s → inv (step m s))
    (hle : ∀ m s, inv s → rank (step m s) ≤ rank s)
    (hstay : ∀ m s, inv s → rank (step m s) = rank s → ∀ m', helps s m' → helps (step m s) m')
    (hdown : ∀ m s, inv s → helps s m → rank (step m s) < rank s)
    (hagain : ∀ s, inv s → 0 < rank s → Again sched (helps s)) {n : ℕ}
    (hn : inv (after step sched s n)) : ∃ k, n ≤ k ∧ rank (after step sched s k) = 0 := by
  induction hr : rank (after step sched s n) using Nat.strong_induction_on generalizing n with
  | _ r ih =>
    rcases Nat.eq_zero_or_pos r with hzero | hpos
    · exact ⟨n, le_refl n, hr.trans hzero⟩
    -- it is enough to see the rank come down once
    suffices hdrop : ∃ k, n ≤ k ∧ rank (after step sched s k) < r by
      obtain ⟨k, hk, hlt⟩ := hdrop
      obtain ⟨j, hj, hj0⟩ := ih _ hlt (after_keeps inv hinv hn hk) rfl
      exact ⟨j, hk.trans hj, hj0⟩
    obtain ⟨k, hk, hhelp⟩ := hagain _ hn (by omega) n
    have hwait : ∀ j, n ≤ j → (rank (after step sched s j) = r ∧
        ∀ m', helps (after step sched s n) m' → helps (after step sched s j) m') ∨
        ∃ i, n ≤ i ∧ rank (after step sched s i) < r := by
      intro j hj
      induction j, hj using Nat.le_induction with
      | base => exact Or.inl ⟨hr, fun m' h => h⟩
      | succ j hj ihj =>
        rcases ihj with ⟨hrj, hkeep⟩ | hlow
        · have hinvj := after_keeps inv hinv hn hj
          have hlej := hle (sched j) _ hinvj
          rcases Nat.lt_or_ge (rank (step (sched j) (after step sched s j))) r with hlt | hge
          · exact Or.inr ⟨j + 1, by omega, hlt⟩
          · have heq : rank (step (sched j) (after step sched s j)) =
                rank (after step sched s j) := by omega
            exact Or.inl ⟨heq.trans hrj, fun m' h => hstay _ _ hinvj heq m' (hkeep m' h)⟩
        · exact Or.inr hlow
    rcases hwait k hk with ⟨hrk, hkeep⟩ | hlow
    · refine ⟨k + 1, by omega, ?_⟩
      rw [← hrk]
      exact hdown _ _ (after_keeps inv hinv hn hk) (hkeep _ hhelp)
    · exact hlow

/-- A state that no move changes stays. -/
theorem after_rest {n k : ℕ} (hn : ∀ m, step m (after step sched s n) = after step sched s n)
    (hk : n ≤ k) : after step sched s k = after step sched s n := by
  induction k, hk using Nat.le_induction with
  | base => rfl
  | succ k _ ih => rw [after_succ, ih, hn]

/-- **Moves that do nothing or bring the end nearer come to rest.** -/
theorem comes_to_rest (inv : S → Prop) (rank : S → ℕ)
    (hinv : ∀ m s, inv s → inv (step m s))
    (hstep : ∀ m s, inv s → step m s = s ∨ rank (step m s) < rank s)
    (hagain : ∀ m, Again sched (· = m)) {n : ℕ} (hn : inv (after step sched s n)) :
    ∃ k, n ≤ k ∧ ∀ m, step m (after step sched s k) = after step sched s k := by
  induction hr : rank (after step sched s n) using Nat.strong_induction_on generalizing n with
  | _ r ih =>
    by_cases hrest : ∀ m, step m (after step sched s n) = after step sched s n
    · exact ⟨n, le_refl n, hrest⟩
    obtain ⟨m, hm⟩ := not_forall.mp hrest
    -- until that move is made the state stays as it is, or the rank has come down before
    obtain ⟨k, hk, hmk⟩ := hagain m n
    have hwait : ∀ j, n ≤ j → after step sched s j = after step sched s n ∨
        ∃ i, n ≤ i ∧ rank (after step sched s i) < r := by
      intro j hj
      induction j, hj using Nat.le_induction with
      | base => exact Or.inl rfl
      | succ j hj ihj =>
        rcases ihj with heq | hlow
        · rcases hstep (sched j) _ (after_keeps inv hinv hn hj) with hsame | hlt
          · exact Or.inl ((after_succ j).trans (hsame.trans heq))
          · exact Or.inr ⟨j + 1, by omega, by rw [after_succ, ← hr, ← heq]; exact hlt⟩
        · exact Or.inr hlow
    have hdrop : ∃ i, n ≤ i ∧ rank (after step sched s i) < r := by
      rcases hwait k hk with heq | hlow
      · rcases hstep m _ hn with hsame | hlt
        · exact absurd hsame hm
        · exact ⟨k + 1, by omega, by rw [after_succ, hmk, heq, ← hr]; exact hlt⟩
      · exact hlow
    obtain ⟨i, hi, hlt⟩ := hdrop
    obtain ⟨j, hj, hj'⟩ := ih _ hlt (after_keeps inv hinv hn hi) rfl
    exact ⟨j, hi.trans hj, hj'⟩

/-! ### Taking turns -/

/-- Everybody moves in turn. -/
def roundRobin (m : M) (ms : List M) (n : ℕ) : M :=
  (m :: ms).get ⟨n % (ms.length + 1), Nat.mod_lt n (Nat.succ_pos _)⟩

theorem again_roundRobin {m₀ m : M} {ms : List M} (hm : m ∈ m₀ :: ms) :
    Again (roundRobin m₀ ms) (· = m) := by
  obtain ⟨⟨i, hi⟩, rfl⟩ := List.mem_iff_get.mp hm
  intro n
  refine ⟨(ms.length + 1) * n + i,
    Nat.le_add_right_of_le (Nat.le_mul_of_pos_left n (Nat.succ_pos _)), ?_⟩
  have hmod : ((ms.length + 1) * n + i) % (ms.length + 1) = i :=
    (Nat.mul_add_mod _ _ _).trans (Nat.mod_eq_of_lt hi)
  simp only [roundRobin, hmod]

end Vault.Schedule
