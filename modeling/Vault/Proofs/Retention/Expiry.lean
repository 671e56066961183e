import Vault.Proofs.Store.Newest
import Vault.Retention

/-!
# What a sweep takes

A sweep works with a cutoff, and the cutoff is not exact: the greatest age loses what it has
below a microsecond, is cut to the largest timestamp, and is taken off the clock reading in
arithmetic that stops at the ends of the range. The rule that it stands for is about ages, and
it is exact: a document goes when now less its time of creation is more than the greatest age,
to the nanosecond (`Vault.Retention.TooOld`).

As long as neither the clock nor a document is from before the epoch, the two never disagree
(`Vault.Retention.lt_cutoff_iff`). What is lost below a microsecond cannot matter, because ages
are whole microseconds; the range does not end below the epoch less the largest timestamp; and
an age that was cut is one that no document reaches. So a sweep takes the documents that are too
old and no others, and leaves everything else as it was (`Vault.Retention.sweep_takes_expired`).
-/

namespace Vault

/-! ### Ages and the cutoff -/

theorem Duration.totalNanos_eq (d : Duration) :
    d.totalNanos = d.wholeMicros * 1000 + d.nanos.val % 1000 := by
  simp only [totalNanos, wholeMicros]
  omega

namespace Retention

variable {maxAge : Duration} {now : Timestamp} {d : Document}

/-- **A document is too old**: its age, taken exactly, is more than the greatest age. -/
def TooOld (maxAge : Duration) (now : Timestamp) (d : Document) : Prop :=
  (maxAge.totalNanos : ℤ) < (now.micros - d.createdAt.micros) * 1000

instance (maxAge : Duration) (now : Timestamp) (d : Document) : Decidable (TooOld maxAge now d) :=
  inferInstanceAs (Decidable (_ < _))

/-- Ages are whole microseconds, so what the greatest age has below one does not matter. -/
theorem tooOld_iff_wholeMicros :
    TooOld maxAge now d ↔ (maxAge.wholeMicros : ℤ) < now.micros - d.createdAt.micros := by
  rw [TooOld, Duration.totalNanos_eq]
  omega

/-- From a time that is not before the epoch no duration leads out of the range. -/
theorem micros_cutoff (hnow : 0 ≤ now.micros) :
    (cutoff maxAge now).micros = now.micros - min (maxAge.wholeMicros : ℤ) (2 ^ 63 - 1) := by
  have hgreatest := now.le_greatest
  simp only [cutoff, Timestamp.back, Timestamp.reach, Timestamp.greatest, Timestamp.clamp]
  omega

/-- **Before the cutoff is too old.** -/
theorem lt_cutoff_iff (hnow : 0 ≤ now.micros) (hd : 0 ≤ d.createdAt.micros) :
    d.createdAt < cutoff maxAge now ↔ TooOld maxAge now d := by
  -- an age that was cut to the largest timestamp is reached by no document
  have hgreatest := now.le_greatest
  rw [Timestamp.lt_iff_micros, micros_cutoff hnow, tooOld_iff_wholeMicros]
  omega

end Retention

/-! ### Sorting what is left -/

/-- **Sorting and leaving out may change places**, since the sort is stable. -/
theorem filter_mergeSort {α : Type} {le : α → α → Bool}
    (htrans : ∀ a b c, le a b = true → le b c = true → le a c = true)
    (htotal : ∀ a b, (le a b || le b a) = true) (p : α → Bool) (l : List α) :
    (l.filter p).mergeSort le = (l.mergeSort le).filter p := by
  induction l with
  | nil => simp
  | cons a l ih =>
    obtain ⟨front, back, hsorted, hrest, hfront⟩ := List.mergeSort_cons htrans htotal a l
    rw [hsorted, List.filter_append]
    by_cases ha : p a = true
    · -- what stands before `a` is told from what stands behind it by `le a`
      have hsplit (front back : List α) (hfront : ∀ b ∈ front, (!le a b) = true)
          (hback : ∀ b ∈ back, le a b = true) :
          (front ++ back).filter (fun b => !le a b) = front ∧
            (front ++ back).filter (le a) = back := by
        constructor
        · rw [List.filter_append, List.filter_eq_self.mpr hfront,
            List.filter_eq_nil_iff.mpr (fun b hb => by simp [hback b hb]), List.append_nil]
        · rw [List.filter_append, List.filter_eq_self.mpr hback,
            List.filter_eq_nil_iff.mpr (fun b hb => by simpa using hfront b hb), List.nil_append]
      have hbehind {l front back : List α} (h : (a :: l).mergeSort le = front ++ a :: back) :
          ∀ b ∈ back, le a b = true := by
        have hpairs := List.pairwise_mergeSort htrans htotal (a :: l)
        rw [h] at hpairs
        exact (List.pairwise_cons.mp (List.pairwise_append.mp hpairs).2.1).1
      obtain ⟨front', back', hsorted', hrest', hfront'⟩ :=
        List.mergeSort_cons htrans htotal a (l.filter p)
      have hsame : front' ++ back' = front.filter p ++ back.filter p := by
        rw [← hrest', ih, hrest, List.filter_append]
      obtain ⟨hf', hb'⟩ := hsplit front' back' hfront' (hbehind hsorted')
      obtain ⟨hf, hb⟩ := hsplit (front.filter p) (back.filter p)
        (fun b hb => hfront b (List.mem_of_mem_filter hb))
        (fun b hb => hbehind hsorted b (List.mem_of_mem_filter hb))
      rw [hsame] at hf' hb'
      rw [List.filter_cons_of_pos ha, List.filter_cons_of_pos ha, hsorted', ← hf', ← hb', hf, hb]
    · rw [List.filter_cons_of_neg ha, List.filter_cons_of_neg ha, ih, hrest, List.filter_append]

namespace Memory

variable (m : Memory)

/-- What is left of some documents is ranked as it was. -/
theorem ranked_filter (p : Entry → Bool) (next : ℕ) (owner : String) :
    ranked ⟨m.entries.filter p, next⟩ owner = (m.ranked owner).filter p := by
  rw [ranked, ranked, ← filter_mergeSort Entry.before_trans Entry.before_total,
    List.filter_filter, List.filter_filter]
  congr 1
  exact List.filter_congr fun e _ => Bool.and_comm _ _

end Memory

namespace Retention

/-! ### One sweep -/

variable {maxAge : Duration} {h : Host Memory}

/-- A sweep on a host deletes before the cutoff, and logs it if there was something to delete. -/
theorem sweepOnce_eq (maxAge : Duration) (h : Host Memory) :
    sweepOnce maxAge h = (.ok (h.store.deleteBefore (cutoff maxAge h.now)).1,
      recordSweep (cutoff maxAge h.now) (.ok (h.store.deleteBefore (cutoff maxAge h.now)).1)
        { h with store := (h.store.deleteBefore (cutoff maxAge h.now)).2 }) := rfl

theorem store_recordSweep {σ : Type} (c : Timestamp) (r : Except StoreError ℕ) (h : Host σ) :
    (recordSweep c r h).store = h.store := by
  rcases r with e | _ | n <;> rfl

/-- Whether an entry is too old. -/
def outlived (maxAge : Duration) (now : Timestamp) (e : Entry) : Bool :=
  decide (TooOld maxAge now e.document)

theorem expired_cutoff (hnow : 0 ≤ h.now.micros) {e : Entry}
    (he : 0 ≤ e.document.createdAt.micros) :
    Memory.expired (cutoff maxAge h.now) e = outlived maxAge h.now e :=
  decide_eq_decide.mpr (lt_cutoff_iff hnow he)

/-- **What a sweep does to the store**: the entries that are too old are counted, and the others
are left. -/
theorem deleteBefore_cutoff (maxAge : Duration) (hnow : 0 ≤ h.now.micros)
    (hdocs : ∀ e ∈ h.store.entries, 0 ≤ e.document.createdAt.micros) :
    h.store.deleteBefore (cutoff maxAge h.now) =
      (h.store.entries.countP (outlived maxAge h.now),
        ⟨h.store.entries.filter fun e => !outlived maxAge h.now e, h.store.nextSeq⟩) := by
  have hexpired (e : Entry) (he : e ∈ h.store.entries) :
      Memory.expired (cutoff maxAge h.now) e = outlived maxAge h.now e :=
    expired_cutoff hnow (hdocs e he)
  rw [Memory.deleteBefore]
  refine Prod.ext (List.countP_congr fun e he => by rw [hexpired e he]) ?_
  exact congrArg (Memory.mk · _) (List.filter_congr fun e he => by rw [hexpired e he])

/-- A front of a list, with some left out, is a front of the list with those left out. -/
theorem prefix_filter_take {α : Type} (p : α → Bool) (n : ℕ) (l : List α) :
    (l.take n).filter p <+: (l.filter p).take n := by
  refine List.prefix_take_iff.mpr ⟨?_, (List.length_filter_le _ _).trans (List.length_take_le _ _)⟩
  have hfront := List.take_prefix n l
  exact hfront.filter p

/-- **A sweep takes the documents that are too old**, by their exact age, and no others: whatever
the greatest age, also one that no timestamp can hold, as long as neither the clock nor a
document is from before the epoch. Documents from the future stay, and so do those whose age is
the greatest age exactly.

The answer is the number of those that went. The rest of the store is as it was, the numbers
included, so that what is left of an owner's documents is ranked as before, and what is left of
its listing heads the new one. Another sweep at the same time takes nothing and changes
nothing. -/
theorem sweep_takes_expired (maxAge : Duration) (h : Host Memory) (hnow : 0 ≤ h.now.micros)
    (hdocs : ∀ e ∈ h.store.entries, 0 ≤ e.document.createdAt.micros) :
    (∀ e ∈ h.store.entries, e ∉ (sweepOnce maxAge h).2.store.entries ↔
      (maxAge.totalNanos : ℤ) < (h.now.micros - e.document.createdAt.micros) * 1000) ∧
    (sweepOnce maxAge h).2.store =
      ⟨h.store.entries.filter fun e => !outlived maxAge h.now e, h.store.nextSeq⟩ ∧
    (sweepOnce maxAge h).1 = .ok (h.store.entries.countP (outlived maxAge h.now)) ∧
    (sweepOnce maxAge h).2.store.size + h.store.entries.countP (outlived maxAge h.now) =
      h.store.size ∧
    (∀ owner, (sweepOnce maxAge h).2.store.ranked owner =
      (h.store.ranked owner).filter fun e => !outlived maxAge h.now e) ∧
    (∀ owner, (h.store.list owner).filter (fun d => !decide (TooOld maxAge h.now d)) <+:
      (sweepOnce maxAge h).2.store.list owner) ∧
    ∀ h' : Host Memory, h'.store = (sweepOnce maxAge h).2.store → h'.now = h.now →
      sweepOnce maxAge h' = (.ok 0, h') := by
  have hdelete := deleteBefore_cutoff maxAge hnow hdocs
  have hstore : (sweepOnce maxAge h).2.store =
      ⟨h.store.entries.filter fun e => !outlived maxAge h.now e, h.store.nextSeq⟩ := by
    rw [sweepOnce_eq, hdelete]
    exact store_recordSweep _ _ _
  have hranked (owner : String) : (sweepOnce maxAge h).2.store.ranked owner =
      (h.store.ranked owner).filter fun e => !outlived maxAge h.now e := by
    rw [hstore, Memory.ranked_filter]
  refine ⟨fun e he => ?_, hstore, ?_, ?_, hranked, fun owner => ?_, fun h' hsame htime => ?_⟩
  · rw [hstore, List.mem_filter, not_and, Bool.not_eq_true', outlived, decide_eq_false_iff_not,
      not_not]
    exact ⟨fun hc => hc he, fun hold _ => hold⟩
  · rw [sweepOnce_eq, hdelete]
  · rw [hstore, Memory.size, Memory.size,
      List.length_eq_countP_add_countP (outlived maxAge h.now) (l := h.store.entries),
      ← List.countP_eq_length_filter, Nat.add_comm]
    simp
  · rw [Memory.list_eq, Memory.list_eq, hranked, List.filter_map]
    exact (prefix_filter_take _ listLimit (h.store.ranked owner)).map _
  · -- what the first sweep left is not too old for the second
    have hleft : ∀ e ∈ h'.store.entries, outlived maxAge h'.now e = false := by
      intro e he
      rw [hsame, hstore] at he
      rw [htime]
      simpa using (List.mem_filter.mp he).2
    have hsub : ∀ e ∈ h'.store.entries, e ∈ h.store.entries := by
      intro e he
      rw [hsame, hstore] at he
      exact List.mem_of_mem_filter he
    have hagain := deleteBefore_cutoff maxAge (h := h') (htime ▸ hnow)
      fun e he => hdocs e (hsub e he)
    have hnone : h'.store.entries.countP (outlived maxAge h'.now) = 0 :=
      List.countP_eq_zero.mpr fun e he => by simp [hleft e he]
    have hall : (h'.store.entries.filter fun e => !outlived maxAge h'.now e) = h'.store.entries :=
      List.filter_eq_self.mpr fun e he => by simp [hleft e he]
    rw [sweepOnce_eq, hagain, hnone, hall]
    rfl

/-- Two seconds past the epoch: a document of one second, one that is a microsecond older, and
one from the future. -/
def agedHost : Host Memory where
  store := ⟨[⟨"future", 2, ⟨"future", "alice", "content", .clamp 3000000⟩⟩,
    ⟨"second", 1, ⟨"second", "alice", "content", .clamp 1000000⟩⟩,
    ⟨"older", 0, ⟨"older", "alice", "content", .clamp 999999⟩⟩], 3⟩
  now := .clamp 2000000
  entropy := ⟨fun _ => 0, 0⟩

/-- With a greatest age of a second and 500 nanoseconds, the oldest document goes; with the
greatest number of seconds, whose microseconds no timestamp can hold, none does. -/
theorem sweep_takes_expired_aged :
    (0 ≤ agedHost.now.micros ∧
      ∀ e ∈ agedHost.store.entries, 0 ≤ e.document.createdAt.micros) ∧
    (sweepOnce ⟨1, 500⟩ agedHost).1 = .ok 1 ∧
    (sweepOnce ⟨1, 500⟩ agedHost).2.store.entries.map (·.seq) = [2, 1] ∧
    (sweepOnce ⟨18446744073709551615, 0⟩ agedHost).1 = .ok 0 := by
  have hnow : 0 ≤ agedHost.now.micros := by decide
  have hdocs : ∀ e ∈ agedHost.store.entries, 0 ≤ e.document.createdAt.micros := by decide
  obtain ⟨-, hstore, hcount, -⟩ := sweep_takes_expired ⟨1, 500⟩ agedHost hnow hdocs
  obtain ⟨-, -, hnone, -⟩ := sweep_takes_expired ⟨18446744073709551615, 0⟩ agedHost hnow hdocs
  refine ⟨⟨hnow, hdocs⟩, hcount.trans ?_, ?_, hnone.trans ?_⟩
  · decide
  · rw [hstore]
    decide
  · decide

end Retention

end Vault
