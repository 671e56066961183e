import Vault.Proofs.Store.Newest
import Vault.Retention

/-!
# The journal of a store

A store keeps a **journal** of what is added and deleted (`Vault.Retention.Journaled`), and
deletions can be made to fail, so that what a sweeper reports can be held against what it did
and what is left in the store against what was put there.

`Vault.Memory.Survives` says which documents are there after a history that begins with an empty
store and in which no sweep fails. A sweeper is started on a store with any contents, and a sweep
that fails deletes nothing, so that only those that succeed count here
(`Vault.Retention.Kept`). `Vault.Retention.Accounts` holds a store against its journal, with one
lemma for each event.
-/

namespace Vault.Retention

/-! ### Journals -/

/-- Whether this is a sweep. -/
def isSweep : Memory.Event → Bool
  | .swept _ _ => true
  | _ => false

/-- Whether this is a sweep that failed. -/
def isFailure : Memory.Event → Bool
  | .swept _ (.error _) => true
  | _ => false

/-- **The report of a journal**: how many sweeps there are in it, how much they deleted
together, and how many of them failed. -/
def tally (journal : List Memory.Event) : Report where
  ticks := journal.countP isSweep
  deleted := Memory.deleted journal
  failures := journal.countP isFailure

theorem tally_swept (journal : List Memory.Event) (c : Timestamp) (r : Except StoreError ℕ) :
    tally (journal ++ [.swept c r]) = (tally journal).add r := by
  cases r <;>
    simp [tally, Report.add, Memory.deleted_append, Memory.Event.deleted, isSweep, isFailure]

theorem tally_inserted (journal : List Memory.Event) (d : Document)
    (r : Except StoreError Document) : tally (journal ++ [.inserted d r]) = tally journal := by
  simp [tally, Memory.deleted_append, Memory.Event.deleted, isSweep, isFailure]

/-- **An entry is there after a journal**: it was there before it and no sweep that succeeded
had a cutoff past its time of creation, or it was added, under its id, and no such sweep came
after that. -/
def Kept (m₀ : Memory) (journal : List Memory.Event) (e : Entry) : Prop :=
  (e ∈ m₀.entries ∧
    ∀ cutoff n, .swept cutoff (.ok n) ∈ journal → ¬e.document.createdAt < cutoff) ∨
  e.key = e.document.id ∧
  ∃ before after, journal = before ++ .inserted e.document (.ok e.document) :: after ∧
    e.seq = m₀.nextSeq + Memory.added before ∧
    ∀ cutoff n, .swept cutoff (.ok n) ∈ after → ¬e.document.createdAt < cutoff

section Kept

variable {m₀ m : Memory} {journal : List Memory.Event}

/-- One more event: it spares what was there, or it is the adding itself. -/
theorem kept_append (event : Memory.Event) (e : Entry) : Kept m₀ (journal ++ [event]) e ↔
    Kept m₀ journal e ∧
      (∀ cutoff n, event = .swept cutoff (.ok n) → ¬e.document.createdAt < cutoff) ∨
    e.key = e.document.id ∧ event = .inserted e.document (.ok e.document) ∧
      e.seq = m₀.nextSeq + Memory.added journal := by
  constructor
  · rintro (⟨hold, hspared⟩ | ⟨hkey, before, after, hsplit, hseq, hspared⟩)
    · refine Or.inl ⟨Or.inl ⟨hold, fun cutoff n h => ?_⟩, fun cutoff n h => ?_⟩
      · exact hspared cutoff n (List.mem_append_left _ h)
      · exact hspared cutoff n (List.mem_append_right _ (List.mem_singleton.mpr h.symm))
    · obtain ⟨rfl, rfl, rfl⟩ | ⟨rest, rfl, rfl⟩ := Memory.split_concat hsplit
      · exact Or.inr ⟨hkey, rfl, hseq⟩
      · refine Or.inl ⟨Or.inr ⟨hkey, before, rest, rfl, hseq, fun cutoff n h => ?_⟩,
          fun cutoff n h => ?_⟩
        · exact hspared cutoff n (List.mem_append_left _ h)
        · exact hspared cutoff n (List.mem_append_right _ (List.mem_singleton.mpr h.symm))
  · rintro (⟨⟨hold, hspared⟩ | ⟨hkey, before, after, rfl, hseq, hspared⟩, hevent⟩ |
      ⟨hkey, rfl, hseq⟩)
    · refine Or.inl ⟨hold, fun cutoff n h => ?_⟩
      rcases List.mem_append.mp h with h | h
      · exact hspared cutoff n h
      · exact hevent cutoff n (List.mem_singleton.mp h).symm
    · refine Or.inr ⟨hkey, before, after ++ [event],
        by rw [List.append_assoc, List.cons_append], hseq, fun cutoff n h => ?_⟩
      rcases List.mem_append.mp h with h | h
      · exact hspared cutoff n h
      · exact hevent cutoff n (List.mem_singleton.mp h).symm
    · exact Or.inr ⟨hkey, journal, [], rfl, hseq, fun _ _ h => nomatch h⟩

/-- **What is in a store that began with any contents.** -/
structure Accounts (m₀ : Memory) (journal : List Memory.Event) (m : Memory) : Prop where
  stored : ∀ e, e ∈ m.entries ↔ Kept m₀ journal e
  next : m.nextSeq = m₀.nextSeq + Memory.added journal
  balance : Memory.deleted journal + m.entries.length = m₀.entries.length + Memory.added journal

theorem accounts_nil (m₀ : Memory) : Accounts m₀ [] m₀ := by
  refine ⟨fun e => ⟨fun he => Or.inl ⟨he, fun _ _ h => nomatch h⟩, ?_⟩, rfl, Nat.zero_add _⟩
  rintro (⟨he, -⟩ | ⟨-, before, after, hsplit, -⟩)
  · exact he
  · simp at hsplit

/-- A sweep that fails changes nothing. -/
theorem Accounts.failed (h : Accounts m₀ journal m) (c : Timestamp) (err : StoreError) :
    Accounts m₀ (journal ++ [.swept c (.error err)]) m := by
  have hadded : (Memory.Event.swept c (.error err)).added = 0 := rfl
  have hdeleted : (Memory.Event.swept c (.error err)).deleted = 0 := rfl
  refine ⟨fun e => ?_, ?_, ?_⟩
  · rw [h.stored, kept_append]
    refine ⟨fun he => Or.inl ⟨he, fun _ _ => nofun⟩, ?_⟩
    rintro (⟨he, -⟩ | ⟨-, hc, -⟩)
    · exact he
    · exact nomatch hc
  · rw [Memory.added_append, hadded, h.next]
    rfl
  · rw [Memory.added_append, Memory.deleted_append, hadded, hdeleted]
    exact h.balance

/-- A sweep deletes the entries before its cutoff, and counts them. -/
theorem Accounts.swept (h : Accounts m₀ journal m) (c : Timestamp) :
    Accounts m₀ (journal ++ [.swept c (.ok (m.deleteBefore c).1)]) (m.deleteBefore c).2 := by
  have hadded : (Memory.Event.swept c (.ok (m.deleteBefore c).1)).added = 0 := rfl
  have hdeleted : (Memory.Event.swept c (.ok (m.deleteBefore c).1)).deleted =
      m.entries.countP (Memory.expired c) := rfl
  refine ⟨fun e => ?_, ?_, ?_⟩
  · rw [kept_append, Memory.deleteBefore, List.mem_filter, h.stored]
    constructor
    · rintro ⟨he, hkept⟩
      refine Or.inl ⟨he, fun cutoff n hc => ?_⟩
      obtain ⟨rfl, -⟩ := Memory.Event.swept.inj hc
      simpa [Memory.expired] using hkept
    · rintro (⟨he, hspared⟩ | ⟨-, hc, -⟩)
      · have hkept := hspared c _ rfl
        exact ⟨he, by simpa [Memory.expired] using hkept⟩
      · cases hc
  · rw [Memory.added_append, hadded]
    exact h.next
  · have hsplit : m.entries.length = m.entries.countP (Memory.expired c) +
        (m.deleteBefore c).2.entries.length := by
      rw [List.length_eq_countP_add_countP (Memory.expired c), Memory.deleteBefore,
        ← List.countP_eq_length_filter]
      simp
    rw [Memory.added_append, Memory.deleted_append, hadded, hdeleted, Nat.add_zero, ← h.balance,
      hsplit, Nat.add_assoc]

/-- A document is added under the next number, or refused. -/
theorem Accounts.commit (h : Accounts m₀ journal m) (d : Document) :
    Accounts m₀ (journal ++ [.inserted d (m.commit d).1]) (m.commit d).2 := by
  obtain ⟨-, hc⟩ | ⟨-, hc⟩ := Memory.commit_cases m d
  · rw [hc]
    refine ⟨fun e => ?_, ?_, ?_⟩
    · rw [h.stored, kept_append]
      refine ⟨fun he => Or.inl ⟨he, fun _ _ => nofun⟩, ?_⟩
      rintro (⟨he, -⟩ | ⟨-, hc, -⟩)
      · exact he
      · exact nomatch (Memory.Event.inserted.inj hc).2
    · rw [Memory.added_append]
      exact h.next
    · rw [Memory.added_append, Memory.deleted_append]
      exact h.balance
  · rw [hc]
    have hadded : (Memory.Event.inserted d (.ok d)).added = 1 := rfl
    have hdeleted : (Memory.Event.inserted d (.ok d)).deleted = 0 := rfl
    refine ⟨fun e => ?_, ?_, ?_⟩
    · rw [List.mem_cons, kept_append, h.stored]
      constructor
      · rintro (rfl | he)
        · exact Or.inr ⟨rfl, rfl, h.next⟩
        · exact Or.inl ⟨he, fun _ _ => nofun⟩
      · rintro (⟨he, -⟩ | ⟨hkey, hd, hseq⟩)
        · exact Or.inr he
        · obtain ⟨rfl, -⟩ := Memory.Event.inserted.inj hd
          refine Or.inl ?_
          rw [h.next, ← hseq, ← hkey]
    · rw [Memory.added_append, hadded, h.next, Nat.add_assoc]
    · rw [Memory.added_append, Memory.deleted_append, hadded, hdeleted, List.length_cons]
      have hbalance := h.balance
      omega

end Kept

/-! ### A store that keeps a journal -/

/-- **A store under watch**: its deletions fail when they are told to, and what is added and
deleted is written down. -/
structure Journaled (σ : Type) where
  /-- The store. -/
  store : σ
  /-- How the next deletion fails, if it is to fail. -/
  fault : Option StoreError := none
  /-- What happened so far. -/
  journal : List Memory.Event := []

variable {σ : Type} [Store σ]

instance : Store (Journaled σ) where
  insert d now s e :=
    let (r, store, e') := Store.insert d now s.store e
    (r, { s with store, journal := s.journal ++ [.inserted (d.document now e).1 r] }, e')
  get id s :=
    let (r, store) := Store.get id s.store
    (r, { s with store })
  list owner s :=
    let (r, store) := Store.list owner s.store
    (r, { s with store })
  deleteBefore cutoff s :=
    match s.fault with
    | some e => (.error e, { s with journal := s.journal ++ [.swept cutoff (.error e)] })
    | none =>
      let (r, store) := Store.deleteBefore cutoff s.store
      (r, { s with store, journal := s.journal ++ [.swept cutoff r] })

section Deletion

variable {opening : σ → Except StoreError Unit × σ} {image : Memory → σ}

/-- A deletion that is told to fail. -/
theorem Journaled.deleteBefore_fails {s : Journaled σ} {e : StoreError} (hfault : s.fault = some e)
    (c : Timestamp) : Store.deleteBefore c s =
      (.error e, ⟨s.store, s.fault, s.journal ++ [.swept c (.error e)]⟩) := by
  obtain ⟨store, fault, journal⟩ := s
  obtain rfl : fault = some e := hfault
  rfl

/-- A deletion that is not. -/
theorem Journaled.deleteBefore_succeeds (hσ : Store.Mirrors opening image) {s : Journaled σ}
    {m : Memory} (hm : s.store = image m) (hkeyed : m.KeyedById) (hfault : s.fault = none)
    (c : Timestamp) :
    Store.deleteBefore c s = (.ok (m.deleteBefore c).1,
      ⟨image (m.deleteBefore c).2, s.fault,
        s.journal ++ [.swept c (.ok (m.deleteBefore c).1)]⟩) := by
  obtain ⟨store, fault, journal⟩ := s
  obtain rfl : store = image m := hm
  obtain rfl : fault = none := hfault
  have hmirror : Store.deleteBefore c (image m) =
      (.ok (m.deleteBefore c).1, image (m.deleteBefore c).2) :=
    hσ.deleteBefore c hkeyed
  have hjournaled : Store.deleteBefore c (⟨image m, none, journal⟩ : Journaled σ) =
      ((Store.deleteBefore c (image m)).1, ⟨(Store.deleteBefore c (image m)).2, none,
        journal ++ [.swept c (Store.deleteBefore c (image m)).1]⟩) := rfl
  rw [hjournaled, hmirror]

/-- **A deletion goes into the journal** with its result, and it fails and deletes nothing, or
deletes what the memory store would. -/
theorem Journaled.deleteBefore_cases (hσ : Store.Mirrors opening image) {s s' : Journaled σ}
    {m : Memory} (hm : s.store = image m) (hkeyed : m.KeyedById) {c : Timestamp}
    {r : Except StoreError ℕ} (h : Store.deleteBefore c s = (r, s')) :
    s'.journal = s.journal ++ [.swept c r] ∧
      ((∃ e, r = .error e ∧ s'.store = image m) ∨
        r = .ok (m.deleteBefore c).1 ∧ s'.store = image (m.deleteBefore c).2) := by
  cases hfault : s.fault with
  | some e =>
    obtain ⟨rfl, rfl⟩ := Prod.mk.inj (h.symm.trans (deleteBefore_fails hfault c))
    exact ⟨rfl, Or.inl ⟨e, rfl, hm⟩⟩
  | none =>
    obtain ⟨rfl, rfl⟩ := Prod.mk.inj (h.symm.trans (deleteBefore_succeeds hσ hm hkeyed hfault c))
    exact ⟨rfl, Or.inr ⟨rfl, rfl⟩⟩

end Deletion

end Vault.Retention
