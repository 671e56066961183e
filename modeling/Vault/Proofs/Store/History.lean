import Mathlib.Algebra.GroupWithZero.Nat
import Mathlib.Data.List.Basic
import Mathlib.Logic.Function.Basic
import Mathlib.Tactic.Common
import Vault.Store.Memory

/-!
# What a store remembers

Any number of sessions and sweepers work on one store in memory. Fetching, listing and
sweeping are one step each; adding a document is two, because the id is minted and the
clock is read before the store is locked. Between the two anything may happen: a sweep
whose cutoff is already past the time on the document, another document of the same id,
or a clock that goes back.

The store is determined by its history nevertheless (`Vault.Memory.store_of_history`). A
document is in it exactly when it was added and no sweep *after that* had a cutoff past
its time of creation (`Vault.Memory.Survives`); its number is the number of documents
added before it. The invariant that carries this along a run is
`Vault.Memory.Recorded`, and each event that is appended to the history has one lemma
that says how it is kept.

Documents are looked up by key, and nothing in the store says that the key of a document is
its id. It is where every key was the id before the operation (`Vault.Memory.KeyedById`), and
so along every run; only there is what is found under an id the document of that id.
-/

namespace Vault.Memory

/-! ### Histories -/

/-- Something that happened to a store, with what came of it. -/
inductive Event where
  /-- A minted document was to be added. -/
  | inserted (d : Document) (result : Except StoreError Document)
  /-- A document was fetched. -/
  | fetched (id : String) (result : Except StoreError Document)
  /-- The documents of an owner were listed. -/
  | listed (owner : String) (result : Except StoreError (List Document))
  /-- The documents created before a cutoff were deleted. -/
  | swept (cutoff : Timestamp) (result : Except StoreError ℕ)

/-- How many documents an event has added. -/
def Event.added : Event → ℕ
  | .inserted _ (.ok _) => 1
  | _ => 0

/-- How many documents an event has deleted. -/
def Event.deleted : Event → ℕ
  | .swept _ (.ok n) => n
  | _ => 0

/-- How many documents were added. -/
def added (history : List Event) : ℕ := (history.map Event.added).sum

/-- How many documents were deleted. -/
def deleted (history : List Event) : ℕ := (history.map Event.deleted).sum

/-- **A document of a history is there after it**: it was added under its id, as the document
that was minted and returned, when `e.seq` documents had been added before, and no sweep
after that had a cutoff past its time of creation. -/
def Survives (history : List Event) (e : Entry) : Prop :=
  e.key = e.document.id ∧
  ∃ before after, history = before ++ .inserted e.document (.ok e.document) :: after ∧
    e.seq = added before ∧ ∀ cutoff n, .swept cutoff n ∈ after → ¬e.document.createdAt < cutoff

variable {history : List Event} {m : Memory}

theorem added_append (event : Event) :
    added (history ++ [event]) = added history + event.added := by
  simp [added]

theorem deleted_append (event : Event) :
    deleted (history ++ [event]) = deleted history + event.deleted := by
  simp [deleted]

/-- Where a history is split at an event, its last event is that one or comes after it. -/
theorem split_concat {before after : List Event} {first last : Event}
    (h : history ++ [last] = before ++ first :: after) :
    after = [] ∧ history = before ∧ last = first ∨
      ∃ rest, after = rest ++ [last] ∧ history = before ++ first :: rest := by
  rcases List.eq_nil_or_concat after with rfl | ⟨rest, event, rfl⟩
  · obtain ⟨rfl, hlast⟩ := List.append_inj' h rfl
    exact Or.inl ⟨rfl, rfl, List.head_eq_of_cons_eq hlast⟩
  · rw [List.concat_eq_append, ← List.cons_append, ← List.append_assoc] at h
    obtain ⟨rfl, hlast⟩ := List.append_inj' h rfl
    obtain rfl := List.head_eq_of_cons_eq hlast
    exact Or.inr ⟨rest, List.concat_eq_append, rfl⟩

/-- One more event: it spares what was there, or it is the adding itself. -/
theorem survives_append (event : Event) (e : Entry) : Survives (history ++ [event]) e ↔
    Survives history e ∧ (∀ cutoff n, event = .swept cutoff n → ¬e.document.createdAt < cutoff) ∨
      e.key = e.document.id ∧ event = .inserted e.document (.ok e.document) ∧
        e.seq = added history := by
  constructor
  · rintro ⟨hkey, before, after, hsplit, hseq, hspared⟩
    obtain ⟨rfl, rfl, rfl⟩ | ⟨rest, rfl, rfl⟩ := split_concat hsplit
    · exact Or.inr ⟨hkey, rfl, hseq⟩
    · refine Or.inl ⟨⟨hkey, before, rest, rfl, hseq, fun cutoff n h => ?_⟩, fun cutoff n h => ?_⟩
      · exact hspared cutoff n (List.mem_append_left _ h)
      · exact hspared cutoff n (List.mem_append_right _ (List.mem_singleton.mpr h.symm))
  · rintro (⟨⟨hkey, before, after, rfl, hseq, hspared⟩, hevent⟩ | ⟨hkey, rfl, hseq⟩)
    · refine ⟨hkey, before, after ++ [event], by rw [List.append_assoc, List.cons_append], hseq, ?_⟩
      intro cutoff n h
      rcases List.mem_append.mp h with h | h
      · exact hspared cutoff n h
      · exact hevent cutoff n (List.mem_singleton.mp h).symm
    · exact ⟨hkey, history, [], rfl, hseq, fun _ _ h => nomatch h⟩

/-! ### One operation -/

/-- The entry of a key, when there is one. -/
theorem find?_cases (m : Memory) (key : String) :
    (∃ e ∈ m.entries, e.key = key ∧ m.find? key = some e) ∨
      ((∀ e ∈ m.entries, e.key ≠ key) ∧ m.find? key = none) := by
  rcases hfind : m.find? key with _ | e
  · refine Or.inr ⟨fun e he hkey => ?_, rfl⟩
    exact List.find?_eq_none.mp hfind e he (beq_iff_eq.mpr hkey)
  · have hkey : (e.key == key) = true := List.find?_some (p := fun e : Entry => e.key == key) hfind
    exact Or.inl ⟨e, List.mem_of_find?_eq_some hfind, beq_iff_eq.mp hkey, rfl⟩

/-- A document is refused when there is one under its id, and added under it otherwise. -/
theorem commit_cases (m : Memory) (d : Document) :
    ((∃ e ∈ m.entries, e.key = d.id) ∧ m.commit d = (.error (.alreadyExists d.id), m)) ∨
      ((∀ e ∈ m.entries, e.key ≠ d.id) ∧
        m.commit d = (.ok d, ⟨⟨d.id, m.nextSeq, d⟩ :: m.entries, m.nextSeq + 1⟩)) := by
  obtain ⟨e, he, hkey, hfind⟩ | ⟨hfree, hfind⟩ := find?_cases m d.id
  · exact Or.inl ⟨⟨e, he, hkey⟩, by rw [commit, hfind]⟩
  · exact Or.inr ⟨hfree, by rw [commit, hfind]⟩

/-- **Every key is the id of its document.** -/
def KeyedById (m : Memory) : Prop := ∀ e ∈ m.entries, e.key = e.document.id

namespace KeyedById

theorem empty : KeyedById {} := fun _ he => absurd he List.not_mem_nil

/-- A document that is added is added under its id. -/
theorem commit (h : m.KeyedById) (d : Document) : (m.commit d).2.KeyedById := by
  obtain ⟨-, hc⟩ | ⟨-, hc⟩ := commit_cases m d
  · rw [hc]
    exact h
  · rw [hc]
    exact List.forall_mem_cons.mpr ⟨rfl, h⟩

/-- A sweep leaves the keys of what it leaves. -/
theorem deleteBefore (h : m.KeyedById) (cutoff : Timestamp) :
    (m.deleteBefore cutoff).2.KeyedById :=
  fun e he => h e (List.mem_of_mem_filter he)

/-- A key is taken exactly when there is a document of that id. -/
theorem taken_iff (h : m.KeyedById) (id : String) :
    (∃ e ∈ m.entries, e.key = id) ↔ ∃ e ∈ m.entries, e.document.id = id := by
  refine exists_congr fun e => and_congr_right fun he => ?_
  rw [h e he]

/-- A document is refused when its id is taken, and added otherwise. -/
theorem commit_cases (h : m.KeyedById) (d : Document) :
    ((∃ e ∈ m.entries, e.document.id = d.id) ∧
        m.commit d = (.error (.alreadyExists d.id), m)) ∨
      ((∀ e ∈ m.entries, e.document.id ≠ d.id) ∧
        m.commit d = (.ok d, ⟨⟨d.id, m.nextSeq, d⟩ :: m.entries, m.nextSeq + 1⟩)) := by
  obtain ⟨htaken, hc⟩ | ⟨hfree, hc⟩ := Memory.commit_cases m d
  · exact Or.inl ⟨(h.taken_iff d.id).mp htaken, hc⟩
  · exact Or.inr ⟨fun e he hid => hfree e he ((h e he).trans hid), hc⟩

/-- A document is found exactly when there is one of that id, and it is that one. -/
theorem get_cases (h : m.KeyedById) (id : String) :
    (∃ e ∈ m.entries, e.document.id = id ∧ m.get id = .ok e.document) ∨
      ((∀ e ∈ m.entries, e.document.id ≠ id) ∧ m.get id = .error (.notFound id)) := by
  obtain ⟨e, he, hkey, hfind⟩ | ⟨hfree, hfind⟩ := find?_cases m id
  · exact Or.inl ⟨e, he, (h e he).symm.trans hkey, by rw [get, hfind]⟩
  · exact Or.inr ⟨fun e he hid => hfree e he ((h e he).trans hid), by rw [get, hfind]⟩

end KeyedById

/-- **The store of a history.** -/
structure Recorded (history : List Event) (m : Memory) : Prop where
  stored : ∀ e, e ∈ m.entries ↔ Survives history e
  order : m.entries.Pairwise fun e e' => e'.seq < e.seq
  ids : (m.entries.map (·.document.id)).Nodup
  next : m.nextSeq = added history
  balance : deleted history + m.entries.length = added history

theorem recorded_empty : Recorded [] {} := by
  refine ⟨fun e => Iff.intro (fun h => nomatch h) ?_, .nil, List.nodup_nil, rfl, rfl⟩
  rintro ⟨-, before, after, hsplit, -, -⟩
  simp at hsplit

/-- Keys are ids along a history: what is there was added under its id. -/
theorem Recorded.keyedById (h : Recorded history m) : m.KeyedById :=
  fun e he => ((h.stored e).mp he).1

/-- Numbers are below the next one: they count what was added before. -/
theorem Recorded.seq_lt (h : Recorded history m) {e : Entry} (he : e ∈ m.entries) :
    e.seq < m.nextSeq := by
  obtain ⟨-, before, after, rfl, hseq, -⟩ := (h.stored e).mp he
  have hone : (Event.inserted e.document (.ok e.document)).added = 1 := rfl
  rw [h.next, hseq]
  simp only [added, List.map_append, List.map_cons, List.sum_append, List.sum_cons, hone]
  omega

/-- An event that neither adds nor deletes changes nothing. -/
theorem Recorded.idle (h : Recorded history m) {event : Event} (hadded : event.added = 0)
    (hswept : ∀ cutoff n, event ≠ .swept cutoff n) : Recorded (history ++ [event]) m := by
  have hdeleted : event.deleted = 0 := by
    cases event with
    | swept cutoff n => exact absurd rfl (hswept cutoff n)
    | _ => rfl
  refine ⟨fun e => ?_, h.order, h.ids, ?_, ?_⟩
  · rw [h.stored, survives_append]
    refine ⟨fun he => Or.inl ⟨he, fun cutoff n hc => absurd hc (hswept cutoff n)⟩, ?_⟩
    rintro (⟨he, -⟩ | ⟨-, rfl, -⟩)
    · exact he
    · exact absurd hadded Nat.one_ne_zero
  · rw [added_append, hadded, h.next, Nat.add_zero]
  · rw [added_append, deleted_append, hadded, hdeleted, Nat.add_zero, Nat.add_zero, h.balance]

/-- Adding a document, or failing to. -/
theorem Recorded.commit (h : Recorded history m) (d : Document) :
    Recorded (history ++ [.inserted d (m.commit d).1]) (m.commit d).2 := by
  obtain ⟨-, hc⟩ | ⟨hfree, hc⟩ := h.keyedById.commit_cases d
  · rw [hc]
    exact h.idle rfl fun _ _ => nofun
  · -- the new entry comes first, with the highest number so far
    rw [hc]
    have hone : (Event.inserted d (.ok d)).added = 1 := rfl
    have hnone : (Event.inserted d (.ok d)).deleted = 0 := rfl
    refine ⟨fun e => ?_, ?_, ?_, ?_, ?_⟩
    · rw [List.mem_cons, survives_append, h.stored]
      constructor
      · rintro (rfl | he)
        · exact Or.inr ⟨rfl, rfl, h.next⟩
        · exact Or.inl ⟨he, fun _ _ => nofun⟩
      · rintro (⟨he, -⟩ | ⟨hkey, hd, hseq⟩)
        · exact Or.inr he
        · obtain ⟨rfl, -⟩ := Event.inserted.inj hd
          refine Or.inl ?_
          rw [h.next, ← hseq, ← hkey]
    · exact List.pairwise_cons.mpr ⟨fun e he => h.seq_lt he, h.order⟩
    · rw [List.map_cons]
      refine List.nodup_cons.mpr ⟨fun hmem => ?_, h.ids⟩
      obtain ⟨e, he, hid⟩ := List.mem_map.mp hmem
      exact hfree e he hid
    · rw [added_append, hone, ← h.next]
    · rw [added_append, deleted_append, hone, hnone, List.length_cons, ← h.balance]
      omega

/-- Sweeping: the documents before the cutoff are counted, and they are gone. -/
theorem Recorded.sweep (h : Recorded history m) (cutoff : Timestamp) :
    Recorded (history ++ [.swept cutoff (.ok (m.deleteBefore cutoff).1)])
      (m.deleteBefore cutoff).2 := by
  have hnone : (Event.swept cutoff (.ok (m.deleteBefore cutoff).1)).added = 0 := rfl
  have hcount : (Event.swept cutoff (.ok (m.deleteBefore cutoff).1)).deleted =
      m.entries.countP (expired cutoff) := rfl
  refine ⟨fun e => ?_, h.order.filter _, ?_, ?_, ?_⟩
  · rw [survives_append, deleteBefore, List.mem_filter, h.stored]
    constructor
    · rintro ⟨he, hkept⟩
      refine Or.inl ⟨he, fun cutoff' n hc => ?_⟩
      obtain ⟨rfl, -⟩ := Event.swept.inj hc
      simpa [expired] using hkept
    · rintro (⟨he, hspared⟩ | ⟨-, hc, -⟩)
      · have hkept := hspared cutoff _ rfl
        exact ⟨he, by simpa [expired] using hkept⟩
      · exact nomatch hc
  · exact h.ids.sublist (List.filter_sublist.map _)
  · rw [added_append, hnone, Nat.add_zero]
    exact h.next
  · have hsplit : m.entries.length = m.entries.countP (expired cutoff) +
        (m.entries.filter fun e => !expired cutoff e).length := by
      rw [List.length_eq_countP_add_countP (expired cutoff), ← List.countP_eq_length_filter]
      simp
    rw [added_append, deleted_append, hnone, hcount, Nat.add_zero, ← h.balance, hsplit,
      deleteBefore, Nat.add_assoc]

/-! ### Many at work -/

/-- A step of somebody. Who has minted a document adds it later, or never. -/
inductive Act (α : Type) where
  /-- Mint the id of a document, with some random bytes, and read the clock. -/
  | mint (who : α) (draft : Draft) (now : Timestamp) (entropy : Entropy)
  /-- Add the document that was minted, or fail to. -/
  | commit (who : α)
  /-- Fetch a document. -/
  | get (id : String)
  /-- List the documents of an owner. -/
  | list (owner : String)
  /-- Delete the documents created before a cutoff. -/
  | deleteBefore (cutoff : Timestamp)

/-- A store, those who work on it, and what they have done so far. -/
structure Shared (α : Type) where
  /-- The store. -/
  store : Memory := {}
  /-- The documents that are minted and not added. -/
  minted : α → Option Document := fun _ => none
  /-- What has happened to the store. -/
  history : List Event := []

variable {α : Type} [DecidableEq α]

/-- Take a step. -/
def Act.step : Act α → Shared α → Shared α
  | mint who draft now entropy, w =>
    { w with minted := Function.update w.minted who (some (draft.document now entropy).1) }
  | commit who, w =>
    match w.minted who with
    | none => w
    | some d =>
      { store := (w.store.commit d).2
        minted := Function.update w.minted who none
        history := w.history ++ [.inserted d (w.store.commit d).1] }
  | get id, w =>
    { w with
      store := (Store.get id w.store).2
      history := w.history ++ [.fetched id (Store.get id w.store).1] }
  | list owner, w =>
    { w with
      store := (Store.list owner w.store).2
      history := w.history ++ [.listed owner (Store.list owner w.store).1] }
  | deleteBefore cutoff, w =>
    { w with
      store := (Store.deleteBefore cutoff w.store).2
      history := w.history ++ [.swept cutoff (Store.deleteBefore cutoff w.store).1] }

/-- The store and the history after a minted document was to be added. -/
theorem step_commit {w : Shared α} {who : α} {d : Document} (hd : w.minted who = some d) :
    (Act.commit who).step w = ⟨(w.store.commit d).2, Function.update w.minted who none,
      w.history ++ [.inserted d (w.store.commit d).1]⟩ := by
  rw [Act.step, hd]

theorem step_commit_none {w : Shared α} {who : α} (hd : w.minted who = none) :
    (Act.commit who).step w = w := by
  rw [Act.step, hd]

/-- Take steps, from an empty store on. -/
def run (acts : List (Act α)) : Shared α := acts.foldl (fun w act => act.step w) {}

theorem run_concat (acts : List (Act α)) (act : Act α) :
    run (acts ++ [act]) = act.step (run acts) := by
  rw [run, List.foldl_append]
  rfl

/-- Every step keeps the store of the history. -/
theorem recorded_step (act : Act α) {w : Shared α} (h : Recorded w.history w.store) :
    Recorded (act.step w).history (act.step w).store := by
  cases act with
  | mint who draft now entropy => exact h
  | commit who =>
    rw [Act.step]
    rcases w.minted who with _ | d
    · exact h
    · exact h.commit d
  | get id => exact h.idle rfl fun _ _ => nofun
  | list owner => exact h.idle rfl fun _ _ => nofun
  | deleteBefore cutoff => exact h.sweep cutoff

/-- The store of a run is the store of its history. -/
theorem recorded_run (acts : List (Act α)) : Recorded (run acts).history (run acts).store := by
  have hkeep (w : Shared α) (h : Recorded w.history w.store) :
      Recorded (acts.foldl (fun w act => act.step w) w).history
        (acts.foldl (fun w act => act.step w) w).store := by
    induction acts generalizing w with
    | nil => exact h
    | cons act acts ih => exact ih (act.step w) (recorded_step act h)
  exact hkeep {} recorded_empty

/-- **The store is what its history makes of it**, in every state that any number of
sessions and sweepers can bring it to, whatever the order of their steps, the clock and
the random bytes.

The documents in it are those that were added and that no later sweep took, each with the
number of documents added before it; numbers come down along the list and are below the
next one. The key of every document is its id, and no two have the same. A document is
fetched exactly when it is there; a document whose id is taken is refused and leaves
everything as it was; the documents that were deleted and those that are there make up
those that were added. And a document that is
added in one go is minted and added with nothing in between. -/
theorem store_of_history (acts : List (Act α)) :
    (∀ e, e ∈ (run acts).store.entries ↔ Survives (run acts).history e) ∧
    (run acts).store.entries.Pairwise (fun e e' => e'.seq < e.seq) ∧
    (∀ e ∈ (run acts).store.entries, e.seq < (run acts).store.nextSeq) ∧
    (∀ e ∈ (run acts).store.entries, e.key = e.document.id) ∧
    ((run acts).store.entries.map (·.key)).Nodup ∧
    ((run acts).store.entries.map (·.document.id)).Nodup ∧
    (∀ id, (∃ e ∈ (run acts).store.entries, e.document.id = id ∧
        Store.get id (run acts).store = (.ok e.document, (run acts).store)) ∨
      (∀ e ∈ (run acts).store.entries, e.document.id ≠ id) ∧
        Store.get id (run acts).store = (.error (.notFound id), (run acts).store)) ∧
    (∀ d, (∃ e ∈ (run acts).store.entries, e.document.id = d.id) ∧
        (run acts).store.commit d = (.error (.alreadyExists d.id), (run acts).store) ∨
      (∀ e ∈ (run acts).store.entries, e.document.id ≠ d.id) ∧
        ((run acts).store.commit d).1 = .ok d ∧
        ((run acts).store.commit d).2.entries =
          ⟨d.id, added (run acts).history, d⟩ :: (run acts).store.entries) ∧
    deleted (run acts).history + (run acts).store.size = added (run acts).history ∧
    (∀ who draft now e,
      ((run (acts ++ [.mint who draft now e, .commit who])).store =
        (Store.insert draft now (run acts).store e).2.1) ∧
      (run (acts ++ [.mint who draft now e, .commit who])).history = (run acts).history ++
        [.inserted (draft.document now e).1 (Store.insert draft now (run acts).store e).1]) := by
  have h := recorded_run acts
  have hkeys : (run acts).store.entries.map (·.key) =
      (run acts).store.entries.map (·.document.id) := List.map_congr_left h.keyedById
  refine ⟨h.stored, h.order, fun e he => h.seq_lt he, h.keyedById, hkeys ▸ h.ids, h.ids,
    fun id => ?_, fun d => ?_, h.balance, fun who draft now e => ?_⟩
  · obtain ⟨e, he, hid, hget⟩ | ⟨hfree, hget⟩ := h.keyedById.get_cases id
    · exact Or.inl ⟨e, he, hid, congrArg (·, (run acts).store) hget⟩
    · exact Or.inr ⟨hfree, congrArg (·, (run acts).store) hget⟩
  · obtain ⟨htaken, hc⟩ | ⟨hfree, hc⟩ := h.keyedById.commit_cases d
    · exact Or.inl ⟨htaken, hc⟩
    · refine Or.inr ⟨hfree, ?_, ?_⟩
      · rw [hc]
      · rw [hc, h.next]
  · have hrun : run (acts ++ [.mint who draft now e, .commit who]) =
        (Act.commit who).step ((Act.mint who draft now e).step (run acts)) := by
      rw [run, List.foldl_append]
      rfl
    rw [hrun]
    simp only [Act.step, Function.update_self]
    exact ⟨rfl, rfl⟩

/-- A sweep between the two halves of an insert does not see the document: it is added
with a time of creation before the cutoff, and it stays. -/
theorem store_of_history_swept_between :
    ∃ e ∈ (run [.mint 0 ⟨"owner", "content", "name-"⟩ (.clamp 5) ⟨fun _ => 0xab, 0⟩,
        .deleteBefore (.clamp 9), .commit 0, .commit 1]).store.entries,
      e.document.createdAt < .clamp 9 ∧ e.key = e.document.id ∧
      e.seq < (run [.mint 0 ⟨"owner", "content", "name-"⟩ (.clamp 5) ⟨fun _ => 0xab, 0⟩,
        .deleteBefore (.clamp 9), .commit 0, .commit 1]).store.nextSeq := by
  have hmem : (⟨"name-abababababababababababababababab", 0,
      ⟨"name-abababababababababababababababab", "owner", "content", .clamp 5⟩⟩ :
      Entry) ∈ (run [.mint 0 ⟨"owner", "content", "name-"⟩ (.clamp 5) ⟨fun _ => 0xab, 0⟩,
        .deleteBefore (.clamp 9), .commit 0, .commit 1]).store.entries := by
    decide +kernel
  exact ⟨_, hmem, by decide, (store_of_history _).2.2.2.1 _ hmem,
    (store_of_history _).2.2.1 _ hmem⟩

end Vault.Memory
