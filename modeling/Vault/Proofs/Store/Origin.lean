import Mathlib.Data.List.Induction
import Vault.Proofs.Bytes
import Vault.Proofs.Store.History

/-!
# What an id is minted from

An id is a name followed by random bytes in hexadecimal, with nothing in between. A name may
itself end in such digits, so it does not show in an id where the name ends; but the number of
digits is fixed, and counting from the end tells the two apart. What an id is minted from, its
**origin** (`Vault.Origin`), can therefore be recovered from it: two ids are equal only if both
the names and the random bytes are (`Vault.Origin.id_injective`).

A store compares ids. Since every document in it was minted by a step of the run that led to it
(`Vault.Memory.Traced`, kept by every step), it could as well compare origins: a document is
refused exactly if one of the same origin is still there (`Vault.Memory.Settled`).
-/

namespace Vault

/-- **What an id is minted from**: a name, and as many random bytes as an id takes. -/
structure Origin where
  /-- The name. -/
  name : String
  /-- The random bytes. -/
  suffix : Bytes
  size_suffix : suffix.size = Document.idSuffixBytes

namespace Origin

/-- The id that is minted. -/
def id (o : Origin) : String := Document.idOf o.name o.suffix

/-- The origin of the next id of this name. -/
def drawn (name : String) (e : Entropy) : Origin :=
  ⟨name, (e.draw Document.idSuffixBytes).1, e.size_draw _⟩

theorem mintId_eq_id (name : String) (e : Entropy) :
    (Document.mintId name e).1 = (drawn name e).id := rfl

theorem id_eq_append (o : Origin) : o.id = o.name ++ String.ofList o.suffix.hexDigits := rfl

theorem length_hexDigits_suffix (o : Origin) : o.suffix.hexDigits.length = 32 := by
  rw [Bytes.length_hexDigits, o.size_suffix]
  rfl

theorem eq_iff {o o' : Origin} : o = o' ↔ o.name = o'.name ∧ o.suffix = o'.suffix := by
  obtain ⟨name, suffix, hsize⟩ := o
  obtain ⟨name', suffix', hsize'⟩ := o'
  simp

/-- **An id has one origin**: the digits of the random bytes are as many in every id, and so
stand where the name ends. -/
theorem id_injective : Function.Injective id := by
  intro o o' h
  have hlist := congrArg String.toList h
  rw [id_eq_append, id_eq_append, String.toList_append, String.toList_append,
    String.toList_ofList, String.toList_ofList] at hlist
  obtain ⟨hname, hdigits⟩ := List.append_inj' hlist
    (o.length_hexDigits_suffix.trans o'.length_hexDigits_suffix.symm)
  exact eq_iff.mpr ⟨String.toList_inj.mp hname, Bytes.hexDigits_injective hdigits⟩

/-- Any bytes may be drawn. -/
theorem exists_drawn (o : Origin) : ∃ e, drawn o.name e = o := by
  refine ⟨⟨fun i => Bytes.byteAt o.suffix i, 0⟩, eq_iff.mpr ⟨rfl, ?_⟩⟩
  refine Bytes.ext_byteAt ((Entropy.size_draw _ _).trans o.size_suffix.symm) fun i hi => ?_
  have hi' : i < Document.idSuffixBytes := hi.trans_eq (Entropy.size_draw _ _)
  change Bytes.byteAt (Bytes.ofFn _ _) i = _
  rw [Bytes.byteAt_ofFn _ _ hi', Nat.zero_add]

end Origin

namespace Memory

variable {α : Type}

/-! ### Where documents come from -/

/-- **A document is minted from an origin** in some steps: one of them made it, with this name
and these random bytes. -/
def MintedFrom (acts : List (Act α)) (d : Document) (o : Origin) : Prop :=
  ∃ who draft now e,
    Act.mint who draft now e ∈ acts ∧ d = (draft.document now e).1 ∧ o = .drawn draft.name e

section MintedFrom

variable {acts : List (Act α)} {d : Document} {o o' : Origin}

theorem MintedFrom.id_eq (h : MintedFrom acts d o) : d.id = o.id := by
  obtain ⟨who, draft, now, e, -, rfl, rfl⟩ := h
  rfl

theorem MintedFrom.unique (h : MintedFrom acts d o) (h' : MintedFrom acts d o') : o = o' :=
  Origin.id_injective (h.id_eq.symm.trans h'.id_eq)

theorem MintedFrom.concat (h : MintedFrom acts d o) (act : Act α) :
    MintedFrom (acts ++ [act]) d o := by
  obtain ⟨who, draft, now, e, hmem, hd, ho⟩ := h
  exact ⟨who, draft, now, e, List.mem_append_left _ hmem, hd, ho⟩

theorem mintedFrom_mint (who : α) (draft : Draft) (now : Timestamp) (e : Entropy) :
    MintedFrom (acts ++ [.mint who draft now e]) (draft.document now e).1 (.drawn draft.name e) :=
  ⟨who, draft, now, e, List.mem_append_right _ (List.mem_singleton.mpr rfl), rfl, rfl⟩

end MintedFrom

/-- **Everything is minted**: the documents that are stored, and those that are still to be
added. -/
structure Traced (acts : List (Act α)) (w : Shared α) : Prop where
  stored : ∀ e ∈ w.store.entries, ∃ o, MintedFrom acts e.document o
  pending : ∀ who d, w.minted who = some d → ∃ o, MintedFrom acts d o

section Traced

variable {acts : List (Act α)} {w : Shared α}

/-- A step that stores only what was there or waiting, and leaves nothing new waiting. -/
theorem Traced.concat (h : Traced acts w) (act : Act α) {w' : Shared α}
    (hstored : ∀ e ∈ w'.store.entries, e ∈ w.store.entries ∨ ∃ who, w.minted who = some e.document)
    (hpending : ∀ who d, w'.minted who = some d → w.minted who = some d) :
    Traced (acts ++ [act]) w' := by
  refine ⟨fun e he => ?_, fun who d hd => ?_⟩
  · have hminted : ∃ o, MintedFrom acts e.document o := by
      rcases hstored e he with hold | ⟨who, hwho⟩
      · exact h.stored e hold
      · exact h.pending who _ hwho
    exact hminted.imp fun o ho => ho.concat act
  · exact (h.pending who d (hpending who d hd)).imp fun o ho => ho.concat act

variable [DecidableEq α]

/-- What waits after a change was waiting before it, or is the change. -/
theorem of_update_eq_some {minted : α → Option Document} {who who' : α} {o : Option Document}
    {d : Document} (h : Function.update minted who o who' = some d) :
    minted who' = some d ∨ o = some d := by
  rcases eq_or_ne who' who with rfl | hne
  · rw [Function.update_self] at h
    exact Or.inr h
  · rw [Function.update_of_ne hne] at h
    exact Or.inl h

theorem Traced.mint (h : Traced acts w) (who : α) (draft : Draft) (now : Timestamp)
    (e : Entropy) :
    Traced (acts ++ [.mint who draft now e]) ((Act.mint who draft now e).step w) := by
  refine ⟨fun x hx => (h.stored x hx).imp fun o ho => ho.concat _, fun who' d hd => ?_⟩
  rcases of_update_eq_some hd with hold | hnew
  · exact (h.pending who' d hold).imp fun o ho => ho.concat _
  · obtain rfl := Option.some.inj hnew
    exact ⟨_, mintedFrom_mint who draft now e⟩

theorem Traced.commit (h : Traced acts w) (who : α) :
    Traced (acts ++ [.commit who]) ((Act.commit who).step w) := by
  rcases hwho : w.minted who with _ | d
  · rw [step_commit_none hwho]
    exact h.concat _ (fun e he => Or.inl he) fun _ _ hd => hd
  · rw [step_commit hwho]
    refine h.concat _ (fun e he => ?_) fun who' d' hd => ?_
    · obtain ⟨-, hc⟩ | ⟨-, hc⟩ := commit_cases w.store d
      · rw [hc] at he
        exact Or.inl he
      · rw [hc] at he
        rcases List.mem_cons.mp he with rfl | he
        · exact Or.inr ⟨who, hwho⟩
        · exact Or.inl he
    · exact (of_update_eq_some hd).resolve_right fun hnone => by cases hnone

/-- Every step keeps it. -/
theorem traced_step (h : Traced acts w) (act : Act α) : Traced (acts ++ [act]) (act.step w) := by
  cases act with
  | mint who draft now e => exact h.mint who draft now e
  | commit who => exact h.commit who
  | get id => exact h.concat _ (fun e he => Or.inl he) fun _ _ hd => hd
  | list owner => exact h.concat _ (fun e he => Or.inl he) fun _ _ hd => hd
  | deleteBefore cutoff =>
    exact h.concat _ (fun e he => Or.inl (List.mem_filter.mp he).1) fun _ _ hd => hd

theorem traced_run (acts : List (Act α)) : Traced acts (run acts) := by
  induction acts using List.reverseRecOn with
  | nil =>
    refine ⟨fun e he => ?_, fun who d hd => ?_⟩
    · cases he
    · cases hd
  | append_singleton acts act ih =>
    rw [run_concat]
    exact traced_step ih act

end Traced

/-! ### Collisions -/

variable [DecidableEq α]

/-- A document of this origin is stored after these steps. -/
def Holds (acts : List (Act α)) (o : Origin) : Prop :=
  ∃ e ∈ (run acts).store.entries, MintedFrom acts e.document o

/-- **Ids stand for origins**: an id is taken exactly if a document of its origin is stored. -/
theorem holds_iff_id (acts : List (Act α)) (o : Origin) :
    Holds acts o ↔ ∃ e ∈ (run acts).store.entries, e.document.id = o.id := by
  constructor
  · rintro ⟨e, he, hfrom⟩
    exact ⟨e, he, hfrom.id_eq⟩
  · -- the document was minted from some origin, and its id has no other
    rintro ⟨e, he, hid⟩
    obtain ⟨o', hfrom⟩ := (traced_run acts).stored e he
    obtain rfl := Origin.id_injective (hfrom.id_eq.symm.trans hid)
    exact ⟨e, he, hfrom⟩

/-- **What comes of adding a document** of an origin after some steps, by its result and the
store that is left: it is refused exactly if one of the same origin is stored, and nothing
changes then; otherwise it is put in front of the others. -/
structure Settled (acts : List (Act α)) (o : Origin) (d : Document)
    (result : Except StoreError Document) (left : Memory) : Prop where
  refused : (∃ id, result = .error (.alreadyExists id)) ↔ Holds acts o
  unchanged : Holds acts o → result = .error (.alreadyExists o.id) ∧ left = (run acts).store
  added : ¬Holds acts o → result = .ok d ∧
    left = ⟨⟨d.id, (run acts).store.nextSeq, d⟩ :: (run acts).store.entries,
      (run acts).store.nextSeq + 1⟩

theorem settled_commit (acts : List (Act α)) {o : Origin} {d : Document} (hid : d.id = o.id) :
    Settled acts o d ((run acts).store.commit d).1 ((run acts).store.commit d).2 := by
  obtain ⟨htaken, hc⟩ | ⟨hfree, hc⟩ := (recorded_run acts).keyedById.commit_cases d
  · rw [hid] at htaken hc
    have hholds := (holds_iff_id acts o).mpr htaken
    rw [hc]
    exact ⟨iff_of_true ⟨o.id, rfl⟩ hholds, fun _ => ⟨rfl, rfl⟩, fun hnot => absurd hholds hnot⟩
  · have hholds : ¬Holds acts o := by
      rw [holds_iff_id]
      rintro ⟨e, he, hsame⟩
      exact hfree e he (hsame.trans hid.symm)
    rw [hc]
    refine ⟨iff_of_false ?_ hholds, fun h => absurd h hholds, fun _ => ⟨rfl, rfl⟩⟩
    rintro ⟨id, hok⟩
    cases hok

/-- **Ids collide only on equal draws.** Two ids are equal exactly if the names and the random
bytes are, and an id is its name followed by exactly 32 hexadecimal digits in small letters;
this is about all ids that are minted, and any random bytes may be drawn.

In every state that any number of sessions and sweepers can bring a store to, each stored
document has one origin, and one of a given origin is stored exactly if it was added and no
sweep after that took it. A document that is added in one go, and one that was minted earlier
and is added now, is refused as existing already exactly if one of the same name and the same
random bytes is still stored; the store is then unchanged. -/
theorem ids_collide_on_equal_draws_only (acts : List (Act α)) :
    (∀ o o' : Origin, o.id = o'.id ↔ o.name = o'.name ∧ o.suffix = o'.suffix) ∧
    (∀ o : Origin, ∃ digits, o.id = o.name ++ String.ofList digits ∧ digits.length = 32 ∧
      ∀ c ∈ digits, '0' ≤ c ∧ c ≤ '9' ∨ 'a' ≤ c ∧ c ≤ 'f') ∧
    (∀ name e, (Document.mintId name e).1 = (Origin.drawn name e).id) ∧
    (∀ o : Origin, ∃ e, Origin.drawn o.name e = o) ∧
    (∀ e ∈ (run acts).store.entries, ∃! o, MintedFrom acts e.document o) ∧
    (∀ o, Holds acts o ↔
      ∃ e, Survives (run acts).history e ∧ MintedFrom acts e.document o) ∧
    (∀ draft now e, Settled acts (.drawn draft.name e) (draft.document now e).1
      (Store.insert draft now (run acts).store e).1
      (Store.insert draft now (run acts).store e).2.1) ∧
    ∀ who d, (run acts).minted who = some d → ∃ o result, MintedFrom acts d o ∧
      Settled acts o d result (run (acts ++ [.commit who])).store ∧
      (run (acts ++ [.commit who])).history = (run acts).history ++ [.inserted d result] := by
  refine ⟨fun o o' => Origin.id_injective.eq_iff.trans Origin.eq_iff, fun o => ?_,
    Origin.mintId_eq_id, Origin.exists_drawn, fun e he => ?_, fun o => ?_,
    fun draft now e => settled_commit acts rfl, fun who d hd => ?_⟩
  · exact ⟨_, o.id_eq_append, o.length_hexDigits_suffix, fun c hc => Bytes.hexDigits_range hc⟩
  · obtain ⟨o, ho⟩ := (traced_run acts).stored e he
    exact ⟨o, ho, fun o' ho' => ho'.unique ho⟩
  · exact exists_congr fun e => and_congr_left fun _ => (recorded_run acts).stored e
  · obtain ⟨o, ho⟩ := (traced_run acts).pending who d hd
    rw [run_concat, step_commit hd]
    exact ⟨o, _, ho, settled_commit acts ho.id_eq, rfl⟩

/-- Three documents with the same random bytes: the name of the second goes on with a digit where
that of the first ends, and the third, which waits to be added, has the name of the first. -/
def repeatedActs : List (Act ℕ) :=
  [.mint 0 ⟨"alice", "first", "note-"⟩ (.clamp 3) ⟨fun _ => 0, 0⟩, .commit 0,
    .mint 1 ⟨"bobby", "second", "note-0"⟩ (.clamp 7) ⟨fun _ => 0, 0⟩, .commit 1,
    .mint 2 ⟨"carol", "third", "note-"⟩ (.clamp 5) ⟨fun _ => 0, 0⟩]

/-- The first two documents are stored side by side, each of its own origin; the third is refused
for the first, though it belongs to somebody else, and changes nothing. -/
theorem ids_collide_on_equal_draws_only_repeated :
    (run repeatedActs).store.entries =
      [⟨"note-000000000000000000000000000000000", 1,
          ⟨"note-000000000000000000000000000000000", "bobby", "second", .clamp 7⟩⟩,
        ⟨"note-00000000000000000000000000000000", 0,
          ⟨"note-00000000000000000000000000000000", "alice", "first", .clamp 3⟩⟩] ∧
    (∃! o, MintedFrom repeatedActs
      ⟨"note-00000000000000000000000000000000", "alice", "first", .clamp 3⟩ o) ∧
    (run repeatedActs).minted 2 =
      some ⟨"note-00000000000000000000000000000000", "carol", "third", .clamp 5⟩ ∧
    (run (repeatedActs ++ [.commit 2])).store = (run repeatedActs).store ∧
    (run (repeatedActs ++ [.commit 2])).history = (run repeatedActs).history ++
      [.inserted ⟨"note-00000000000000000000000000000000", "carol", "third", .clamp 5⟩
        (.error (.alreadyExists "note-00000000000000000000000000000000"))] := by
  have hentries : (run repeatedActs).store.entries =
      [⟨"note-000000000000000000000000000000000", 1,
          ⟨"note-000000000000000000000000000000000", "bobby", "second", .clamp 7⟩⟩,
        ⟨"note-00000000000000000000000000000000", 0,
          ⟨"note-00000000000000000000000000000000", "alice", "first", .clamp 3⟩⟩] := by
    decide +kernel
  have hminted : (run repeatedActs).minted 2 =
      some ⟨"note-00000000000000000000000000000000", "carol", "third", .clamp 5⟩ := by
    decide +kernel
  obtain ⟨-, -, -, -, hunique, -, -, hpending⟩ := ids_collide_on_equal_draws_only repeatedActs
  have hfirst : (⟨"note-00000000000000000000000000000000", 0,
      ⟨"note-00000000000000000000000000000000", "alice", "first", .clamp 3⟩⟩ : Entry) ∈
      (run repeatedActs).store.entries := by
    rw [hentries]
    exact List.mem_cons_of_mem _ List.mem_cons_self
  -- the third document has the id of the first, and so its origin
  obtain ⟨o, result, hthird, hsettled, hhistory⟩ := hpending 2 _ hminted
  have hholds : Holds repeatedActs o := (holds_iff_id _ _).mpr ⟨_, hfirst, hthird.id_eq⟩
  obtain ⟨hresult, hstore⟩ := hsettled.unchanged hholds
  rw [hresult, ← hthird.id_eq] at hhistory
  exact ⟨hentries, hunique _ hfirst, hminted, hstore, hhistory⟩

end Memory

end Vault
