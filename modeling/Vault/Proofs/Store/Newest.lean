import Mathlib.Data.List.Sort
import Vault.Proofs.Store.History
import Vault.Proofs.Store.Mirror

/-!
# The newest document comes first

A listing is sorted by time and cut at a limit, so whether a document that was just added
stands at its head depends on the documents that are *not* listed as well. It is enough
to look at those that are (`Vault.Memory.createdAt_le`): what was cut off is older than all
that was kept. And of two documents of one time the one with the higher number comes first,
which is the new one, because numbers are below the next one in every store that operations
lead to.

So a listing changes in the simplest way when a document is added whose time is not before
the times in it: the document is put in front, and the last one goes if there are too many
(`Vault.Memory.list_commit`).
-/

namespace Vault

/-! ### The order of entries -/

namespace Entry

theorem before_iff (a b : Entry) : a.before b = true ↔
    b.document.createdAt < a.document.createdAt ∨
      a.document.createdAt = b.document.createdAt ∧ b.seq ≤ a.seq :=
  decide_eq_true_iff

theorem before_trans (a b c : Entry) (hab : a.before b = true) (hbc : b.before c = true) :
    a.before c = true := by
  rw [before_iff, Timestamp.lt_iff_micros, Timestamp.eq_iff_micros] at *
  omega

theorem before_total (a b : Entry) : (a.before b || b.before a) = true := by
  rw [Bool.or_eq_true, before_iff, before_iff]
  simp only [Timestamp.lt_iff_micros, Timestamp.eq_iff_micros]
  omega

end Entry

namespace Memory

/-- The entries of an owner in the order of a listing. -/
def ranked (m : Memory) (owner : String) : List Entry :=
  (m.entries.filter fun e => e.document.owner == owner).mergeSort Entry.before

theorem list_eq (m : Memory) (owner : String) :
    m.list owner = ((m.ranked owner).take listLimit).map (·.document) := rfl

theorem mem_ranked {m : Memory} {owner : String} {e : Entry} :
    e ∈ m.ranked owner ↔ e ∈ m.entries ∧ e.document.owner = owner := by
  rw [ranked, List.mem_mergeSort, List.mem_filter, beq_iff_eq]

/-- **What a listing leaves out is not newer** than what is in it. -/
theorem createdAt_le {m : Memory} {owner : String} {t : Timestamp}
    (h : ∀ d ∈ m.list owner, d.createdAt.micros ≤ t.micros) {e : Entry}
    (he : e ∈ m.ranked owner) : e.document.createdAt.micros ≤ t.micros := by
  have hsorted : (m.ranked owner).Pairwise fun a b => a.before b = true :=
    List.pairwise_mergeSort Entry.before_trans Entry.before_total _
  have hlisted {a : Entry} (ha : a ∈ (m.ranked owner).take listLimit) :
      a.document.createdAt.micros ≤ t.micros :=
    h _ (List.mem_map_of_mem ha)
  rw [← List.take_append_drop listLimit (m.ranked owner)] at he hsorted
  rcases List.mem_append.mp he with hfront | hback
  · exact hlisted hfront
  · -- the listing is full, and its first entry stands before this one
    rcases hfront : (m.ranked owner).take listLimit with _ | ⟨a, front⟩
    · have hnone : (m.ranked owner) = [] := by
        rcases List.take_eq_nil_iff.mp hfront with hlimit | hnil
        · exact absurd hlimit (by decide)
        · exact hnil
      rw [hnone] at hback
      cases hback
    · have ha : a ∈ (m.ranked owner).take listLimit := by
        rw [hfront]
        exact List.mem_cons_self
      have hbefore := (List.pairwise_append.mp hsorted).2.2 a ha e hback
      have hle := hlisted ha
      rw [Entry.before_iff, Timestamp.lt_iff_micros, Timestamp.eq_iff_micros] at hbefore
      omega

/-- An entry that stands before all others of its owner is ranked first. -/
theorem ranked_cons {m : Memory} {a : Entry} {next : ℕ}
    (h : ∀ e ∈ m.ranked a.document.owner, a.before e = true) :
    ranked ⟨a :: m.entries, next⟩ a.document.owner = a :: m.ranked a.document.owner := by
  have hmine : (a :: m.entries).filter (fun e => e.document.owner == a.document.owner) =
      a :: m.entries.filter fun e => e.document.owner == a.document.owner :=
    List.filter_cons_of_pos (beq_iff_eq.mpr rfl)
  obtain ⟨front, back, hsorted, hrest, hfront⟩ := List.mergeSort_cons Entry.before_trans
    Entry.before_total a (m.entries.filter fun e => e.document.owner == a.document.owner)
  have hnone : front = [] := by
    refine List.eq_nil_iff_forall_not_mem.mpr fun e he => ?_
    have hranked : e ∈ m.ranked a.document.owner := by
      rw [ranked, hrest]
      exact List.mem_append_left _ he
    have hnot := hfront e he
    rw [h e hranked] at hnot
    cases hnot
  rw [ranked, hmine, hsorted, ranked, hrest, hnone, List.nil_append, List.nil_append]

/-- **Adding a document puts it in front of the listing**, when its time is not before those in
the listing. -/
theorem list_commit {history : List Event} {m m' : Memory} (hm : Recorded history m)
    {d : Document} (hd : m.commit d = (.ok d, m'))
    (htime : ∀ x ∈ m.list d.owner, x.createdAt.micros ≤ d.createdAt.micros) :
    m'.list d.owner = (d :: m.list d.owner).take listLimit := by
  obtain ⟨-, hcommit⟩ | ⟨-, hcommit⟩ := commit_cases m d
  · cases congrArg Prod.fst (hcommit.symm.trans hd)
  · obtain rfl := congrArg Prod.snd (hcommit.symm.trans hd)
    have hranked : ranked ⟨⟨d.id, m.nextSeq, d⟩ :: m.entries, m.nextSeq + 1⟩ d.owner =
        ⟨d.id, m.nextSeq, d⟩ :: m.ranked d.owner := by
      refine ranked_cons (a := ⟨d.id, m.nextSeq, d⟩) fun e he => ?_
      have hle := createdAt_le htime he
      have hseq := hm.seq_lt (mem_ranked.mp he).1
      rw [Entry.before_iff, Timestamp.lt_iff_micros, Timestamp.eq_iff_micros]
      dsimp only
      omega
    have hlimit : listLimit = (listLimit - 1) + 1 := by decide
    rw [list_eq, hranked, list_eq, hlimit, List.take_succ_cons, List.map_cons, List.take_succ_cons,
      ← List.map_take, List.take_take, Nat.min_eq_left (Nat.le_succ _)]

/-- The same for a draft whose document is minted and added in one go. -/
theorem list_insert {history : List Event} {m m' : Memory} (hm : Recorded history m) {d : Draft}
    {t : Timestamp} {e e' : Entropy} {doc : Document}
    (hinsert : Store.insert d t m e = (.ok doc, m', e'))
    (htime : ∀ x ∈ m.list doc.owner, x.createdAt.micros ≤ doc.createdAt.micros) :
    m'.list doc.owner = (doc :: m.list doc.owner).take listLimit := by
  have hcommit : m.commit (d.document t e).1 = (.ok doc, m') :=
    Prod.ext (congrArg (fun x => x.1) hinsert) (congrArg (fun x => x.2.1) hinsert)
  have hdoc : (d.document t e).1 = doc := by
    obtain ⟨-, hc⟩ | ⟨-, hc⟩ := commit_cases m (d.document t e).1
    · cases congrArg Prod.fst (hc.symm.trans hcommit)
    · exact Except.ok.inj (congrArg Prod.fst (hc.symm.trans hcommit))
  rw [hdoc] at hcommit
  exact list_commit hm hcommit htime

end Memory

namespace Store

variable {σ : Type} [Store σ] {opening : σ → Except StoreError Unit × σ} {image : Memory → σ}

/-- The store in memory mirrors itself. -/
theorem mirrors_memory : Mirrors keep id where
  insert _ _ _ _ _ := rfl
  get _ _ _ := rfl
  list _ _ _ := rfl
  deleteBefore _ _ _ := rfl
  opening _ := rfl

/-- **In every store that mirrors the one in memory**, adding a document puts it in front of the
listing. -/
theorem Mirrors.list_insert (hmirrors : Mirrors opening image) {history : List Memory.Event}
    {m : Memory} (hm : Memory.Recorded history m) {d : Draft} {t : Timestamp} {e e' : Entropy}
    {doc : Document} {s : σ} (hinsert : Store.insert d t (image m) e = (.ok doc, s, e'))
    {before : List Document} (hbefore : (Store.list doc.owner (image m)).1 = .ok before)
    (htime : ∀ x ∈ before, x.createdAt.micros ≤ doc.createdAt.micros) :
    Store.list doc.owner s = (.ok ((doc :: before).take listLimit), s) := by
  rw [hmirrors.insert d t hm.keyedById] at hinsert
  rw [hmirrors.list _ hm.keyedById] at hbefore
  obtain rfl : m.list doc.owner = before := Except.ok.inj hbefore
  obtain rfl : image (Store.insert d t m e).2.1 = s := congrArg (fun x => x.2.1) hinsert
  have hmemory : Store.insert d t m e =
      (.ok doc, (Store.insert d t m e).2.1, (Store.insert d t m e).2.2) :=
    Prod.ext (congrArg (fun x => x.1) hinsert) rfl
  have hlist : Store.list doc.owner (Store.insert d t m e).2.1 =
      (.ok ((doc :: m.list doc.owner).take listLimit), (Store.insert d t m e).2.1) :=
    Prod.ext (congrArg Except.ok (Memory.list_insert hm hmemory htime)) rfl
  have hkeyed : (Store.insert d t m e).2.1.KeyedById := hm.keyedById.commit (d.document t e).1
  rw [hmirrors.list _ hkeyed, hlist]

end Store

end Vault
