import Vault.Proofs.Store.Newest

/-!
# The top of a listing

A listing is sorted by time of creation and by number, newest first, and cut at a hundred.
That this is *the* top of the owner's documents – as many as there are up to a hundred, in a
strict order, and all others below them (`Vault.Memory.Top`) – rests on the numbers being
distinct: with two entries of one time and one number, the order in which the entries happen
to be kept would show.

What a listing shows can be said without numbers. Of what happened to the store, only the
additions for the owner and the sweeps matter to it (`Vault.Memory.changes`), and what they
leave, the latest addition first (`Vault.Memory.standing`), is sorted by time alone; the sort
is stable, and so does the work of the numbers. Other owners therefore leave a listing alone
(`Vault.Memory.listing_is_top_hundred`), with one exception: ids are shared, so that a document
of another owner can stand in the way of one of this owner
(`Vault.Memory.listing_lost_to_other_owner`), or of what would have stood in its way. Which
additions of the owner are refused (`Vault.Memory.refusals`) is all that others have a say in.
-/

namespace Vault

/-! ### A strict order -/

namespace Entry

/-- **An entry stands above another**: it was created later, or at the same time and was added
later. -/
def Above (a b : Entry) : Prop :=
  b.document.createdAt < a.document.createdAt ∨
    a.document.createdAt = b.document.createdAt ∧ b.seq < a.seq

theorem above_of_before {a b : Entry} (h : a.before b = true) (hne : a.seq ≠ b.seq) :
    a.Above b := by
  rw [before_iff] at h
  rcases h with hlater | ⟨hsame, hseq⟩
  · exact Or.inl hlater
  · exact Or.inr ⟨hsame, by omega⟩

theorem seq_eq_of_before {a b : Entry} (hab : a.before b = true) (hba : b.before a = true) :
    a.seq = b.seq := by
  rw [before_iff, Timestamp.lt_iff_micros, Timestamp.eq_iff_micros] at hab hba
  omega

end Entry

namespace Memory

/-- **The top of some entries**: as many of them as the limit allows, one above the other, and
all of them above the rest. -/
structure Top (limit : ℕ) (all top : List Entry) : Prop where
  length : top.length = min limit all.length
  mem : ∀ e ∈ top, e ∈ all
  order : top.Pairwise Entry.Above
  rest : ∀ e ∈ all, e ∉ top → ∀ a ∈ top, a.Above e

variable {es es' : List Entry}

/-- Entries with distinct numbers, sorted. -/
theorem above_mergeSort (hseq : (es.map (·.seq)).Nodup) :
    (es.mergeSort Entry.before).Pairwise Entry.Above := by
  have hsorted := List.pairwise_mergeSort Entry.before_trans Entry.before_total es
  have hdistinct : (es.mergeSort Entry.before).Pairwise fun a b => a.seq ≠ b.seq := by
    rw [← List.pairwise_map]
    exact ((List.mergeSort_perm es Entry.before).map _).nodup_iff.mpr hseq
  exact hsorted.imp₂ (fun _ _ => Entry.above_of_before) hdistinct

/-- The front of the sorted entries is their top. -/
theorem top_mergeSort (limit : ℕ) (hseq : (es.map (·.seq)).Nodup) :
    Top limit es ((es.mergeSort Entry.before).take limit) := by
  have habove := above_mergeSort hseq
  refine ⟨?_, fun e he => ?_, habove.sublist (List.take_sublist _ _), fun e he hout a ha => ?_⟩
  · rw [List.length_take, (List.mergeSort_perm es Entry.before).length_eq]
  · exact List.mem_mergeSort.mp (List.mem_of_mem_take he)
  · -- what is not in the front is behind it
    have hmem : e ∈ es.mergeSort Entry.before := List.mem_mergeSort.mpr he
    rw [← List.take_append_drop limit (es.mergeSort Entry.before)] at habove hmem
    exact (List.pairwise_append.mp habove).2.2 a ha e ((List.mem_append.mp hmem).resolve_left hout)

/-- **The order in which entries are kept does not show**, if their numbers are distinct. -/
theorem mergeSort_eq_of_perm (hperm : es'.Perm es) (hseq : (es.map (·.seq)).Nodup) :
    es'.mergeSort Entry.before = es.mergeSort Entry.before := by
  have hsorted (l : List Entry) := List.pairwise_mergeSort Entry.before_trans Entry.before_total l
  refine List.Perm.eq_of_pairwise (fun a b ha hb hab hba => ?_) (hsorted es') (hsorted es)
    ((List.mergeSort_perm es' _).trans (hperm.trans (List.mergeSort_perm es _).symm))
  exact List.inj_on_of_nodup_map hseq (hperm.mem_iff.mp (List.mem_mergeSort.mp ha))
    (List.mem_mergeSort.mp hb) (Entry.seq_eq_of_before hab hba)

/-! ### Sorting by time alone -/

/-- Whether a document may stand before another when the later one comes first. -/
def laterFirst (a b : Document) : Bool := decide (b.createdAt.micros ≤ a.createdAt.micros)

/-- **The numbers only do what a stable sort does**, when the highest number comes first. -/
theorem map_document_mergeSort (horder : es.Pairwise fun a b => b.seq < a.seq) :
    (es.mergeSort Entry.before).map (·.document) =
      (es.map (·.document)).mergeSort laterFirst := by
  -- sort the entries with their places, once by number and once by place
  have hplaces (a b : Entry × ℕ) (ha : a ∈ es.zipIdx) (hb : b ∈ es.zipIdx) :
      b.1.seq ≤ a.1.seq ↔ a.2 ≤ b.2 := by
    obtain ⟨hi, hai⟩ := List.getElem?_eq_some_iff.mp (List.mem_zipIdx_iff_getElem?.mp ha)
    obtain ⟨hj, hbj⟩ := List.getElem?_eq_some_iff.mp (List.mem_zipIdx_iff_getElem?.mp hb)
    rw [List.pairwise_iff_getElem] at horder
    rcases Nat.lt_trichotomy a.2 b.2 with hlt | heq | hgt
    · have hseq := horder _ _ hi hj hlt
      rw [hai, hbj] at hseq
      omega
    · have hsame : a.1 = b.1 := by
        rw [← hai, ← hbj]
        simp only [heq]
      rw [hsame]
      omega
    · have hseq := horder _ _ hj hi hgt
      rw [hai, hbj] at hseq
      omega
  have hkeys (a : Entry × ℕ) (ha : a ∈ es.zipIdx) (b : Entry × ℕ) (hb : b ∈ es.zipIdx) :
      a.1.before b.1 = List.zipIdxLE laterFirst (a.1.document, a.2) (b.1.document, b.2) := by
    rw [Bool.eq_iff_iff, Entry.before_iff, hplaces a b ha hb, Timestamp.lt_iff_micros,
      Timestamp.eq_iff_micros]
    simp only [List.zipIdxLE, laterFirst, decide_eq_true_eq]
    split_ifs <;> simp <;> omega
  have hentries : (es.zipIdx.mergeSort fun a b => a.1.before b.1).map Prod.fst =
      es.mergeSort Entry.before := by
    rw [List.map_mergeSort (s := Entry.before) (fun _ _ _ _ => rfl), List.zipIdx_map_fst]
  have hdocuments : (es.zipIdx.mergeSort fun a b => a.1.before b.1).map
      (fun a => (a.1.document, a.2)) =
        ((es.map (·.document)).zipIdx).mergeSort (List.zipIdxLE laterFirst) := by
    rw [List.map_mergeSort hkeys, List.zipIdx_map]
    rfl
  rw [← hentries, ← List.mergeSort_zipIdx (l := es.map _), ← hdocuments, List.map_map,
    List.map_map]
  rfl

/-! ### What matters to an owner -/

/-- Something that bears on the documents of one owner. -/
inductive Change where
  /-- A document of the owner was added. -/
  | added (d : Document)
  /-- The documents created before a cutoff were deleted. -/
  | swept (cutoff : Timestamp)

/-- What an event is to an owner, if anything. -/
def Event.change? (owner : String) : Event → Option Change
  | .inserted d (.ok _) => if d.owner = owner then some (.added d) else none
  | .swept cutoff _ => some (.swept cutoff)
  | _ => none

/-- What a history is to an owner. -/
def changes (owner : String) (history : List Event) : List Change :=
  history.filterMap (Event.change? owner)

/-- What a change makes of the documents of the owner. -/
def Change.apply (ds : List Document) : Change → List Document
  | added d => d :: ds
  | swept cutoff => ds.filter fun d => !decide (d.createdAt < cutoff)

/-- **What changes leave**, the latest addition first. -/
def standing (cs : List Change) : List Document := cs.foldl Change.apply []

/-- The entries of an owner. -/
def ofOwner (owner : String) (es : List Entry) : List Entry :=
  es.filter fun e => e.document.owner == owner

section Changes

variable {owner : String} {history : List Event} {m : Memory} {d : Document}

theorem changes_concat (event : Event) : changes owner (history ++ [event]) =
    changes owner history ++ (event.change? owner).toList := by
  rw [changes, List.filterMap_append]
  cases h : event.change? owner <;> simp [changes, h]

theorem changes_concat_of_none {event : Event} (h : event.change? owner = none) :
    changes owner (history ++ [event]) = changes owner history := by
  rw [changes_concat, h, Option.toList_none, List.append_nil]

theorem standing_concat (cs : List Change) (c : Change) :
    standing (cs ++ [c]) = c.apply (standing cs) := by
  rw [standing, List.foldl_append]
  rfl

/-- A refused document is nothing to anybody, and one of another owner nothing to this one. -/
theorem change?_inserted_of_ne (h : d.owner ≠ owner) (x : Except StoreError Document) :
    (Event.inserted d x).change? owner = none := by
  rcases x with e | d'
  · rfl
  · exact if_neg h

theorem ofOwner_cons_of_eq {e : Entry} (h : e.document.owner = owner) :
    ofOwner owner (e :: es) = e :: ofOwner owner es :=
  List.filter_cons_of_pos (beq_iff_eq.mpr h)

theorem ofOwner_cons_of_ne {e : Entry} (h : e.document.owner ≠ owner) :
    ofOwner owner (e :: es) = ofOwner owner es :=
  List.filter_cons_of_neg fun hc => h (beq_iff_eq.mp hc)

/-- **The documents of an owner are what its changes have left.** -/
def Kept (owner : String) (history : List Event) (m : Memory) : Prop :=
  (ofOwner owner m.entries).map (·.document) = standing (changes owner history)

theorem Kept.idle {event : Event} (h : Kept owner history m)
    (hevent : event.change? owner = none) : Kept owner (history ++ [event]) m := by
  rw [Kept, changes_concat_of_none hevent]
  exact h

theorem Kept.commit (h : Kept owner history m) (d : Document) :
    Kept owner (history ++ [.inserted d (m.commit d).1]) (m.commit d).2 := by
  obtain ⟨-, hc⟩ | ⟨-, hc⟩ := commit_cases m d
  · rw [hc]
    exact h.idle rfl
  · rw [hc, Kept]
    dsimp only
    by_cases howner : d.owner = owner
    · have hchange : (Event.inserted d (.ok d)).change? owner = some (.added d) := if_pos howner
      rw [changes_concat, hchange, Option.toList_some, standing_concat, Change.apply, ← h,
        ofOwner_cons_of_eq howner, List.map_cons]
    · rw [changes_concat_of_none (change?_inserted_of_ne howner _), ← h, ofOwner_cons_of_ne howner]

theorem Kept.sweep (h : Kept owner history m) (cutoff : Timestamp) (x : Except StoreError ℕ) :
    Kept owner (history ++ [.swept cutoff x]) (m.deleteBefore cutoff).2 := by
  have hchange : (Event.swept cutoff x).change? owner = some (.swept cutoff) := rfl
  rw [Kept, changes_concat, hchange, Option.toList_some, standing_concat, Change.apply, ← h,
    List.filter_map, ofOwner, ofOwner, deleteBefore, List.filter_filter, List.filter_filter]
  congr 1
  exact List.filter_congr fun e _ => Bool.and_comm _ _

variable {α : Type} [DecidableEq α]

theorem kept_step (act : Act α) {w : Shared α} (h : Kept owner w.history w.store) :
    Kept owner (act.step w).history (act.step w).store := by
  cases act with
  | mint who draft now entropy => exact h
  | commit who =>
    rw [Act.step]
    rcases w.minted who with _ | d
    · exact h
    · exact h.commit d
  | get id => exact h.idle rfl
  | list owner' => exact h.idle rfl
  | deleteBefore cutoff => exact h.sweep cutoff _

theorem kept_run (acts : List (Act α)) : Kept owner (run acts).history (run acts).store := by
  have hkeep (w : Shared α) (h : Kept owner w.history w.store) :
      Kept owner (acts.foldl (fun w act => act.step w) w).history
        (acts.foldl (fun w act => act.step w) w).store := by
    induction acts generalizing w with
    | nil => exact h
    | cons act acts ih => exact ih (act.step w) (kept_step act h)
  exact hkeep {} rfl

/-- **A listing is what the owner's changes have left, sorted by time and cut.** -/
theorem list_run (acts : List (Act α)) (owner : String) : (run acts).store.list owner =
    ((standing (changes owner (run acts).history)).mergeSort laterFirst).take listLimit := by
  have horder : (ofOwner owner (run acts).store.entries).Pairwise fun a b => b.seq < a.seq :=
    (recorded_run acts).order.filter _
  rw [list_eq, ranked, List.map_take, ← kept_run acts, ← map_document_mergeSort horder]
  rfl

end Changes

/-! ### Additions of others -/

variable {α : Type}

/-- Whether a step belongs to the additions of certain parties. -/
def Act.isBy (extra : α → Bool) : Act α → Bool
  | mint who .. => extra who
  | commit who => extra who
  | _ => false

/-- The steps that are left without the additions of these parties. -/
def without (extra : α → Bool) (acts : List (Act α)) : List (Act α) :=
  acts.filter fun act => !act.isBy extra

/-- Who mints a document in a step, and which. -/
def Act.mints? : Act α → Option (α × Document)
  | mint who draft now e => some (who, (draft.document now e).1)
  | _ => none

/-- **These parties add for others**: no document that they mint belongs to this owner. -/
def ForOthers (owner : String) (extra : α → Bool) (acts : List (Act α)) : Prop :=
  ∀ a ∈ acts.filterMap Act.mints?, extra a.1 = true → a.2.owner ≠ owner

instance (owner : String) (extra : α → Bool) (acts : List (Act α)) :
    Decidable (ForOthers owner extra acts) :=
  inferInstanceAs (Decidable (∀ a ∈ acts.filterMap Act.mints?, extra a.1 = true →
    a.2.owner ≠ owner))

/-- For an addition of this owner, whether it was refused. -/
def Event.refusal? (owner : String) : Event → Option Bool
  | .inserted d (.ok _) => if d.owner = owner then some false else none
  | .inserted d (.error _) => if d.owner = owner then some true else none
  | _ => none

/-- **Which additions of an owner were refused**, one after the other. -/
def refusals (owner : String) (history : List Event) : List Bool :=
  history.filterMap (Event.refusal? owner)

section Refusals

variable {owner : String} {history : List Event} {d : Document}

theorem refusals_concat (event : Event) : refusals owner (history ++ [event]) =
    refusals owner history ++ (event.refusal? owner).toList := by
  rw [refusals, List.filterMap_append]
  cases h : event.refusal? owner <;> simp [refusals, h]

theorem refusals_concat_of_none {event : Event} (h : event.refusal? owner = none) :
    refusals owner (history ++ [event]) = refusals owner history := by
  rw [refusals_concat, h, Option.toList_none, List.append_nil]

theorem refusal?_inserted_of_ne (h : d.owner ≠ owner) (x : Except StoreError Document) :
    (Event.inserted d x).refusal? owner = none := by
  rcases x with e | d'
  · exact if_neg h
  · exact if_neg h

/-- An addition of the owner is one more to go by. -/
theorem exists_refusal?_inserted (h : d.owner = owner) (x : Except StoreError Document) :
    ∃ b, (Event.inserted d x).refusal? owner = some b := by
  rcases x with e | d'
  · exact ⟨true, if_pos h⟩
  · exact ⟨false, if_pos h⟩

/-- What an addition changes for its owner depends on whether it was refused. -/
theorem change?_inserted_congr {x y : Except StoreError Document} (h : d.owner = owner)
    (hxy : (Event.inserted d x).refusal? owner = (Event.inserted d y).refusal? owner) :
    (Event.inserted d x).change? owner = (Event.inserted d y).change? owner := by
  rcases x with e | d' <;> rcases y with e' | d'' <;> simp [Event.refusal?, h] at hxy <;> rfl

end Refusals

/-- **Two runs that go by the same additions of an owner**: who takes part in both has minted
the same, the additional parties have minted for others, and as many additions of the owner were
tried; if the same ones were refused, then the same has changed for the owner. -/
structure Abreast (owner : String) (extra : α → Bool) (w v : Shared α) : Prop where
  minted : ∀ who, extra who = false → v.minted who = w.minted who
  others : ∀ who d, w.minted who = some d → extra who = true → d.owner ≠ owner
  tried : (refusals owner w.history).length = (refusals owner v.history).length
  changes : refusals owner w.history = refusals owner v.history →
    changes owner w.history = changes owner v.history

section Abreast

variable {owner : String} {extra : α → Bool} {w v : Shared α}

/-- An event that is the same for the owner in both runs. -/
theorem Abreast.same (h : Abreast owner extra w v) (event event' : Event)
    (hnone : event.refusal? owner = none) (hnone' : event'.refusal? owner = none)
    (hchange : event.change? owner = event'.change? owner) (s s' : Memory) :
    Abreast owner extra ⟨s, w.minted, w.history ++ [event]⟩
      ⟨s', v.minted, v.history ++ [event']⟩ := by
  refine ⟨h.minted, h.others, ?_, fun hsame => ?_⟩
  · rw [refusals_concat_of_none hnone, refusals_concat_of_none hnone', h.tried]
  · rw [refusals_concat_of_none hnone, refusals_concat_of_none hnone'] at hsame
    rw [changes_concat, changes_concat, h.changes hsame, hchange]

/-- An addition of the owner that both runs try: up to here the same ones were refused, and so is
this one. -/
theorem Abreast.tries (h : Abreast owner extra w v) {d : Document} (hd : d.owner = owner)
    (x y : Except StoreError Document) :
    (refusals owner (w.history ++ [.inserted d x])).length =
      (refusals owner (v.history ++ [.inserted d y])).length ∧
    (refusals owner (w.history ++ [.inserted d x]) =
        refusals owner (v.history ++ [.inserted d y]) →
      Memory.changes owner (w.history ++ [.inserted d x]) =
        Memory.changes owner (v.history ++ [.inserted d y])) := by
  obtain ⟨b, hb⟩ := exists_refusal?_inserted hd x
  obtain ⟨c, hc⟩ := exists_refusal?_inserted hd y
  rw [refusals_concat, refusals_concat, hb, hc, Option.toList_some, Option.toList_some]
  refine ⟨by simp [h.tried], fun hsame => ?_⟩
  obtain ⟨hbefore, hlast⟩ := List.append_inj hsame h.tried
  obtain rfl := List.singleton_inj.mp hlast
  rw [changes_concat, changes_concat, h.changes hbefore,
    change?_inserted_congr hd (hb.trans hc.symm)]

end Abreast

section Without

variable [DecidableEq α] {owner : String} {extra : α → Bool} {acts : List (Act α)}

/-- **A run next to the same run without certain additions**: what holds of both at the start
and is kept by every step, whether both take it or only the first, holds of both in the end. -/
theorem run_without {R : Shared α → Shared α → Prop} (hempty : R {} {})
    (hstep : ∀ act ∈ acts, ∀ w v, R w v →
      R (act.step w) (if act.isBy extra then v else act.step v)) :
    R (run acts) (run (without extra acts)) := by
  have hkeep (acts' : List (Act α)) (hsub : ∀ act ∈ acts', act ∈ acts) (w v : Shared α)
      (hwv : R w v) : R (acts'.foldl (fun w act => act.step w) w)
        ((without extra acts').foldl (fun w act => act.step w) v) := by
    induction acts' generalizing w v with
    | nil => exact hwv
    | cons act acts' ih =>
      obtain ⟨hact, hrest⟩ := List.forall_mem_cons.mp hsub
      have hnext := hstep act hact w v hwv
      rw [without, List.filter_cons]
      rcases hby : act.isBy extra with _ | _
      · rw [hby] at hnext
        exact ih hrest _ _ hnext
      · rw [hby] at hnext
        exact ih hrest _ _ hnext
  exact hkeep acts (fun _ hact => hact) {} {} hempty

/-- What waits to be added was minted, or is kept from before. -/
theorem pending_update {Q : α → Document → Prop} {minted : α → Option Document}
    (h : ∀ who d, minted who = some d → Q who d) {who : α} {o : Option Document}
    (ho : ∀ d, o = some d → Q who d) (x : α) (d : Document)
    (hd : Function.update minted who o x = some d) : Q x d := by
  rcases eq_or_ne x who with rfl | hne
  · rw [Function.update_self] at hd
    exact ho d hd
  · rw [Function.update_of_ne hne] at hd
    exact h x d hd

/-- What one of the additional parties has minted is not seen in the other run. -/
theorem update_of_extra {minted : α → Option Document} {who : α} (hextra : extra who = true)
    (o : Option Document) {x : α} (hx : extra x = false) :
    Function.update minted who o x = minted x := by
  refine Function.update_of_ne ?_ _ _
  rintro rfl
  rw [hextra] at hx
  cases hx

theorem update_of_eq {minted minted' : α → Option Document} {x : α} (h : minted x = minted' x)
    (who : α) (o : Option Document) :
    Function.update minted who o x = Function.update minted' who o x := by
  rcases eq_or_ne x who with rfl | hne
  · rw [Function.update_self, Function.update_self]
  · rw [Function.update_of_ne hne, Function.update_of_ne hne, h]

variable {w v : Shared α}

/-- Where there is nothing to add, the other run stands still too. -/
theorem ite_step_commit_none {who : α} (h : extra who = false → v.minted who = none) :
    (if extra who then v else (Act.commit who).step v) = v := by
  rcases hextra : extra who with _ | _
  · exact step_commit_none (h hextra)
  · rfl

theorem Abreast.commit (h : Abreast owner extra w v) (who : α) :
    Abreast owner extra ((Act.commit who).step w)
      (if extra who then v else (Act.commit who).step v) := by
  rcases hd : w.minted who with _ | d
  · rw [step_commit_none hd, ite_step_commit_none fun hextra => (h.minted who hextra).trans hd]
    exact h
  have hothers : ∀ x d, Function.update w.minted who none x = some d → extra x = true →
      d.owner ≠ owner := pending_update h.others fun d hd => by cases hd
  rw [step_commit hd]
  rcases hextra : extra who with _ | _
  · have hminted (x : α) (hx : extra x = false) :
        Function.update v.minted who none x = Function.update w.minted who none x :=
      update_of_eq (h.minted x hx) who none
    rw [if_neg Bool.false_ne_true, step_commit ((h.minted who hextra).trans hd)]
    by_cases howner : d.owner = owner
    · obtain ⟨htried, hchanges⟩ := h.tries howner (w.store.commit d).1 (v.store.commit d).1
      exact ⟨hminted, hothers, htried, hchanges⟩
    · have hboth := h.same _ _ (refusal?_inserted_of_ne howner (w.store.commit d).1)
        (refusal?_inserted_of_ne howner (v.store.commit d).1)
        ((change?_inserted_of_ne howner _).trans (change?_inserted_of_ne howner _).symm)
        (w.store.commit d).2 (v.store.commit d).2
      exact ⟨hminted, hothers, hboth.tried, hboth.changes⟩
  · have howner : d.owner ≠ owner := h.others who d hd hextra
    rw [if_pos rfl]
    refine ⟨fun x hx => (h.minted x hx).trans (update_of_extra hextra none hx).symm, hothers, ?_,
      fun hsame => ?_⟩
    · rw [refusals_concat_of_none (refusal?_inserted_of_ne howner _), h.tried]
    · rw [refusals_concat_of_none (refusal?_inserted_of_ne howner _)] at hsame
      rw [changes_concat_of_none (change?_inserted_of_ne howner _), h.changes hsame]

/-- **One step of both runs**, or of one of them. -/
theorem Abreast.step (h : Abreast owner extra w v) (act : Act α)
    (hothers : ∀ who d, act.mints? = some (who, d) → extra who = true → d.owner ≠ owner) :
    Abreast owner extra (act.step w) (if act.isBy extra then v else act.step v) := by
  cases act with
  | mint who draft now e =>
    have hpending := pending_update h.others (o := some (draft.document now e).1) fun d hd =>
      Option.some.inj hd ▸ hothers who _ rfl
    rw [Act.isBy]
    rcases hextra : extra who with _ | _
    · exact ⟨fun x hx => update_of_eq (h.minted x hx) who _, hpending, h.tried, h.changes⟩
    · exact ⟨fun x hx => (h.minted x hx).trans (update_of_extra hextra _ hx).symm, hpending,
        h.tried, h.changes⟩
  | commit who => exact h.commit who
  | get id =>
    exact h.same (.fetched id (Store.get id w.store).1) (.fetched id (Store.get id v.store).1)
      rfl rfl rfl w.store v.store
  | list owner' =>
    exact h.same (.listed owner' (Store.list owner' w.store).1)
      (.listed owner' (Store.list owner' v.store).1) rfl rfl rfl w.store v.store
  | deleteBefore cutoff =>
    exact h.same (.swept cutoff (Store.deleteBefore cutoff w.store).1)
      (.swept cutoff (Store.deleteBefore cutoff v.store).1) rfl rfl rfl
      (w.store.deleteBefore cutoff).2 (v.store.deleteBefore cutoff).2

/-- **Additions for others matter by what is refused because of them**: if the same additions of
the owner are refused without them, then the same changes for the owner. -/
theorem changes_without (hothers : ForOthers owner extra acts)
    (hsame : refusals owner (run (without extra acts)).history =
      refusals owner (run acts).history) :
    changes owner (run (without extra acts)).history = changes owner (run acts).history := by
  have habreast : Abreast owner extra (run acts) (run (without extra acts)) := by
    refine run_without ⟨fun _ _ => rfl, fun _ _ hd => (by cases hd), rfl, fun _ => rfl⟩
      fun act hact w v h => h.step act fun who d hd => ?_
    exact hothers (who, d) (List.mem_filterMap.mpr ⟨act, hact, hd⟩)
  exact (habreast.changes hsame.symm).symm

end Without

/-! ### Additions under other ids -/

/-- What is kept under other keys than these. -/
def outside (ids : List String) (m : Memory) : List (String × Document) :=
  (m.entries.filter fun e => decide (e.key ∉ ids)).map fun e => (e.key, e.document)

section Outside

variable {ids : List String} {m m' : Memory} {d : Document}

theorem exists_key_iff_outside (hd : d.id ∉ ids) :
    (∃ e ∈ m.entries, e.key = d.id) ↔ ∃ x ∈ outside ids m, x.1 = d.id := by
  constructor
  · rintro ⟨e, he, hkey⟩
    refine ⟨(e.key, e.document), List.mem_map_of_mem (List.mem_filter.mpr ⟨he, ?_⟩), hkey⟩
    rw [hkey]
    exact decide_eq_true hd
  · rintro ⟨x, hx, hkey⟩
    obtain ⟨e, he, rfl⟩ := List.mem_map.mp hx
    exact ⟨e, (List.mem_filter.mp he).1, hkey⟩

/-- A document with one of the ids changes nothing outside of them. -/
theorem outside_commit_of_mem (m : Memory) (hd : d.id ∈ ids) :
    outside ids (m.commit d).2 = outside ids m := by
  obtain ⟨-, hc⟩ | ⟨-, hc⟩ := commit_cases m d
  · rw [hc]
  · rw [hc, outside, List.filter_cons_of_neg (by simpa using hd)]
    rfl

/-- Whether a document is added depends on what is kept under its id alone. -/
theorem commit_of_outside_eq (hd : d.id ∉ ids) (h : outside ids m = outside ids m') :
    (m.commit d).1 = (m'.commit d).1 ∧
      outside ids (m.commit d).2 = outside ids (m'.commit d).2 := by
  have htaken : (∃ e ∈ m.entries, e.key = d.id) ↔ ∃ e ∈ m'.entries, e.key = d.id := by
    rw [exists_key_iff_outside hd, exists_key_iff_outside hd, h]
  have hcons (m : Memory) : outside ids ⟨⟨d.id, m.nextSeq, d⟩ :: m.entries, m.nextSeq + 1⟩ =
      (d.id, d) :: outside ids m := by
    rw [outside, List.filter_cons_of_pos (by simpa using hd)]
    rfl
  obtain ⟨ht, hc⟩ | ⟨hfree, hc⟩ := commit_cases m d <;>
    obtain ⟨ht', hc'⟩ | ⟨hfree', hc'⟩ := commit_cases m' d <;> rw [hc, hc']
  · exact ⟨rfl, h⟩
  · obtain ⟨e, he, hkey⟩ := htaken.mp ht
    exact absurd hkey (hfree' e he)
  · obtain ⟨e, he, hkey⟩ := htaken.mpr ht'
    exact absurd hkey (hfree e he)
  · exact ⟨rfl, by rw [hcons, hcons, h]⟩

theorem outside_deleteBefore (cutoff : Timestamp) : outside ids (m.deleteBefore cutoff).2 =
    (outside ids m).filter fun x => !decide (x.2.createdAt < cutoff) := by
  rw [outside, outside, List.filter_map, deleteBefore, List.filter_filter, List.filter_filter]
  congr 1
  exact List.filter_congr fun e _ => Bool.and_comm _ _

end Outside

/-- **Additions apart from an owner**: what these parties add belongs to others, and is minted
under no id under which a document of this owner is minted. -/
def Apart (owner : String) (extra : α → Bool) (acts : List (Act α)) : Prop :=
  ∀ a ∈ acts.filterMap Act.mints?, extra a.1 = true → a.2.owner ≠ owner ∧
    ∀ b ∈ acts.filterMap Act.mints?, b.2.owner = owner → b.2.id ≠ a.2.id

instance (owner : String) (extra : α → Bool) (acts : List (Act α)) :
    Decidable (Apart owner extra acts) :=
  inferInstanceAs (Decidable (∀ a ∈ acts.filterMap Act.mints?, extra a.1 = true →
    a.2.owner ≠ owner ∧ ∀ b ∈ acts.filterMap Act.mints?, b.2.owner = owner → b.2.id ≠ a.2.id))

/-- The ids under which these parties mint documents. -/
def idsOf (extra : α → Bool) (acts : List (Act α)) : List String :=
  ((acts.filterMap Act.mints?).filter fun a => extra a.1).map (·.2.id)

/-- A document that is minted by one of these parties, or not, keeps apart. -/
def KeepsApart (owner : String) (extra : α → Bool) (ids : List String) (who : α) (d : Document) :
    Prop :=
  (extra who = true → d.owner ≠ owner ∧ d.id ∈ ids) ∧
    (extra who = false → d.owner = owner → d.id ∉ ids)

theorem Apart.forOthers {owner : String} {extra : α → Bool} {acts : List (Act α)}
    (h : Apart owner extra acts) : ForOthers owner extra acts :=
  fun a ha hextra => (h a ha hextra).1

theorem Apart.keepsApart {owner : String} {extra : α → Bool} {acts : List (Act α)}
    (h : Apart owner extra acts) {act : Act α} (hact : act ∈ acts) {who : α} {d : Document}
    (hd : act.mints? = some (who, d)) : KeepsApart owner extra (idsOf extra acts) who d := by
  have hmem : (who, d) ∈ acts.filterMap Act.mints? := List.mem_filterMap.mpr ⟨act, hact, hd⟩
  constructor
  · intro hextra
    refine ⟨(h _ hmem hextra).1, List.mem_map.mpr ⟨(who, d), ?_, rfl⟩⟩
    exact List.mem_filter.mpr ⟨hmem, hextra⟩
  · rintro - howner hid
    obtain ⟨a, ha, hsame⟩ := List.mem_map.mp hid
    obtain ⟨ha, hextra⟩ := List.mem_filter.mp ha
    exact (h a ha hextra).2 _ hmem howner hsame.symm

/-- **A run and the same run without additions that keep apart**: who takes part in both has
minted the same, outside the ids of the additions the stores are the same, and the same
additions of the owner were refused. -/
structure Shadows (owner : String) (extra : α → Bool) (ids : List String) (w v : Shared α) :
    Prop where
  minted : ∀ who, extra who = false → v.minted who = w.minted who
  apart : ∀ who d, w.minted who = some d → KeepsApart owner extra ids who d
  outside : outside ids w.store = outside ids v.store
  refusals : refusals owner w.history = refusals owner v.history

section Shadows

variable [DecidableEq α] {owner : String} {extra : α → Bool} {ids : List String} {w v : Shared α}

theorem Shadows.mint (h : Shadows owner extra ids w v) (who : α) (draft : Draft) (now : Timestamp)
    (e : Entropy) (hapart : KeepsApart owner extra ids who (draft.document now e).1) :
    Shadows owner extra ids ((Act.mint who draft now e).step w)
      (if extra who then v else (Act.mint who draft now e).step v) := by
  have hminted := pending_update h.apart (o := some (draft.document now e).1) fun d hd =>
    Option.some.inj hd ▸ hapart
  rcases hextra : extra who with _ | _
  · exact ⟨fun x hx => update_of_eq (h.minted x hx) who _, hminted, h.outside, h.refusals⟩
  · exact ⟨fun x hx => (h.minted x hx).trans (update_of_extra hextra _ hx).symm, hminted,
      h.outside, h.refusals⟩

theorem Shadows.commit (h : Shadows owner extra ids w v) (who : α) :
    Shadows owner extra ids ((Act.commit who).step w)
      (if extra who then v else (Act.commit who).step v) := by
  rcases hd : w.minted who with _ | d
  · rw [step_commit_none hd, ite_step_commit_none fun hextra => (h.minted who hextra).trans hd]
    exact h
  have hapart : ∀ x d, Function.update w.minted who none x = some d →
      KeepsApart owner extra ids x d := pending_update h.apart fun d hd => by cases hd
  obtain ⟨hothers, hown⟩ := h.apart who d hd
  rw [step_commit hd]
  rcases hextra : extra who with _ | _
  · have hminted (x : α) (hx : extra x = false) :
        Function.update v.minted who none x = Function.update w.minted who none x :=
      update_of_eq (h.minted x hx) who none
    rw [if_neg Bool.false_ne_true, step_commit ((h.minted who hextra).trans hd)]
    by_cases hid : d.id ∈ ids
    · -- the two runs may differ here, but this is not the owner's
      have howner : d.owner ≠ owner := fun hc => hown hextra hc hid
      refine ⟨hminted, hapart, ?_, ?_⟩
      · rw [outside_commit_of_mem _ hid, outside_commit_of_mem _ hid, h.outside]
      · rw [refusals_concat_of_none (refusal?_inserted_of_ne howner _),
          refusals_concat_of_none (refusal?_inserted_of_ne howner _), h.refusals]
    · obtain ⟨hresult, houtside⟩ := commit_of_outside_eq hid h.outside
      exact ⟨hminted, hapart, houtside,
        by rw [hresult, refusals_concat, refusals_concat, h.refusals]⟩
  · obtain ⟨howner, hid⟩ := hothers hextra
    rw [if_pos rfl]
    refine ⟨fun x hx => (h.minted x hx).trans (update_of_extra hextra none hx).symm, hapart, ?_, ?_⟩
    · rw [outside_commit_of_mem _ hid, h.outside]
    · rw [refusals_concat_of_none (refusal?_inserted_of_ne howner _), h.refusals]

/-- **One step of both runs**, or of one of them. -/
theorem Shadows.step (h : Shadows owner extra ids w v) (act : Act α)
    (hapart : ∀ who d, act.mints? = some (who, d) → KeepsApart owner extra ids who d) :
    Shadows owner extra ids (act.step w) (if act.isBy extra then v else act.step v) := by
  have hrefusals {event event' : Event} (he : event.refusal? owner = none)
      (he' : event'.refusal? owner = none) : Memory.refusals owner (w.history ++ [event]) =
        Memory.refusals owner (v.history ++ [event']) := by
    rw [refusals_concat_of_none he, refusals_concat_of_none he', h.refusals]
  cases act with
  | mint who draft now e => exact h.mint who draft now e (hapart who _ rfl)
  | commit who => exact h.commit who
  | get id => exact ⟨h.minted, h.apart, h.outside, hrefusals rfl rfl⟩
  | list owner' => exact ⟨h.minted, h.apart, h.outside, hrefusals rfl rfl⟩
  | deleteBefore cutoff =>
    refine ⟨h.minted, h.apart, ?_, hrefusals rfl rfl⟩
    exact (outside_deleteBefore cutoff).trans
      ((congrArg _ h.outside).trans (outside_deleteBefore cutoff).symm)

/-- Nothing is refused because of additions that keep apart. -/
theorem Apart.refusals_without {acts : List (Act α)} (h : Apart owner extra acts) :
    Memory.refusals owner (run (without extra acts)).history =
      Memory.refusals owner (run acts).history := by
  have hshadows : Shadows owner extra (idsOf extra acts) (run acts) (run (without extra acts)) :=
    run_without ⟨fun _ _ => rfl, fun _ _ hd => (by cases hd), rfl, rfl⟩
      fun act hact w v hwv => hwv.step act fun who d hd => h.keepsApart hact hd
  exact hshadows.refusals.symm

end Shadows

/-! ### Listings -/

/-- **A listing is the top hundred** of the owner's documents, in every state that any number of
sessions and sweepers can bring a store to: with clocks that go back, several documents of one
time, deletions in between, additions that fail.

It has as many documents as there are, up to a hundred, none of them twice; each stands strictly
above the next, by time of creation and then by number, and all of them above those that are
left out. The order in which the store keeps its entries does not show in it. It is what the
owner's own additions and the sweeps have left, so that other owners do not matter to it.
Additions for other owners, at whatever points they were made, could as well not have been made,
unless because of them an addition of this owner was refused, or was not; and they are no reason
for that where they use no id under which a document of this owner is minted. -/
theorem listing_is_top_hundred [DecidableEq α] (acts : List (Act α)) (owner : String) :
    (∃ top, (run acts).store.list owner = top.map (·.document) ∧
      Top 100 (ofOwner owner (run acts).store.entries) top) ∧
    ((run acts).store.list owner).length =
      min 100 ((run acts).store.entries.countP fun e => e.document.owner == owner) ∧
    ((run acts).store.list owner).Nodup ∧
    (∀ entries next, entries.Perm (run acts).store.entries →
      list ⟨entries, next⟩ owner = (run acts).store.list owner) ∧
    (run acts).store.list owner =
      ((standing (changes owner (run acts).history)).mergeSort laterFirst).take 100 ∧
    (∀ extra, ForOthers owner extra acts →
      refusals owner (run (without extra acts)).history = refusals owner (run acts).history →
      (run (without extra acts)).store.list owner = (run acts).store.list owner) ∧
    ∀ extra, Apart owner extra acts →
      refusals owner (run (without extra acts)).history = refusals owner (run acts).history ∧
      (run (without extra acts)).store.list owner = (run acts).store.list owner := by
  have hrecorded := recorded_run acts
  have hsub : (ofOwner owner (run acts).store.entries).Sublist (run acts).store.entries :=
    List.filter_sublist
  have hseq : ((ofOwner owner (run acts).store.entries).map (·.seq)).Nodup := by
    have hall : ((run acts).store.entries.map (·.seq)).Nodup :=
      List.pairwise_map.mpr (hrecorded.order.imp fun h => Nat.ne_of_gt h)
    exact hall.sublist (hsub.map _)
  have htop := top_mergeSort 100 hseq
  have hwithout (extra : α → Bool) (hothers : ForOthers owner extra acts)
      (hsame : refusals owner (run (without extra acts)).history =
        refusals owner (run acts).history) :
      (run (without extra acts)).store.list owner = (run acts).store.list owner := by
    rw [list_run, list_run, changes_without hothers hsame]
  refine ⟨⟨_, rfl, htop⟩, ?_, ?_, fun entries next hperm => ?_, list_run acts owner, hwithout,
    fun extra hapart => ⟨hapart.refusals_without,
      hwithout extra hapart.forOthers hapart.refusals_without⟩⟩
  · have hlength := htop.length
    rw [ofOwner, ← List.countP_eq_length_filter] at hlength
    exact (List.length_map _).trans hlength
  · have hids : ((ranked (run acts).store owner).map (·.document.id)).Nodup :=
      ((List.mergeSort_perm _ _).map _).nodup_iff.mpr (hrecorded.ids.sublist (hsub.map _))
    rw [list_eq]
    refine List.Nodup.of_map (·.id) ?_
    rw [List.map_map]
    exact hids.sublist ((List.take_sublist _ _).map _)
  · rw [list_eq, list_eq, ranked, ranked]
    exact congrArg (fun l => (l.take listLimit).map (·.document))
      (mergeSort_eq_of_perm (hperm.filter _) hseq)

/-- Documents of two times, two of them of the same, with two documents of another owner in
between, one of which would take the id of the first. -/
def mixedActs : List (Act ℕ) :=
  [.mint 0 ⟨"alice", "first", "note-"⟩ (.clamp 3) ⟨fun _ => 0, 0⟩, .commit 0,
    .mint 1 ⟨"alice", "second", "note-"⟩ (.clamp 5) ⟨fun _ => 1, 0⟩,
    .mint 9 ⟨"bobby", "between", "note-"⟩ (.clamp 6) ⟨fun _ => 9, 0⟩, .commit 9, .commit 1,
    .mint 9 ⟨"bobby", "too late", "note-"⟩ (.clamp 6) ⟨fun _ => 0, 0⟩, .commit 9,
    .mint 2 ⟨"alice", "third", "note-"⟩ (.clamp 5) ⟨fun _ => 2, 0⟩, .commit 2]

/-- Of two documents of one time the later addition is listed first, an older one comes last,
and the other owner's documents make no difference, though not all their ids are apart. -/
theorem listing_is_top_hundred_mixed :
    ForOthers "alice" (· == 9) mixedActs ∧ ¬Apart "alice" (· == 9) mixedActs ∧
      refusals "alice" (run (without (· == 9) mixedActs)).history =
        refusals "alice" (run mixedActs).history ∧
      (run (without (· == 9) mixedActs)).store.list "alice" =
        (run mixedActs).store.list "alice" ∧
      ((run mixedActs).store.list "alice").map (·.content) = ["third", "second", "first"] := by
  have hothers : ForOthers "alice" (· == 9) mixedActs := by decide +kernel
  have hsame : refusals "alice" (run (without (· == 9) mixedActs)).history =
      refusals "alice" (run mixedActs).history := by decide +kernel
  obtain ⟨-, -, -, -, hlist, hwithout, -⟩ := listing_is_top_hundred mixedActs "alice"
  refine ⟨hothers, by decide +kernel, hsame, hwithout _ hothers hsame, ?_⟩
  have hstanding : standing (changes "alice" (run mixedActs).history) =
      [⟨"note-02020202020202020202020202020202", "alice", "third", .clamp 5⟩,
        ⟨"note-01010101010101010101010101010101", "alice", "second", .clamp 5⟩,
        ⟨"note-00000000000000000000000000000000", "alice", "first", .clamp 3⟩] := by
    decide +kernel
  rw [hlist, hstanding, List.mergeSort_of_pairwise (by decide +kernel)]
  rfl

-- An addition can also let one of the owner's in, by keeping out what would have refused it.
example :
    let acts : List (Act ℕ) :=
      [.mint 9 ⟨"bobby", "first", "note-"⟩ (.clamp 1) ⟨fun _ => 0, 0⟩, .commit 9,
        .mint 1 ⟨"carol", "second", "note-"⟩ (.clamp 5) ⟨fun _ => 0, 0⟩, .commit 1,
        .deleteBefore (.clamp 2),
        .mint 2 ⟨"alice", "third", "note-"⟩ (.clamp 6) ⟨fun _ => 0, 0⟩, .commit 2]
    refusals "alice" (run acts).history = [false] ∧
      refusals "alice" (run (without (· == 9) acts)).history = [true] := by
  decide +kernel

/-- **An addition for another owner that takes an id first**: the one for this owner is refused,
and its document is not listed. Without the other it would be. -/
theorem listing_lost_to_other_owner :
    (run [.mint 0 ⟨"bobby", "content", "name-"⟩ (.clamp 5) ⟨fun _ => 7, 0⟩, .commit 0,
      .mint 1 ⟨"alice", "content", "name-"⟩ (.clamp 5) ⟨fun _ => 7, 0⟩,
      .commit 1]).store.list "alice" = [] ∧
    (run [.mint 1 ⟨"alice", "content", "name-"⟩ (.clamp 5) ⟨fun _ => 7, 0⟩,
      .commit 1]).store.list "alice" =
        [⟨"name-07070707070707070707070707070707", "alice", "content", .clamp 5⟩] := by
  decide +kernel

end Memory

end Vault
