import Vault.Proofs.Service.Effects
import Vault.Proofs.Store.History
import Vault.Proofs.Wire.RoundTrip
import Vault.Store.Scripted

/-!
# What comes of one message

A message that was opened has one of three fates, and they are told apart before the store is
touched. It is no request, and then the session ends. It is a request with a field that is
too short, and then the caller is told which. Or the store is called, once, and what it says
decides: a success is an answer, a missing document is one too, and any other failure ends the
session without a word about it.

The third fate is `Vault.Dispatch.consult`, written down apart from the machinery that logs and
hands the host around; the first two are in the statement
(`Vault.Dispatch.each_message_has_one_fate`). Which failures end a session and which do not can
be read off it: a caller is never told `internal` or `unimplemented` in an answer, and a session
never ends with `not_found`.
-/

namespace Vault

/-! ### Fields that are too short -/

namespace Request

/-- **The first field that is too short**, in the order in which fields are looked at. -/
def FirstShort : Request → String → Prop
  | add owner content name, field =>
    owner.length < 5 ∧ field = "owner" ∨
      5 ≤ owner.length ∧ name.length < 5 ∧ field = "name" ∨
      5 ≤ owner.length ∧ 5 ≤ name.length ∧ content.length < 5 ∧ field = "content"
  | get id, field => id.length < 5 ∧ field = "id"
  | list owner, field => owner.length < 5 ∧ field = "owner"

/-- The check looks at the fields in this order. -/
theorem firstShort?_eq_some_iff (r : Request) (field : String) :
    r.firstShort? = some field ↔ r.FirstShort field := by
  have hmin : minFieldLen = 5 := rfl
  cases r with
  | add owner content name =>
    rw [firstShort?, checkedFields, FirstShort, hmin]
    rcases Nat.lt_or_ge owner.length 5 with howner | howner
    · simp [howner, Nat.not_le.mpr howner, eq_comm]
    rcases Nat.lt_or_ge name.length 5 with hname | hname
    · simp [howner, hname, Nat.not_le.mpr hname, eq_comm]
    rcases Nat.lt_or_ge content.length 5 with hcontent | hcontent
    · simp [howner, hname, hcontent, Nat.not_lt.mpr howner, Nat.not_lt.mpr hname, eq_comm]
    · simp [howner, hname, hcontent]
  | get id =>
    rw [firstShort?, checkedFields, FirstShort, hmin]
    rcases Nat.lt_or_ge id.length 5 with hid | hid <;> simp [hid, eq_comm]
  | list owner =>
    rw [firstShort?, checkedFields, FirstShort, hmin]
    rcases Nat.lt_or_ge owner.length 5 with howner | howner <;> simp [howner, eq_comm]

theorem validate_of_firstShort {r : Request} {field : String} (h : r.FirstShort field) :
    r.validate = .error (.invalidArgument (field ++ " is too short")) := by
  rw [validate, (r.firstShort?_eq_some_iff field).mpr h]

theorem validate_of_not_firstShort {r : Request} (h : ¬∃ field, r.FirstShort field) :
    r.validate = .ok () := by
  have hnone : r.firstShort? = none := by
    rw [Option.eq_none_iff_forall_ne_some]
    exact fun field hfield => h ⟨field, (r.firstShort?_eq_some_iff field).mp hfield⟩
  rw [validate, hnone]

end Request

/-! ### What the store says -/

namespace Dispatch

variable {σ : Type}

/-- **What a caller gets to know of a call**: the answer, or the status with which the session
ends. -/
def told {α : Type} (f : α → Response) : Except StoreError α → Except Status Response
  | .ok a => .ok (f a)
  | .error (.notFound _) => .ok (.error (.notFound "document not found"))
  | .error _ => .error (.internal "storage failure")

/-- **The call of a request**: what the caller gets to know, and the store after it. -/
def consult [Store σ] (h : Host σ) : Request → Except Status Response × σ
  | .add owner content name =>
    let (x, store, _) := Store.insert ⟨owner, content, name⟩ h.now h.store h.entropy
    (told .document x, store)
  | .get id =>
    let (x, store) := Store.get id h.store
    (told .document x, store)
  | .list owner =>
    let (x, store) := Store.list owner h.store
    (told (fun ds => .documents (fitToFrame ds)) x, store)

/-- What becomes of a request that was handled: a failure that the caller is to blame for is an
answer. -/
def settle : Except Status Response × Host σ → Except Status Response × Host σ
  | (.ok response, h) => (.ok response, h)
  | (.error s, h) =>
    if s.kind.isClientError then (.ok (.error s), h.recordStatus s) else (.error s, h)

theorem settle_answer {α : Type} {f : α → Response} {g : α → Host σ → Response × Host σ}
    (hg : ∀ a h, (g a h).1 = f a ∧ (g a h).2.store = h.store) (x : Except StoreError α)
    (h : Host σ) :
    (settle (answer g (x, h))).1 = told f x ∧ (settle (answer g (x, h))).2.store = h.store := by
  rcases x with e | a
  · cases e <;> exact ⟨rfl, rfl⟩
  · exact ⟨congrArg Except.ok (hg a h).1, (hg a h).2⟩

variable [Store σ]

theorem settle_perform (r : Request) (h : Host σ) :
    (settle (perform r h)).1 = (consult h r).1 ∧
      (settle (perform r h)).2.store = (consult h r).2 := by
  cases r with
  | add owner content name =>
    exact settle_answer (f := .document) (g := fun d h => (.document d, h)) (fun _ _ => ⟨rfl, rfl⟩)
      (h.insert ⟨owner, content, name⟩).1 (h.insert ⟨owner, content, name⟩).2
  | get id =>
    exact settle_answer (f := .document) (g := fun d h => (.document d, h)) (fun _ _ => ⟨rfl, rfl⟩)
      (h.get id).1 (h.get id).2
  | list owner =>
    refine settle_answer (f := fun ds => .documents (fitToFrame ds))
      (g := fun ds h => (.documents (trim ds h).1, (trim ds h).2)) (fun ds h => ?_)
      (h.list owner).1 (h.list owner).2
    rw [trim]
    dsimp only
    split_ifs <;> exact ⟨rfl, rfl⟩

/-! ### The three fates -/

theorem dispatch_of_error {b : Bytes} {e : Wire.RequestError}
    (he : Wire.decodeRequest b = .error e) (h : Host σ) :
    dispatch b h = (.error e.status, h.recordStatus e.status) := by
  rw [dispatch, he]

theorem dispatch_of_firstShort {b : Bytes} {r : Request} (hr : Wire.decodeRequest b = .ok r)
    {field : String} (hfield : r.FirstShort field) (h : Host σ) :
    dispatch b h = (.ok (.error (.invalidArgument (field ++ " is too short"))),
      h.recordStatus (.invalidArgument (field ++ " is too short"))) := by
  rw [dispatch, hr]
  dsimp only
  rw [handle, Request.validate_of_firstShort hfield]
  rfl

theorem dispatch_eq_settle {b : Bytes} {r : Request} (hr : Wire.decodeRequest b = .ok r)
    (hlong : ¬∃ field, r.FirstShort field) (h : Host σ) :
    dispatch b h = settle (perform r h) := by
  rw [dispatch, hr]
  dsimp only
  rw [handle, Request.validate_of_not_firstShort hlong]
  rfl

theorem dispatch_of_not_firstShort {b : Bytes} {r : Request} (hr : Wire.decodeRequest b = .ok r)
    (hlong : ¬∃ field, r.FirstShort field) (h : Host σ) :
    (dispatch b h).1 = (consult h r).1 ∧ (dispatch b h).2.store = (consult h r).2 := by
  rw [dispatch_eq_settle hr hlong]
  exact settle_perform r h

/-- A caller is told of no failure but its own and a missing document, and a session does not
end over a missing document. -/
def Fair : Except Status Response → Prop
  | .ok (.error s) => s.kind = .invalidArgument ∨ s.kind = .notFound
  | .ok _ => True
  | .error s => s.kind ≠ .notFound

theorem fair_told {α : Type} {f : α → Response} (hf : ∀ a, Fair (.ok (f a)))
    (x : Except StoreError α) : Fair (told f x) := by
  rcases x with e | a
  · cases e with
    | notFound id => exact Or.inr rfl
    | _ => exact ErrorKind.noConfusion
  · exact hf a

theorem fair_consult (h : Host σ) (r : Request) : Fair (consult h r).1 := by
  cases r with
  | add owner content name => exact fair_told (f := .document) (fun _ => trivial) _
  | get id => exact fair_told (f := .document) (fun _ => trivial) _
  | list owner =>
    exact fair_told (f := fun ds => .documents (fitToFrame ds)) (fun _ => trivial) _

theorem fair_dispatch (b : Bytes) (h : Host σ) : Fair (dispatch b h).1 := by
  rcases hr : Wire.decodeRequest b with e | r
  · rw [dispatch_of_error hr]
    cases e <;> exact ErrorKind.noConfusion
  by_cases hshort : ∃ field, r.FirstShort field
  · obtain ⟨field, hfield⟩ := hshort
    rw [dispatch_of_firstShort hr hfield]
    exact Or.inl rfl
  · rw [(dispatch_of_not_firstShort hr hshort h).1]
    exact fair_consult h r

theorem eq_notFound_of_told {α : Type} {f : α → Response} (hf : ∀ a s, f a ≠ .error s)
    {x : Except StoreError α} {s : Status} (h : told f x = .ok (.error s)) :
    s = .notFound "document not found" := by
  rcases x with e | a
  · cases e with
    | notFound id => exact (Response.error.inj (Except.ok.inj h)).symm
    | _ => cases h
  · exact absurd (Except.ok.inj h) (hf a s)

theorem eq_notFound_of_consult {h : Host σ} {r : Request} {s : Status}
    (hs : (consult h r).1 = .ok (.error s)) : s = .notFound "document not found" := by
  cases r with
  | add owner content name => exact eq_notFound_of_told (f := .document) (by simp) hs
  | get id => exact eq_notFound_of_told (f := .document) (by simp) hs
  | list owner =>
    exact eq_notFound_of_told (f := fun ds => .documents (fitToFrame ds)) (by simp) hs

/-- What goes wrong with a request and is told in an answer is told in few words. -/
theorem brief_of_answer {b : Bytes} {h : Host σ} {s : Status}
    (hs : (dispatch b h).1 = .ok (.error s)) : s.Brief := by
  rcases hr : Wire.decodeRequest b with e | r
  · rw [dispatch_of_error hr] at hs
    cases hs
  by_cases hshort : ∃ field, r.FirstShort field
  · obtain ⟨field, hfield⟩ := hshort
    rw [dispatch_of_firstShort hr hfield] at hs
    rw [← Response.error.inj (Except.ok.inj hs)]
    exact Request.brief_of_validate (Request.validate_of_firstShort hfield)
  · rw [(dispatch_of_not_firstShort hr hshort h).1] at hs
    rw [eq_notFound_of_consult hs, Status.Brief]
    decide

/-! ### Stores under observation, and the store in memory -/

/-- The call is the request's own, and it is the only one. -/
theorem consult_observed (h : Host (Observed σ)) (r : Request) :
    (consult h r).1 = (consult (h.mapStore Observed.store) r).1 ∧
      (consult h r).2.store = (consult (h.mapStore Observed.store) r).2 ∧
      ∃ failure, (consult h r).2.calls = h.store.calls ++ [⟨r.storeCall, failure⟩] := by
  cases r with
  | add owner content name => exact ⟨rfl, rfl, _, rfl⟩
  | get id => exact ⟨rfl, rfl, _, rfl⟩
  | list owner => exact ⟨rfl, rfl, _, rfl⟩

/-- The message asks for an addition, and this document is the answer. -/
def Adds (b : Bytes) (x : Except Status Response) (d : Document) : Prop :=
  (∃ owner content name, Wire.decodeRequest b = .ok (.add owner content name)) ∧
    x = .ok (.document d)

/-- A store in memory takes in the document of an addition, and nothing else. -/
theorem consult_memory (h : Host Memory) (r : Request) :
    (∃ owner content name d, r = .add owner content name ∧ (consult h r).1 = .ok (.document d) ∧
      (consult h r).2 = ⟨⟨d.id, h.store.nextSeq, d⟩ :: h.store.entries, h.store.nextSeq + 1⟩) ∨
    (∀ owner content name d, r = .add owner content name → (consult h r).1 ≠ .ok (.document d)) ∧
      (consult h r).2 = h.store := by
  cases r with
  | add owner content name =>
    have hconsult : consult h (.add owner content name) =
        (told .document
            (h.store.commit (Draft.document ⟨owner, content, name⟩ h.now h.entropy).1).1,
          (h.store.commit (Draft.document ⟨owner, content, name⟩ h.now h.entropy).1).2) := rfl
    rw [hconsult]
    obtain ⟨-, hcommit⟩ | ⟨-, hcommit⟩ :=
      h.store.commit_cases (Draft.document ⟨owner, content, name⟩ h.now h.entropy).1
    · rw [hcommit]
      exact Or.inr ⟨fun _ _ _ _ _ => nofun, rfl⟩
    · rw [hcommit]
      exact Or.inl ⟨owner, content, name, _, rfl, rfl, rfl⟩
  | get id => exact Or.inr ⟨fun _ _ _ _ => Request.noConfusion, rfl⟩
  | list owner => exact Or.inr ⟨fun _ _ _ _ => Request.noConfusion, rfl⟩

theorem dispatch_memory (b : Bytes) (h : Host Memory) :
    (∀ d, Adds b (dispatch b h).1 d → (dispatch b h).2.store =
      ⟨⟨d.id, h.store.nextSeq, d⟩ :: h.store.entries, h.store.nextSeq + 1⟩) ∧
    ((∀ d, ¬Adds b (dispatch b h).1 d) → (dispatch b h).2.store = h.store) := by
  rcases hr : Wire.decodeRequest b with e | r
  · rw [dispatch_of_error hr]
    exact ⟨fun d hd => absurd hd.2 nofun, fun _ => rfl⟩
  by_cases hshort : ∃ field, r.FirstShort field
  · obtain ⟨field, hfield⟩ := hshort
    rw [dispatch_of_firstShort hr hfield]
    exact ⟨fun d hd => absurd hd.2 nofun, fun _ => rfl⟩
  obtain ⟨hresult, hstore⟩ := dispatch_of_not_firstShort hr hshort h
  rw [hresult, hstore]
  obtain ⟨owner, content, name, d, rfl, hd, hgrown⟩ | ⟨hother, hsame⟩ := consult_memory h r
  · rw [hd, hgrown]
    refine ⟨fun d' hd' => ?_, fun hnone => absurd ⟨⟨owner, content, name, hr⟩, rfl⟩ (hnone d)⟩
    cases hd'.2
    rfl
  · refine ⟨fun d hd => ?_, fun _ => hsame⟩
    obtain ⟨⟨owner, content, name, hadd⟩, hd⟩ := hd
    rw [hr] at hadd
    cases hadd
    exact absurd hd (hother owner content name d rfl)

/-- **Each message has one fate.** On a store that records its calls, and otherwise is any store
at all: a message that is no request ends the session with the status of that, and one with a
field that is too short is answered with the name of the first such field, and either way the
store is not called; any other is one call, with the fields of the request, and what is told of
it is what `told` says. The record changes nothing. No answer speaks of a failure of the vault or
of an unknown operation, no session ends over a missing document, and a store in memory takes in
the document of an addition that is answered with it, and no other. -/
theorem each_message_has_one_fate (b : Bytes) (h : Host (Observed σ)) :
    (∀ e, Wire.decodeRequest b = .error e →
      (dispatch b h).1 = .error e.status ∧ (dispatch b h).2.store = h.store) ∧
    (∀ r field, Wire.decodeRequest b = .ok r → r.FirstShort field →
      (dispatch b h).1 = .ok (.error (.invalidArgument (field ++ " is too short"))) ∧
        (dispatch b h).2.store = h.store) ∧
    (∀ r, Wire.decodeRequest b = .ok r → (¬∃ field, r.FirstShort field) →
      (dispatch b h).1 = (consult (h.mapStore Observed.store) r).1 ∧
        (dispatch b h).2.store.store = (consult (h.mapStore Observed.store) r).2 ∧
        ∃ failure, (dispatch b h).2.store.calls = h.store.calls ++ [⟨r.storeCall, failure⟩]) ∧
    dispatch b (h.mapStore Observed.store) =
      ((dispatch b h).1, (dispatch b h).2.mapStore Observed.store) ∧
    (∀ s, (dispatch b h).1 = .ok (.error s) → s.kind ≠ .internal ∧ s.kind ≠ .unimplemented) ∧
    (∀ s, (dispatch b h).1 = .error s → s.kind ≠ .notFound) ∧
    ∀ m : Host Memory,
      (∀ d, Adds b (dispatch b m).1 d → (dispatch b m).2.store =
        ⟨⟨d.id, m.store.nextSeq, d⟩ :: m.store.entries, m.store.nextSeq + 1⟩) ∧
      ((∀ d, ¬Adds b (dispatch b m).1 d) → (dispatch b m).2.store = m.store) := by
  have hfair := fair_dispatch b h
  refine ⟨fun e he => ?_, fun r field hr hfield => ?_, fun r hr hlong => ?_,
    dispatch_mapStore Observed.morphism_store b h, fun s hs => ?_, fun s hs => ?_,
    dispatch_memory b⟩
  · rw [dispatch_of_error he]
    exact ⟨rfl, rfl⟩
  · rw [dispatch_of_firstShort hr hfield]
    exact ⟨rfl, rfl⟩
  · obtain ⟨hresult, hstore⟩ := dispatch_of_not_firstShort hr hlong h
    rw [hresult, hstore]
    exact consult_observed h r
  · rw [hs] at hfair
    obtain hkind | hkind := hfair <;> rw [hkind] <;> decide
  · rw [hs] at hfair
    exact hfair

end Dispatch

/-- A document whose text has this many letters. -/
def longDocument (n : ℕ) : Document :=
  ⟨"long", "alice", String.ofList (List.replicate n 'z'), .epoch⟩

theorem lt_size_longDocument (n : ℕ) : n < (Wire.writeDocument (longDocument n)).size := by
  have hcontent : (Utf8.encode (longDocument n).content).size = n := Utf8.size_encode_replicate n
  rw [Wire.size_writeDocument, Cbor.textSize, Cbor.textSize, Cbor.textSize, hcontent]
  omega

namespace Dispatch

/-- A document that is too long for any listing is cut off one with a short document in front. -/
theorem fitToFrame_longDocument :
    fitToFrame [longDocument 5, longDocument maxListBytes] = [longDocument 5] := by
  have hshort : ¬maxListBytes < 0 + (Wire.writeDocument (longDocument 5)).size := by
    decide +kernel
  have hlong : maxListBytes < 0 + (Wire.writeDocument (longDocument 5)).size +
      (Wire.writeDocument (longDocument maxListBytes)).size := by
    have hsize := lt_size_longDocument maxListBytes
    omega
  rw [fitToFrame, fitting, if_neg hshort, fitting, if_pos hlong]
  rfl

/-- A host whose next fetch fails for good, once it has failed for want of a document, and whose
listings are too long. -/
def failingHost : Host (Observed Scripted) where
  store :=
    { store :=
        { gets := [some (.notFound "doc-1"), some (.database "disk I/O error")]
          docs := [longDocument 5, longDocument maxListBytes] } }
  now := .epoch
  entropy := ⟨fun _ => 0, 0⟩

/-- An addition with two short fields is told of the first; a fetch that finds nothing is
answered, and the next one, on which the store fails, ends the session. A listing is one call, and
the answer is cut to what fits. -/
theorem each_message_has_one_fate_failing :
    (dispatch (Wire.encodeRequest (.add "alice" "x" "y")) failingHost).1 =
        .ok (.error (.invalidArgument "name is too short")) ∧
      (dispatch (Wire.encodeRequest (.add "alice" "x" "y")) failingHost).2.store.calls = [] ∧
      (dispatch (Wire.encodeRequest (.get "doc-1")) failingHost).1 =
        .ok (.error (.notFound "document not found")) ∧
      (dispatch (Wire.encodeRequest (.get "doc-1"))
        (dispatch (Wire.encodeRequest (.get "doc-1")) failingHost).2).1 =
          .error (.internal "storage failure") ∧
      (dispatch (Wire.encodeRequest (.list "alice")) failingHost).1 =
        .ok (.documents [longDocument 5]) ∧
      ∃ failure, (dispatch (Wire.encodeRequest (.list "alice")) failingHost).2.store.calls =
        [⟨.list "alice", failure⟩] := by
  have hadd : Wire.decodeRequest (Wire.encodeRequest (.add "alice" "x" "y")) =
      .ok (.add "alice" "x" "y") := Wire.decodeRequest_encodeRequest (by decide +kernel)
  have hget : Wire.decodeRequest (Wire.encodeRequest (.get "doc-1")) = .ok (.get "doc-1") :=
    Wire.decodeRequest_encodeRequest (by decide +kernel)
  have hlong : ¬∃ field, (Request.get "doc-1").FirstShort field := by
    rintro ⟨field, hshort, -⟩
    exact absurd hshort (by decide)
  obtain ⟨hshort, hunchanged⟩ := (each_message_has_one_fate
    (Wire.encodeRequest (.add "alice" "x" "y")) failingHost).2.1 _ "name" hadd
      (Or.inr (Or.inl ⟨by decide, by decide, rfl⟩))
  obtain ⟨hmissing, hstore, -⟩ := (each_message_has_one_fate
    (Wire.encodeRequest (.get "doc-1")) failingHost).2.2.1 _ hget hlong
  obtain ⟨hfailed, -⟩ := (each_message_has_one_fate (Wire.encodeRequest (.get "doc-1"))
    (dispatch (Wire.encodeRequest (.get "doc-1")) failingHost).2).2.2.1 _ hget hlong
  have hlist : Wire.decodeRequest (Wire.encodeRequest (.list "alice")) = .ok (.list "alice") :=
    Wire.decodeRequest_encodeRequest (by decide +kernel)
  have howner : ¬∃ field, (Request.list "alice").FirstShort field := by
    rintro ⟨field, hshort, -⟩
    exact absurd hshort (by decide)
  obtain ⟨hlisted, -, hcalls⟩ := (each_message_has_one_fate (Wire.encodeRequest (.list "alice"))
    failingHost).2.2.1 _ hlist howner
  have hcut : (consult (failingHost.mapStore Observed.store) (.list "alice")).1 =
    .ok (.documents (fitToFrame [longDocument 5, longDocument maxListBytes])) := rfl
  rw [fitToFrame_longDocument] at hcut
  refine ⟨hshort, congrArg Observed.calls hunchanged, hmissing, hfailed.trans ?_,
    hlisted.trans hcut, hcalls⟩
  rw [consult, Host.mapStore, hstore]
  rfl

end Dispatch

end Vault
