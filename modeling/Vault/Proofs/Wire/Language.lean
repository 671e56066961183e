import Mathlib.Data.List.Forall2
import Vault.Proofs.Cbor.Language
import Vault.Proofs.Wire.RoundTrip

/-!
# The language of requests

A request is read in two steps: the bytes as an item, and the item as a request. The first step
is `Vault.Cbor.Item.reads_spells`; this file is about the second, and puts the two together.

An item denotes a request if it is a map whose one entry has the name of the operation for a key
and the fields for a body (`Vault.Wire.Denotes`). The body is read with some indulgence: tags do
not matter, nor does the order of the fields, nor what else is there under a text. But each field
occurs once and is a text (`Vault.Wire.Holds`), and every key is a text.

An item that denotes no request is refused in one of two ways. If there is no operation in it that
could be carried out, it is `Vault.Wire.Nameless`; what else there is, is malformed, and so are
bytes that do not begin with an item (`Vault.Wire.decodes_language_of_requests`).
-/

namespace Vault.Wire

open Cbor

/-! ### Fields -/

/-- No entry has this text for a key. -/
def Absent (entries : List (Item × Item)) (name : String) : Prop :=
  ∀ e ∈ entries, e.1.untagged ≠ .text name

/-- **A field occurs exactly once**, with this text. -/
def Holds (entries : List (Item × Item)) (name value : String) : Prop :=
  ∃ before key v after, entries = before ++ (key, v) :: after ∧ key.untagged = .text name ∧
    v.untagged = .text value ∧ Absent (before ++ after) name

/-- Every key is a text. -/
def Keyed (entries : List (Item × Item)) : Prop :=
  ∀ e ∈ entries, ∃ name, e.1.untagged = .text name

variable {entries : List (Item × Item)} {k v : Item} {name value : String}

theorem absent_cons : Absent ((k, v) :: entries) name ↔
    k.untagged ≠ .text name ∧ Absent entries name := List.forall_mem_cons

theorem keyed_cons : Keyed ((k, v) :: entries) ↔
    (∃ name, k.untagged = .text name) ∧ Keyed entries := List.forall_mem_cons

theorem not_holds_nil : ¬Holds [] name value := by
  rintro ⟨before, key, v, after, h, -⟩
  simp at h

theorem holds_cons : Holds ((k, v) :: entries) name value ↔
    (k.untagged = .text name ∧ v.untagged = .text value ∧ Absent entries name) ∨
      (k.untagged ≠ .text name ∧ Holds entries name value) := by
  constructor
  · rintro ⟨before, key, x, after, h, hkey, hx, habsent⟩
    cases before with
    | nil =>
      cases h
      exact Or.inl ⟨hkey, hx, habsent⟩
    | cons e before =>
      cases h
      obtain ⟨hne, habsent⟩ := absent_cons.mp habsent
      exact Or.inr ⟨hne, before, key, x, after, rfl, hkey, hx, habsent⟩
  · rintro (⟨hk, hv, habsent⟩ | ⟨hne, before, key, x, after, rfl, hkey, hx, habsent⟩)
    · exact ⟨[], k, v, entries, rfl, hk, hv, habsent⟩
    · exact ⟨(k, v) :: before, key, x, after, rfl, hkey, hx, absent_cons.mpr ⟨hne, habsent⟩⟩

theorem itemText_eq_ok_iff {i : Item} {s : String} : itemText i = .ok s ↔ i.untagged = .text s := by
  rw [itemText]
  cases i.untagged <;> simp

theorem any_eq_isSome_lookup (found : List (String × String)) (name : String) :
    (found.any fun f => f.1 == name) = (found.lookup name).isSome := by
  induction found with
  | nil => rfl
  | cons f found ih =>
    rw [List.any_cons, ih, List.lookup_cons]
    by_cases h : f.1 = name
    · rw [h, beq_self_eq_true, Bool.true_or]
      rfl
    · rw [beq_eq_false_iff_ne.mpr h, beq_eq_false_iff_ne.mpr (Ne.symm h), Bool.false_or]

theorem lookup_concat_self {found : List (String × String)} (h : found.lookup name = none)
    (value : String) : (found ++ [(name, value)]).lookup name = some value := by
  rw [List.lookup_append, h, List.lookup_cons_self]
  rfl

theorem lookup_concat_of_ne {found : List (String × String)} {x : String} (h : x ≠ name)
    (value : String) : (found ++ [(name, value)]).lookup x = found.lookup x := by
  rw [List.lookup_append, List.lookup_cons, beq_eq_false_iff_ne.mpr h, List.lookup_nil,
    Option.or_none]

section Gather

variable {known : List String} {found found' : List (String × String)}

/-- One entry at a time: a known field is found, once and as a text; another is passed over. -/
theorem fieldValues_cons (hk : k.untagged = .text name) :
    fieldValues known ((k, v) :: entries) found = .ok found' ↔
      (name ∈ known ∧ found.lookup name = none ∧ ∃ value, v.untagged = .text value ∧
        fieldValues known entries (found ++ [(name, value)]) = .ok found') ∨
      (name ∉ known ∧ fieldValues known entries found = .ok found') := by
  rw [fieldValues, itemText_eq_ok_iff.mpr hk]
  dsimp only
  by_cases hknown : name ∈ known
  · rw [if_pos hknown, any_eq_isSome_lookup]
    rcases hfound : found.lookup name with _ | x
    · rw [if_neg (by simp)]
      rcases hv : itemText v with e | value
      · have hnot (value : String) : v.untagged ≠ .text value := by
          intro h
          rw [itemText_eq_ok_iff.mpr h] at hv
          cases hv
        simp [hknown, hnot]
      · have hvalue := itemText_eq_ok_iff.mp hv
        simp [hknown, hvalue]
    · simp [hknown]
  · simp [hknown]

/-- **What is gathered**: the fields that were found before, and those that occur once. -/
theorem lookup_of_fieldValues (h : fieldValues known entries found = .ok found') :
    Keyed entries ∧ ∀ name ∈ known, ∀ value, found'.lookup name = some value ↔
      (found.lookup name = some value ∧ Absent entries name) ∨
        (found.lookup name = none ∧ Holds entries name value) := by
  induction entries generalizing found with
  | nil =>
    cases h
    refine ⟨nofun, fun name _ value => ?_⟩
    simp [Absent, not_holds_nil]
  | cons e entries ih =>
    obtain ⟨k, v⟩ := e
    rcases hk : itemText k with e | field
    · rw [fieldValues, hk] at h
      cases h
    have hkey := itemText_eq_ok_iff.mp hk
    obtain ⟨hfield, hnone, x, hx, h⟩ | ⟨hfield, h⟩ := (fieldValues_cons hkey).mp h
    · obtain ⟨hkeyed, hlookup⟩ := ih h
      refine ⟨keyed_cons.mpr ⟨⟨field, hkey⟩, hkeyed⟩, fun name hname value => ?_⟩
      rw [hlookup name hname value, absent_cons, holds_cons, hkey, hx]
      by_cases heq : name = field
      · -- found here, so it must not occur again
        subst heq
        rw [lookup_concat_self hnone]
        simp [hnone]
      · rw [lookup_concat_of_ne heq]
        simp [Ne.symm heq]
    · obtain ⟨hkeyed, hlookup⟩ := ih h
      refine ⟨keyed_cons.mpr ⟨⟨field, hkey⟩, hkeyed⟩, fun name hname value => ?_⟩
      have hne : field ≠ name := fun heq => hfield (heq ▸ hname)
      rw [hlookup name hname value, absent_cons, holds_cons, hkey]
      simp [hne]

/-- All is gathered if every key is a text and no field occurs twice or is no text. -/
theorem exists_fieldValues (hkeyed : Keyed entries) (h : ∀ name ∈ known, Absent entries name ∨
    (found.lookup name = none ∧ ∃ value, Holds entries name value)) :
    ∃ found', fieldValues known entries found = .ok found' := by
  induction entries generalizing found with
  | nil => exact ⟨found, rfl⟩
  | cons e entries ih =>
    obtain ⟨k, v⟩ := e
    obtain ⟨⟨field, hkey⟩, hkeyed⟩ := keyed_cons.mp hkeyed
    simp only [absent_cons, holds_cons, hkey] at h
    by_cases hfield : field ∈ known
    · obtain ⟨hne, -⟩ | ⟨hnone, value, ⟨-, hvalue, habsent⟩ | ⟨hne, -⟩⟩ := h field hfield
      · exact absurd rfl hne
      · have hrest : ∀ name ∈ known, Absent entries name ∨
            ((found ++ [(field, value)]).lookup name = none ∧
              ∃ value, Holds entries name value) := by
          intro name hname
          by_cases heq : name = field
          · subst heq
            exact Or.inl habsent
          · rw [lookup_concat_of_ne heq]
            simpa [Ne.symm heq] using h name hname
        obtain ⟨found', hfound'⟩ := ih hkeyed hrest
        exact ⟨found', (fieldValues_cons hkey).mpr (Or.inl ⟨hfield, hnone, value, hvalue, hfound'⟩)⟩
      · exact absurd rfl hne
    · obtain ⟨found', hfound'⟩ := ih hkeyed fun name hname => by
        have hne : field ≠ name := fun heq => hfield (heq ▸ hname)
        simpa [hne] using h name hname
      exact ⟨found', (fieldValues_cons hkey).mpr (Or.inr ⟨hfield, hfound'⟩)⟩

end Gather

/-! ### Operations -/

theorem mapM_fieldValue_iff {known values : List String} {found : List (String × String)} :
    known.mapM (fieldValue found) = .ok values ↔
      List.Forall₂ (fun name value => found.lookup name = some value) known values := by
  induction known generalizing values with
  | nil =>
    rw [List.forall₂_nil_left_iff]
    exact ⟨fun h => (Except.ok.inj h).symm, fun h => congrArg Except.ok h.symm⟩
  | cons name known ih =>
    rw [List.mapM_cons, List.forall₂_cons_left_iff, fieldValue]
    constructor
    · intro h
      rcases hname : found.lookup name with _ | value
      · rw [hname] at h
        cases h
      rcases hrest : known.mapM (fieldValue found) with e | rest
      · rw [hname, hrest] at h
        cases h
      · rw [hname, hrest] at h
        cases h
        exact ⟨value, rest, rfl, ih.mp hrest, rfl⟩
    · rintro ⟨value, rest, hvalue, hrest, rfl⟩
      rw [hvalue, ih.mpr hrest]
      rfl

/-- The values found are those of the fields. -/
theorem forall₂_lookup_iff {known : List String} {found : List (String × String)}
    (h : fieldValues known entries [] = .ok found) (values : List String) :
    List.Forall₂ (fun name value => found.lookup name = some value) known values ↔
      List.Forall₂ (Holds entries) known values := by
  obtain ⟨-, hlookup⟩ := lookup_of_fieldValues h
  rw [List.forall₂_iff_zip, List.forall₂_iff_zip]
  refine and_congr_right fun _ => ?_
  refine forall_congr' fun name => forall_congr' fun value => forall_congr' fun hmem => ?_
  rw [hlookup name (List.of_mem_zip hmem).1 value]
  simp

/-- **The body of an operation**: a map in which each of its fields occurs once. -/
theorem bodyFields_eq_ok_iff {known values : List String} {body : Item} :
    bodyFields known body = .ok values ↔ ∃ entries, body.untagged = .map entries ∧
      Keyed entries ∧ List.Forall₂ (Holds entries) known values := by
  rw [bodyFields]
  constructor
  · intro h
    split at h
    · next entries hbody =>
      rcases hfound : fieldValues known entries [] with e | found
      · rw [hfound] at h
        cases h
      · rw [hfound] at h
        exact ⟨entries, hbody, (lookup_of_fieldValues hfound).1,
          (forall₂_lookup_iff hfound values).mp (mapM_fieldValue_iff.mp h)⟩
    · cases h
  · rintro ⟨entries, hbody, hkeyed, hfields⟩
    rw [hbody]
    dsimp only
    -- nothing was found before, so all that is asked of a field is that it occurs
    have hoccurs : ∀ name ∈ known, ∃ value, Holds entries name value := by
      clear hbody
      induction hfields with
      | nil => exact nofun
      | cons hvalue _ ih => exact List.forall_mem_cons.mpr ⟨⟨_, hvalue⟩, ih⟩
    obtain ⟨found, hfound⟩ : ∃ found, fieldValues known entries [] = .ok found :=
      exists_fieldValues hkeyed fun name hname => Or.inr ⟨rfl, hoccurs name hname⟩
    rw [hfound]
    exact mapM_fieldValue_iff.mpr ((forall₂_lookup_iff hfound values).mpr hfields)

/-! ### Requests -/

/-- **An item denotes a request**: it is a map of one entry, from the name of the operation to a
map, tagged or not, with texts for keys in which every field of the request occurs exactly
once. -/
def Denotes (i : Item) (r : Request) : Prop :=
  ∃ body entries, i = .map [(.text r.tag, body)] ∧ body.untagged = .map entries ∧
    Keyed entries ∧ ∀ f ∈ requestFields r, Holds entries f.1 f.2

/-- **An item without an operation** that could be carried out: null, an empty map, or a map of
one entry whose key is not the name of an operation. -/
def Nameless : Item → Prop
  | .null => True
  | .map [] => True
  | .map [(key, _)] => key ≠ .text "add" ∧ key ≠ .text "get" ∧ key ≠ .text "list"
  | _ => False

theorem operationFields_tag (r : Request) :
    operationFields r.tag = some ((requestFields r).map Prod.fst) := by
  cases r <;> rfl

theorem requestOf_tag (r : Request) :
    requestOf r.tag ((requestFields r).map Prod.snd) = some r := by
  cases r <;> rfl

theorem operationFields_eq_none_iff {tag : String} :
    operationFields tag = none ↔ tag ≠ "add" ∧ tag ≠ "get" ∧ tag ≠ "list" := by
  unfold operationFields
  split <;> simp_all

/-- As many values as an operation has fields are a request. -/
theorem exists_request {tag : String} {fields values : List String}
    (hfields : operationFields tag = some fields) (hlength : fields.length = values.length) :
    ∃ r : Request, r.tag = tag ∧ (requestFields r).map Prod.fst = fields ∧
      (requestFields r).map Prod.snd = values := by
  unfold operationFields at hfields
  split at hfields
  · cases hfields
    obtain ⟨owner, content, name, rfl⟩ := List.length_eq_three.mp hlength.symm
    exact ⟨.add owner content name, rfl, rfl, rfl⟩
  · cases hfields
    obtain ⟨id, rfl⟩ := List.length_eq_one_iff.mp hlength.symm
    exact ⟨.get id, rfl, rfl, rfl⟩
  · cases hfields
    obtain ⟨owner, rfl⟩ := List.length_eq_one_iff.mp hlength.symm
    exact ⟨.list owner, rfl, rfl, rfl⟩
  · cases hfields

theorem forall₂_fields_iff (r : Request) : List.Forall₂ (Holds entries)
    ((requestFields r).map Prod.fst) ((requestFields r).map Prod.snd) ↔
      ∀ f ∈ requestFields r, Holds entries f.1 f.2 := by
  rw [List.forall₂_map_left_iff, List.forall₂_map_right_iff, List.forall₂_same]

theorem ofEntry_eq_ok_iff {key body : Item} {r : Request} : ofEntry key body = .ok r ↔
    key = .text r.tag ∧ ∃ entries, body.untagged = .map entries ∧ Keyed entries ∧
      ∀ f ∈ requestFields r, Holds entries f.1 f.2 := by
  constructor
  · intro h
    cases key with
    | text tag =>
      rw [ofEntry] at h
      rcases hop : operationFields tag with _ | fields
      · rw [hop] at h
        cases h
      rw [hop] at h
      dsimp only at h
      rcases hbody : bodyFields fields body with e | values
      · rw [hbody] at h
        cases h
      rw [hbody] at h
      dsimp only at h
      obtain ⟨entries, hmap, hkeyed, hfields⟩ := bodyFields_eq_ok_iff.mp hbody
      obtain ⟨r', rfl, rfl, rfl⟩ := exists_request hop hfields.length_eq
      rw [requestOf_tag] at h
      cases h
      exact ⟨rfl, entries, hmap, hkeyed, (forall₂_fields_iff r).mp hfields⟩
    | _ => cases h
  · rintro ⟨rfl, entries, hmap, hkeyed, hfields⟩
    have hbody : bodyFields ((requestFields r).map Prod.fst) body =
        .ok ((requestFields r).map Prod.snd) :=
      bodyFields_eq_ok_iff.mpr ⟨entries, hmap, hkeyed, (forall₂_fields_iff r).mpr hfields⟩
    rw [ofEntry, operationFields_tag]
    dsimp only
    rw [hbody]
    dsimp only
    rw [requestOf_tag]

theorem ofEntry_unknown_iff {key body : Item} :
    (∃ name, ofEntry key body = .error (.unknownOperation name)) ↔
      key ≠ .text "add" ∧ key ≠ .text "get" ∧ key ≠ .text "list" := by
  cases key with
  | text tag =>
    simp only [ne_eq, Item.text.injEq]
    rw [← operationFields_eq_none_iff, ofEntry]
    rcases hop : operationFields tag with _ | fields
    · exact ⟨fun _ => rfl, fun _ => ⟨tag, rfl⟩⟩
    refine ⟨fun ⟨name, h⟩ => ?_, nofun⟩
    dsimp only at h
    rcases hbody : bodyFields fields body with e | values
    · rw [hbody] at h
      cases h
    rw [hbody] at h
    dsimp only at h
    obtain ⟨entries, -, -, hfields⟩ := bodyFields_eq_ok_iff.mp hbody
    obtain ⟨r', rfl, rfl, rfl⟩ := exists_request hop hfields.length_eq
    rw [requestOf_tag] at h
    cases h
  | _ => exact ⟨fun _ => ⟨nofun, nofun, nofun⟩, fun _ => ⟨_, rfl⟩⟩

theorem ofItem_eq_ok_iff {i : Item} {r : Request} : ofItem i = .ok r ↔ Denotes i r := by
  have hdenotes {key body : Item} : Denotes (.map [(key, body)]) r ↔ ofEntry key body = .ok r := by
    rw [ofEntry_eq_ok_iff]
    constructor
    · rintro ⟨body, entries, h, hrest⟩
      cases h
      exact ⟨rfl, entries, hrest⟩
    · rintro ⟨rfl, entries, hrest⟩
      exact ⟨body, entries, rfl, hrest⟩
  match i with
  | .map [(key, body)] => exact hdenotes.symm
  | .map [] | .map (_ :: _ :: _) => exact ⟨nofun, fun ⟨_, _, h, _⟩ => by cases h⟩
  | .null | .integer _ | .bytes _ | .float _ | .text _ | .bool _ | .tag _ _ | .array _ =>
    exact ⟨nofun, fun ⟨_, _, h, _⟩ => by cases h⟩

theorem ofItem_unknown_iff {i : Item} :
    (∃ name, ofItem i = .error (.unknownOperation name)) ↔ Nameless i := by
  match i with
  | .map [(key, body)] => exact ofEntry_unknown_iff
  | .null | .map [] => exact ⟨fun _ => trivial, fun _ => ⟨_, rfl⟩⟩
  | .map (_ :: _ :: _) | .integer _ | .bytes _ | .float _ | .text _ | .bool _ | .tag _ _
  | .array _ => exact ⟨fun ⟨_, h⟩ => (nomatch h), False.elim⟩

/-! ### Decoding -/

theorem size_ne_zero_of_begins {b : Bytes} {i : Item} (h : Item.Begins b i) : b.size ≠ 0 := by
  obtain ⟨w, rest, hl, h, u, v, rfl, hu, -⟩ := h
  have hpos := hu.length_pos
  rw [← Bytes.length_octets, hl, List.length_append, List.length_append]
  omega

theorem decodeRequest_of_begins {b : Bytes} {i : Item} (h : Item.Begins b i) :
    decodeRequest b = ofItem i := by
  rw [decodeRequest, if_neg (size_ne_zero_of_begins h), Item.ofBytes_eq_ok_iff.mpr h]

theorem decodeRequest_of_not_begins {b : Bytes} (hb : b.size ≠ 0) (h : ¬∃ i, Item.Begins b i) :
    ∃ reason, decodeRequest b = .error (.malformed reason) := by
  rw [decodeRequest, if_neg hb]
  rcases hread : Item.ofBytes b with e | i
  · exact ⟨e.message, rfl⟩
  · exact absurd ⟨i, Item.ofBytes_eq_ok_iff.mp hread⟩ h

theorem decodeRequest_unknown_iff {b : Bytes} :
    (∃ name, decodeRequest b = .error (.unknownOperation name)) ↔
      b.size = 0 ∨ ∃ i, Item.Begins b i ∧ Nameless i := by
  by_cases hb : b.size = 0
  · rw [decodeRequest, if_pos hb]
    exact ⟨fun _ => Or.inl hb, fun _ => ⟨_, rfl⟩⟩
  rw [or_iff_right hb]
  by_cases hbegins : ∃ i, Item.Begins b i
  · obtain ⟨i, hi⟩ := hbegins
    rw [decodeRequest_of_begins hi, ofItem_unknown_iff]
    constructor
    · exact fun h => ⟨i, hi, h⟩
    · rintro ⟨j, hj, h⟩
      rwa [hi.unique hj]
  · obtain ⟨reason, hreason⟩ := decodeRequest_of_not_begins hb hbegins
    rw [hreason]
    constructor
    · rintro ⟨name, ⟨⟩⟩
    · rintro ⟨i, hi, -⟩
      exact absurd ⟨i, hi⟩ hbegins

theorem decodeRequest_eq_ok_iff {b : Bytes} {r : Request} :
    decodeRequest b = .ok r ↔ ∃ i, Item.Begins b i ∧ Denotes i r := by
  constructor
  · intro h
    by_cases hbegins : ∃ i, Item.Begins b i
    · obtain ⟨i, hi⟩ := hbegins
      rw [decodeRequest_of_begins hi] at h
      exact ⟨i, hi, ofItem_eq_ok_iff.mp h⟩
    by_cases hb : b.size = 0
    · rw [decodeRequest, if_pos hb] at h
      cases h
    · obtain ⟨reason, hreason⟩ := decodeRequest_of_not_begins hb hbegins
      cases hreason.symm.trans h
  · rintro ⟨i, hi, hr⟩
    rw [decodeRequest_of_begins hi]
    exact ofItem_eq_ok_iff.mpr hr

theorem decodeRequest_malformed_iff {b : Bytes} :
    (∃ reason, decodeRequest b = .error (.malformed reason)) ↔
      (¬∃ name, decodeRequest b = .error (.unknownOperation name)) ∧
        ¬∃ r, decodeRequest b = .ok r := by
  rcases decodeRequest b with (name | reason) | r <;> simp

/-- **The language of requests.** A byte string is refused for want of an operation exactly if it
is empty or its first item is nameless; it is a request exactly if its first item denotes it; and
it is malformed in every other case. The caller is told `unimplemented` in the first case and
`invalid_argument` in the last. No byte string begins with two items, so there is only one thing
to say of each. -/
theorem decodes_language_of_requests (b : Bytes) :
    ((∃ name, decodeRequest b = .error (.unknownOperation name)) ↔
      b.size = 0 ∨ ∃ i, Item.Begins b i ∧ Nameless i) ∧
    (∀ r, decodeRequest b = .ok r ↔ ∃ i, Item.Begins b i ∧ Denotes i r) ∧
    ((∃ reason, decodeRequest b = .error (.malformed reason)) ↔
      b.size ≠ 0 ∧ ∀ i, Item.Begins b i → ¬Nameless i ∧ ∀ r, ¬Denotes i r) ∧
    (∀ name, (RequestError.unknownOperation name).status.kind = .unimplemented) ∧
    (∀ reason, (RequestError.malformed reason).status.kind = .invalidArgument) ∧
    ∀ i j, Item.Begins b i → Item.Begins b j → i = j := by
  refine ⟨decodeRequest_unknown_iff, fun r => decodeRequest_eq_ok_iff, ?_, fun _ => rfl,
    fun _ => rfl, fun i j => Item.Begins.unique⟩
  rw [decodeRequest_malformed_iff, decodeRequest_unknown_iff]
  simp only [decodeRequest_eq_ok_iff]
  push Not
  constructor
  · rintro ⟨⟨hb, hnameless⟩, hdenotes⟩
    exact ⟨hb, fun i hi => ⟨hnameless i hi, fun r => hdenotes r i hi⟩⟩
  · rintro ⟨hb, h⟩
    exact ⟨⟨hb, fun i hi => (h i hi).1⟩, fun r i hi => (h i hi).2 r⟩

/-- A request to fetch a document, in a roundabout way: maps of unknown length, a tagged body, a
name in two pieces, a tagged value, one more field, and a byte that belongs to nothing. -/
def roundaboutGet : Bytes :=
  ⟨#[0xbf, 0x63, 0x67, 0x65, 0x74, 0xc1, 0xbf, 0x7f, 0x61, 0x69, 0x61, 0x64, 0xff, 0xc9, 0x65, 0x64,
    0x6f, 0x63, 0x2d, 0x31, 0x61, 0x78, 0x80, 0xff, 0xff, 0x00]⟩

/-- It is a request all the same, and nothing else. -/
theorem decodes_language_of_requests_roundabout :
    ∃ i, Item.Begins roundaboutGet i ∧ Denotes i (.get "doc-1") ∧
      ∀ j, Item.Begins roundaboutGet j → j = i := by
  obtain ⟨-, hok, -, -, -, hunique⟩ := decodes_language_of_requests roundaboutGet
  obtain ⟨i, hi, hr⟩ := (hok (.get "doc-1")).mp (by decide +kernel)
  exact ⟨i, hi, hr, fun j hj => hunique j i hj hi⟩

/-- A request for a listing with one more field: a whole number in so many bytes, all of them the
greatest there is, behind a tag. -/
def numberedList (tag size : ℕ) : Bytes :=
  writeVariant "list" (writeRecord [("owner", writeText "alice"),
    ("since", Head.write 6 tag ++ writeBytes (Bytes.replicate size 0xff))])

/-- **A field that does not matter can make a request malformed**: among the numbers in 16 bytes
the negative one is refused, and the positive one is passed over. So is the negative number in 15
or 17 bytes. -/
theorem unrelated_number_refused :
    decodeRequest (numberedList 3 16) =
        .error (.malformed "Semantic(None, \"integer too large\")") ∧
      decodeRequest (numberedList 2 16) = .ok (.list "alice") ∧
      decodeRequest (numberedList 3 15) = .ok (.list "alice") ∧
      decodeRequest (numberedList 3 17) = .ok (.list "alice") := by
  decide +kernel

end Vault.Wire
