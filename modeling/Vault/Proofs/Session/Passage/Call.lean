import Vault.Proofs.Session.Passage.Voice

/-!
# How a request gets through

An exchange over a stream of bytes goes through very many states; but they are of few kinds
(`Vault.Duplex.Sound`): the request is leaving, the server has yet to read it, the server says
its answer, or the call is over. Only a server that is shut down before it has read the request
says something else than its answer, and then nothing was carried out.

So a call comes to what the client makes of the answer, or it fails and the store is as it
was (`Vault.Duplex.concluded_after`). And it does come to an end
(`Vault.Duplex.over_after`): as long as the server is not shut down, every poll does
nothing or brings the end nearer, and where nothing moves any more the call is over.
-/

namespace Vault

variable {σ : Type} [Store σ]

namespace Duplex

/-! ### The states in between -/

theorem fits_end : Frame.end.Fits := by decide

section Sound

variable (calm : Prop) (secret : Crypto.SharedSecret) (m plain : Bytes) (h : Host σ)

/-- An envelope opens to a request, and whatever the server says about it can be sent. -/
structure Ready : Prop where
  /-- The request is not too long for a frame. -/
  arrives : Frame.Carries plain.size
  /-- The envelope opens. -/
  opens : Crypto.Envelope.reveal secret m = .ok plain
  /-- What is said is not too long for a frame. -/
  short : ∀ f store, Says secret plain h f store → f.Fits

/-- What the client is told and the store that goes with it: what the server says about the
request, or that it was shut down, with the store as it was. -/
def Account (f : Frame) (store : σ) : Prop :=
  (Frame.Carries plain.size ∧ Says secret plain h f store) ∨
    ¬calm ∧ f = .end ∧ store = h.store

/-- What the call has come to and the store that goes with it: what the client makes of what
the server says about the request, or a failure, with the store as it was. While the server
is not shut down, only a request that is too long for a frame fails in this way. -/
def Concluded (o : Client.Outcome) (store : σ) : Prop :=
  (Frame.Carries plain.size ∧ ∃ f, Says secret plain h f store ∧ o = heard secret (.ok (some f))) ∨
    ((∃ e, o = .error e) ∧ store = h.store ∧ (calm → ¬Frame.Carries plain.size))

/-- **Where an exchange can be.** -/
inductive Sound : Duplex σ → Prop
  /-- The request is too long for a frame. -/
  | unsendable {p q : Pipe} (hlong : ¬(Frame.message m).Fits) (hnot : ¬Frame.Carries plain.size)
    (hp : Idle p) (hq : Idle q) (hroom : calm → 0 < q.capacity) :
    Sound ⟨asking secret m none, .pipes p q false, listening secret {}, h⟩
  /-- The request is leaving. -/
  | asking {p q : Pipe} {taken b : Bytes} {rest : Option Bytes} (hready : Ready secret m plain h)
    (hfits : (Frame.message m).Fits) (hb : (Frame.message m).Leaves rest b) (hleft : b.size ≠ 0)
    (htogether : taken ++ p.buffered ++ b = (Frame.message m).onWire) (hopen : p.closed = false)
    (hroom : calm → 0 < p.capacity ∧ 0 < q.capacity) (hq : Idle q) :
    Sound ⟨asking secret m rest, .pipes p q false, listening secret ⟨taken⟩, h⟩
  /-- The request has left. -/
  | asked {p q : Pipe} {taken : Bytes} (hready : Ready secret m plain h)
    (hfits : (Frame.message m).Fits)
    (htogether : taken ++ p.buffered = (Frame.message m).onWire) (hleft : p.buffered.size ≠ 0)
    (hopen : p.closed = false) (hq : Idle q) (hroom : calm → 0 < q.capacity) :
    Sound ⟨awaiting secret {}, .pipes p q false, listening secret ⟨taken⟩, h⟩
  /-- The server has a reply that is too long for a frame. -/
  | overlong {p q : Pipe} {envelope : Bytes} {h' : Host σ}
    (haccount : Account calm secret plain h (.abort (overflowing envelope).toStatus) h'.store)
    (hlong : ¬(Frame.message envelope).Fits)
    (habort : (Frame.abort (overflowing envelope).toStatus).Fits) (hp : Idle p) (hq : Idle q)
    (hroom : calm → 0 < q.capacity) :
    Sound ⟨awaiting secret {}, .pipes p q false,
      saying (.established secret) (.reply envelope) none, h'⟩
  /-- The server says something, and the client reads it. -/
  | hearing {idle : Prop} {f : Frame} {taken : Bytes} {p q : Pipe} {said : Bool}
    {stop : Server.Stop} {h' : Host σ} (hidle : idle → Idle p)
    (haccount : Account calm secret plain h f h'.store) (hfits : f.Fits)
    (hvoice : Voice calm idle f taken q said stop) :
    Sound ⟨awaiting secret ⟨taken⟩, .pipes p q said, stop, h'⟩
  /-- The call is over. -/
  | finished {idle : Prop} {o : Client.Outcome} {p q : Pipe} {said : Bool} {stop : Server.Stop}
    {h' : Host σ} (hidle : idle → Idle p) (hconcluded : Concluded calm secret plain h o h'.store)
    (hquiet : Quiet calm idle stop) : Sound ⟨.inr o, .pipes p q said, stop, h'⟩
  /-- The server was shut down while the request is leaving. -/
  | leaving {rest : Option Bytes} {p q : Pipe} {said : Bool} {stop : Server.Stop} {h' : Host σ}
    (hcalm : ¬calm) (hstore : h'.store = h.store)
    (hvoice : Voice calm False .end ByteArray.empty q said stop) :
    Sound ⟨asking secret m rest, .pipes p q said, stop, h'⟩

/-- A move leads to such a state again, and if the server is never shut down it brings the
end of the call nearer. -/
def Advances (move : Move) (w : Duplex σ) : Prop :=
  Sound calm secret m plain h (step move w) ∧ (calm → Nearer move w)

end Sound

section Moves

variable {calm : Prop} {secret : Crypto.SharedSecret} {m plain b taken : Bytes} {h h' : Host σ}
  {w : Duplex σ} {p q : Pipe} {rest : Option Bytes} {said : Bool} {stop : Server.Stop}
  {t : Timestamp} {s : Signal}

theorem Account.concluded {f : Frame} {store : σ}
    (haccount : Account calm secret plain h f store) :
    Concluded calm secret plain h (heard secret (.ok (some f))) store := by
  rcases haccount with ⟨harrives, hspoken⟩ | ⟨hcalm, rfl, hstore⟩
  · exact Or.inl ⟨harrives, f, hspoken, rfl⟩
  · exact Or.inr ⟨⟨.closed, rfl⟩, hstore, fun hc => absurd hc hcalm⟩

/-- The client writes on at its request. -/
theorem advances_asking (hready : Ready secret m plain h) (hfits : (Frame.message m).Fits)
    (hb : (Frame.message m).Leaves rest b) (hleft : b.size ≠ 0)
    (htogether : taken ++ p.buffered ++ b = (Frame.message m).onWire)
    (hopen : p.closed = false) (hroom : calm → 0 < p.capacity ∧ 0 < q.capacity) (hq : Idle q) :
    Advances calm secret m plain h .call
      ⟨asking secret m rest, .pipes p q false, listening secret ⟨taken⟩, h⟩ := by
  rcases Pipe.write_cases hleft hopen with hwrite | ⟨front, left, rfl, hne, hwrite, -⟩
  · have hstep : step .call ⟨asking secret m rest, .pipes p q false, listening secret ⟨taken⟩, h⟩ =
        ⟨awaiting secret {}, .pipes (p.holding (p.buffered ++ b)) q false,
          listening secret ⟨taken⟩, h⟩ := call_sends hb hwrite
    have hsize : (p.buffered ++ b).size = p.buffered.size + b.size := ByteArray.size_append
    refine ⟨?_, fun _ => Or.inr (Or.inr ?_)⟩
    · rw [hstep]
      refine .asked hready hfits ?_ ?_ hopen hq fun hc => (hroom hc).2
      · rw [Pipe.buffered_holding, ← ByteArray.append_assoc, htogether]
      · rw [Pipe.buffered_holding, hsize]
        omega
    · have hpending := size_le_pending hb
      rw [hstep, rank_awaiting, rank_asking, Pipe.buffered_holding, openings_holding, hsize,
        serverLoad_listening secret (by omega)]
      omega
  · have hstep : step .call ⟨asking secret m rest, .pipes p q false, listening secret ⟨taken⟩, h⟩ =
        ⟨asking secret m (some left), .pipes (p.holding (p.buffered ++ front)) q false,
          listening secret ⟨taken⟩, h⟩ := call_sends_part hb hwrite
    refine ⟨?_, fun _ => Or.inr ?_⟩
    · rw [hstep]
      refine .asking hready hfits (Or.inl rfl) hne ?_ hopen hroom hq
      rw [Pipe.buffered_holding, ← htogether]
      simp only [ByteArray.append_assoc]
    · rw [hstep]
      rcases pending_part hb with ⟨rfl, rfl⟩ | hless
      · refine Or.inl ?_
        rw [ByteArray.append_empty, Pipe.holding_buffered]
      · refine Or.inr ?_
        rw [rank_asking, rank_asking, Pipe.buffered_holding, ByteArray.size_append,
          openings_holding]
        omega

/-- With nothing there to read the client goes on waiting. -/
theorem call_idle (hq : Idle q) :
    step .call ⟨awaiting secret {}, .pipes p q said, stop, h'⟩ =
      ⟨awaiting secret {}, .pipes p q said, stop, h'⟩ :=
  call_hears_part (read_idle hq)

/-- The client writes on at its request to a server that was shut down. -/
theorem sound_call_leaving (hcalm : ¬calm) (hstore : h'.store = h.store)
    (hvoice : Voice calm False .end ByteArray.empty q said stop) :
    Sound calm secret m plain h
      (step .call ⟨asking secret m rest, .pipes p q said, stop, h'⟩) := by
  have hfails (e : SessionError) (p' : Pipe) :
      Sound calm secret m plain h ⟨.inr (.error e), .pipes p' q said, stop, h'⟩ :=
    .finished False.elim (Or.inr ⟨⟨e, rfl⟩, hstore, fun hc => absurd hc hcalm⟩)
      (quiet_of_voice hcalm hvoice)
  rcases Frame.leaves_or_long (.message m) rest with ⟨b, hb⟩ | ⟨rfl, hlong⟩
  · rcases hwrite : p.write b with ⟨p', (e | _) | b'⟩
    · rw [call_sends hb hwrite]
      exact hfails _ _
    · rw [call_sends hb hwrite]
      exact .hearing False.elim (Or.inr ⟨hcalm, rfl, hstore⟩) fits_end hvoice
    · rw [call_sends_part hb hwrite]
      exact .leaving hcalm hstore hvoice
  · rw [call_sends_long hlong]
    exact hfails _ _

/-- **What a poll of the client leads to.** -/
theorem advances_call (hw : Sound calm secret m plain h w) :
    Advances calm secret m plain h .call w := by
  cases hw with
  | unsendable hlong hnot hp hq hroom =>
    refine ⟨?_, fun _ => Or.inr (Or.inr ?_)⟩
    · rw [call_sends_long hlong]
      exact .finished (fun _ => hp) (Or.inr ⟨⟨_, rfl⟩, rfl, fun _ => hnot⟩)
        (.listening secret trivial)
    · rw [call_sends_long hlong, rank_over, rank_asking]
      omega
  | asking hready hfits hb hleft htogether hopen hroom hq =>
    exact advances_asking hready hfits hb hleft htogether hopen hroom hq
  | asked hready hfits htogether hleft hopen hq hroom =>
    rw [Advances, call_idle hq]
    exact ⟨.asked hready hfits htogether hleft hopen hq hroom,
      fun _ => Or.inr (Or.inl (call_idle hq))⟩
  | overlong haccount hlong habort hp hq hroom =>
    rw [Advances, call_idle hq]
    exact ⟨.overlong haccount hlong habort hp hq hroom, fun _ => Or.inr (Or.inl (call_idle hq))⟩
  | @hearing idle f taken p q said stop h' hidle haccount hfits hvoice =>
    rcases voice_call hfits hvoice secret p h' with
      ⟨taken', q', hstep, hvoice', hnearer⟩ | ⟨q', hstep, hquiet⟩
    · refine ⟨?_, fun _ => hnearer⟩
      rw [hstep]
      exact .hearing hidle haccount hfits hvoice'
    · refine ⟨?_, fun _ => Or.inr (Or.inr ?_)⟩
      · rw [hstep]
        exact .finished hidle haccount.concluded hquiet
      · rw [hstep, rank_over, rank_awaiting]
        omega
  | finished hidle hconcluded hquiet =>
    exact ⟨.finished hidle hconcluded hquiet, fun _ => Or.inl ⟨_, rfl⟩⟩
  | leaving hcalm hstore hvoice =>
    exact ⟨sound_call_leaving hcalm hstore hvoice, fun hc => absurd hc hcalm⟩

/-- The server is shut down before it has read the request. -/
theorem shut_voice (hq : Idle q) (hroom : calm → 0 < q.capacity) :
    Voice calm False .end ByteArray.empty q false
      (saying .terminated (.closing (.ok ()) (.ok .done) false) none) :=
  voice_begins (.closing (.ok ()) (.ok .done)) fits_end hq hroom

/-- The server has read the request. -/
theorem sound_taking (hready : Ready secret m plain h)
    (hp : Idle p) (hq : Idle q) (hroom : calm → 0 < q.capacity) {turn : Server.Turn σ}
    (hturn : taking secret plain (h.observing t s) = turn) :
    Sound calm secret m plain h
      ⟨awaiting secret {}, .pipes p q false, turn.stop .serve, turn.host⟩ := by
  rcases taking_cases secret plain (h.observing t s) with
    ⟨h', envelope, hreply⟩ | ⟨h', last, result, hlast⟩
  · obtain rfl := hturn.symm.trans hreply
    by_cases hfits : (Frame.message envelope).Fits
    · have hspoken : Says secret plain h (.message envelope) h'.store :=
        ⟨t, s, hreply ▸ .reply hfits⟩
      exact .hearing (fun _ => hp) (Or.inl ⟨hready.arrives, hspoken⟩) hfits
        (voice_begins (.reply secret envelope trivial) hfits hq hroom)
    · have hspoken : Says secret plain h (.abort (overflowing envelope).toStatus) h'.store :=
        ⟨t, s, hreply ▸ .overflow hfits⟩
      exact .overlong (Or.inl ⟨hready.arrives, hspoken⟩) hfits (hready.short _ _ hspoken) hp hq
        hroom
  · obtain rfl := hturn.symm.trans hlast
    have hspoken : Says secret plain h (Link.closingFrame last) h'.store := ⟨t, s, hlast ▸ .last⟩
    have hfits := hready.short _ _ hspoken
    exact .hearing False.elim (Or.inl ⟨hready.arrives, hspoken⟩) hfits
      (voice_begins (.closing last result) hfits hq hroom)

theorem serverLoad_taking (secret : Crypto.SharedSecret) (plain : Bytes) (h : Host σ) :
    serverLoad 0 ((taking secret plain h).stop .serve) < allowance := by
  have hdeliver (phase : Server.Phase) (d : Server.Delivering) :
      serverLoad 0 (saying phase d none) < allowance := by
    have hload := pending_none_le (frameOf d)
    rw [serverLoad_saying, allowance]
    omega
  rcases taking_cases secret plain h with ⟨h', envelope, hreply⟩ | ⟨h', last, result, hlast⟩
  · rw [hreply]
    exact hdeliver _ _
  · rw [hlast]
    exact hdeliver _ _

/-- The server takes the rest of the request and carries it out. -/
theorem serve_takes (hready : Ready secret m plain h) (hfits : (Frame.message m).Fits)
    (htogether : taken ++ p.buffered = (Frame.message m).onWire) (hleft : p.buffered.size ≠ 0)
    (hs : s.cancelled = false) :
    step (.serve t s) ⟨awaiting secret {}, .pipes p q false, listening secret ⟨taken⟩, h⟩ =
      ⟨awaiting secret {}, .pipes (p.holding ByteArray.empty) q false,
        (taking secret plain (h.observing t s)).stop .serve,
        (taking secret plain (h.observing t s)).host⟩ := by
  have hread : p.read ⟨taken⟩ =
      (p.holding ByteArray.empty, .ready (.ok (some (.message m)))) := by
    refine Pipe.read_whole (r := ⟨taken⟩) hfits ?_ ?_
    · rw [htogether, ByteArray.append_empty]
    · change taken.size < _
      rw [← htogether, ByteArray.size_append]
      omega
  exact serve_reads hs hread (received_request _ hready.opens)

/-- The server takes what there is of a request that is leaving. -/
theorem advances_reading (hready : Ready secret m plain h) (hfits : (Frame.message m).Fits)
    (hb : (Frame.message m).Leaves rest b) (hleft : b.size ≠ 0)
    (htogether : taken ++ p.buffered ++ b = (Frame.message m).onWire)
    (hopen : p.closed = false) (hroom : calm → 0 < p.capacity ∧ 0 < q.capacity) (hq : Idle q)
    (hs : s.cancelled = false) :
    Advances calm secret m plain h (.serve t s)
      ⟨asking secret m rest, .pipes p q false, listening secret ⟨taken⟩, h⟩ := by
  have hstep : step (.serve t s)
      ⟨asking secret m rest, .pipes p q false, listening secret ⟨taken⟩, h⟩ = _ :=
    serve_reads_part hs (Pipe.read_partial (r := ⟨taken⟩) hfits htogether hleft hopen)
  refine ⟨?_, fun _ => Or.inr ?_⟩
  · rw [hstep]
    refine .asking hready hfits hb hleft ?_ hopen hroom hq
    rw [Pipe.buffered_holding, ByteArray.append_empty, htogether]
  · rw [hstep]
    rcases emptied p taken with ⟨hpipe, htaken⟩ | hsome
    · refine Or.inl ?_
      rw [hpipe, htaken]
    · refine Or.inr ?_
      rw [rank_asking, rank_asking, Pipe.buffered_holding, openings_holding, ByteArray.size_empty]
      omega

/-- **What a poll of the server leads to.** -/
theorem advances_serve (hcalm : calm → s.cancelled = false) (hw : Sound calm secret m plain h w) :
    Advances calm secret m plain h (.serve t s) w := by
  have hshut (hs : s.cancelled = true) : ¬calm := fun hc =>
    Bool.false_ne_true ((hcalm hc).symm.trans hs)
  cases hw with
  | @unsendable p q hlong hnot hp hq hroom =>
    by_cases hs : s.cancelled = true
    · rw [Advances, serve_shut hs]
      exact ⟨.leaving (hshut hs) rfl (shut_voice hq hroom), fun hc => absurd hc (hshut hs)⟩
    · have hsame : step (.serve t s)
          ⟨Duplex.asking secret m none, .pipes p q false, listening secret {}, h⟩ = _ :=
        serve_reads_part (Bool.eq_false_iff.mpr hs) (read_idle hp)
      rw [Advances, hsame]
      exact ⟨.unsendable hlong hnot hp hq hroom, fun _ => Or.inr (Or.inl hsame)⟩
  | asking hready hfits hb hleft htogether hopen hroom hq =>
    by_cases hs : s.cancelled = true
    · rw [Advances, serve_shut hs]
      exact ⟨.leaving (hshut hs) rfl (shut_voice hq fun hc => (hroom hc).2),
        fun hc => absurd hc (hshut hs)⟩
    · exact advances_reading hready hfits hb hleft htogether hopen hroom hq
        (Bool.eq_false_iff.mpr hs)
  | @asked p q taken hready hfits htogether hleft hopen hq hroom =>
    by_cases hs : s.cancelled = true
    · rw [Advances, serve_shut hs]
      exact ⟨.hearing False.elim (Or.inr ⟨hshut hs, rfl, rfl⟩) fits_end (shut_voice hq hroom),
        fun hc => absurd hc (hshut hs)⟩
    · have hstep := serve_takes (q := q) (t := t) hready hfits htogether hleft
        (Bool.eq_false_iff.mpr hs)
      have hempty : Idle (p.holding ByteArray.empty) := ⟨rfl, hopen⟩
      refine ⟨?_, fun _ => Or.inr (Or.inr ?_)⟩
      · rw [hstep]
        exact sound_taking hready hempty hq hroom rfl
      · have hload := serverLoad_taking secret plain (h.observing t s)
        rw [hstep, rank_awaiting, rank_awaiting, Pipe.buffered_holding, ByteArray.size_empty,
          openings_holding, serverLoad_listening secret (by omega)]
        omega
  | @overlong p q envelope h' haccount hlong habort hp hq hroom =>
    refine ⟨?_, fun _ => Or.inr (Or.inr ?_)⟩
    · rw [serve_writes_long hlong]
      exact .hearing False.elim haccount habort
        (voice_begins (.closing (.error (overflowing envelope).toStatus) _) habort hq hroom)
    · have hpending := pending_none_lt habort hlong
      rw [serve_writes_long hlong, rank_awaiting, rank_awaiting, serverLoad_saying,
        serverLoad_saying]
      change _ + 2 * pending (.abort (overflowing envelope).toStatus) none + _ + _ + _ <
        _ + 2 * pending (.message envelope) none + _ + _ + _
      omega
  | @hearing idle f taken p q said stop h' hidle haccount hfits hvoice =>
    obtain ⟨idle', p', q', said', stop', h₁, hstep, -, hidle', hvoice', hstore, hnearer⟩ :=
      voice_serve (t := t) hidle hvoice hcalm (awaiting secret ⟨taken⟩) h'
    refine ⟨?_, fun hc => hnearer hc _ _ rfl⟩
    rw [hstep]
    exact .hearing hidle' (hstore ▸ haccount) hfits hvoice'
  | @finished idle o p q said stop h' hidle hconcluded hquiet =>
    obtain ⟨idle', p', q', said', stop', h₁, more, hstep, -, hidle', hquiet', hstore, -, hnearer⟩ :=
      quiet_serve (t := t) hidle hquiet hcalm (.inr o) q said h'
    refine ⟨?_, hnearer⟩
    rw [hstep]
    exact .finished hidle' (hstore ▸ hconcluded) hquiet'
  | @leaving rest p q said stop h' hnever hstore hvoice =>
    obtain ⟨idle', p', q', said', stop', h₁, hstep, hkeep, -, hvoice', hstore', -⟩ :=
      voice_serve (t := t) (p := p) False.elim hvoice hcalm (Duplex.asking secret m rest) h'
    obtain rfl : idle' = False := propext ⟨hkeep, False.elim⟩
    refine ⟨?_, fun hc => absurd hc hnever⟩
    rw [hstep]
    exact .leaving hnever (hstore'.trans hstore) hvoice'

/-- **Where nothing moves any more the call is over**, as long as the server is not shut
down. -/
theorem over_of_rest (hw : Sound True secret m plain h w) (hs : s.cancelled = false)
    (hcall : step .call w = w) (hserve : step (.serve t s) w = w) : ∃ o, w.caller = .inr o := by
  -- what is in the two pipes stays the same
  have hforth := congrArg (fun w => w.link.forth.backlog) hserve
  have hback := congrArg (fun w => w.link.back.backlog) hserve
  cases hw with
  | unsendable hlong hnot hp hq hroom =>
    have hcaller := congrArg Duplex.caller ((call_sends_long hlong).symm.trans hcall)
    exact nomatch hcaller
  | @asking p q taken b rest hready hfits hb hleft htogether hopen hroom hq =>
    have hread := Pipe.read_partial (r := ⟨taken⟩) hfits htogether hleft hopen
    rw [serve_reads_part hs hread] at hforth
    change 0 = p.buffered.size at hforth
    rcases Pipe.write_cases hleft hopen with hwrite | ⟨front, left, rfl, hne, hwrite, hmoved⟩
    · have hcaller := congrArg Duplex.caller ((call_sends hb hwrite).symm.trans hcall)
      exact nomatch hcaller
    · have hsize := congrArg (fun w => w.link.forth.backlog)
        ((call_sends_part hb hwrite).symm.trans hcall)
      change (p.buffered ++ front).size = p.buffered.size at hsize
      have hroom := (hroom trivial).1
      have hfront := hmoved (by omega)
      rw [ByteArray.size_append] at hsize
      omega
  | @asked p q taken hready hfits htogether hleft hopen hq hroom =>
    rw [serve_takes hready hfits htogether hleft hs] at hforth
    exact absurd hforth.symm hleft
  | @overlong p q envelope h' haccount hlong habort hp hq hroom =>
    have hstop := congrArg Duplex.stop ((serve_writes_long hlong).symm.trans hserve)
    exact nomatch hstop
  | @hearing idle f taken p q said stop h' hidle haccount hfits hvoice =>
    cases hvoice with
    | said htogether hshort hquiet =>
      have hcaller := congrArg Duplex.caller
        ((call_hears (Pipe.read_whole hfits htogether hshort)).symm.trans hcall)
      exact nomatch hcaller
    | @saying phase d rest b hplaced hframe hb hleft htogether hopen hroom =>
      have hnone := congrArg (fun w => w.link.back.backlog) ((call_hears_part
        (Pipe.read_partial (r := ⟨taken⟩) hfits htogether hleft hopen)).symm.trans hcall)
      change 0 = q.buffered.size at hnone
      have hwatched : (Server.watched .serve (.deliver d) && s.cancelled) = false := by
        rw [hs, Bool.and_false]
      rcases Pipe.write_cases hleft hopen with hwrite | ⟨front, left, rfl, hne, hwrite, hmoved⟩
      · subst hframe
        rw [serve_writes hwatched hb hwrite rfl] at hback
        change (linkAfter p (q.holding (q.buffered ++ b)) d).back.backlog = q.buffered.size at hback
        rw [backlog_linkAfter, Pipe.buffered_holding, ByteArray.size_append] at hback
        omega
      · subst hframe
        rw [serve_writes_part hwatched hb hwrite] at hback
        change (q.buffered ++ front).size = q.buffered.size at hback
        have hroom := hroom trivial
        have hfront := hmoved (by omega)
        rw [ByteArray.size_append] at hback
        omega
  | @finished idle o p q said stop h' hidle hconcluded hquiet => exact ⟨o, rfl⟩
  | leaving hcalm hstore hvoice => exact absurd trivial hcalm

end Moves

/-! ### Calls -/

section Runs

variable {calm : Prop} {session : Client.Session} {r : Request} {e e' : Entropy} {h : Host σ}
  {m : Bytes} {capacity : ℕ} {sched : ℕ → Move}

/-- The server is not shut down. -/
def Move.Calm : Move → Prop
  | call => True
  | serve _ s => s.cancelled = false

omit [Store σ] in
/-- A client with a session has made a request over pipes that may have been in use before. -/
def calling (p q : Pipe) (s : Client.Session) (e : Entropy) (r : Request) (h : Host σ) :
    Duplex σ where
  caller := goesOn (Client.start (.request s r) e).1
  link := .pipes p q false
  stop := listening s.secret {}
  host := h

/-- A request in an envelope is on its way, where nothing else is. -/
theorem sound_calling {p q : Pipe} (hseal : Crypto.Envelope.sealFresh session.secret
      (Wire.encodeRequest r) e = (.ok m, e'))
    (hshort : Frame.Carries (Wire.encodeRequest r).size →
      ∀ f store, Says session.secret (Wire.encodeRequest r) h f store → f.Fits)
    (hp : Idle p) (hq : Idle q) (hroom : calm → 0 < p.capacity ∧ 0 < q.capacity) :
    Sound calm session.secret m (Wire.encodeRequest r) h (calling p q session e r h) := by
  have hopens : Crypto.Envelope.reveal session.secret m = .ok (Wire.encodeRequest r) :=
    Crypto.Envelope.reveal_sealWith (Entropy.size_draw e _) (congrArg Prod.fst hseal)
  have hcalling : calling p q session e r h = ⟨asking session.secret m none,
      .pipes p q false, listening session.secret {}, h⟩ := by
    simp only [calling, Client.start, Client.sealed, hseal]
    rfl
  rw [hcalling]
  have hsize := Frame.size_message_of_sealed hseal
  by_cases hfits : (Frame.message m).Fits
  · have harrives : Frame.Carries (Wire.encodeRequest r).size := by
      rwa [Frame.Fits, hsize] at hfits
    refine .asking ⟨harrives, hopens, hshort harrives⟩ hfits (Or.inr ⟨rfl, hfits, rfl⟩)
      (Frame.size_onWire_pos _).ne' ?_ hp.2 hroom hq
    rw [ByteArray.size_eq_zero_iff.mp hp.1, ByteArray.empty_append, ByteArray.empty_append]
  · have hnot : ¬Frame.Carries (Wire.encodeRequest r).size := by
      rwa [Frame.Fits, hsize] at hfits
    exact .unsendable hfits hnot hp hq fun hc => (hroom hc).2

/-- A request that cannot be sealed has failed. -/
theorem sound_calling_unsealed {p q : Pipe} {err : Crypto.Error}
    (hseal : Crypto.Envelope.sealFresh session.secret (Wire.encodeRequest r) e = (.error err, e'))
    (hp : Idle p) :
    Sound calm session.secret m (Wire.encodeRequest r) h (calling p q session e r h) := by
  have hcalling : calling p q session e r h = ⟨.inr (.error (.crypto err)),
      .pipes p q false, listening session.secret {}, h⟩ := by
    simp only [calling, Client.start, Client.sealed, hseal]
    rfl
  rw [hcalling]
  have hnot := Frame.not_carries_of_unsealed hseal
  exact .finished (fun _ => hp) (Or.inr ⟨⟨_, rfl⟩, rfl, fun _ => hnot⟩)
    (.listening session.secret trivial)

/-- In new pipes nothing is under way. -/
theorem sound_start (hseal : Crypto.Envelope.sealFresh session.secret (Wire.encodeRequest r) e =
      (.ok m, e')) (hshort : Frame.Carries (Wire.encodeRequest r).size →
        ∀ f store, Says session.secret (Wire.encodeRequest r) h f store → f.Fits)
    (hcapacity : calm → 0 < capacity) :
    Sound calm session.secret m (Wire.encodeRequest r) h (start capacity session e r h) :=
  sound_calling hseal hshort ⟨rfl, rfl⟩ ⟨rfl, rfl⟩ fun hc => ⟨hcapacity hc, hcapacity hc⟩

theorem sound_start_unsealed {err : Crypto.Error}
    (hseal : Crypto.Envelope.sealFresh session.secret (Wire.encodeRequest r) e = (.error err, e')) :
    Sound calm session.secret m (Wire.encodeRequest r) h (start capacity session e r h) :=
  sound_calling_unsealed hseal ⟨rfl, rfl⟩

variable {w : Duplex σ} {secret : Crypto.SharedSecret} {plain : Bytes}

theorem advances_of_calm {move : Move} (hmove : calm → move.Calm)
    (hw : Sound calm secret m plain h w) : Advances calm secret m plain h move w := by
  cases move with
  | call => exact advances_call hw
  | serve t s => exact advances_serve hmove hw

/-- **What a call has come to** by any time, whenever it is over. -/
theorem concluded_after (hw : Sound calm secret m plain h w)
    (hcalm : calm → ∀ n, (sched n).Calm) {n : ℕ} {o : Client.Outcome}
    (ho : (Schedule.after step sched w n).caller = .inr o) :
    Concluded calm secret plain h o (Schedule.after step sched w n).host.store := by
  have hsound : Sound calm secret m plain h (Schedule.after step sched w n) := by
    clear ho
    induction n with
    | zero => exact hw
    | succ n ih => exact (advances_of_calm (fun hc => hcalm hc n) ih).1
  generalize Schedule.after step sched w n = v at hsound ho
  cases hsound with
  | finished hidle hconcluded hquiet =>
    obtain rfl := Sum.inr.inj ho
    exact hconcluded
  | _ => exact nomatch ho

omit [Store σ] in
theorem rank_eq_zero_iff : rank w = 0 ↔ ∃ o, w.caller = .inr o := by
  rcases w with ⟨running | o, link, stop, host⟩
  · constructor
    · intro hzero
      simp only [rank] at hzero
      omega
    · rintro ⟨o, ho⟩
      cases ho
  · exact iff_of_true rfl ⟨o, rfl⟩

/-- A call that is over stays over. -/
theorem caller_step {o : Client.Outcome} (move : Move) (ho : w.caller = .inr o) :
    (step move w).caller = .inr o := by
  obtain ⟨caller, link, stop, host⟩ := w
  obtain rfl : caller = .inr o := ho
  cases move <;> rfl

/-- **A call comes to an end** if both sides are polled again and again and the server is not
shut down. -/
theorem over_after (hw : Sound True secret m plain h w) (hcalm : ∀ n, (sched n).Calm)
    (hcall : Schedule.Again sched (· = .call))
    (hserve : Schedule.Again sched fun move => ∃ t s, move = .serve t s) :
    ∃ n o, ∀ k, n ≤ k → (Schedule.after step sched w k).caller = .inr o := by
  have hzero : ∃ n, 0 ≤ n ∧ rank (Schedule.after (fun move : { move : Move // move.Calm } =>
      step move.1) (fun n => ⟨sched n, hcalm n⟩) w n) = 0 := by
    have hmoves (move : { move : Move // move.Calm }) {v : Duplex σ}
        (hv : Sound True secret m plain h v) := advances_of_calm (fun _ => move.2) hv
    refine Schedule.reaches_rank_zero (Sound True secret m plain h) rank
      (fun v move => rank v ≠ 0 ∧ step move.1 v ≠ v) (fun move v hv => (hmoves move hv).1)
      ?_ ?_ ?_ ?_ hw
    · intro move v hv
      rcases (hmoves move hv).2 trivial with ⟨o, ho⟩ | heq | hlt
      · have hover := rank_eq_zero_iff.mpr ⟨o, caller_step move.1 ho⟩
        omega
      · exact Nat.le_of_eq (congrArg rank heq)
      · exact Nat.le_of_lt hlt
    · intro move v hv hsame move' hhelps
      rcases (hmoves move hv).2 trivial with hover | heq | hlt
      · exact absurd (rank_eq_zero_iff.mpr hover) hhelps.1
      · rwa [heq]
      · omega
    · intro move v hv hhelps
      rcases (hmoves move hv).2 trivial with hover | heq | hlt
      · exact absurd (rank_eq_zero_iff.mpr hover) hhelps.1
      · exact absurd heq hhelps.2
      · exact hlt
    · -- the client can move, or else every poll of the server helps
      intro v hv hpos n
      by_cases hcalls : step .call v = v
      · obtain ⟨k, hk, t, s, hmove⟩ := hserve n
        refine ⟨k, hk, by omega, fun hserves : step (sched k) v = v => ?_⟩
        have hs := hcalm k
        rw [hmove] at hs hserves
        have hover := rank_eq_zero_iff.mpr (over_of_rest hv hs hcalls hserves)
        omega
      · obtain ⟨k, hk, hmove⟩ := hcall n
        refine ⟨k, hk, by omega, fun hsame : step (sched k) v = v => hcalls ?_⟩
        rwa [hmove] at hsame
  obtain ⟨n, -, hn⟩ := hzero
  rw [Schedule.after_subtype] at hn
  obtain ⟨o, ho⟩ := rank_eq_zero_iff.mp hn
  exact ⟨n, o, fun k hk => Schedule.after_keeps (fun v : Duplex σ => v.caller = .inr o)
    (fun move _ hv => caller_step move hv) ho hk⟩

end Runs

end Duplex

end Vault
