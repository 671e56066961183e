import Vault.Proofs.Session.Shutdown.Machine

/-!
# What a server does until it is told to stop

The shutdown signal is looked at only between two requests: while the server waits for the next
one, and when a reply has been delivered. So a request that was begun is answered before the
stream ends, unless it cannot be answered at all. What the server is doing at any moment is one
of four things (`Vault.Shutdown.Stage`), and the argument is that the requests it has served, the
frames the peer has read and those on their way fit together at every one of them.

Each move is shown to keep this, and what it does to the amount of work that is left once the
server is told to stop (`Vault.Shutdown.Pair.rank`) is said along with it: no move of a server
that was told adds to it.
-/

open Vault.Frame (Reading)

namespace Vault

/-- Whether nothing more can be sent. -/
def Lane.isClosed : Lane → Bool
  | queue q => q.senderGone
  | pipe p => p.closed

theorem Transit.isClosed_eq {make : Make} {frames : List Frame} {begun : Option (Frame × Bytes)}
    {ended : Bool} {lane : Lane} {r : Frame.Reading}
    (h : Transit make frames begun ended lane r) : lane.isClosed = ended := by
  cases h with
  | queue frames ended r => rfl
  | pipe taken front hfits hfront htogether hshort hclosed => exact hclosed

theorem Lane.dropSender_of_isClosed {lane : Lane} (h : lane.isClosed = true) :
    lane.dropSender = lane := by
  cases lane with
  | queue q =>
    obtain ⟨frames, _, receiverGone⟩ := q
    obtain rfl := h
    rfl
  | pipe p =>
    obtain ⟨buffered, capacity, _⟩ := p
    obtain rfl := h
    rfl

namespace Shutdown

open Fifo (Op)
open Duplex (pending listening saying overflowing)

variable {σ : Type} [Store σ]

/-! ### What the server is doing -/

section Stages

variable (make : Make) (secret : Crypto.SharedSecret) (h : Host σ) (ms : List Bytes)
  (closes : Bool)

/-- **What the server is doing**, and how that fits what it has served, what the peer has read
and what is on its way. -/
inductive Stage (w : Pair σ) : Prop
  /-- It waits for a request. -/
  | listening {served envelopes : List Bytes} {h' : Host σ} {F B : List Op} {ended : Bool}
    {reading : Reading} (hstop : w.stop = listening secret reading)
    (hserved : Served make secret h served envelopes h')
    (hhost : w.host = h'.observing w.host.now w.host.signal)
    (hforth : Forth make ms closes served F ended reading w) (hback : Back make B none w)
    (hgot : w.got ++ B.map Op.frame = envelopes.map .message)
  /-- It delivers a reply. -/
  | replying {served envelopes : List Bytes} {m envelope : Bytes} {h₁ h₂ : Host σ}
    {t : Timestamp} {s : Signal} {F B : List Op} {ended : Bool} {rest : Option Bytes}
    (hstop : w.stop = saying (.established secret) (.reply envelope) rest)
    (hserved : Served make secret h served envelopes h₁)
    (hanswers : Server.Answers secret t (h₁.observing t s) m envelope h₂)
    (hhost : w.host = h₂.observing w.host.now w.host.signal)
    (hbegun : rest ≠ none → make.Takes (.message envelope))
    (hforth : Forth make ms closes (served ++ [m]) F ended {} w)
    (hback : Back make B (rest.map (Prod.mk (.message envelope))) w)
    (hgot : w.got ++ B.map Op.frame = envelopes.map .message)
  /-- It says its last frame. -/
  | closing {last : Except Status Unit} {result : Server.Outcome} {watched : Bool} {B : List Op}
    {rest : Option Bytes}
    (hstop : w.stop = saying .terminated (.closing last result watched) rest)
    (htakes : make.Takes (Link.closingFrame last))
    (hparting : Parting make secret h ms closes
      (w.got ++ B.map Op.frame ++ [Link.closingFrame last]) result w.host.store)
    (hcut : watched = true →
      Parting make secret h ms closes (w.got ++ B.map Op.frame) (.ok .done) w.host.store)
    (hback : Back make B (rest.map (Prod.mk (Link.closingFrame last))) w)
  /-- It is done. -/
  | done {result : Server.Outcome} {B : List Op} {begun : Option (Frame × Bytes)} {ended : Bool}
    (hstop : w.stop = .ends .terminated result)
    (hparting : Parting make secret h ms closes (w.got ++ B.map Op.frame) result w.host.store)
    (hflow : Flow make .right B begun ended w.reading w.link)
    (hover : w.atEnd = true → B = [] ∧ begun = none ∧ ended = true)

end Stages

/-- How much the server still has to say once it is told to stop. -/
def load : Server.Stop → ℕ
  | .waits ⟨_, _, .deliver (.closing last _ _), _, rest⟩ =>
    2 * pending (Link.closingFrame last) rest + 1
  | .waits ⟨_, _, .deliver d, _, rest⟩ =>
    2 * pending (Duplex.frameOf d) rest + (2 * (Frame.maxLength + 6) + 2)
  | .waits ⟨_, _, .receive _, _, _⟩ => 2 * (Frame.maxLength + 6) + 2
  | .ends .. => 0

/-- How much is left to do once the server is told to stop: what it has to say, what is on its
way to the peer, the end of the stream, and the peer's coming to it. -/
def Pair.rank (w : Pair σ) : ℕ :=
  load w.stop + (w.link.outOf .right).backlog +
    (if (w.link.outOf .right).isClosed then 0 else 1) + (if w.atEnd then 0 else 1)

/-- Two states in which the server and what is on its way to the peer are the same. -/
def Pair.Same (w v : Pair σ) : Prop :=
  v.stop = w.stop ∧ v.link.outOf .right = w.link.outOf .right ∧ v.atEnd = w.atEnd

/-- The server is done and the stream is at its end. -/
def Pair.Done (w : Pair σ) : Prop :=
  (∃ phase result, w.stop = .ends phase result) ∧ (w.link.outOf .right).isClosed = true

section Moves

variable {make : Make} {secret : Crypto.SharedSecret} {h : Host σ} {ms : List Bytes}
  {closes : Bool} {w v : Pair σ} {t : Timestamp} {s : Signal}

omit [Store σ] in
theorem Pair.Same.rank_eq (hsame : w.Same v) : v.rank = w.rank := by
  rw [rank, rank, hsame.1, hsame.2.1, hsame.2.2]

omit [Store σ] in
/-- As long as neither end comes to the end of the stream, what counts is what there is to say and
what is on its way. -/
theorem Pair.rank_lt
    (hclosed : (v.link.outOf .right).isClosed = (w.link.outOf .right).isClosed)
    (hatEnd : v.atEnd = w.atEnd) (hless : load v.stop + (v.link.outOf .right).backlog <
      load w.stop + (w.link.outOf .right).backlog) : v.rank < w.rank := by
  rw [rank, rank, hclosed, hatEnd]
  omega

/-! #### The peer -/

theorem Stage.put (hw : Stage make secret h ms closes w) :
    Stage make secret h ms closes (step .put w) := by
  obtain ⟨hstop', hhost', hreading', hgot', hover', ha⟩ := put_frame w
  cases hw with
  | listening hstop hserved hhost hforth hback hgot =>
    obtain ⟨F', ended', hforth'⟩ := hforth.put
    refine .listening (hstop'.trans hstop) hserved ?_ hforth' (hback.alike hreading' hover' ha) ?_
    · rwa [hhost']
    · rwa [hgot']
  | replying hstop hserved hanswers hhost hbegun hforth hback hgot =>
    obtain ⟨F', ended', hforth'⟩ := hforth.put
    refine .replying (hstop'.trans hstop) hserved hanswers ?_ hbegun hforth'
      (hback.alike hreading' hover' ha) ?_
    · rwa [hhost']
    · rwa [hgot']
  | closing hstop htakes hparting hcut hback =>
    refine .closing (hstop'.trans hstop) htakes ?_ ?_ (hback.alike hreading' hover' ha)
    · rwa [hgot', hhost']
    · rwa [hgot', hhost']
  | done hstop hparting hflow hover =>
    rw [← hgot', ← hhost'] at hparting
    rw [← hover'] at hover
    rw [← hreading'] at hflow
    exact .done (hstop'.trans hstop) hparting (hflow.alike ha) hover

/-- **The peer tries to read** before the end of the stream: it gets nearer to that, or nothing is
there. -/
theorem take_nearer {B : List Op} {begun : Option (Frame × Bytes)} {ended : Bool}
    (hflow : Flow make .right B begun ended w.reading w.link) (hreads : w.atEnd = false)
    (hmore : B = [] → ended = false) :
    ∃ B', Flow make .right B' begun ended (step .take w).reading (step .take w).link ∧
      (step .take w).link.done .right = w.link.done .right ∧ (step .take w).atEnd = false ∧
      (step .take w).got ++ B'.map Op.frame = w.got ++ B.map Op.frame ∧
      ((step .take w).rank < w.rank ∨ w.Same (step .take w) ∧
        (w.link.outOf .right).backlog = 0 ∧ (w.Done → w.atEnd = true)) := by
  obtain ⟨hstop', -⟩ := take_frame w
  obtain ⟨B', hflow', hdone', hreads', hgot', hmoved⟩ := take_flow hflow hreads hmore
  have hatEnd : (step .take w).atEnd = w.atEnd := hreads'.trans hreads.symm
  have hclosed := Transit.isClosed_eq hflow
  refine ⟨B', hflow', hdone', hreads', hgot', ?_⟩
  rcases hmoved with hless | ⟨hlink, hempty, hopen⟩
  · refine Or.inl (Pair.rank_lt ?_ hatEnd ?_)
    · exact (Transit.isClosed_eq hflow').trans hclosed.symm
    · rw [hstop']
      omega
  · refine Or.inr ⟨⟨hstop', by rw [hlink], hatEnd⟩, hempty, fun hdone => ?_⟩
    cases (hclosed.trans hopen).symm.trans hdone.2

theorem Back.take {B : List Op} {begun : Option (Frame × Bytes)} (hback : Back make B begun w) :
    ∃ B', Back make B' begun (step .take w) ∧
      (step .take w).got ++ B'.map Op.frame = w.got ++ B.map Op.frame ∧
      ((step .take w).rank < w.rank ∨ w.Same (step .take w) ∧
        (w.link.outOf .right).backlog = 0 ∧ (w.Done → w.atEnd = true)) := by
  obtain ⟨B', hflow', hdone', hreads', hgot', hmoved⟩ :=
    take_nearer hback.flow hback.reads fun _ => rfl
  exact ⟨B', ⟨hflow', hdone'.trans hback.unsaid, hreads'⟩, hgot', hmoved⟩

/-- When the server is done, the peer reads on to the end of the stream. -/
theorem Stage.take_done {result : Server.Outcome} {B : List Op} {begun : Option (Frame × Bytes)}
    {ended : Bool} (hstop : w.stop = .ends .terminated result)
    (hparting : Parting make secret h ms closes (w.got ++ B.map Op.frame) result w.host.store)
    (hflow : Flow make .right B begun ended w.reading w.link)
    (hover : w.atEnd = true → B = [] ∧ begun = none ∧ ended = true) :
    Stage make secret h ms closes (step .take w) ∧
      ((step .take w).rank < w.rank ∨ w.Same (step .take w) ∧
        (w.link.outOf .right).backlog = 0 ∧ (w.Done → w.atEnd = true)) := by
  by_cases hread : w.atEnd = true
  · -- the peer has come to the end of the stream
    have hstep : step .take w = w := by simp only [step, hread, if_true]
    obtain ⟨rfl, rfl, rfl⟩ := hover hread
    rw [hstep]
    exact ⟨.done hstop hparting hflow hover,
      Or.inr ⟨⟨rfl, rfl, rfl⟩, hflow.backlog_nil, fun _ => hread⟩⟩
  have hopen := Bool.eq_false_iff.mpr hread
  by_cases hmore : B = [] → ended = false
  · obtain ⟨hstop', hhost', -⟩ := take_frame w
    obtain ⟨B', hflow', -, hreads', hgot', hmoved⟩ := take_nearer hflow hopen hmore
    rw [← hgot', ← hhost'] at hparting
    refine ⟨.done (hstop'.trans hstop) hparting hflow' fun hc => ?_, hmoved⟩
    cases hreads'.symm.trans hc
  · -- nothing is left but the end, and perhaps part of a frame that was given up
    obtain ⟨rfl, hended⟩ := Classical.not_imp.mp hmore
    obtain rfl := Bool.eq_true_of_not_eq_false hended
    obtain ⟨l, x, hreceive, hflow', hx⟩ := hflow.receive_cut
    have hstep : step .take w = { w with link := l, reading := {}, atEnd := true } := by
      have hreceive' : w.link.receive .left w.reading = _ := hreceive
      rcases hx with rfl | ⟨text, rfl⟩ <;> simp only [step, if_neg hread, hreceive']
    rw [hstep]
    refine ⟨.done hstop hparting hflow' fun _ => ⟨rfl, rfl, rfl⟩, Or.inl ?_⟩
    rw [Pair.rank, Pair.rank, Transit.isClosed_eq hflow, hopen]
    dsimp only
    rw [Transit.isClosed_eq hflow', hflow'.backlog_nil]
    simp only [if_true, Bool.false_eq_true, if_false]
    omega

/-- **The peer tries to read**: it gets nearer to the end of the stream, or nothing is there. -/
theorem Stage.take (hw : Stage make secret h ms closes w) :
    Stage make secret h ms closes (step .take w) ∧
      ((step .take w).rank < w.rank ∨ w.Same (step .take w) ∧
        (w.link.outOf .right).backlog = 0 ∧ (w.Done → w.atEnd = true)) := by
  obtain ⟨hstop', hhost', htodo', hrest', ha⟩ := take_frame w
  cases hw with
  | listening hstop hserved hhost hforth hback hgot =>
    obtain ⟨B', hback', hgot', hmoved⟩ := hback.take
    refine ⟨.listening (hstop'.trans hstop) hserved ?_ (hforth.alike htodo' hrest' ha) hback'
      (hgot'.trans hgot), hmoved⟩
    rwa [hhost']
  | replying hstop hserved hanswers hhost hbegun hforth hback hgot =>
    obtain ⟨B', hback', hgot', hmoved⟩ := hback.take
    refine ⟨.replying (hstop'.trans hstop) hserved hanswers ?_ hbegun
      (hforth.alike htodo' hrest' ha) hback' (hgot'.trans hgot), hmoved⟩
    rwa [hhost']
  | closing hstop htakes hparting hcut hback =>
    obtain ⟨B', hback', hgot', hmoved⟩ := hback.take
    refine ⟨.closing (hstop'.trans hstop) htakes ?_ ?_ hback', hmoved⟩
    · rwa [hgot', hhost']
    · rwa [hgot', hhost']
  | done hstop hparting hflow hover => exact take_done hstop hparting hflow hover

/-! #### The server -/

theorem step_serve {stop : Server.Stop} {link : Link} {host : Host σ}
    (hpoll : Server.poll t s w.stop w.link w.host = (stop, link, host)) :
    step (.serve t s) w = { w with link, stop, host } := by
  simp only [step, hpoll]

/-- What the server says is what its end does. -/
def opOf : Server.Delivering → Op
  | .key k _ => .send k.bytes
  | .reply envelope => .send envelope
  | .closing last _ _ => .finish last

omit [Store σ] in
theorem attempt_opOf (d : Server.Delivering) (l : Link) (rest : Option Bytes) :
    d.attempt l .right rest = (opOf d).attempt l .right rest := by
  cases d <;> rfl

/-- A server that is told to stop while it waits for a request says its last frame. -/
theorem step_told {reading : Reading} (hstop : w.stop = listening secret reading)
    (hs : s.cancelled = true) :
    step (.serve t s) w = { w with
      stop := saying .terminated (.closing (.ok ()) (.ok .done) false) none
      host := w.host.observing t s } := by
  refine step_serve ?_
  rw [hstop]
  exact Server.poll_interrupted
    (r := ⟨.serve, .established secret, .receive .request, reading, none⟩) rfl hs _ _

theorem step_hears {reading : Reading} (hstop : w.stop = listening secret reading)
    (hs : s.cancelled = false) {l : Link} {x : Except LinkError (Option Frame)}
    (hreceive : w.link.receive .right reading = (l, .ready x)) {turn : Server.Turn σ}
    (hturn : Server.received .serve (.established secret) (w.host.observing t s) .request x =
      turn) :
    step (.serve t s) w = { w with link := l, stop := turn.stop .serve, host := turn.host } := by
  refine step_serve ?_
  rw [hstop]
  exact Server.poll_received (by rw [hs, Bool.and_false]) hreceive hturn

theorem step_hears_part {reading reading' : Reading} (hstop : w.stop = listening secret reading)
    (hs : s.cancelled = false) {l : Link}
    (hreceive : w.link.receive .right reading = (l, .waiting reading')) :
    step (.serve t s) w = { w with link := l, stop := listening secret reading' } := by
  refine step_serve ?_
  rw [hstop]
  exact Server.poll_receiving (by rw [hs, Bool.and_false]) hreceive

variable {phase : Server.Phase} {d : Server.Delivering} {rest : Option Bytes}

theorem step_delivers (hstop : w.stop = saying phase d rest)
    (hs : (Server.watched .serve (.deliver d) && s.cancelled) = false) {l : Link}
    {x : Except LinkError Unit} (hattempt : (opOf d).attempt w.link .right rest = (l, .ready x))
    {turn : Server.Turn σ}
    (hturn : Server.delivered .serve phase (w.host.observing t s) d x = turn) :
    step (.serve t s) w = { w with link := l, stop := turn.stop .serve, host := turn.host } := by
  rw [← attempt_opOf] at hattempt
  refine step_serve ?_
  rw [hstop]
  exact Server.poll_delivered hs hattempt hturn

theorem step_delivers_part (hstop : w.stop = saying phase d rest)
    (hs : (Server.watched .serve (.deliver d) && s.cancelled) = false) {l : Link}
    {rest' : Option Bytes}
    (hattempt : (opOf d).attempt w.link .right rest = (l, .waiting rest')) :
    step (.serve t s) w = { w with link := l, stop := saying phase d rest' } := by
  rw [← attempt_opOf] at hattempt
  refine step_serve ?_
  rw [hstop]
  exact Server.poll_delivering hs hattempt

/-- What is left to say after a delivery. -/
def slack : Server.Delivering → ℕ
  | .closing .. => 1
  | _ => 2 * (Frame.maxLength + 6) + 2

omit [Store σ] in
theorem load_saying (phase : Server.Phase) (d : Server.Delivering) (rest : Option Bytes) :
    load (saying phase d rest) = 2 * pending (opOf d).frame rest + slack d := by
  cases d <;> rfl

omit [Store σ] in
/-- **A server that says part of a frame** comes nearer to being done, or it had no room for any
part and nothing has changed. -/
theorem nearer_of_part {B : List Op} {begun begun' : Option (Frame × Bytes)} {l : Link}
    {rest' : Option Bytes} (hstop : w.stop = saying phase d rest)
    (hflow : Flow make .right B begun false w.reading w.link)
    (hflow' : Flow make .right B begun' false w.reading l)
    (hmoved : l = w.link ∧ rest' = rest ∧ (make.HasRoom → 0 < (w.link.outOf .right).backlog) ∨
      (l.outOf .right).backlog + 2 * pending (opOf d).frame rest' <
        (w.link.outOf .right).backlog + 2 * pending (opOf d).frame rest) :
    Pair.rank { w with link := l, stop := saying phase d rest' } < w.rank ∨
      w.Same { w with link := l, stop := saying phase d rest' } ∧
        (make.HasRoom → 0 < (w.link.outOf .right).backlog) := by
  rcases hmoved with ⟨rfl, rfl, hfull⟩ | hless
  · exact Or.inr ⟨⟨hstop.symm, rfl, rfl⟩, hfull⟩
  · refine Or.inl (Pair.rank_lt ?_ rfl ?_)
    · exact (Transit.isClosed_eq hflow').trans (Transit.isClosed_eq hflow).symm
    · rw [hstop, load_saying, load_saying]
      dsimp only
      omega

/-- A server that waits for a request takes the next one, or learns that the peer has closed its
side. -/
theorem Stage.serve_takes (hwell : ∀ m ∈ ms, Readable secret m)
    {served envelopes : List Bytes} {h' : Host σ} {op : Op} {F B : List Op} {ended : Bool}
    {reading : Reading} (hstop : w.stop = Duplex.listening secret reading)
    (hserved : Served make secret h served envelopes h')
    (hhost : w.host = h'.observing w.host.now w.host.signal)
    (hforth : Forth make ms closes served (op :: F) ended reading w) (hback : Back make B none w)
    (hgot : w.got ++ B.map Op.frame = envelopes.map .message) (hs : s.cancelled = false) :
    Stage make secret h ms closes (step (.serve t s) w) := by
  obtain ⟨l, hreceive, hflow, hdone, ha, -⟩ := hforth.flow.receive
  have hobserved : w.host.observing t s = h'.observing t s := by
    rw [hhost]
    rfl
  have hall := hforth.all
  cases op with
  | send m =>
    have hall' : ops ms closes = (served ++ [m]).map .send ++ (F ++ w.todo) := by
      rw [hall, List.map_append, List.append_assoc]
      rfl
    obtain ⟨more, hms⟩ := exists_more hall'
    rw [List.append_assoc] at hms
    have hread : Readable secret m := by
      refine hwell m ?_
      rw [hms]
      exact List.mem_append_right _ List.mem_cons_self
    rcases received_readable make (w.host.observing t s) hread with
      ⟨envelope, h₂, hanswers, hturn⟩ | ⟨e, h₂, hunanswered, hbrief, hturn⟩
    · rw [step_hears hstop hs hreceive hturn]
      rw [hobserved] at hanswers
      refine .replying rfl hserved hanswers rfl (absurd rfl) ⟨hall', hflow,
        hdone.trans hforth.said, ?_, hforth.takes⟩ (hback.alike rfl rfl ha) hgot
      intro hended
      obtain ⟨htodo, hmem⟩ := hforth.last hended
      rcases List.mem_cons.mp hmem with hsend | hmem
      · nomatch hsend
      · exact ⟨htodo, hmem⟩
    · rw [step_hears hstop hs hreceive hturn]
      rw [hobserved] at hunanswered
      refine .closing rfl (Make.takes_of_fits hbrief.fits_abort) ?_ nofun (hback.alike rfl rfl ha)
      rw [hgot]
      exact .broken hms hserved hunanswered
  | finish outcome =>
    obtain ⟨hsame, -, hcloses, rfl⟩ := of_finish hall
    have hms : served = ms := List.map_injective_iff.mpr (fun _ _ heq => Op.send.inj heq) hsame
    rw [hms] at hserved
    have hstore : w.host.store = h'.store := by
      rw [hhost]
      rfl
    have hturn : Server.received .serve (.established secret) (w.host.observing t s) .request
        (.ok (some (Op.frame (.finish (.ok ()))))) = ⟨.terminated, w.host.observing t s,
          .inl (.deliver (.closing (.ok ()) (.ok .done) true))⟩ := rfl
    rw [step_hears hstop hs hreceive hturn]
    refine .closing rfl (Make.takes_of_fits Duplex.fits_end) ?_ (fun _ => ?_)
      (hback.alike rfl rfl ha)
    · have hparting : Parting make secret h ms closes (envelopes.map .message ++ [.end])
        (.ok .done) h'.store := .ended (List.append_nil ms).symm hserved
      rw [hgot]
      rwa [← hstore] at hparting
    · have hparting : Parting make secret h ms closes (envelopes.map .message) (.ok .done)
        h'.store := .cut hcloses hserved
      rw [hgot]
      rwa [← hstore] at hparting

/-- A server that waits for a request is told to stop, or it takes what there is. -/
theorem Stage.serve_listening (hwell : ∀ m ∈ ms, Readable secret m)
    {served envelopes : List Bytes} {h' : Host σ} {F B : List Op} {ended : Bool}
    {reading : Reading} (hstop : w.stop = Duplex.listening secret reading)
    (hserved : Served make secret h served envelopes h')
    (hhost : w.host = h'.observing w.host.now w.host.signal)
    (hforth : Forth make ms closes served F ended reading w) (hback : Back make B none w)
    (hgot : w.got ++ B.map Op.frame = envelopes.map .message) :
    Stage make secret h ms closes (step (.serve t s) w) ∧
      (s.cancelled = true → (step (.serve t s) w).rank < w.rank) := by
  have hstore : w.host.store = h'.store := by
    rw [hhost]
    rfl
  cases hs : s.cancelled with
  | true =>
    -- a request that has arrived but was not taken is among those that are not served
    obtain ⟨more, hms⟩ := exists_more hforth.all
    rw [step_told hstop hs]
    refine ⟨.closing rfl (Make.takes_of_fits Duplex.fits_end) ?_ nofun ⟨hback.flow, hback.unsaid,
      hback.reads⟩, fun _ => ?_⟩
    · rw [hgot]
      have hparting : Parting make secret h ms closes (envelopes.map .message ++ [.end])
        (.ok .done) h'.store := .ended hms hserved
      rwa [← hstore] at hparting
    · have hpending := Duplex.pending_none_le (Link.closingFrame (.ok ()))
      rw [Pair.rank, Pair.rank, hstop]
      simp only [load, saying, Duplex.listening]
      omega
  | false =>
    refine ⟨?_, Bool.false_ne_true.elim⟩
    cases F with
    | nil =>
      have hopen : ended = false := by
        refine Bool.eq_false_iff.mpr fun hc => ?_
        cases (hforth.last hc).2
      subst hopen
      obtain ⟨l, reading', hreceive, hflow, hdone, ha, -⟩ := hforth.flow.receive_nil
      rw [step_hears_part hstop hs hreceive]
      exact .listening rfl hserved hhost ⟨hforth.all, hflow, hdone.trans hforth.said,
        Bool.false_ne_true.elim, hforth.takes⟩ (hback.alike rfl rfl ha) hgot
    | cons op F =>
      exact serve_takes hwell hstop hserved hhost hforth hback hgot hs

/-- A server that cannot put its reply into a frame ends the session with the complaint about
that. -/
theorem Stage.serve_overflowing {served envelopes : List Bytes} {m envelope : Bytes}
    {h₁ h₂ : Host σ} {t' : Timestamp} {s' : Signal} {F B : List Op} {ended : Bool}
    (hstop : w.stop = saying (.established secret) (.reply envelope) none)
    (hserved : Served make secret h served envelopes h₁)
    (hanswers : Server.Answers secret t' (h₁.observing t' s') m envelope h₂)
    (hhost : w.host = h₂.observing w.host.now w.host.signal)
    (hlong : ¬make.Takes (.message envelope))
    (hforth : Forth make ms closes (served ++ [m]) F ended {} w) (hback : Back make B none w)
    (hgot : w.got ++ B.map Op.frame = envelopes.map .message) :
    Stage make secret h ms closes (step (.serve t s) w) ∧ (step (.serve t s) w).rank < w.rank := by
  have hattempt := hback.flow.attempt_long hlong hback.unsaid
  have hturn : Server.delivered .serve (.established secret) (w.host.observing t s)
      (.reply envelope) (.error
        (.outboundTooLarge (Frame.message envelope).encodeBody.size Frame.maxLength)) =
      ⟨.terminated, Server.blamed (w.host.observing t s) (overflowing envelope),
        .inl (.deliver (.closing (.error (overflowing envelope).toStatus)
          (.error (overflowing envelope)) false))⟩ := rfl
  rw [step_delivers hstop rfl hattempt hturn]
  refine ⟨.closing rfl (Make.takes_of_fits (brief_overflowing hanswers).fits_abort) ?_ nofun
    ⟨hback.flow, hback.unsaid, hback.reads⟩, Pair.rank_lt rfl rfl ?_⟩
  · have hstore : w.host.store = h₂.store := by
      rw [hhost]
      rfl
    have hparting : Parting make secret h ms closes
        (envelopes.map .message ++ [.abort (overflowing envelope).toStatus])
        (.error (overflowing envelope)) h₂.store := by
      obtain ⟨more, hms⟩ := exists_more hforth.all
      rw [List.append_assoc] at hms
      exact .broken hms hserved (.overflow hanswers hlong)
    rw [hgot]
    rwa [← hstore] at hparting
  · have hpending := Duplex.pending_none_le
      (Link.closingFrame (.error (overflowing envelope).toStatus))
    have hpos : 0 < pending (Op.send envelope).frame none := Nat.succ_pos _
    rw [hstop, load_saying]
    simp only [load, Server.Turn.stop, slack, opOf]
    omega

/-- A server that delivers a reply goes on with that whether or not it is told to stop. -/
theorem Stage.serve_replying {served envelopes : List Bytes} {m envelope : Bytes}
    {h₁ h₂ : Host σ} {t' : Timestamp} {s' : Signal} {F B : List Op} {ended : Bool}
    (hstop : w.stop = saying (.established secret) (.reply envelope) rest)
    (hserved : Served make secret h served envelopes h₁)
    (hanswers : Server.Answers secret t' (h₁.observing t' s') m envelope h₂)
    (hhost : w.host = h₂.observing w.host.now w.host.signal)
    (hbegun : rest ≠ none → make.Takes (.message envelope))
    (hforth : Forth make ms closes (served ++ [m]) F ended {} w)
    (hback : Back make B (rest.map (Prod.mk (.message envelope))) w)
    (hgot : w.got ++ B.map Op.frame = envelopes.map .message) :
    Stage make secret h ms closes (step (.serve t s) w) ∧
      (s.cancelled = true → (step (.serve t s) w).rank < w.rank ∨ w.Same (step (.serve t s) w) ∧
        (make.HasRoom → 0 < (w.link.outOf .right).backlog)) := by
  by_cases htakes : make.Takes (.message envelope)
  swap
  · obtain rfl : rest = none := not_not.mp fun hrest => htakes (hbegun hrest)
    obtain ⟨hnext, hless⟩ :=
      serve_overflowing (t := t) (s := s) hstop hserved hanswers hhost htakes hforth hback hgot
    exact ⟨hnext, fun _ => Or.inl hless⟩
  have hserved' := hserved.one hanswers htakes
  have hflow : Flow make .right B (rest.map (Prod.mk (Op.send envelope).frame)) false
    w.reading w.link := hback.flow
  rcases hflow.attempt htakes hback.unsaid with
    ⟨l, hattempt, hthrough, hdone, ha, hless⟩ | ⟨l, rest', hattempt, hpart, hdone, ha, hmoved⟩
  · have hgot' : w.got ++ (B ++ [Op.send envelope]).map Op.frame =
        (envelopes ++ [envelope]).map .message := by
      rw [List.map_append, ← List.append_assoc, hgot, List.map_append]
      rfl
    -- the reply has left, and only now does the signal count
    cases hs : s.cancelled with
    | true =>
      rw [step_delivers hstop rfl hattempt (Duplex.turn_after_reply_shut secret envelope _ t hs)]
      refine ⟨.closing rfl (Make.takes_of_fits Duplex.fits_end) ?_ nofun
        ⟨hthrough, hdone, hback.reads⟩, fun _ => Or.inl (Pair.rank_lt ?_ rfl ?_)⟩
      · have hstore : w.host.store = h₂.store := by
          rw [hhost]
          rfl
        obtain ⟨more, hms⟩ := exists_more hforth.all
        have hparting : Parting make secret h ms closes
          ((envelopes ++ [envelope]).map .message ++ [.end]) (.ok .done) h₂.store :=
          .ended hms hserved'
        rw [hgot']
        rwa [← hstore] at hparting
      · exact (Transit.isClosed_eq hthrough).trans (Transit.isClosed_eq hflow).symm
      · have hpending := Duplex.pending_none_le (Link.closingFrame (.ok ()))
        rw [hstop, load_saying]
        simp only [load, Server.Turn.stop, slack, opOf]
        omega
    | false =>
      have hobserved : w.host.observing t s = h₂.observing t s := by
        rw [hhost]
        rfl
      rw [step_delivers hstop rfl hattempt (Duplex.turn_after_reply secret envelope _ t hs)]
      exact ⟨.listening rfl hserved' hobserved (hforth.alike rfl rfl ha)
        ⟨hthrough, hdone, hback.reads⟩ hgot', nofun⟩
  · rw [step_delivers_part hstop rfl hattempt]
    exact ⟨.replying rfl hserved hanswers hhost (fun _ => htakes) (hforth.alike rfl rfl ha)
      ⟨hpart, hdone, hback.reads⟩ hgot, fun _ => nearer_of_part hstop hflow hpart hmoved⟩

/-- A server that says its last frame goes on with that, but it does not wait to be able to
return the end of the stream once it is told to stop. -/
theorem Stage.serve_closing {last : Except Status Unit} {result : Server.Outcome}
    {watched : Bool} {B : List Op}
    (hstop : w.stop = saying .terminated (.closing last result watched) rest)
    (htakes : make.Takes (Link.closingFrame last))
    (hparting : Parting make secret h ms closes
      (w.got ++ B.map Op.frame ++ [Link.closingFrame last]) result w.host.store)
    (hcut : watched = true →
      Parting make secret h ms closes (w.got ++ B.map Op.frame) (.ok .done) w.host.store)
    (hback : Back make B (rest.map (Prod.mk (Link.closingFrame last))) w) :
    Stage make secret h ms closes (step (.serve t s) w) ∧
      (s.cancelled = true → (step (.serve t s) w).rank < w.rank ∨ w.Same (step (.serve t s) w) ∧
        (make.HasRoom → 0 < (w.link.outOf .right).backlog)) := by
  have hclosed := Transit.isClosed_eq hback.flow
  cases hwatched : (Server.watched .serve (.deliver (.closing last result watched)) &&
      s.cancelled) with
  | true =>
    -- the end of the stream is given up, perhaps in the middle of its frame
    obtain ⟨hwatch, hs⟩ := Bool.and_eq_true_iff.mp hwatched
    have hstep : step (.serve t s) w = { w with
        stop := .ends .terminated (.ok .done)
        host := w.host.observing t s } := by
      refine step_serve ?_
      rw [hstop]
      exact Server.poll_interrupted
        (r := ⟨.serve, .terminated, .deliver (.closing last result watched), {}, rest⟩) hwatch hs
        _ _
    rw [hstep]
    refine ⟨.done rfl (hcut hwatch) hback.flow fun hc => ?_, fun _ => Or.inl ?_⟩
    · exact nomatch hback.reads.symm.trans hc
    · rw [Pair.rank, Pair.rank, hstop]
      simp only [load, saying]
      omega
  | false =>
    have hflow : Flow make .right B (rest.map (Prod.mk (Op.finish last).frame)) false
      w.reading w.link := hback.flow
    rcases hflow.attempt htakes hback.unsaid with
      ⟨l, hattempt, hthrough, hdone, ha, hless⟩ | ⟨l, rest', hattempt, hpart, hdone, ha, hmoved⟩
    · have hturn : Server.delivered .serve .terminated (w.host.observing t s)
          (.closing last result watched) (.ok ()) =
            ⟨.terminated, w.host.observing t s, .inr result⟩ := rfl
      rw [step_delivers hstop hwatched hattempt hturn]
      refine ⟨.done rfl ?_ hthrough fun hc => ?_, fun _ => Or.inl ?_⟩
      · rw [List.map_append, ← List.append_assoc]
        exact hparting
      · exact nomatch hback.reads.symm.trans hc
      · have hclosed' : (l.outOf .right).isClosed = true := Transit.isClosed_eq hthrough
        rw [Pair.rank, Pair.rank, hstop, hclosed]
        simp only [load, saying, Server.Turn.stop, hclosed']
        simp only [Op.frame] at hless
        simp only [if_true, Bool.false_eq_true, if_false]
        omega
    · rw [step_delivers_part hstop hwatched hattempt]
      exact ⟨.closing rfl htakes hparting hcut ⟨hpart, hdone, hback.reads⟩,
        fun _ => nearer_of_part hstop hflow hpart hmoved⟩

/-- A server that is done lets go of its end. -/
theorem Stage.serve_over {result : Server.Outcome} {B : List Op}
    {begun : Option (Frame × Bytes)} {ended : Bool} (hstop : w.stop = .ends .terminated result)
    (hparting : Parting make secret h ms closes (w.got ++ B.map Op.frame) result w.host.store)
    (hflow : Flow make .right B begun ended w.reading w.link)
    (hover : w.atEnd = true → B = [] ∧ begun = none ∧ ended = true) :
    Stage make secret h ms closes (step (.serve t s) w) ∧
      ((step (.serve t s) w).rank < w.rank ∨ w.Same (step (.serve t s) w) ∧ w.Done) := by
  have hstep : step (.serve t s) w = { w with link := w.link.dropEnd .right } := by
    refine step_serve ?_
    rw [hstop]
    rfl
  have hlane : (w.link.dropEnd .right).outOf .right = (w.link.outOf .right).dropSender := rfl
  have hflow' : Flow make .right B begun true w.reading (w.link.dropEnd .right) := by
    rw [Flow, hlane]
    exact Transit.dropSender hflow
  rw [hstep]
  refine ⟨.done hstop hparting hflow' fun hc => ?_, ?_⟩
  · obtain ⟨hB, hbegun, -⟩ := hover hc
    exact ⟨hB, hbegun, rfl⟩
  have hclosed := Transit.isClosed_eq hflow
  have hclosed' := Transit.isClosed_eq hflow'
  cases ended with
  | true => exact Or.inr ⟨⟨rfl, hlane.trans (Lane.dropSender_of_isClosed hclosed), rfl⟩,
      ⟨_, _, hstop⟩, hclosed⟩
  | false =>
    refine Or.inl ?_
    rw [Pair.rank, Pair.rank, hclosed]
    dsimp only
    rw [hclosed', hlane, Lane.backlog_dropSender]
    simp only [if_true, Bool.false_eq_true, if_false]
    omega

/-- **A poll of the server**: once it is told to stop, it comes nearer to being done, or it waits
for the peer to read. -/
theorem Stage.serve (hwell : ∀ m ∈ ms, Readable secret m)
    (hw : Stage make secret h ms closes w) :
    Stage make secret h ms closes (step (.serve t s) w) ∧
      (s.cancelled = true → (step (.serve t s) w).rank < w.rank ∨ w.Same (step (.serve t s) w) ∧
        (make.HasRoom → 0 < (w.link.outOf .right).backlog ∨ w.Done)) := by
  cases hw with
  | listening hstop hserved hhost hforth hback hgot =>
    obtain ⟨hnext, hless⟩ := serve_listening (t := t) (s := s) hwell hstop hserved hhost hforth
      hback hgot
    exact ⟨hnext, fun hs => Or.inl (hless hs)⟩
  | replying hstop hserved hanswers hhost hbegun hforth hback hgot =>
    obtain ⟨hnext, hmoved⟩ := serve_replying (t := t) (s := s) hstop hserved hanswers hhost hbegun
      hforth hback hgot
    refine ⟨hnext, fun hs => ?_⟩
    rcases hmoved hs with hless | ⟨hsame, hfull⟩
    · exact Or.inl hless
    · exact Or.inr ⟨hsame, fun hroom => Or.inl (hfull hroom)⟩
  | closing hstop htakes hparting hcut hback =>
    obtain ⟨hnext, hmoved⟩ := serve_closing (t := t) (s := s) hstop htakes hparting hcut hback
    refine ⟨hnext, fun hs => ?_⟩
    rcases hmoved hs with hless | ⟨hsame, hfull⟩
    · exact Or.inl hless
    · exact Or.inr ⟨hsame, fun hroom => Or.inl (hfull hroom)⟩
  | done hstop hparting hflow hover =>
    obtain ⟨hnext, hmoved⟩ := serve_over (t := t) (s := s) hstop hparting hflow hover
    refine ⟨hnext, fun _ => ?_⟩
    rcases hmoved with hless | ⟨hsame, hdone⟩
    · exact Or.inl hless
    · exact Or.inr ⟨hsame, fun _ => Or.inr hdone⟩

end Moves

end Shutdown

end Vault
