import Vault.Scene.Action
import Vault.Scene.Network
import Vault.Service.Connection

/-!
# Rehearsals

A rehearsal is played on a **scene**: a host, links with somebody at each of their ends,
and a background in which servers and sweepers run. The background moves in rounds; in a
round every server runs on until it waits, in the order in which they came to have
something to do, and sweepers do what is due. An action in the foreground is tried, and
when it has to wait the background moves and it is tried again; once the background does
not move any more, it would wait for ever.
-/

namespace Vault

namespace Scene

/-- One end of one of the links. -/
structure Place where
  /-- The number of the link. -/
  link : Nat
  /-- The side of the end. -/
  side : Side
  deriving DecidableEq, Repr

/-- What a server in the background does. -/
inductive Work where
  /-- It serves a connection. -/
  | connection (c : Connection)
  /-- It plays a part. -/
  | understudy (u : Understudy)

namespace Work

/-- The outcome of work that is done. -/
def result? : Work → Option (Except ServiceError Unit)
  | connection c => c.result?
  | understudy .gone => some (.ok ())
  | understudy _ => none

/-- Work on until something has to wait. -/
def advance (w : Work) (side : Side) (link : Link) (host : Host Backend) :
    Work × Link × Host Backend :=
  match w with
  | connection c =>
    let (c, link, host) := c.advance side link host
    (connection c, link, host)
  | understudy u =>
    let (u, link) := u.advance side link
    (understudy u, link, host)

end Work

/-- A server in the background. -/
structure Task where
  /-- Its end of a link. -/
  place : Place
  /-- What it does. -/
  work : Work

/-- A client's session. -/
structure Party where
  /-- Its name. -/
  name : String
  /-- Its end of a link. -/
  place : Place
  /-- The session. -/
  session : Client.Session

end Scene

/-- Everything a rehearsal is played on. -/
structure Scene where
  /-- The store, the clock, the random bytes, the log and the signal. -/
  host : Host Backend
  /-- The links, in the order in which they were opened. -/
  links : Array Link := #[]
  /-- The far end of the last link, unless somebody took it. -/
  peer : Option Scene.Place := none
  /-- The near end of the last link that was opened without anybody at it. -/
  near : Option Scene.Place := none
  /-- The server's side of the last session. -/
  server : Option (Scene.Place × Server.Phase) := none
  /-- The key pair that was last used by hand. -/
  pair : Option Crypto.KeyPair := none
  /-- The secret that was last agreed on by hand. -/
  secret : Option Crypto.SharedSecret := none
  /-- The clients' sessions. -/
  clients : List Scene.Party := []
  /-- The servers in the background, in the order in which they started. -/
  tasks : Array Scene.Task := #[]
  /-- The servers of named sessions, by their numbers. -/
  named : List (String × Nat) := []
  /-- The number of the last server of a link. -/
  service : Option Nat := none
  /-- The servers that have something to do, in the order in which they came to. -/
  queue : List Nat := []
  /-- The sweepers, numbered in the order in which they started. -/
  crew : Retention.Crew := {}
  /-- The number of the sweeper that can be waited for. -/
  awaited : Option Nat := none
  /-- The network. -/
  network : Network := {}
  /-- Whether the background moves only while the foreground waits. -/
  restless : Bool := false

namespace Scene

/-- When a rehearsal begins, unless told otherwise. -/
def beginning : Timestamp := .clamp 1700000000000000

/-! ### Ends of links -/

/-- The link of a number. -/
def linkAt (s : Scene) (i : Nat) : Link :=
  s.links[i]?.getD .inMemory

/-- Do something with the link at a place. -/
def onLink {α : Type} (s : Scene) (p : Place) (f : Link → Side → Link × α) : Scene × α :=
  let (link, a) := f (s.linkAt p.link) p.side
  ({ s with links := s.links.setIfInBounds p.link link }, a)

/-- Let go of an end. -/
def leave (s : Scene) (p : Place) : Scene :=
  (s.onLink p fun link side => (link.dropEnd side, ())).1

/-- Let go of an end, if there is one. -/
def leave? (s : Scene) (p : Option Place) : Scene :=
  match p with
  | some p => s.leave p
  | none => s

/-- A new link; its far end is the left one and its near end the right one. -/
def addLink (s : Scene) (link : Link) : Scene × Place × Place :=
  let i := s.links.size
  ({ s with links := s.links.push link }, ⟨i, .left⟩, ⟨i, .right⟩)

/-! ### The background -/

/-- Start a server. -/
def addTask (s : Scene) (t : Task) : Scene × Nat :=
  ({ s with tasks := s.tasks.push t }, s.tasks.size)

/-- Whether anything has moved on a link, as seen from one end. -/
def moved (before after : Link) (side : Side) : Bool :=
  (before.into side).backlog != (after.into side).backlog ||
    (before.outOf side).backlog != (after.outOf side).backlog

/-- Let a server work on. The answer is whether anything has moved. -/
def advanceTask (s : Scene) (i : Nat) : Scene × Bool :=
  match s.tasks[i]? with
  | none => (s, false)
  | some t =>
    match t.work.result? with
    | some _ => (s, false)
    | none =>
      let before := s.linkAt t.place.link
      let (work, after, host) := t.work.advance t.place.side before s.host
      let s := { s with
        host
        links := s.links.setIfInBounds t.place.link after
        tasks := s.tasks.setIfInBounds i { t with work } }
      match work.result? with
      | some _ => (s.leave t.place, true)
      | none => (s, moved before after t.place.side)

/-- Let servers work on, one after the other. -/
def advanceAll : List Nat → Scene → Scene × Bool
  | [], s => (s, false)
  | i :: is, s =>
    let (s, m) := s.advanceTask i
    let (s, n) := advanceAll is s
    (s, m || n)

/-- The servers that are not in the queue. -/
def unqueued (s : Scene) : List Nat :=
  (List.range s.tasks.size).filter fun i => !s.queue.contains i

/-- The servers that have come to have something to do join the queue. -/
def enqueue (s : Scene) : Scene :=
  { s with queue := s.queue ++ s.unqueued.filter fun i => (s.advanceTask i).2 }

/-- The sweepers do what is due now. -/
def settleCrew (s : Scene) : Scene :=
  let (crew, host) := s.crew.settle s.host.store.pace s.host
  { s with crew, host }

/-- One round of the background. -/
def round (s : Scene) : Scene × Bool :=
  let (s, m) := advanceAll (s.queue ++ s.unqueued) { s with queue := [] }
  (s.settleCrew, m)

/-- More rounds than any exchange takes. -/
def patience : Nat := 2 ^ 32

/-- Rounds of the background until nothing moves, at most `fuel`. -/
def roundsUntilRest : Nat → Scene → Scene
  | 0, s => s
  | fuel + 1, s =>
    match s.round with
    | (s, true) => roundsUntilRest fuel s
    | (s, false) => s

/-- The background comes to rest. -/
def rest (s : Scene) : Scene :=
  roundsUntilRest patience s

/-! ### The foreground -/

/-- Try something until it is through, for at most `fuel` tries; `none` if it would wait for
ever. -/
def tryUntil {ω α : Type} (attempt : ω → Scene → Scene × Poll ω α) :
    Nat → ω → Scene → Scene × Option α
  | 0, _, s => (s, none)
  | fuel + 1, w, s =>
    match attempt w s with
    | (s, .ready a) => (s, some a)
    | (s, .waiting w) =>
      match s.round with
      | (s, true) => tryUntil attempt fuel w s
      | (s, false) => (s, none)

/-- Try something on an end until it is through. -/
def tryOn {ω α : Type} (s : Scene) (p : Place) (f : ω → Link → Side → Link × Poll ω α)
    (start : ω) : Scene × Option α :=
  tryUntil (fun w s => s.onLink p fun link side => f w link side) patience start s

/-- Send a frame from an end. -/
def sendFrom (s : Scene) (p : Place) (f : Frame) : Scene × Option (Except LinkError Unit) :=
  s.tryOn p (fun rest link side => link.send side f rest) none

/-- Receive a frame at an end. -/
def receiveAt (s : Scene) (p : Place) : Scene × Option (Except LinkError (Option Frame)) :=
  s.tryOn p (fun reading link side => link.receive side reading) {}

/-- Do something as a client at an end. -/
def askAt (s : Scene) (p : Place) (call : Client.Call) : Scene × Option Client.Outcome :=
  let (next, entropy) := Client.start call s.host.entropy
  let s := { s with host := { s.host with entropy } }
  match next with
  | .inr result => (s, some result)
  | .inl waiting => s.tryOn p (fun r link side => Client.resume r side link) { waiting }

/-- Where the server's side stands after a run, and what came of the call if it is over. -/
def ofStop (p : Place) (r : Server.Stop × Link × Host Backend) (s : Scene) :
    Scene × Poll Server.Running Server.Outcome :=
  let (stop, link, host) := r
  let s := { s with
    host
    links := s.links.setIfInBounds p.link link
    server := some (p, stop.phase) }
  match stop with
  | .waits r => (s, .waiting r)
  | .ends _ result => (s, .ready result)

/-- Do something as the server at an end. -/
def serveAt (s : Scene) (p : Place) (phase : Server.Phase) (call : Server.Call) :
    Scene × Option Server.Outcome :=
  match ofStop p (Server.run call p.side phase (s.linkAt p.link) s.host) s with
  | (s, .ready result) => (s, some result)
  | (s, .waiting r) =>
    tryUntil (fun r s => ofStop p (Server.resume r p.side (s.linkAt p.link) s.host) s)
      patience r s

end Scene

end Vault
