import Vault.Scene.Sessions

/-!
# Playing a rehearsal

`Vault.Scene.perform` carries out one action, and `Vault.Scene.play` does so and lets the
background come to rest. Once there has been a sweeper, time stands still between
actions, and so does the background.
-/

namespace Vault.Scene

/-! ### The store -/

/-- What comes of something that fails with the store or has an answer. -/
def ofStore {α : Type} (f : α → Answer) : Except StoreError α → Answer
  | .ok a => f a
  | .error e => .failed (.store e)

/-- Add documents of one draft until one fails. -/
def insertMany (d : Draft) : Nat → Host Backend → List Document × Option StoreError × Host Backend
  | 0, h => ([], none, h)
  | n + 1, h =>
    match h.insert d with
    | (.ok doc, h) =>
      let (docs, e, h) := insertMany d n h
      (doc :: docs, e, h)
    | (.error e, h) => ([], some e, h)

/-- Do something with the store, if there is one. A store that works aside lets the
background go on. -/
def onStore (s : Scene) (f : Host Backend → Answer × Host Backend) : Scene × Answer :=
  if s.host.store.isReady then
    let (a, host) := f s.host
    let s := { s with host }
    (if host.store.worksAside then s.rest else s, a)
  else (s, .refused .noStore)

/-- Let time pass. The background comes to rest first. -/
def passTime (s : Scene) (d : Duration) : Scene :=
  if d.totalNanos = 0 then s
  else
    let s := s.rest
    let (crew, host) := s.crew.pass s.host.store.pace d s.host
    { s with crew, host }

/-- Delete what was created before a cutoff, and note what came of it. That is settled at
once, but known only when the time that the store takes has passed. -/
def delete (s : Scene) (cutoff : Timestamp)
    (note : Except StoreError Nat → Host Backend → Host Backend) : Scene × Answer :=
  let pace := s.host.store.pace
  if s.host.store.isReady then
    let (r, host) := s.host.deleteBefore cutoff
    let s := { s with host }
    match pace with
    | none => (s.rest, .pending)
    | some ms =>
      let s := s.passTime (.ofMillis ms)
      let s := if s.host.store.worksAside then s.rest else s
      ({ s with host := note r s.host }, ofStore .number r)
  else (s, .refused .noStore)

/-- How many documents there are in memory. -/
def size (s : Scene) : Answer :=
  match s.host.store with
  | .memory m => .size m.size
  | _ => .refused .noStore

/-- Close the file and open it again. -/
def reopen (s : Scene) (how : Backend.Reopening) : Scene × Answer :=
  match s.host.store with
  | .file contents _ =>
    let (r, store) := Backend.reopen how contents
    ({ s with host := { s.host with store } }, ofStore (fun _ => .done) r)
  | _ => (s, .refused .noStore)

/-- Tamper with the file. -/
def tamper (s : Scene) (t : Backend.Tampering) : Scene × Answer :=
  match s.host.store with
  | .file (some db) isOpen =>
    let (r, db) := Backend.tamper t db
    ({ s with host := { s.host with store := .file (some db) isOpen } }, ofStore (fun _ => .done) r)
  | .file none _ => (s, .failed (.store Backend.notADatabase))
  | _ => (s, .refused .noStore)

/-- What comes of a request. -/
def ofRequest : Except Status Response → Answer
  | .ok r => .dispatched r
  | .error s => .failed (.status s)

/-! ### The signal and the sweeper -/

/-- Say something by the shutdown signal. -/
def signalled (s : Scene) (f : Signal → Signal) : Scene :=
  { s with host := { s.host with signal := f s.host.signal } }

/-- For how many seconds the machine has been on when a sweeper starts. -/
def uptime : Nat := 1000

/-- Start a sweeper. If the signal is raised it stops at once. -/
def startSweeper (s : Scene) (p : Retention.Policy) : Scene :=
  let s := s.rest
  let number := s.crew.sweepers.length
  let (crew, host) := s.crew.hire number p uptime s.host
  { s with crew, host, awaited := some number, restless := true }.settleCrew

/-- What comes of waiting for a sweeper. -/
def ofSweeper : Except RetentionError Retention.Report → Answer
  | .ok report => .report report
  | .error e => .failed (.retention e)

/-- Wait for the sweeper that was started last, once. -/
def waitSweeper (s : Scene) (timeout : Duration) : Scene × Answer :=
  match s.awaited with
  | none => (s, .refused .noSweeper)
  | some number =>
    let s := { s with awaited := none }
    match s.crew.heard? number with
    | some r => (s, ofSweeper r)
    | none =>
      let s := if timeout.totalNanos = 0 then s else s.rest
      let (r, crew, host) := s.crew.wait s.host.store.pace number timeout s.host
      ({ s with crew, host }, ofSweeper r)

/-! ### Actions -/

/-- Find the address of a server. -/
def resolve (address : String) : Answer :=
  match Network.resolve? address with
  | some a => .text a.text
  | none => .failed (.service (.io "no such address"))

/-- Carry out an action. -/
def perform (s : Scene) : Action → Scene × Answer
  | .insert d times =>
    s.onStore fun h =>
      let (docs, e, h) := insertMany d times h
      (.inserted docs e, h)
  | .get id =>
    s.onStore fun h =>
      let (r, h) := h.get id
      (ofStore .document r, h)
  | .list owner =>
    s.onStore fun h =>
      let (r, h) := h.list owner
      (ofStore .documents r, h)
  | .count owner =>
    s.onStore fun h =>
      let (r, h) := h.list owner
      (ofStore (fun ds => .number ds.length) r, h)
  | .deleteBefore cutoff => s.delete cutoff fun _ h => h
  | .sweep maxAge =>
    let cutoff := Retention.cutoff maxAge s.host.now
    s.delete cutoff (Retention.recordSweep cutoff)
  | .size => (s, s.size)
  | .setClock t => ({ s with host := { s.host with now := t } }, .time t)
  | .moveClock d =>
    let t := s.host.now.forward d
    ({ s with host := { s.host with now := t } }, .time t)
  | .reopen how => s.reopen how
  | .tamper t => s.tamper t
  | .dispatch plain =>
    s.onStore fun h =>
      let (r, h) := Dispatch.dispatch plain h
      (ofRequest r, h)
  | .handle request =>
    s.onStore fun h =>
      let (r, h) := Dispatch.handle request h
      (ofRequest r, h)
  | .openLink make role => (s.openLink make role, .done)
  | .send e f =>
    s.atEnd e fun s p =>
      let (s, r) := s.sendFrom p f
      (s, ofLink r)
  | .receive e => s.atEnd e receive
  | .readFrame e => s.atEnd e readFrame
  | .finish e last => s.atEnd e fun s p => s.finish p last
  | .writeRaw b halfClose => s.atEnd .peer fun s p => s.writeRaw p b halfClose
  | .dropEnd e => ((s.leave? (s.place? e)).without e, .done)
  | .sendKey e blob => s.sendKey e blob
  | .derive e => s.atEnd e derive
  | .sendSealed e plain damage => s.sendSealed e plain damage
  | .receiveSealed e => s.atEnd e receiveSealed
  | .serve call => s.serve call
  | .look => (s, if s.server.isSome then .done else .refused .noSession)
  | .connect name e => s.connect name e
  | .client name errand => s.client name errand
  | .openSession name call => s.openSession name call
  | .join name => s.join name
  | .shutdown value =>
    (s.signalled fun g => if g.senderGone then g else { g with raised := value }, .done)
  | .dropSignal => (s.signalled fun g => { g with senderGone := true }, .done)
  | .isCancelled => (s, .flag s.host.signal.cancelled)
  | .cancelled =>
    if s.host.signal.cancelled then (s, .text "cancelled") else (s.rest, .pending)
  | .sweeper p => (s.startSweeper p, .done)
  | .runMs ms => (s.passTime (.ofMillis ms), .done)
  | .waitSweeper timeout => s.waitSweeper timeout
  | .listen => ({ s with network := { s.network with listener := some .service } }, .done)
  | .pretend frames =>
    ({ s with network := { s.network with listener := some (.understudy frames) } }, .done)
  | .stopListening => (s.stopListening, .done)
  | .ping => s.ping
  | .dial name m => s.dial name m
  | .dialRaw => s.dialRaw
  | .resolve address => (s, resolve address)

/-- Carry out an action and let the background come to rest after it, unless that moves only
while the foreground waits. The log is that of this action alone. -/
def play (s : Scene) (a : Action) : Scene × Answer :=
  let (s, answer) := { s with host := { s.host with log := [] } }.perform a
  (if s.restless then s.enqueue else s.rest, answer)

end Vault.Scene
