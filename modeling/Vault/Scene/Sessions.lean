import Vault.Scene.Streams

/-!
# Sessions in a rehearsal

The server's side of a session is asked for one thing after the other in the foreground,
and so are the sessions of clients, which go by names. A client may have a server of its
own in the background; how that ended can be asked later.
-/

namespace Vault.Scene

/-! ### The server's side -/

/-- What comes of a call to the server's side. -/
def ofServer : Option Server.Outcome → Answer
  | none => .pending
  | some (.ok .done) => .done
  | some (.ok (.request plain)) => .message plain
  | some (.error e) => .failed (.session e)

/-- Ask something of the server's side. -/
def serve (s : Scene) (call : Server.Call) : Scene × Answer :=
  match s.server with
  | none => (s, .refused .noSession)
  | some (p, phase) =>
    let (s, r) := s.serveAt p phase call
    (s, ofServer r)

/-- Where the server's side stands. -/
def phase? (s : Scene) : Option Server.Phase :=
  s.server.map (·.2)

/-! ### Clients -/

/-- The session of a name. -/
def client? (s : Scene) (name : String) : Option Party :=
  s.clients.find? fun c => c.name == name

/-- The scene without a client, whose end stays where it is. -/
def forget (s : Scene) (name : String) : Scene :=
  { s with clients := s.clients.filter fun c => c.name != name }

/-- Let go of a client's session. -/
def dropClient (s : Scene) (name : String) : Scene :=
  match s.client? name with
  | none => s
  | some c => (s.leave c.place).forget name

/-- Connect a client at an end, which is its own from then on. -/
def connectAt (s : Scene) (name : String) (p : Place) : Scene × Option Client.Outcome :=
  match s.askAt p .connect with
  | (s, some (.ok (.connected session))) =>
    let s := s.dropClient name
    ({ s with clients := ⟨name, p, session⟩ :: s.clients }, some (.ok (.connected session)))
  | (s, r) => (s.leave p, r)

/-- What comes of a client's call. -/
def ofClient : Option Client.Outcome → Answer
  | none => .pending
  | some (.ok (.connected session)) => .bytes session.serverKey.bytes
  | some (.ok .sent) => .done
  | some (.ok (.message plain)) => .message plain
  | some (.ok (.response r)) => .response r
  | some (.ok .closed) => .done
  | some (.error e) => .failed (.session e)

/-- Connect a client at the end of a name. -/
def connect (s : Scene) (name : String) (e : EndName) : Scene × Answer :=
  s.atEnd e fun s p =>
    let (s, r) := (s.without e).connectAt name p
    (s, ofClient r)

/-- The one document that a response holds. -/
def ofFetch : Option Client.Outcome → Answer
  | some (.ok (.response r)) =>
    match Client.documentIn r with
    | .ok d => .document d
    | .error e => .failed (.session e)
  | r => ofClient r

/-- The documents that a response holds. -/
def ofFetchAll : Option Client.Outcome → Answer
  | some (.ok (.response r)) =>
    match Client.documentsIn r with
    | .ok ds => .documents ds
    | .error e => .failed (.session e)
  | r => ofClient r

/-- Run an errand on a client's session. -/
def runErrand (s : Scene) (c : Party) : Errand → Scene × Answer
  | .send plain =>
    let (s, r) := s.askAt c.place (.send c.session plain)
    (s, ofClient r)
  | .receive =>
    let (s, r) := s.askAt c.place (.receive c.session)
    (s, ofClient r)
  | .call request =>
    let (s, r) := s.askAt c.place (.request c.session request)
    (s, ofClient r)
  | .fetch request =>
    let (s, r) := s.askAt c.place (.request c.session request)
    (s, ofFetch r)
  | .fetchAll request =>
    let (s, r) := s.askAt c.place (.request c.session request)
    (s, ofFetchAll r)
  | .serverKey => (s, .text c.session.serverKey.fingerprint)
  | .close =>
    let (s, r) := s.askAt c.place .close
    (s.dropClient c.name, ofClient r)
  | .drop => (s.dropClient c.name, .done)

/-- Run an errand on the session of a name. -/
def client (s : Scene) (name : String) (e : Errand) : Scene × Answer :=
  match s.client? name with
  | none => (s, .refused .noSession)
  | some c => s.runErrand c e

/-! ### Servers in the background -/

/-- Start a server for one session at an end. -/
def startServer (s : Scene) (call : Server.Call) (p : Place) : Scene × Nat :=
  let (c, link, host) := Connection.runSession call p.side (s.linkAt p.link) s.host
  { s with host, links := s.links.setIfInBounds p.link link }.addTask ⟨p, .connection c⟩

/-- Connect a client to a server of its own. -/
def openSession (s : Scene) (name : String) (call : Server.Call) : Scene × Answer :=
  let (s, far, near) := s.addLink .inMemory
  let (s, i) := s.startServer call near
  let s := { s with named := (name, i) :: s.named.filter fun n => n.1 != name }
  let (s, r) := s.connectAt name far
  (s, ofClient r)

/-- What a server in the background came to. -/
def resultOf (s : Scene) (i : Nat) : Option (Except ServiceError Unit) :=
  s.tasks[i]?.bind fun t => t.work.result?

/-- What came of the server of a session. -/
def ofNamed : Except ServiceError Unit → Answer
  | .ok _ => .done
  | .error (.session e) => .failed (.session e)
  | .error e => .failed (.service e)

/-- What came of the server of a link. -/
def ofService : Except ServiceError Unit → Answer
  | .ok _ => .done
  | .error e => .failed (.service e)

/-- Ask how a server ended: the one of the session of a name, or else the last one of a
link. It can be asked once. -/
def join (s : Scene) (name : String) : Scene × Answer :=
  let s := s.rest
  match s.named.lookup name with
  | some i =>
    match s.resultOf i with
    | none => (s, .pending)
    | some r => ({ s with named := s.named.filter fun n => n.1 != name }, ofNamed r)
  | none =>
    match s.service with
    | none => (s, .refused .noTask)
    | some i =>
      match s.resultOf i with
      | none => (s, .pending)
      | some r => ({ s with service := none }, ofService r)

/-! ### Over the network -/

/-- Connect to whoever listens on the network. -/
def reach (s : Scene) : Option (Scene × Place) :=
  match s.network.answering? with
  | none => none
  | some listener =>
    let (s, far, near) := s.addLink (.framed Network.window)
    let work := match listener with
      | .service => .connection .fresh
      | .understudy frames => .understudy (.listening {} frames)
    some ((s.addTask ⟨near, work⟩).1, far)

/-- Connect and say what for. -/
def reachFor (s : Scene) (m : Method) (f : Scene → Place → Scene × Answer) : Scene × Answer :=
  match s.reach with
  | none => (s, .failed (.service Network.refused))
  | some (s, p) =>
    match s.sendFrom p (.open m) with
    | (s, some (.ok _)) => f s p
    | (s, some (.error e)) => (s.leave p, .failed (.service (.link e)))
    | (s, none) => (s.leave p, .pending)

/-- Call the server for a ping. -/
def ping (s : Scene) : Scene × Answer :=
  s.reachFor .ping fun s p =>
    let (s, r) := s.receiveMessage p
    let answer := match r with
      | none => .pending
      | some (.ok none) => .done
      | some (.ok (some _)) => .failed (.service (.protocol "ping answered with a message"))
      | some (.error e) => .failed (.service (.link e))
    (s.leave p, answer)

/-- Call the server for a session. -/
def dial (s : Scene) (name : String) (m : Method) : Scene × Answer :=
  s.reachFor m fun s p =>
    match s.connectAt name p with
    | (s, some (.error e)) => (s, .failed (.service (.session e)))
    | (s, r) => (s, ofClient r)

/-- Connect and take the far end. -/
def dialRaw (s : Scene) : Scene × Answer :=
  match (s.leave? s.peer).reach with
  | none => (s, .failed (.service Network.refused))
  | some (s, p) => ({ s with peer := some p }, .done)

/-- Let go of everything a server in the background still holds. -/
def abandon (s : Scene) (t : Task) : Scene :=
  match t.work.result? with
  | some _ => s
  | none => s.leave t.place

/-- Stop listening: raise the signal, let the servers come to rest and abandon those that
are still waiting then. -/
def stopListening (s : Scene) : Scene :=
  let s := { s with
    host := { s.host with signal := { s.host.signal with raised := true } }
    network := { s.network with listener := none } }
  let s := s.rest
  { s.tasks.foldl abandon s with tasks := #[] }

end Vault.Scene
