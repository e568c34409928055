import VisionNx.Wire

/-! # The IPC client

`IpcClient` owns the descriptor of a Unix socket and opens it again when it needs to.
The operating system is a `World`: the sockets that are open, a clock, and a script that
decides the outcome of each system call, so that a call can fail, and a send or a
receive stop short, at any point. -/

namespace VisionNx.Client

/-! ## The operating system -/

/-- What becomes of a system call.  A send or a receive is done with `k + 1` bytes if
    there are as many; opening a socket gives the descriptor `k`. -/
inductive Outcome where
  | fail
  | done (k : ℕ)

structure Socket where
  fd : ℕ
  /-- the number of the connection, in the order in which the worker accepts them -/
  connection : Option ℕ := none
  written : List UInt8 := []
  consumed : ℕ := 0

/-- `fd` and `nextConnectAttempt` are the client's, and `log` only records which messages
    have been written to their end, and on which connection. -/
structure World where
  fd : Option ℕ := none
  nextConnectAttempt : ℕ := 0
  clock : ℕ := 0
  script : List (ℕ × Outcome) := []
  sockets : List Socket := []
  accepted : ℕ := 0
  log : List (ℕ × ClientMessage) := []

/-- What the client is given: its members that never change, the JSON library, and what
    the other end of a connection has sent once it got certain bytes. -/
structure Context where
  dump : Json → List UInt8
  parse : List UInt8 → Option Json
  socketPath : List UInt8
  cameraUuid : String
  peer : ℕ → List UInt8 → List UInt8

namespace World

/-- The outcome of the next call, which takes some time.  Behind the end of the script
    every call fails. -/
def next (w : World) : Outcome × World :=
  match w.script with
  | [] => (.fail, w)
  | (elapsed, outcome) :: script => (outcome, { w with clock := w.clock + elapsed, script })

def find (w : World) (fd : ℕ) : Option Socket := w.sockets.find? (·.fd = fd)

def modify (w : World) (fd : ℕ) (f : Socket → Socket) : World :=
  { w with sockets := w.sockets.map fun s => if s.fd = fd then f s else s }

def now (w : World) : ℕ × World := (w.next.2.clock, w.next.2)

def socket (w : World) : Option ℕ × World :=
  match w.next with
  | (.done fd, w) =>
    -- The system does not give a descriptor out twice.
    if (w.find fd).isSome then (none, w) else (some fd, { w with sockets := { fd } :: w.sockets })
  | (.fail, w) => (none, w)

def connect (fd : ℕ) (w : World) : Bool × World :=
  match w.next with
  | (.done _, w) =>
    (true, { w.modify fd fun s => { s with connection := some w.accepted } with accepted := w.accepted + 1 })
  | (.fail, w) => (false, w)

def close (fd : ℕ) (w : World) : World := { w with sockets := w.sockets.filter (·.fd ≠ fd) }

/-- How many bytes the socket takes, which are none if the call fails. -/
def send (fd : ℕ) (buf : List UInt8) (w : World) : ℕ × World :=
  match w.next with
  | (.done k, w) =>
    let taken := min (k + 1) buf.length
    (taken, w.modify fd fun s => { s with written := s.written ++ buf.take taken })
  | (.fail, w) => (0, w)

/-- At most `n` of the bytes that the other end has sent; none if it has closed, or if
    the call fails. -/
def recv (ctx : Context) (fd n : ℕ) (w : World) : List UInt8 × World :=
  match w.next with
  | (.fail, w) => ([], w)
  | (.done k, w) =>
    match w.find fd with
    | some ⟨_, some connection, written, consumed⟩ =>
      let bytes := ((ctx.peer connection written).drop consumed).take (min (k + 1) n)
      (bytes, w.modify fd fun s => { s with consumed := s.consumed + bytes.length })
    | _ => ([], w)

end World

/-! ## Connecting -/

/-- `kConnectCooldown`, in nanoseconds. -/
def connectCooldown : ℕ := 2 * 10 ^ 9

/-- `sizeof(addr.sun_path)` -/
def sunPathSize : ℕ := 108

/-- `ensureConnected` behind the check of the cooldown, at the time `now`. -/
def tryConnect (ctx : Context) (now : ℕ) (w : World) : Bool × World :=
  match w.socket with
  | (none, w) => (false, { w with nextConnectAttempt := now + connectCooldown })
  | (some fd, w) =>
    -- The path does not fit the address.
    if sunPathSize ≤ ctx.socketPath.length then
      (false, { w.close fd with nextConnectAttempt := now + connectCooldown })
    else
      match w.connect fd with
      | (false, w) => (false, { w.close fd with nextConnectAttempt := now + connectCooldown })
      | (true, w) => (true, { w with fd := some fd })

def ensureConnected (ctx : Context) (w : World) : Bool × World :=
  if w.fd.isSome then (true, w)
  else if w.now.1 < w.now.2.nextConnectAttempt then (false, w.now.2)
  else tryConnect ctx w.now.1 w.now.2

def disconnect (w : World) : World :=
  match w.fd with
  | none => w
  | some fd => { w.close fd with fd := none }

/-! ## Writing -/

/-- The loop of `writeRaw`.  Every round that does not fail sends a byte, so there are at
    most as many as bytes. -/
def writeLoop : ℕ → ℕ → List UInt8 → World → Bool × World
  | 0, _, _, w => (true, w)
  | fuel + 1, fd, buf, w =>
    if buf.isEmpty then (true, w)
    else
      match w.send fd buf with
      | (0, w) => (false, disconnect w)
      | (k + 1, w) => writeLoop fuel fd (buf.drop (k + 1)) w

def writeRaw (buf : List UInt8) (w : World) : Bool × World :=
  match w.fd with
  | none => (false, w)
  | some fd => writeLoop buf.length fd buf w

def writeFramed (utf8 : List UInt8) (w : World) : Bool × World :=
  -- This return leaves the connection open.
  if w.fd.isNone ∨ maxFrameBytes < utf8.length then (false, w)
  else
    match writeRaw (be32 utf8.length) w with
    | (false, w) => (false, w)
    | (true, w) => if utf8.isEmpty then (true, w) else writeRaw utf8 w

/-! ## Reading -/

def readLoop (ctx : Context) : ℕ → ℕ → ℕ → List UInt8 → World → Option (List UInt8) × World
  | 0, _, _, got, w => (some got, w)
  | fuel + 1, fd, remaining, got, w =>
    if remaining = 0 then (some got, w)
    else
      match w.recv ctx fd remaining with
      | ([], w) => (none, disconnect w)
      | (bytes, w) => readLoop ctx fuel fd (remaining - bytes.length) (got ++ bytes) w

def readFramed (ctx : Context) (w : World) : Option (List UInt8) × World :=
  match w.fd with
  | none => (none, w)
  | some fd =>
    match readLoop ctx 4 fd 4 [] w with
    | (none, w) => (none, w)
    | (some hdr, w) =>
      let length := beValue hdr
      if length = 0 ∨ maxFrameBytes < length then (none, disconnect w)
      else readLoop ctx length fd length [] w

/-! ## Calls -/

def logged (m : ClientMessage) : Bool × World → Bool × World
  | (false, w) => (false, w)
  | (true, w) =>
    match w.fd.bind w.find with
    | some ⟨_, some connection, _, _⟩ => (true, { w with log := w.log ++ [(connection, m)] })
    | _ => (true, w)

def sendJsonNoReply (ctx : Context) (m : ClientMessage) (w : World) : Bool × World :=
  match ensureConnected ctx w with
  | (false, w) => (false, w)
  | (true, w) => logged m (writeFramed (m.text ctx.dump ctx.cameraUuid) w)

def sendAttach (ctx : Context) (w : World) : Bool × World := sendJsonNoReply ctx .attach w

def sendDetach (ctx : Context) (w : World) : World :=
  if w.fd.isSome then
    disconnect (logged .detach (writeFramed (ClientMessage.detach.text ctx.dump ctx.cameraUuid) w)).2
  else disconnect w

def sendConfig (ctx : Context) (extra : List (String × Json)) (w : World) : Bool × World :=
  sendJsonNoReply ctx (.config extra) w

/-- A message that is more than a JSON text: its header is written as one, and its body,
    when it has one, as it is. -/
def writeFrame (ctx : Context) (m : ClientMessage) (w : World) : Bool × World :=
  match writeFramed (m.text ctx.dump ctx.cameraUuid) w with
  | (false, w) => (false, w)
  | (true, w) => if m.body.isEmpty then (true, w) else writeRaw m.body w

/-- `none` is `Json()`. -/
def sendFrameAndRecv (ctx : Context) (frameId tsUs w h stride : ℤ) (body : List UInt8) (world : World) :
    Option Json × World :=
  let m := ClientMessage.frame frameId tsUs w h stride body
  match ensureConnected ctx world with
  | (false, world) => (none, world)
  | (true, world) =>
    match logged m (writeFrame ctx m world) with
    | (false, world) => (none, world)
    | (true, world) =>
      match readFramed ctx world with
      | (none, world) => (none, world)
      | (some reply, world) => (ctx.parse reply, world)

/-- The public call that sends a message. -/
def perform (ctx : Context) : ClientMessage → World → Option Json × World
  | .attach, w => (none, (sendAttach ctx w).2)
  | .detach, w => (none, sendDetach ctx w)
  | .config extra, w => (none, (sendConfig ctx extra w).2)
  | .frame frameId tsUs width h stride body, w => sendFrameAndRecv ctx frameId tsUs width h stride body w

end VisionNx.Client
