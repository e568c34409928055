import VisionNx.Library.TransitionRuns
import VisionNx.VideoFrame
import VisionNx.Worker.ReplyStream

/-! # A frame on its way through the socket

`sendFrameAndRecv` writes as many bytes as the SDK reports for a frame, and `serve` reads
as many as the header gives.  Both wait without a timeout, so what becomes of the
connection hangs on the guards of `pushUncompressedVideoFrame`: they keep both sides in
step exactly as long as the two numbers agree, or the worker refuses the size. -/

namespace VisionNx.FrameExchange

open Worker TransitionRuns

/-! ## The two sides -/

/-- The part of a message that a byte belongs to.  Only the proofs look at it. -/
inductive Part where
  | length
  | text
  | body
  deriving DecidableEq, Repr

def bytes (stream : List (Part × UInt8)) : List UInt8 := stream.map (·.2)

/-- What `readFramed` is waiting for. -/
inductive ReplyPart where
  | length
  | payload (length : ℕ)

def ReplyPart.size : ReplyPart → ℕ
  | length => 4
  | payload n => n

/-- Where the client is in a call of `sendFrameAndRecv`, if it is in one. -/
inductive ClientPhase where
  | idle
  | sending (m : ClientMessage) (rest : List (Part × UInt8))
  | receiving (m : ClientMessage) (want : ReplyPart) (got : List UInt8)
  | closed

/-- What `serve` is waiting for in `recv_exact`. -/
inductive Want where
  | length
  | payload (length : ℕ)
  | body (msg : List (String × Json)) (hdr : FrameHeader)

def Want.size : Want → ℕ
  | length => 4
  | payload n => n
  | body _ hdr => (hdr.h * hdr.stride).toNat

/-- Where the worker is in its loop. -/
inductive WorkerPhase where
  | receiving (want : Want) (got : List (Part × UInt8))
  | handling (m : Incoming)
  | sending (rest : List UInt8)
  | closed

structure State (A : Type) where
  serve : ServeState A
  client : ClientPhase := .idle
  worker : WorkerPhase := .receiving .length []
  /-- the bytes on their way to the worker -/
  up : List (Part × UInt8) := []
  /-- the bytes on their way to the client -/
  down : List UInt8 := []

/-- The JSON libraries of both sides, and the worker's third-party code. -/
structure Endpoints (A : Type) where
  cameraUuid : String
  dump : Json → List UInt8
  loads : List UInt8 → Option Json
  dumps : Json → List UInt8
  env : Env A

variable {A : Type}

def Endpoints.text (e : Endpoints A) (m : ClientMessage) : List UInt8 := m.text e.dump e.cameraUuid

/-- The bytes of a message, each with its part. -/
def Endpoints.tagged (e : Endpoints A) (m : ClientMessage) : List (Part × UInt8) :=
  (be32 (e.text m).length).map (Part.length, ·) ++ (e.text m).map (Part.text, ·) ++ m.body.map (Part.body, ·)

/-- The client with `rest` still to write: it reads the reply once there is nothing left. -/
def afterSend (m : ClientMessage) (rest : List (Part × UInt8)) : ClientPhase :=
  if rest.isEmpty then .receiving m .length [] else .sending m rest

/-- The start of a call; a text that is too long is not sent at all. -/
def Endpoints.startCall (e : Endpoints A) (m : ClientMessage) : ClientPhase :=
  if maxFrameBytes < (e.text m).length then .idle else .sending m (e.tagged m)

/-- `readFramed` behind a receive that is complete. -/
def proceedReply (m : ClientMessage) (got : List UInt8) : ReplyPart → ClientPhase
  | .length =>
    let length := beValue got
    if length = 0 ∨ maxFrameBytes < length then .closed else .receiving m (.payload length) []
  | .payload _ => .idle

/-- `serve` behind a `recv_exact` that is complete. -/
def proceed (loads : List UInt8 → Option Json) (got : List UInt8) : Want → WorkerPhase
  | .length =>
    let length := beValue got
    if length = 0 ∨ maxFrameBytes < length then .closed else .receiving (.payload length) []
  | .payload _ =>
    match loads got with
    | none => .handling .garbled
    | some (.obj msg) =>
      if typeIs "frame" msg then
        match frameHeader msg with
        | none => .closed
        | some hdr =>
          if hdr.h * hdr.stride ≤ 0 ∨ maxBodyBytes < hdr.h * hdr.stride then .closed
          else .receiving (.body msg hdr) []
      else .handling (.message msg)
    | some _ => .closed
  | .body msg hdr => .handling (.frame msg hdr got)

/-- The worker with `rest` still to send: it waits for the next message once there is
    nothing left. -/
def afterReply (rest : List UInt8) : WorkerPhase :=
  if rest.isEmpty then .receiving .length [] else .sending rest

/-- The worker behind the branch of a message, with its state; an exception, also one of
    `send_msg`, closes the connection. -/
def Endpoints.respond (e : Endpoints A) (b : Behaviour A) (serve : ServeState A) (m : Incoming) :
    ServeState A × WorkerPhase :=
  match handle e.env b serve m with
  | none => (serve, .closed)
  | some (serve', effects) =>
    match effects.replies.mapM (sendMsg e.dumps) with
    | none => (serve', .closed)
    | some replies => (serve', afterReply replies.flatten)

/-! ## Steps -/

inductive Action (A : Type) where
  | push (frameId : ℤ) (f : VideoFrame)
  | clientSend (k : ℕ)
  | clientRecv (k : ℕ)
  | clientProceed
  | clientCloses
  | workerRecv (k : ℕ)
  | workerProceed
  | handle (b : Behaviour A)
  | workerSend (k : ℕ)
  | workerCloses

/-- A send takes up to `k + 1` bytes, and so does a receive that finds any.  Either side may
    close at any time, as it does when a call fails; on a connection that the other side
    has closed a send fails, and a receive that finds nothing. -/
inductive Step (e : Endpoints A) : State A → Action A → State A → Prop where
  | push {frameId f m} (idle : s.client = .idle) (passes : frameMessage frameId f = some m) :
      Step e s (.push frameId f) { s with client := e.startCall m }
  | clientSend {k m rest} (sending : s.client = .sending m rest) (is_open : s.worker ≠ .closed) :
      Step e s (.clientSend k)
        { s with client := afterSend m (rest.drop (k + 1)), up := s.up ++ rest.take (k + 1) }
  | clientRecv {k m want got} (receiving : s.client = .receiving m want got) (wanted : got.length < want.size)
      (arrived : s.down ≠ []) :
      Step e s (.clientRecv k)
        { s with client := .receiving m want (got ++ s.down.take (min (k + 1) (want.size - got.length)))
                 down := s.down.drop (min (k + 1) (want.size - got.length)) }
  | clientProceed {m want got} (receiving : s.client = .receiving m want got) (complete : want.size ≤ got.length) :
      Step e s .clientProceed { s with client := proceedReply m got want }
  | clientCloses : Step e s .clientCloses { s with client := .closed }
  | workerRecv {k want got} (receiving : s.worker = .receiving want got) (wanted : got.length < want.size)
      (arrived : s.up ≠ []) :
      Step e s (.workerRecv k)
        { s with worker := .receiving want (got ++ s.up.take (min (k + 1) (want.size - got.length)))
                 up := s.up.drop (min (k + 1) (want.size - got.length)) }
  | workerProceed {want got} (receiving : s.worker = .receiving want got) (complete : want.size ≤ got.length) :
      Step e s .workerProceed { s with worker := proceed e.loads (bytes got) want }
  | handle {b m} (handling : s.worker = .handling m) :
      Step e s (.handle b) { s with serve := (e.respond b s.serve m).1, worker := (e.respond b s.serve m).2 }
  | workerSend {k rest} (sending : s.worker = .sending rest) (is_open : s.client ≠ .closed) :
      Step e s (.workerSend k)
        { s with worker := afterReply (rest.drop (k + 1)), down := s.down ++ rest.take (k + 1) }
  | workerCloses : Step e s .workerCloses { s with worker := .closed }

/-! ## What must not happen -/

/-- The message of the call that is running. -/
def ClientPhase.call? : ClientPhase → Option ClientMessage
  | sending m _ | receiving m _ _ => some m
  | idle | closed => none

def ClientPhase.Blocked (c : ClientPhase) : Prop := ∃ m want got, c = receiving m want got ∧ got.length < want.size

def WorkerPhase.Blocked (p : WorkerPhase) : Prop := ∃ want got, p = receiving want got ∧ got.length < want.size

/-- Both sides are in step. -/
structure InStep (s : State A) : Prop where
  /-- The worker reads as many body bytes as are written … -/
  sizes : ∀ m msg hdr got, s.client.call? = some m → s.worker = .receiving (.body msg hdr) got →
    hdr.h * hdr.stride = m.body.length
  /-- … and these bytes. -/
  bodies : ∀ m msg hdr body, s.client.call? = some m → s.worker = .handling (.frame msg hdr body) → body = m.body
  /-- The two sides do not wait for each other. -/
  progress : ¬ (s.client.Blocked ∧ s.worker.Blocked ∧ s.up = [] ∧ s.down = [])
  /-- No body byte is taken for a length. -/
  framing : ∀ got, s.worker = .receiving .length got → ∀ byte ∈ got, byte.1 ≠ .body

/-! ## What the worker has read -/

@[simp] theorem bytes_append (stream stream' : List (Part × UInt8)) :
    bytes (stream ++ stream') = bytes stream ++ bytes stream' :=
  List.map_append

@[simp] theorem length_bytes (stream : List (Part × UInt8)) : (bytes stream).length = stream.length :=
  List.length_map _

@[simp] theorem bytes_map (part : Part) (xs : List UInt8) : bytes (xs.map (part, ·)) = xs := by
  simp [bytes]

theorem bytes_tagged (e : Endpoints A) (m : ClientMessage) : bytes (e.tagged m) = m.encode e.dump e.cameraUuid := by
  simp [Endpoints.tagged, ClientMessage.encode, framed, Endpoints.text]

/-- A length that is accepted. -/
structure Announces (l : List UInt8) (n : ℕ) : Prop where
  length : l.length = 4
  value : beValue l = n
  pos : n ≠ 0
  le : n ≤ maxFrameBytes

/-- The bytes `read` since the last message have brought the worker where it is. -/
def Reading (loads : List UInt8 → Option Json) (read : List (Part × UInt8)) : WorkerPhase → Prop
  | .receiving .length got => read = got ∧ got.length ≤ 4
  | .receiving (.payload n) got => ∃ l, read = l ++ got ∧ Announces (bytes l) n ∧ got.length ≤ n
  | .receiving (.body msg hdr) got => ∃ l t, read = l ++ (t ++ got) ∧ Announces (bytes l) t.length ∧
      loads (bytes t) = some (.obj msg) ∧ typeIs "frame" msg = true ∧ frameHeader msg = some hdr ∧
      0 < hdr.h * hdr.stride ∧ hdr.h * hdr.stride ≤ maxBodyBytes ∧ got.length ≤ (Want.body msg hdr).size
  | .handling m => ∀ tail, readMessage takeExact loads (bytes read ++ tail) = some (m, tail)
  | .sending _ | .closed => False

variable {loads : List UInt8 → Option Json} {read : List (Part × UInt8)}

theorem reading_recv {want : Want} {got chunk : List (Part × UInt8)} (reading : Reading loads read (.receiving want got))
    (fits : got.length + chunk.length ≤ want.size) : Reading loads (read ++ chunk) (.receiving want (got ++ chunk)) := by
  rw [← List.length_append] at fits
  cases want with
  | length =>
    obtain ⟨same, -⟩ := reading
    exact ⟨by rw [same], fits⟩
  | payload n =>
    obtain ⟨l, split, announced, -⟩ := reading
    exact ⟨l, by rw [split, List.append_assoc], announced, fits⟩
  | body msg hdr =>
    obtain ⟨l, t, split, announced, parses, is_frame, header, pos, le, -⟩ := reading
    exact ⟨l, t, by simp only [split, List.append_assoc], announced, parses, is_frame, header, pos, le, fits⟩

/-- A round of the loop behind the text of a message. -/
theorem readMessage_announced {l t : List UInt8} (announced : Announces l t.length) (rest : List UInt8) :
    readMessage takeExact loads (l ++ (t ++ rest)) =
      match loads t with
      | none => some (.garbled, rest)
      | some (.obj msg) =>
        if typeIs "frame" msg then
          match frameHeader msg with
          | none => none
          | some header =>
            let bodySize := header.h * header.stride
            if bodySize ≤ 0 ∨ maxBodyBytes < bodySize then none
            else
              let (body, sock) := takeExact bodySize.toNat rest
              if body.length < bodySize.toNat then none else some (.frame msg header body, sock)
        else some (.message msg, rest)
      | some _ => none := by
  obtain ⟨length, value, pos, le⟩ := announced
  rw [readMessage, takeExact_append length]
  simp only [length, lt_irrefl, if_false, value]
  rw [if_neg (by omega), takeExact_append rfl]
  exact if_neg (lt_irrefl _)

/-- A complete receive leads on, and once a message is complete it is the one that
    `readMessage` takes off the stream. -/
theorem reading_proceed {want : Want} {got : List (Part × UInt8)} (reading : Reading loads read (.receiving want got))
    (complete : want.size ≤ got.length) :
    proceed loads (bytes got) want = .closed ∨ Reading loads read (proceed loads (bytes got) want) := by
  cases want with
  | length =>
    obtain ⟨rfl, short⟩ := reading
    simp only [proceed]
    split
    · exact .inl rfl
    next accepted =>
      have len : (bytes read).length = 4 := (length_bytes read).trans (le_antisymm short complete)
      exact .inr ⟨read, (List.append_nil read).symm, ⟨len, rfl, by omega, by omega⟩, Nat.zero_le _⟩
  | payload n =>
    obtain ⟨l, rfl, announced, short⟩ := reading
    obtain rfl : n = (bytes got).length := by
      rw [length_bytes]
      exact le_antisymm complete short
    have round (tail : List UInt8) := @readMessage_announced loads _ _ announced tail
    simp only [proceed]
    cases parsed : loads (bytes got) with
    | none =>
      refine .inr fun tail => ?_
      rw [bytes_append, List.append_assoc, round, parsed]
    | some json =>
      cases json with
      | obj msg =>
        simp only
        cases is_frame : typeIs "frame" msg with
        | false =>
          refine .inr fun tail => ?_
          rw [bytes_append, List.append_assoc, round, parsed]
          simp [is_frame]
        | true =>
          simp only [if_true]
          cases header : frameHeader msg with
          | none => exact .inl rfl
          | some hdr =>
            simp only
            split
            · exact .inl rfl
            next accepted =>
              rw [length_bytes] at announced
              exact .inr ⟨l, got, by rw [List.append_nil], announced, parsed, is_frame, header, by omega, by omega,
                Nat.zero_le _⟩
      | null | bool _ | num _ | str _ | arr _ => exact .inl rfl
  | body msg hdr =>
    obtain ⟨l, t, rfl, announced, parses, is_frame, header, pos, le, short⟩ := reading
    have len : (bytes got).length = (hdr.h * hdr.stride).toNat := by
      rw [length_bytes]
      exact le_antisymm short complete
    refine .inr fun tail => ?_
    rw [← length_bytes t] at announced
    rw [bytes_append, bytes_append, List.append_assoc, List.append_assoc, readMessage_announced announced, parses]
    simp only [is_frame, if_true, header]
    rw [if_neg (by omega), takeExact_append len]
    simp only [len, lt_irrefl, if_false]

/-! ## What is on its way -/

/-- A frame whose header the worker can read, with a body of that size or of a size that is
    refused. -/
structure FrameSent (e : Endpoints A) (m : ClientMessage) : Prop where
  legible : Legible e.dump e.loads e.cameraUuid m
  fits : ∃ frameId tsUs w h stride body, m = .frame frameId tsUs w h stride body ∧
    ((body.length : ℤ) = h * stride ∨ maxBodyBytes < h * stride)

/-- What the worker has read, what is on its way to it and what the client has still to
    write make up a message. -/
structure Requesting (e : Endpoints A) (m : ClientMessage) (rest up : List (Part × UInt8)) (worker : WorkerPhase) :
    Prop where
  sent : FrameSent e m
  stream : ∃ read, e.tagged m = read ++ (up ++ rest) ∧ Reading e.loads read worker

variable {e : Endpoints A} {m : ClientMessage} {rest up : List (Part × UInt8)} {worker : WorkerPhase}

/-- Behind the length there is the text, and then the body. -/
theorem tagged_announced {l tail : List (Part × UInt8)} {n : ℕ} (legible : Legible e.dump e.loads e.cameraUuid m)
    (stream : e.tagged m = l ++ tail) (announced : Announces (bytes l) n) :
    n = (e.text m).length ∧ tail = (e.text m).map (Part.text, ·) ++ m.body.map (Part.body, ·) := by
  have small : (e.text m).length < 2 ^ 32 := legible.text_le.trans_lt (by decide)
  have length : l.length = 4 := (length_bytes l).symm.trans announced.length
  rw [Endpoints.tagged, List.append_assoc] at stream
  obtain ⟨same_l, same_tail⟩ := List.append_inj stream.symm (by rw [length, List.length_map, length_be32])
  refine ⟨?_, same_tail⟩
  rw [← announced.value, same_l, bytes_map, beValue_be32 small]

theorem tagged_body {l t tail : List (Part × UInt8)} (legible : Legible e.dump e.loads e.cameraUuid m)
    (stream : e.tagged m = l ++ (t ++ tail)) (announced : Announces (bytes l) t.length) :
    bytes t = e.text m ∧ tail = m.body.map (Part.body, ·) := by
  obtain ⟨length, behind⟩ := tagged_announced legible stream announced
  obtain ⟨same_t, same_tail⟩ := List.append_inj behind (by rw [length, List.length_map])
  exact ⟨by rw [same_t, bytes_map], same_tail⟩

/-- While the worker reads a body its size is that of the message's. -/
theorem Requesting.body {msg : List (String × Json)} {hdr : FrameHeader} {got : List (Part × UInt8)}
    (requesting : Requesting e m rest up (.receiving (.body msg hdr) got)) :
    hdr.h * hdr.stride = m.body.length ∧ got.length + (up ++ rest).length = m.body.length := by
  obtain ⟨⟨legible, frameId, tsUs, w, h, stride, body, rfl, fits⟩, read, stream, reading⟩ := requesting
  obtain ⟨l, t, rfl, announced, parses, -, header, pos, le, -⟩ := reading
  rw [List.append_assoc, List.append_assoc] at stream
  obtain ⟨is_text, is_body⟩ := tagged_body legible stream announced
  have same : Json.obj msg = .obj (ClientMessage.fields e.cameraUuid (.frame frameId tsUs w h stride body)) := by
    rw [is_text] at parses
    exact Option.some.inj (parses.symm.trans legible.parses)
  obtain rfl := Json.obj.inj same
  rw [frameHeader_fields] at header
  cases header
  simp only at le ⊢
  constructor
  · exact (fits.resolve_right (by omega)).symm
  · have := congrArg List.length is_body
    simpa using this

/-- A message that is handled is the one that was sent, to its last byte. -/
theorem Requesting.handled {m' : Incoming} (requesting : Requesting e m rest up (.handling m')) :
    m' = incoming e.cameraUuid m ∧ up = [] ∧ rest = [] := by
  obtain ⟨⟨legible, frameId, tsUs, w, h, stride, body, rfl, fits⟩, read, stream, reading⟩ := requesting
  have round := reading (bytes (up ++ rest))
  rw [← bytes_append, ← stream, bytes_tagged, ClientMessage.encode, readMessage_text legible] at round
  simp only at round
  split at round
  · cases round
  next accepted =>
    have len : body.length = (h * stride).toNat := by
      have := fits.resolve_right (by omega)
      omega
    have whole := takeExact_append len []
    rw [List.append_nil] at whole
    rw [ClientMessage.body, whole] at round
    simp only [len, lt_irrefl, if_false, Option.some.injEq, Prod.mk.injEq] at round
    have none_left := congrArg List.length round.2
    rw [List.length_nil, length_bytes, List.length_append] at none_left
    exact ⟨round.1.symm, List.eq_nil_of_length_eq_zero (by omega), List.eq_nil_of_length_eq_zero (by omega)⟩

/-- The worker does not wait for more once the whole message has arrived. -/
theorem Requesting.not_blocked (requesting : Requesting e m [] [] worker) : ¬ worker.Blocked := by
  rintro ⟨want, got, rfl, wanted⟩
  cases want with
  | length =>
    obtain ⟨sent, read, stream, rfl, -⟩ := requesting
    have := congrArg List.length stream
    simp only [Endpoints.tagged, List.length_append, List.length_map, length_be32, List.length_nil] at this
    simp only [Want.size] at wanted
    omega
  | payload n =>
    obtain ⟨sent, read, stream, l, rfl, announced, -⟩ := requesting
    rw [List.append_assoc] at stream
    obtain ⟨rfl, behind⟩ := tagged_announced sent.legible stream announced
    have := congrArg List.length behind
    simp only [List.length_append, List.length_map, List.length_nil] at this
    simp only [Want.size] at wanted
    omega
  | body msg hdr =>
    obtain ⟨size, left⟩ := requesting.body
    simp only [List.append_nil, List.length_nil] at left
    simp only [Want.size] at wanted
    omega

/-- Only the length is read as a length. -/
theorem Requesting.framing {got : List (Part × UInt8)} (requesting : Requesting e m rest up (.receiving .length got)) :
    ∀ byte ∈ got, byte.1 ≠ .body := by
  obtain ⟨sent, read, stream, rfl, short⟩ := requesting
  rw [Endpoints.tagged, List.append_assoc] at stream
  have front : read <+: (be32 (e.text m).length).map (Part.length, ·) := by
    refine List.prefix_of_prefix_length_le (List.prefix_append read (up ++ rest)) ?_ ?_
    · rw [← stream]
      exact List.prefix_append _ _
    rw [List.length_map, length_be32]
    exact short
  intro byte mem
  obtain ⟨_, -, rfl⟩ := List.mem_map.mp (front.subset mem)
  exact nofun

/-- What the client has received of a reply has brought it where it is. -/
def ReadingReply (received got : List UInt8) : ReplyPart → Prop
  | .length => received = got ∧ got.length ≤ 4
  | .payload n => ∃ l, received = l ++ got ∧ Announces l n ∧ got.length ≤ n

/-- The client while `left` is what the worker has still to send of its reply. -/
inductive Hearing (left down : List UInt8) : ClientPhase → Prop where
  | closed : Hearing left down .closed
  | idle (sent : left = []) (taken : down = []) : Hearing left down .idle
  | receiving {m : ClientMessage} {want : ReplyPart} {got received data : List UInt8}
      (reading : ReadingReply received got want) (small : data.length < 2 ^ 32)
      (stream : framed data = received ++ (down ++ left)) : Hearing left down (.receiving m want got)

/-- The invariant: the worker has closed, or a message is on its way, or its reply is. -/
inductive Sound (e : Endpoints A) (s : State A) : Prop where
  | refused (worker : s.worker = .closed)
  | request {m : ClientMessage} {rest : List (Part × UInt8)} (requesting : Requesting e m rest s.up s.worker)
      (client : s.client = .closed ∨ s.client = afterSend m rest ∧ s.down = [])
  | reply (left : List UInt8) (taken : s.up = []) (worker : s.worker = afterReply left)
      (client : Hearing left s.down s.client)

theorem afterSend_of_ne_nil (more : rest ≠ []) : afterSend m rest = .sending m rest := by
  simp [afterSend, more]

/-- The client does not wait for more once the whole reply has arrived. -/
theorem Hearing.not_blocked {client : ClientPhase} (hearing : Hearing [] [] client) : ¬ client.Blocked := by
  rintro ⟨m, want, got, rfl, wanted⟩
  cases hearing with
  | receiving reading small stream =>
    have total := congrArg List.length stream
    rw [length_framed, List.append_nil, List.append_nil] at total
    cases want with
    | length =>
      obtain ⟨rfl, -⟩ := reading
      simp only [ReplyPart.size] at wanted
      omega
    | payload n =>
      obtain ⟨l, rfl, announced, -⟩ := reading
      obtain ⟨same, -⟩ := List.append_inj ((List.append_nil _).symm.trans stream.symm).symm (by
        rw [length_be32, announced.length])
      have := announced.value
      simp only [ReplyPart.size] at wanted
      rw [List.length_append, announced.length] at total
      rw [← same, beValue_be32 small] at this
      omega

/-- Nothing goes wrong while the worker does not read. -/
theorem inStep_of_not_reading {s : State A} (receives : ∀ want got, s.worker ≠ .receiving want got)
    (handles : ∀ m, s.worker ≠ .handling m) : InStep s := by
  refine ⟨fun m msg hdr got _ at_body => absurd at_body (receives _ _),
    fun m msg hdr body _ at_frame => absurd at_frame (handles _), ?_, fun got at_length => absurd at_length (receives _ _)⟩
  rintro ⟨-, ⟨want, got, blocked, -⟩, -⟩
  exact receives want got blocked

/-- While a message is on its way the call that is running is that message's. -/
theorem call?_eq_some {client : ClientPhase} {m' : ClientMessage} (calling : client = .closed ∨ client = afterSend m rest)
    (running : client.call? = some m') : m' = m := by
  cases calling with
  | inl is_closed =>
    subst is_closed
    cases running
  | inr sent =>
    subst sent
    cases rest with
    | nil => exact (Option.some.inj running).symm
    | cons byte rest => exact (Option.some.inj running).symm

theorem inStep_of_request {s : State A} (requesting : Requesting e m rest s.up s.worker)
    (calling : s.client = .closed ∨ s.client = afterSend m rest) : InStep s where
  sizes m' msg hdr got running at_body := by
    obtain rfl := call?_eq_some calling running
    rw [at_body] at requesting
    exact requesting.body.1
  bodies m' msg hdr body running at_frame := by
    obtain rfl := call?_eq_some calling running
    rw [at_frame] at requesting
    obtain ⟨is_frame, -, -⟩ := requesting.handled
    obtain ⟨frameId, tsUs, w, h, stride, body', rfl, -⟩ := requesting.sent.fits
    cases is_frame
    rfl
  progress := by
    rintro ⟨⟨_, _, _, receiving, -⟩, worker_blocked, none_up, -⟩
    cases calling with
    | inl is_closed => cases is_closed.symm.trans receiving
    | inr sent =>
      cases rest with
      | nil =>
        rw [none_up] at requesting
        exact requesting.not_blocked worker_blocked
      | cons byte rest => cases sent.symm.trans receiving
  framing got at_length := by
    rw [at_length] at requesting
    exact requesting.framing

theorem inStep_of_reply {s : State A} {left : List UInt8} (answering : s.worker = afterReply left)
    (hearing : Hearing left s.down s.client) : InStep s := by
  cases left with
  | nil =>
    -- The worker has received nothing of a next message.
    have at_length : ∀ want got, s.worker = .receiving want got → want = .length ∧ got = [] := by
      intro want got receiving
      cases answering.symm.trans receiving
      exact ⟨rfl, rfl⟩
    refine { sizes := ?_, bodies := ?_, progress := ?_, framing := ?_ }
    · intro m msg hdr got _ at_body
      cases (at_length _ _ at_body).1
    · intro m msg hdr body _ at_frame
      cases answering.symm.trans at_frame
    · rintro ⟨client_blocked, -, -, none_down⟩
      rw [none_down] at hearing
      exact hearing.not_blocked client_blocked
    · intro got receiving byte mem
      rw [(at_length _ _ receiving).2] at mem
      cases mem
  | cons byte left =>
    refine inStep_of_not_reading (fun want got receiving => ?_) fun m handling => ?_
    · cases answering.symm.trans receiving
    · cases answering.symm.trans handling

theorem Sound.inStep {s : State A} (sound : Sound e s) : InStep s := by
  cases sound with
  | refused is_closed =>
    refine inStep_of_not_reading (fun want got receiving => ?_) fun m handling => ?_
    · cases is_closed.symm.trans receiving
    · cases is_closed.symm.trans handling
  | request requesting calling => exact inStep_of_request requesting (calling.imp_right And.left)
  | reply left taken answering hearing => exact inStep_of_reply answering hearing

/-! ## One step -/

theorem Requesting.clientSend (requesting : Requesting e m rest up worker) (n : ℕ) :
    Requesting e m (rest.drop n) (up ++ rest.take n) worker := by
  obtain ⟨sent, read, stream, reading⟩ := requesting
  exact ⟨sent, read, by rw [stream, List.append_assoc up, List.take_append_drop], reading⟩

theorem Requesting.workerRecv {want : Want} {got : List (Part × UInt8)}
    (requesting : Requesting e m rest up (.receiving want got)) {n : ℕ} (fits : got.length + n ≤ want.size) :
    Requesting e m rest (up.drop n) (.receiving want (got ++ up.take n)) := by
  obtain ⟨sent, read, stream, reading⟩ := requesting
  have taken : (up.take n).length ≤ n := List.length_take_le n up
  refine ⟨sent, read ++ up.take n, ?_, reading_recv reading (by omega)⟩
  rw [stream, List.append_assoc read, ← List.append_assoc (up.take n), List.take_append_drop]

theorem Requesting.workerProceed {want : Want} {got : List (Part × UInt8)}
    (requesting : Requesting e m rest up (.receiving want got)) (complete : want.size ≤ got.length) :
    proceed e.loads (bytes got) want = .closed ∨ Requesting e m rest up (proceed e.loads (bytes got) want) := by
  obtain ⟨sent, read, stream, reading⟩ := requesting
  exact (reading_proceed reading complete).imp_right fun further => ⟨sent, read, stream, further⟩

/-- A frame is answered, unless its reply is too long to be sent. -/
theorem respond_frame (e : Endpoints A) (b : Behaviour A) (serve : ServeState A) (msg : List (String × Json))
    (hdr : FrameHeader) (body : List UInt8) :
    (e.respond b serve (.frame msg hdr body)).2 = .closed ∨
      ∃ data, data.length < 2 ^ 32 ∧ (e.respond b serve (.frame msg hdr body)).2 = afterReply (framed data) := by
  cases handled : handle e.env b serve (.frame msg hdr body) with
  | none => exact .inl (by rw [Endpoints.respond, handled])
  | some result =>
    obtain ⟨serve', effects⟩ := result
    obtain ⟨r, replies, -⟩ := (handle_replies handled).2 hdr.id rfl
    by_cases small : (e.dumps r.json).length < 2 ^ 32
    · have sent : sendMsg e.dumps r = some (framed (e.dumps r.json)) := if_pos small
      exact .inr ⟨e.dumps r.json, small, by simp [Endpoints.respond, handled, replies, sent]⟩
    · have raised : sendMsg e.dumps r = none := if_neg small
      exact .inl (by simp [Endpoints.respond, handled, replies, raised])

theorem readingReply_recv {want : ReplyPart} {received got chunk : List UInt8} (reading : ReadingReply received got want)
    (fits : got.length + chunk.length ≤ want.size) : ReadingReply (received ++ chunk) (got ++ chunk) want := by
  rw [← List.length_append] at fits
  cases want with
  | length =>
    obtain ⟨same, -⟩ := reading
    exact ⟨by rw [same], fits⟩
  | payload n =>
    obtain ⟨l, split, announced, -⟩ := reading
    exact ⟨l, by rw [split, List.append_assoc], announced, fits⟩

theorem Hearing.clientRecv {left down got : List UInt8} {want : ReplyPart}
    (hearing : Hearing left down (.receiving m want got)) {n : ℕ} (fits : got.length + n ≤ want.size) :
    Hearing left (down.drop n) (.receiving m want (got ++ down.take n)) := by
  cases hearing with
  | receiving reading small stream =>
    have taken : (down.take n).length ≤ n := List.length_take_le n down
    refine .receiving (readingReply_recv reading (by omega)) small ?_
    rw [stream, List.append_assoc, ← List.append_assoc (down.take n), List.take_append_drop]

theorem Hearing.clientProceed {left down got : List UInt8} {want : ReplyPart}
    (hearing : Hearing left down (.receiving m want got)) (complete : want.size ≤ got.length) :
    Hearing left down (proceedReply m got want) := by
  cases hearing with
  | @receiving _ _ _ received data reading small stream =>
    cases want with
    | length =>
      obtain ⟨rfl, short⟩ := reading
      simp only [proceedReply]
      split
      · exact .closed
      next accepted =>
        refine .receiving ⟨received, (List.append_nil _).symm, ⟨?_, rfl, ?_, ?_⟩, Nat.zero_le _⟩ small stream
        · exact le_antisymm short complete
        · omega
        · omega
    | payload n =>
      -- The payload was the last of the reply.
      obtain ⟨l, rfl, announced, short⟩ := reading
      rw [List.append_assoc] at stream
      obtain ⟨same, behind⟩ := List.append_inj stream (by rw [length_be32, announced.length])
      have value := announced.value
      rw [← same, beValue_be32 small] at value
      have total := congrArg List.length behind
      simp only [List.length_append] at total
      simp only [ReplyPart.size] at complete
      exact .idle (List.eq_nil_of_length_eq_zero (by omega)) (List.eq_nil_of_length_eq_zero (by omega))

theorem Hearing.workerSend {left down : List UInt8} {client : ClientPhase} (hearing : Hearing left down client)
    (more : left ≠ []) (n : ℕ) : Hearing (left.drop n) (down ++ left.take n) client := by
  cases hearing with
  | closed => exact .closed
  | idle sent taken => exact absurd sent more
  | receiving reading small stream =>
    refine .receiving reading small ?_
    rw [stream, List.append_assoc down, List.take_append_drop]

theorem eq_of_afterSend {client : ClientPhase} (same : client = afterSend m rest) :
    (rest = [] ∧ client = .receiving m .length []) ∨ (rest ≠ [] ∧ client = .sending m rest) := by
  cases rest with
  | nil => exact .inl ⟨rfl, same⟩
  | cons byte rest => exact .inr ⟨List.cons_ne_nil _ _, same⟩

/-- A step while a message is on its way. -/
theorem Step.sound_of_request {s s' : State A} {a : Action A} (step : Step e s a s')
    (requesting : Requesting e m rest s.up s.worker)
    (calling : s.client = .closed ∨ s.client = afterSend m rest ∧ s.down = []) : Sound e s' := by
  cases step with
  | push idle =>
    cases calling with
    | inl is_closed => cases is_closed.symm.trans idle
    | inr sent => obtain ⟨-, at_call⟩ | ⟨-, at_call⟩ := eq_of_afterSend sent.1 <;> cases at_call.symm.trans idle
  | clientSend sending =>
    cases calling with
    | inl is_closed => cases is_closed.symm.trans sending
    | inr sent =>
      obtain ⟨at_call, none_down⟩ := sent
      obtain ⟨-, at_call⟩ | ⟨-, at_call⟩ := eq_of_afterSend at_call
      · cases at_call.symm.trans sending
      · cases at_call.symm.trans sending
        exact .request (requesting.clientSend _) (.inr ⟨rfl, none_down⟩)
  | clientRecv receiving _ arrived =>
    cases calling with
    | inl is_closed => cases is_closed.symm.trans receiving
    | inr sent => exact absurd sent.2 arrived
  | clientProceed receiving complete =>
    cases calling with
    | inl is_closed => cases is_closed.symm.trans receiving
    | inr sent =>
      obtain ⟨-, at_call⟩ | ⟨-, at_call⟩ := eq_of_afterSend sent.1
      · cases at_call.symm.trans receiving
        exact absurd complete (by decide)
      · cases at_call.symm.trans receiving
  | clientCloses => exact .request requesting (.inl rfl)
  | workerRecv receiving wanted =>
    rw [receiving] at requesting
    exact .request (requesting.workerRecv (by omega)) calling
  | workerProceed receiving complete =>
    rw [receiving] at requesting
    cases requesting.workerProceed complete with
    | inl is_closed => exact .refused is_closed
    | inr further => exact .request further calling
  | @handle b m' handling =>
    rw [handling] at requesting
    obtain ⟨rfl, none_up, rfl⟩ := requesting.handled
    obtain ⟨frameId, tsUs, w, h, stride, body, rfl, -⟩ := requesting.sent.fits
    cases respond_frame e b s.serve _ _ _ with
    | inl is_closed => exact .refused is_closed
    | inr answered =>
      obtain ⟨data, small, answered⟩ := answered
      refine .reply (framed data) none_up answered ?_
      cases calling with
      | inl is_closed =>
        simp only [is_closed]
        exact .closed
      | inr sent =>
        simp only [sent]
        exact .receiving ⟨rfl, Nat.zero_le _⟩ small rfl
  | workerSend sending =>
    obtain ⟨-, read, -, reading⟩ := requesting
    rw [sending] at reading
    exact reading.elim
  | workerCloses => exact .refused rfl

/-- A step while a reply is on its way, or nothing. -/
theorem Step.sound_of_reply {s s' : State A} {a : Action A} {left : List UInt8} (step : Step e s a s')
    (sends : ∀ frameId f m, a = .push frameId f → frameMessage frameId f = some m →
      (e.text m).length ≤ maxFrameBytes → FrameSent e m)
    (taken : s.up = []) (answering : s.worker = afterReply left) (hearing : Hearing left s.down s.client) :
    Sound e s' := by
  cases step with
  | @push frameId f m idle passes =>
    rw [idle] at hearing
    cases hearing with
    | idle sent none_down =>
      subst sent
      by_cases long : maxFrameBytes < (e.text m).length
      · refine .reply [] taken answering ?_
        simp only [Endpoints.startCall, if_pos long]
        exact .idle rfl none_down
      · have sent := sends frameId f m rfl passes (Nat.le_of_not_lt long)
        refine @Sound.request _ _ _ m (e.tagged m) ⟨sent, [], by simp [taken], ?_⟩ (.inr ⟨?_, none_down⟩)
        · simp only [answering]
          exact ⟨rfl, Nat.zero_le _⟩
        · simp only [Endpoints.startCall, if_neg long]
          exact (afterSend_of_ne_nil (by simp [Endpoints.tagged, be32])).symm
  | clientSend sending =>
    rw [sending] at hearing
    cases hearing
  | clientRecv receiving wanted =>
    rw [receiving] at hearing
    exact .reply left taken answering (hearing.clientRecv (by omega))
  | clientProceed receiving complete =>
    rw [receiving] at hearing
    exact .reply left taken answering (hearing.clientProceed complete)
  | clientCloses => exact .reply left taken answering .closed
  | workerRecv _ _ arrived => exact absurd taken arrived
  | workerProceed receiving complete =>
    cases left with
    | nil =>
      cases answering.symm.trans receiving
      exact absurd complete (by decide)
    | cons byte left => cases answering.symm.trans receiving
  | handle handling =>
    cases left with
    | nil => cases answering.symm.trans handling
    | cons byte left => cases answering.symm.trans handling
  | workerSend sending =>
    cases left with
    | nil => cases answering.symm.trans sending
    | cons byte left =>
      cases answering.symm.trans sending
      exact .reply _ taken rfl (hearing.workerSend (List.cons_ne_nil _ _) _)
  | workerCloses => exact .refused rfl

/-- A step keeps the two sides sound, if no frame is pushed whose body has another size. -/
theorem Step.sound {s s' : State A} {a : Action A} (step : Step e s a s')
    (sends : ∀ frameId f m, a = .push frameId f → frameMessage frameId f = some m →
      (e.text m).length ≤ maxFrameBytes → FrameSent e m) (sound : Sound e s) : Sound e s' := by
  cases sound with
  | refused is_closed =>
    -- The worker stays closed.
    cases step with
    | push | clientSend | clientRecv | clientProceed | clientCloses => exact .refused is_closed
    | workerCloses => exact .refused rfl
    | workerRecv receiving | workerProceed receiving => cases is_closed.symm.trans receiving
    | handle handling => cases is_closed.symm.trans handling
    | workerSend sending => cases is_closed.symm.trans sending
  | request requesting calling => exact step.sound_of_request requesting calling
  | reply left taken answering hearing => exact step.sound_of_reply sends taken answering hearing

/-! ## Runs -/

/-- The two sides as they are when `serve` waits for a message and no call is running. -/
def start (serve : ServeState A) : State A := { serve }

/-- The frames that the camera delivers are `allowed`. -/
def Delivers (allowed : ℤ → VideoFrame → Prop) : Action A → Prop
  | .push frameId f => allowed frameId f
  | _ => True

/-- The states that are reached with frames like that. -/
def Endpoints.Reaches (e : Endpoints A) (allowed : ℤ → VideoFrame → Prop) (serve : ServeState A) (s : State A) : Prop :=
  ∃ actions, Run (Guarded (fun _ a => Delivers allowed a) (Step e)) (start serve) actions s

/-- The condition on a frame: as many bytes as its rows have, or too many rows for the worker. -/
def BodyFits (f : VideoFrame) : Prop :=
  f.dataSize.toInt = f.height.toInt * f.lineSize.toInt ∨ maxBodyBytes < f.height.toInt * f.lineSize.toInt

/-- `json.loads` reads the headers of the frames that `dump` has written. -/
def Endpoints.RoundTrips (e : Endpoints A) (allowed : ℤ → VideoFrame → Prop) : Prop :=
  ∀ frameId f m, allowed frameId f → frameMessage frameId f = some m →
    1 ≤ (e.text m).length ∧ e.loads (e.text m) = some (.obj (m.fields e.cameraUuid))

variable {allowed : ℤ → VideoFrame → Prop} {serve : ServeState A} {frameId : ℤ} {f : VideoFrame}

theorem frameSent_of_bodyFits (trips : e.RoundTrips allowed) (is_allowed : allowed frameId f)
    (passes : frameMessage frameId f = some m) (short : (e.text m).length ≤ maxFrameBytes) (fits : BodyFits f) :
    FrameSent e m := by
  obtain ⟨pos, parses⟩ := trips frameId f m is_allowed passes
  obtain ⟨body, -, rfl, len, -⟩ := frameMessage_eq_some passes
  refine ⟨⟨pos, short, parses⟩, _, _, _, _, _, body, rfl, fits.imp_left fun same => ?_⟩
  rw [len, same]

theorem Endpoints.Reaches.step {s s' : State A} {a : Action A} (reaches : e.Reaches allowed serve s)
    (step : Step e s a s') (delivers : Delivers allowed a) : e.Reaches allowed serve s' := by
  obtain ⟨actions, run⟩ := reaches
  exact ⟨actions ++ [a], run.append (.cons ⟨delivers, step⟩ (.nil s'))⟩

/-- The client waits for the reply to `m`. -/
def waiting (serve : ServeState A) (m : ClientMessage) (worker : WorkerPhase) (up : List (Part × UInt8)) : State A :=
  { serve, client := .receiving m .length [], worker, up }

/-- All that the worker waits for arrives at once, or all that there is. -/
theorem Endpoints.Reaches.recv {want : Want} {front tail : List (Part × UInt8)}
    (reaches : e.Reaches allowed serve (waiting serve m (.receiving want []) (front ++ tail))) (pos : 0 < front.length)
    (size : front.length ≤ want.size) : e.Reaches allowed serve (waiting serve m (.receiving want front) tail) := by
  have step := @Step.workerRecv A e (waiting serve m (.receiving want []) (front ++ tail)) (front.length - 1) want [] rfl
    (pos.trans_le size) (List.append_ne_nil_of_left_ne_nil (List.ne_nil_of_length_pos pos) _)
  have count : min (front.length - 1 + 1) (want.size - ([] : List (Part × UInt8)).length) = front.length := by
    rw [List.length_nil]
    omega
  simp only [count, waiting, List.take_left, List.drop_left, List.nil_append] at step
  exact reaches.step step trivial

theorem Endpoints.Reaches.proceed {want : Want} {got : List (Part × UInt8)} {next : WorkerPhase}
    (reaches : e.Reaches allowed serve (waiting serve m (.receiving want got) up)) (complete : want.size ≤ got.length)
    (is_next : proceed e.loads (bytes got) want = next) : e.Reaches allowed serve (waiting serve m next up) := by
  subst is_next
  exact reaches.step (.workerProceed rfl complete) trivial

/-- The client has written a whole frame. -/
theorem reaches_written (is_allowed : allowed frameId f) (passes : frameMessage frameId f = some m)
    (short : (e.text m).length ≤ maxFrameBytes) :
    e.Reaches allowed serve (waiting serve m (.receiving .length []) (e.tagged m)) := by
  have begun : e.Reaches allowed serve (start serve) := ⟨[], .nil _⟩
  have pushed : e.Reaches allowed serve { serve, client := .sending m (e.tagged m) } := by
    have step := @Step.push A e (start serve) frameId f m rfl passes
    rw [Endpoints.startCall, if_neg (Nat.not_lt.mpr short)] at step
    exact begun.step step is_allowed
  have step := @Step.clientSend A e { serve, client := .sending m (e.tagged m) } (e.tagged m).length m _ rfl nofun
  rw [List.drop_of_length_le (Nat.le_succ _), List.take_of_length_le (Nat.le_succ _)] at step
  exact pushed.step step trivial

/-- The worker has come to its body. -/
theorem reaches_body (trips : e.RoundTrips allowed) (is_allowed : allowed frameId f)
    (passes : frameMessage frameId f = some m) (short : (e.text m).length ≤ maxFrameBytes)
    (accepted : f.height.toInt * f.lineSize.toInt ≤ maxBodyBytes) :
    e.Reaches allowed serve (waiting serve m (.receiving (.body (m.fields e.cameraUuid)
      ⟨f.width.toInt, f.height.toInt, f.lineSize.toInt, Python.toInt (toDouble frameId)⟩) [])
      (m.body.map (Part.body, ·))) := by
  obtain ⟨pos, parses⟩ := trips frameId f m is_allowed passes
  have small : (e.text m).length < 2 ^ 32 := short.trans_lt (by decide)
  have written := @reaches_written A e m allowed serve frameId f is_allowed passes short
  rw [Endpoints.tagged, List.append_assoc] at written
  have length := written.recv (by simp) (by simp [Want.size])
  have announced := @length.proceed _ _ _ _ _ _ _ _ (.receiving (.payload (e.text m).length) []) (by simp [Want.size])
    (by rw [bytes_map, FrameExchange.proceed, beValue_be32 small, if_neg (by omega)])
  have text := announced.recv (by rwa [List.length_map]) (by simp [Want.size])
  refine text.proceed (by simp [Want.size]) ?_
  obtain ⟨body, -, rfl, -, -, -, height, lineSize⟩ := frameMessage_eq_some passes
  have positive := mul_pos height lineSize
  rw [bytes_map, FrameExchange.proceed, parses]
  simp only [typeIs_fields, beq_self_eq_true, if_true, frameHeader_fields]
  rw [if_neg (by omega)]

/-- With too few bytes both sides wait, and only closing the connection ends it. -/
theorem reaches_deadlock (trips : e.RoundTrips allowed) (is_allowed : allowed frameId f)
    (passes : frameMessage frameId f = some m) (short : (e.text m).length ≤ maxFrameBytes)
    (accepted : f.height.toInt * f.lineSize.toInt ≤ maxBodyBytes)
    (few : f.dataSize.toInt < f.height.toInt * f.lineSize.toInt) :
    ∃ s, e.Reaches allowed serve s ∧ s.client.Blocked ∧ s.worker.Blocked ∧ s.up = [] ∧ s.down = [] ∧
      ∀ a s', Step e s a s' → a = .clientCloses ∨ a = .workerCloses := by
  have at_body := @reaches_body A e m allowed serve frameId f trips is_allowed passes short accepted
  obtain ⟨body, -, rfl, len, positive, -⟩ := frameMessage_eq_some passes
  rw [ClientMessage.body, ← List.append_nil (body.map _)] at at_body
  have waits := at_body.recv (by rw [List.length_map]; omega) (by simp only [List.length_map, Want.size]; omega)
  have incomplete : (body.map (Part.body, ·)).length < (f.height.toInt * f.lineSize.toInt).toNat := by
    rw [List.length_map]
    omega
  refine ⟨_, waits, ⟨_, _, _, rfl, by decide⟩, ⟨_, _, rfl, incomplete⟩, rfl, rfl, fun a s' step => ?_⟩
  generalize at_end : waiting serve _ _ _ = s at step
  cases step with
  | clientCloses => exact .inl rfl
  | workerCloses => exact .inr rfl
  | push idle => cases at_end; cases idle
  | clientSend sending => cases at_end; cases sending
  | clientRecv _ _ arrived => cases at_end; exact absurd rfl arrived
  | clientProceed receiving complete => cases at_end; cases receiving; exact absurd complete (by decide)
  | workerRecv _ _ arrived => cases at_end; exact absurd rfl arrived
  | workerProceed receiving complete =>
    cases at_end
    cases receiving
    exact absurd incomplete (Nat.not_lt.mpr complete)
  | handle handling => cases at_end; cases handling
  | workerSend sending => cases at_end; cases sending

/-- The worker sends its whole reply, and waits for the next message. -/
theorem Endpoints.Reaches.answer {msg : List (String × Json)} {hdr : FrameHeader} {body : List UInt8}
    (reaches : e.Reaches allowed serve (waiting serve m (.handling (.frame msg hdr body)) up)) {b : Behaviour A}
    (answered : (e.respond b serve (.frame msg hdr body)).2 ≠ .closed) :
    ∃ serve' data, e.Reaches allowed serve {
      serve := serve', client := .receiving m .length [], worker := .receiving .length [], up, down := framed data } := by
  obtain ⟨data, -, reply⟩ := (respond_frame e b serve msg hdr body).resolve_left answered
  have responds := reaches.step (@Step.handle A e _ b _ rfl) trivial
  simp only [waiting, reply] at responds
  have sent := responds.step (@Step.workerSend A e _ (framed data).length _ rfl nofun) trivial
  rw [List.drop_of_length_le (Nat.le_succ _), List.take_of_length_le (Nat.le_succ _)] at sent
  exact ⟨_, data, sent⟩

/-- With too many bytes the first one that is left over is taken for a length, once the frame has been
    answered. -/
theorem reaches_misread (trips : e.RoundTrips allowed) (is_allowed : allowed frameId f)
    (passes : frameMessage frameId f = some m) (short : (e.text m).length ≤ maxFrameBytes)
    (accepted : f.height.toInt * f.lineSize.toInt ≤ maxBodyBytes)
    (many : f.height.toInt * f.lineSize.toInt < f.dataSize.toInt) (b : Behaviour A)
    (answered : ∀ msg hdr body, (e.respond b serve (.frame msg hdr body)).2 ≠ .closed) :
    ∃ s, e.Reaches allowed serve s ∧ ∃ byte, s.worker = .receiving .length [(.body, byte)] := by
  have at_body := @reaches_body A e m allowed serve frameId f trips is_allowed passes short accepted
  obtain ⟨body, -, rfl, len, -, -, height, lineSize⟩ := frameMessage_eq_some passes
  have positive := mul_pos height lineSize
  -- The body is what the worker reads of it, and at least one more byte.
  obtain ⟨front, byte, back, rfl, front_len⟩ : ∃ front byte back, body = front ++ byte :: back ∧
      front.length = (f.height.toInt * f.lineSize.toInt).toNat := by
    refine ⟨body.take (f.height.toInt * f.lineSize.toInt).toNat, body[(f.height.toInt * f.lineSize.toInt).toNat], _,
      (List.take_append_drop _ _).symm.trans (by rw [List.drop_eq_getElem_cons]), ?_⟩
    rw [List.length_take]
    omega
  rw [ClientMessage.body, List.map_append, List.map_cons] at at_body
  have complete := at_body.recv (by rw [List.length_map]; omega) (by rw [List.length_map, front_len]; rfl)
  have handling := complete.proceed (by rw [List.length_map, front_len]; rfl) rfl
  obtain ⟨serve', data, waits⟩ := handling.answer (answered _ _ _)
  exact ⟨_, waits.step (@Step.workerRecv A e _ 0 _ _ rfl (by decide) (List.cons_ne_nil _ _)) trivial, byte, rfl⟩

/-- With every frame that can be delivered the two sides stay in step exactly if the size of
    its body fits. -/
theorem frames_in_step_iff (e : Endpoints A) (allowed : ℤ → VideoFrame → Prop) (trips : e.RoundTrips allowed)
    (serve : ServeState A) :
    (∀ s, e.Reaches allowed serve s → InStep s) ↔
      ∀ frameId f m, allowed frameId f → frameMessage frameId f = some m →
        (e.text m).length ≤ maxFrameBytes → BodyFits f := by
  constructor
  · intro in_step frameId f m is_allowed passes short
    by_cases accepted : f.height.toInt * f.lineSize.toInt ≤ maxBodyBytes
    · have sizes := (in_step _ (reaches_body trips is_allowed passes short accepted)).sizes m _ _ _ rfl rfl
      obtain ⟨body, -, rfl, len, -⟩ := frameMessage_eq_some passes
      exact .inl (len.symm.trans sizes.symm)
    · exact .inr (Int.not_le.mp accepted)
  · rintro fits s ⟨actions, run⟩
    have sound : Sound e s := by
      refine run.invariant (fun s a s' sound step => ?_) (.reply [] rfl rfl (.idle rfl rfl))
      refine step.2.sound (fun frameId f m pushed passes short => ?_) sound
      have is_allowed : allowed frameId f := by
        have delivers := step.1
        rwa [pushed] at delivers
      exact frameSent_of_bodyFits trips is_allowed passes short (fits frameId f m is_allowed passes short)
    exact sound.inStep

/-- Two pixels in two rows of eight bytes, the last with or without its padding. -/
def rowsOfEight (padded : Bool) : VideoFrame where
  width := 2
  height := 2
  lineSize := 8
  dataSize := if padded then 16 else 14
  timestampUs := 0
  data := some (List.replicate (if padded then 16 else 14) 90)
  readable := by
    intro bytes same
    cases same
    cases padded <;> rfl

def headerOfEight : List (String × Json) := ClientMessage.fields "cam" (.frame 1 0 2 2 8 [])

/-- Two sides whose JSON libraries agree on that header. -/
def smallEndpoints : Endpoints Unit where
  cameraUuid := "cam"
  dump := dumpText
  loads text := if text = dumpText (.obj headerOfEight) then some (.obj headerOfEight) else none
  dumps := dumpText
  env := loadedEnv

theorem rowsOfEight_passes (padded : Bool) : frameMessage 1 (rowsOfEight padded) =
    some (.frame 1 0 2 2 8 (List.replicate (if padded then 16 else 14) 90)) := by
  cases padded <;> rfl

theorem smallEndpoints_text (body : List UInt8) :
    1 ≤ (smallEndpoints.text (.frame 1 0 2 2 8 body)).length ∧
      (smallEndpoints.text (.frame 1 0 2 2 8 body)).length ≤ maxFrameBytes := by
  show 1 ≤ (dumpText (.obj headerOfEight)).length ∧ (dumpText (.obj headerOfEight)).length ≤ maxFrameBytes
  decide +kernel

theorem smallEndpoints_roundTrips (padded : Bool) :
    smallEndpoints.RoundTrips fun frameId f => frameId = 1 ∧ f = rowsOfEight padded := by
  rintro _ _ m ⟨rfl, rfl⟩ passes
  rw [rowsOfEight_passes] at passes
  cases passes
  exact ⟨(smallEndpoints_text _).1, if_pos rfl⟩

/-- Frame after frame with the padding, the two sides stay in step. -/
theorem frames_in_step_iff_padded :
    frameMessage 1 (rowsOfEight true) = some (.frame 1 0 2 2 8 (List.replicate 16 90)) ∧
      ∀ s, smallEndpoints.Reaches (fun frameId f => frameId = 1 ∧ f = rowsOfEight true) {} s → InStep s := by
  refine ⟨rowsOfEight_passes true, ?_⟩
  refine (frames_in_step_iff smallEndpoints _ (smallEndpoints_roundTrips true) {}).mpr ?_
  rintro _ _ m ⟨rfl, rfl⟩ - -
  exact .inl (by decide)

/-- A frame whose last row is not padded leaves both sides waiting. -/
theorem unpadded_frame_hangs :
    ¬ ∀ (A : Type) (e : Endpoints A) (allowed : ℤ → VideoFrame → Prop) (serve : ServeState A),
      e.RoundTrips allowed → ∀ s, e.Reaches allowed serve s → InStep s := by
  intro claimed
  obtain ⟨s, reaches, client, worker, up, down, -⟩ := @reaches_deadlock Unit smallEndpoints _ _ {} _ _
    (smallEndpoints_roundTrips false) ⟨rfl, rfl⟩ (rowsOfEight_passes false) (smallEndpoints_text _).2 (by decide) (by decide)
  exact (claimed Unit smallEndpoints _ {} (smallEndpoints_roundTrips false) s reaches).progress ⟨client, worker, up, down⟩

end VisionNx.FrameExchange
