import VisionNx.Client.IpcClient

/-! # What the calls of the IPC client can do

Each function of the client is described once: what it leaves of the one socket that
is open, and that the descriptor is closed when it fails half-way.  `perform_cases` is
all that a public call can do to the connection and the log. -/

namespace VisionNx.Client

/-! ## Open and closed -/

structure World.Closed (w : World) : Prop where
  fd : w.fd = none
  sockets : w.sockets = []

/-- The client's socket is the only one, and it is connection `n`. -/
structure World.Open (w : World) (s : Socket) (n : ℕ) : Prop where
  fd : w.fd = some s.fd
  sockets : w.sockets = [s]
  connection : s.connection = some n

/-- What the calls below the public ones leave alone. -/
structure SameBooks (w w' : World) : Prop where
  accepted : w'.accepted = w.accepted
  log : w'.log = w.log

theorem SameBooks.refl (w : World) : SameBooks w w := ⟨rfl, rfl⟩

theorem SameBooks.trans {w w' w'' : World} (first : SameBooks w w') (second : SameBooks w' w'') :
    SameBooks w w'' :=
  ⟨second.accepted.trans first.accepted, second.log.trans first.log⟩

theorem next_eq {w w' : World} {outcome : Outcome} (result : w.next = (outcome, w')) :
    ∃ clock script, w' = { w with clock, script } := by
  unfold World.next at result
  split at result
  · cases result
    exact ⟨w.clock, w.script, rfl⟩
  · cases result
    exact ⟨_, _, rfl⟩

section

variable {w w' : World} {s : Socket} {n : ℕ} {outcome : Outcome}

theorem World.Open.next (is_open : w.Open s n) (result : w.next = (outcome, w')) :
    w'.Open s n ∧ SameBooks w w' := by
  obtain ⟨clock, script, rfl⟩ := next_eq result
  exact ⟨⟨is_open.fd, is_open.sockets, is_open.connection⟩, rfl, rfl⟩

theorem World.Closed.next (closed : w.Closed) (result : w.next = (outcome, w')) :
    w'.Closed ∧ SameBooks w w' := by
  obtain ⟨clock, script, rfl⟩ := next_eq result
  exact ⟨⟨closed.fd, closed.sockets⟩, rfl, rfl⟩

theorem World.Open.find (is_open : w.Open s n) : w.find s.fd = some s := by
  simp [World.find, is_open.sockets]

theorem World.Open.modify (is_open : w.Open s n) {f : Socket → Socket} (fd : (f s).fd = s.fd)
    (connection : (f s).connection = s.connection) : (w.modify s.fd f).Open (f s) n where
  fd := by rw [fd]; exact is_open.fd
  sockets := by simp [World.modify, is_open.sockets]
  connection := connection.trans is_open.connection

theorem disconnect_open (is_open : w.Open s n) : (disconnect w).Closed ∧ SameBooks w (disconnect w) := by
  simp only [disconnect, is_open.fd]
  refine ⟨⟨rfl, ?_⟩, rfl, rfl⟩
  simp [World.close, is_open.sockets]

theorem disconnect_closed (closed : w.Closed) : disconnect w = w := by
  simp [disconnect, closed.fd]

/-! ## Writing and reading -/

def Socket.write (s : Socket) (bytes : List UInt8) : Socket := { s with written := s.written ++ bytes }

theorem send_cases (is_open : w.Open s n) {buf : List UInt8} (some_left : buf ≠ []) {k : ℕ}
    (sent : w.send s.fd buf = (k, w')) :
    SameBooks w w' ∧
      ((k = 0 ∧ w'.Open s n) ∨ (0 < k ∧ k ≤ buf.length ∧ w'.Open (s.write (buf.take k)) n)) := by
  have positive : 0 < buf.length := List.length_pos_iff.mpr some_left
  unfold World.send at sent
  split at sent
  next more w₁ result =>
    cases sent
    obtain ⟨open_next, same⟩ := is_open.next result
    refine ⟨⟨same.accepted, same.log⟩, .inr ⟨by omega, min_le_right _ _, ?_⟩⟩
    exact open_next.modify rfl rfl
  next w₁ result =>
    cases sent
    obtain ⟨open_next, same⟩ := is_open.next result
    exact ⟨same, .inl ⟨rfl, open_next⟩⟩

/-- `writeRaw` sends all of its bytes or closes the descriptor. -/
theorem writeLoop_cases {fuel : ℕ} {buf : List UInt8} (is_open : w.Open s n) (enough : buf.length ≤ fuel)
    {ok : Bool} (result : writeLoop fuel s.fd buf w = (ok, w')) :
    SameBooks w w' ∧ ((ok = false ∧ w'.Closed) ∨ (ok = true ∧ w'.Open (s.write buf) n)) := by
  -- The socket has what the rounds before it have written, so `s` changes with `buf`.
  induction fuel generalizing w s buf with
  | zero =>
    obtain rfl : buf = [] := List.length_eq_zero_iff.mp (by omega)
    cases result
    exact ⟨SameBooks.refl _, .inr ⟨rfl, by simpa [Socket.write] using is_open⟩⟩
  | succ fuel ih =>
    unfold writeLoop at result
    split at result
    next empty =>
      obtain rfl := List.isEmpty_iff.mp empty
      cases result
      exact ⟨SameBooks.refl _, .inr ⟨rfl, by simpa [Socket.write] using is_open⟩⟩
    next some_left =>
      rw [List.isEmpty_iff] at some_left
      split at result
      -- A send that fails closes the descriptor.
      next w₁ sent =>
        cases result
        obtain ⟨same, ⟨-, open_next⟩ | ⟨positive, -⟩⟩ := send_cases is_open some_left sent
        · obtain ⟨closed, same'⟩ := disconnect_open open_next
          exact ⟨same.trans same', .inl ⟨rfl, closed⟩⟩
        · cases positive
      next k w₁ sent =>
        obtain ⟨same, ⟨none_sent, -⟩ | ⟨-, fits, open_next⟩⟩ := send_cases is_open some_left sent
        · cases none_sent
        · have left : (buf.drop (k + 1)).length ≤ fuel := by
            rw [List.length_drop]
            omega
          obtain ⟨same', done⟩ := ih open_next left result
          rw [Socket.write, Socket.write, List.append_assoc, List.take_append_drop] at done
          exact ⟨same.trans same', done⟩

theorem writeRaw_cases {buf : List UInt8} (is_open : w.Open s n) {ok : Bool}
    (result : writeRaw buf w = (ok, w')) :
    SameBooks w w' ∧ ((ok = false ∧ w'.Closed) ∨ (ok = true ∧ w'.Open (s.write buf) n)) := by
  simp only [writeRaw, is_open.fd] at result
  exact writeLoop_cases is_open le_rfl result

/-- `writeFramed` also returns without a byte sent when the text is too long. -/
theorem writeFramed_cases {utf8 : List UInt8} (is_open : w.Open s n) {ok : Bool}
    (result : writeFramed utf8 w = (ok, w')) :
    SameBooks w w' ∧ ((ok = false ∧ w'.Closed) ∨ (ok = false ∧ maxFrameBytes < utf8.length ∧ w' = w) ∨
      (ok = true ∧ utf8.length ≤ maxFrameBytes ∧ w'.Open (s.write (framed utf8)) n)) := by
  simp only [writeFramed, is_open.fd, Option.isNone_some, Bool.false_eq_true, false_or] at result
  split at result
  next long =>
    cases result
    exact ⟨SameBooks.refl w, .inr (.inl ⟨rfl, long, rfl⟩)⟩
  next short =>
    have fits : utf8.length ≤ maxFrameBytes := by omega
    split at result
    next w₁ prefixed =>
      cases result
      obtain ⟨same, ⟨-, closed⟩ | ⟨yes, -⟩⟩ := writeRaw_cases is_open prefixed
      · exact ⟨same, .inl ⟨rfl, closed⟩⟩
      · cases yes
    next w₁ prefixed =>
      obtain ⟨same, ⟨no, -⟩ | ⟨-, open₁⟩⟩ := writeRaw_cases is_open prefixed
      · cases no
      split at result
      next empty =>
        obtain rfl := List.isEmpty_iff.mp empty
        cases result
        exact ⟨same, .inr (.inr ⟨rfl, fits, by simpa [framed] using open₁⟩)⟩
      next =>
        obtain ⟨same', ⟨no, closed⟩ | ⟨yes, open₂⟩⟩ := writeRaw_cases open₁ result
        · exact ⟨same.trans same', .inl ⟨no, closed⟩⟩
        · rw [Socket.write, Socket.write, List.append_assoc] at open₂
          exact ⟨same.trans same', .inr (.inr ⟨yes, fits, open₂⟩)⟩

/-- The socket after some bytes have been received from it. -/
def Socket.read (s : Socket) (k : ℕ) : Socket := { s with consumed := s.consumed + k }

/-- What the other end has sent and the client has not received. -/
def unread (ctx : Context) (n : ℕ) (s : Socket) : List UInt8 := (ctx.peer n s.written).drop s.consumed

variable {ctx : Context}

theorem unread_read (k : ℕ) : unread ctx n (s.read k) = (unread ctx n s).drop k := by
  simp [unread, Socket.read, List.drop_drop]

/-- What arrives behind the bytes that have been received. -/
theorem unread_append {first bytes : List UInt8} (arrived : first <+: unread ctx n s)
    (next : bytes <+: unread ctx n (s.read first.length)) : first ++ bytes <+: unread ctx n s := by
  obtain ⟨behind, split⟩ := arrived
  rw [unread_read, ← split, List.drop_left] at next
  rw [← split]
  exact (List.prefix_append_right_inj first).mpr next

theorem recv_cases (is_open : w.Open s n) {k : ℕ} {bytes : List UInt8}
    (received : w.recv ctx s.fd k = (bytes, w')) :
    SameBooks w w' ∧ bytes.length ≤ k ∧ bytes <+: unread ctx n s ∧ w'.Open (s.read bytes.length) n := by
  unfold World.recv at received
  split at received
  next w₁ result =>
    cases received
    obtain ⟨open_next, same⟩ := is_open.next result
    exact ⟨same, Nat.zero_le k, List.nil_prefix, open_next⟩
  next more w₁ result =>
    obtain ⟨open_next, same⟩ := is_open.next result
    obtain ⟨fd, connection, written, consumed⟩ := s
    obtain rfl : connection = some n := is_open.connection
    simp only [open_next.find] at received
    cases received
    refine ⟨⟨same.accepted, same.log⟩, ?_, List.take_prefix _ _, open_next.modify rfl rfl⟩
    rw [List.length_take]
    omega

/-- The loops of `readFramed` get all of the bytes asked for or close the descriptor. -/
theorem readLoop_cases {fuel k : ℕ} {got : List UInt8} (is_open : w.Open s n) (enough : k ≤ fuel)
    {r : Option (List UInt8)} (result : readLoop ctx fuel s.fd k got w = (r, w')) :
    SameBooks w w' ∧ ((r = none ∧ w'.Closed) ∨
      ∃ bytes, r = some (got ++ bytes) ∧ bytes.length = k ∧ bytes <+: unread ctx n s ∧
        w'.Open (s.read k) n) := by
  induction fuel generalizing w s k got with
  | zero =>
    obtain rfl : k = 0 := by omega
    cases result
    exact ⟨SameBooks.refl _, .inr ⟨[], by simp, rfl, List.nil_prefix, is_open⟩⟩
  | succ fuel ih =>
    unfold readLoop at result
    split at result
    next none_left =>
      subst none_left
      cases result
      exact ⟨SameBooks.refl _, .inr ⟨[], by simp, rfl, List.nil_prefix, is_open⟩⟩
    next some_left =>
      split at result
      next w₁ received =>
        cases result
        obtain ⟨same, -, -, open_next⟩ := recv_cases is_open received
        obtain ⟨closed, same'⟩ := disconnect_open open_next
        exact ⟨same.trans same', .inl ⟨rfl, closed⟩⟩
      next first w₁ filled received =>
        obtain ⟨same, fits, arrived, open_next⟩ := recv_cases is_open received
        have positive : 0 < first.length := List.length_pos_iff.mpr filled
        obtain ⟨same', rest⟩ := ih open_next (by omega) result
        refine ⟨same.trans same', rest.imp id ?_⟩
        rintro ⟨bytes, rfl, len, arrived', open_last⟩
        refine ⟨first ++ bytes, by rw [List.append_assoc], ?_, unread_append arrived arrived', ?_⟩
        · rw [List.length_append]
          omega
        · have total : first.length + (k - first.length) = k := by omega
          simpa [Socket.read, Nat.add_assoc, total] using open_last

theorem readFramed_cases (is_open : w.Open s n) {r : Option (List UInt8)}
    (result : readFramed ctx w = (r, w')) :
    SameBooks w w' ∧ ((r = none ∧ w'.Closed) ∨
      ∃ hdr text, r = some text ∧ hdr.length = 4 ∧ beValue hdr = text.length ∧ 0 < text.length ∧
        hdr ++ text <+: unread ctx n s ∧ w'.Open (s.read (4 + text.length)) n) := by
  simp only [readFramed, is_open.fd] at result
  split at result
  next w₁ read =>
    cases result
    obtain ⟨same, ⟨-, closed⟩ | ⟨_, got, -⟩⟩ := readLoop_cases is_open le_rfl read
    · exact ⟨same, .inl ⟨rfl, closed⟩⟩
    · cases got
  next hdr w₁ read =>
    obtain ⟨same, ⟨none_got, -⟩ | ⟨bytes, got, len, arrived, open₁⟩⟩ := readLoop_cases is_open le_rfl read
    · cases none_got
    obtain rfl : hdr = bytes := by simpa using got
    split at result
    -- A length out of range closes the descriptor.
    next =>
      cases result
      obtain ⟨closed, same'⟩ := disconnect_open open₁
      exact ⟨same.trans same', .inl ⟨rfl, closed⟩⟩
    next sized =>
      obtain ⟨same', ⟨none_got, closed⟩ | ⟨text, got, text_len, text_arrived, open₂⟩⟩ :=
        readLoop_cases open₁ le_rfl result
      · exact ⟨same.trans same', .inl ⟨none_got, closed⟩⟩
      · refine ⟨same.trans same', .inr ⟨hdr, text, by simpa using got, len, text_len.symm, by omega, ?_, ?_⟩⟩
        · exact unread_append arrived (len.symm ▸ text_arrived)
        · simpa [Socket.read, Nat.add_assoc, text_len] using open₂

/-! ## Connecting -/

/-- A connection has been accepted. -/
structure Accepts (w w' : World) (s : Socket) (n : ℕ) : Prop where
  is_open : w'.Open s n
  log : w'.log = w.log
  number : n = w.accepted
  written : s.written = []
  consumed : s.consumed = 0
  accepted : w'.accepted = w.accepted + 1

/-- `ensureConnected` succeeds, with the connection that was open or with a new one. -/
structure Connects (ctx : Context) (w w' : World) (s : Socket) (n : ℕ) : Prop where
  result : ensureConnected ctx w = (true, w')
  source : (w.Open s n ∧ w' = w) ∨ (w.Closed ∧ Accepts w w' s n)

theorem Connects.is_open (connects : Connects ctx w w' s n) : w'.Open s n := by
  obtain ⟨is_open, rfl⟩ | ⟨-, accepts⟩ := connects.source
  · exact is_open
  · exact accepts.is_open

theorem Connects.log (connects : Connects ctx w w' s n) : w'.log = w.log := by
  obtain ⟨-, rfl⟩ | ⟨-, accepts⟩ := connects.source
  · rfl
  · exact accepts.log

theorem Connects.accepted_le (connects : Connects ctx w w' s n) : w.accepted ≤ w'.accepted := by
  obtain ⟨-, rfl⟩ | ⟨-, accepts⟩ := connects.source
  · exact le_rfl
  · exact accepts.accepted.symm ▸ Nat.le_succ _

/-- A call that would not connect by itself finds the connection open. -/
theorem Connects.was_open (connects : Connects ctx w w' s n)
    (kept : w.fd = none → (ensureConnected ctx w).1 = false) : w.Open s n := by
  obtain ⟨is_open, -⟩ | ⟨closed, -⟩ := connects.source
  · exact is_open
  · have := kept closed.fd
    rw [connects.result] at this
    cases this

/-- The client is closed or has one connection, as it is between calls. -/
def World.Settled (w : World) : Prop := w.Closed ∨ ∃ s n, w.Open s n

theorem socket_cases (closed : w.Closed) {r : Option ℕ} (result : w.socket = (r, w')) :
    SameBooks w w' ∧ w'.fd = none ∧
      ((r = none ∧ w'.sockets = []) ∨ ∃ fd, r = some fd ∧ w'.sockets = [{ fd }]) := by
  unfold World.socket at result
  split at result
  next fd w₁ outcome =>
    obtain ⟨closed₁, same⟩ := closed.next outcome
    have unused : w₁.find fd = none := by simp [World.find, closed₁.sockets]
    simp only [unused, Option.isSome_none, Bool.false_eq_true, if_false] at result
    cases result
    exact ⟨⟨same.accepted, same.log⟩, closed₁.fd, .inr ⟨fd, rfl, by rw [closed₁.sockets]⟩⟩
  next w₁ outcome =>
    cases result
    obtain ⟨closed₁, same⟩ := closed.next outcome
    exact ⟨same, closed₁.fd, .inl ⟨rfl, closed₁.sockets⟩⟩

theorem connect_cases {fd : ℕ} (alone : w.sockets = [{ fd }]) {ok : Bool} (result : w.connect fd = (ok, w')) :
    w'.log = w.log ∧ w'.fd = w.fd ∧
      ((ok = false ∧ w'.sockets = [{ fd }] ∧ w'.accepted = w.accepted) ∨
        (ok = true ∧ w'.sockets = [{ fd, connection := some w.accepted }] ∧
          w'.accepted = w.accepted + 1)) := by
  unfold World.connect at result
  split at result
  next k w₁ outcome =>
    obtain ⟨clock, script, rfl⟩ := next_eq outcome
    cases result
    exact ⟨rfl, rfl, .inr ⟨rfl, by simp [World.modify, alone], rfl⟩⟩
  next w₁ outcome =>
    obtain ⟨clock, script, rfl⟩ := next_eq outcome
    cases result
    exact ⟨rfl, rfl, .inl ⟨rfl, alone, rfl⟩⟩

theorem close_alone {s : Socket} (alone : w.sockets = [s]) : (w.close s.fd).sockets = [] := by
  simp [World.close, alone]

theorem tryConnect_cases {now : ℕ} (closed : w.Closed) {ok : Bool}
    (result : tryConnect ctx now w = (ok, w')) :
    (ok = false ∧ w'.Closed ∧ SameBooks w w') ∨ (ok = true ∧ ∃ s n, Accepts w w' s n) := by
  unfold tryConnect at result
  split at result
  next w₁ opened =>
    cases result
    obtain ⟨same, fd, ⟨-, none_open⟩ | ⟨_, got, -⟩⟩ := socket_cases closed opened
    · exact .inl ⟨rfl, ⟨fd, none_open⟩, same.accepted, same.log⟩
    · cases got
  next fd w₁ opened =>
    obtain ⟨same, no_fd, ⟨got, -⟩ | ⟨_, got, alone⟩⟩ := socket_cases closed opened
    · cases got
    cases got
    split at result
    -- The path is too long for an address.
    next =>
      cases result
      exact .inl ⟨rfl, ⟨no_fd, close_alone alone⟩, same.accepted, same.log⟩
    next =>
      split at result
      next w₂ refused =>
        cases result
        obtain ⟨log, no_fd', ⟨-, alone', accepted⟩ | ⟨yes, -⟩⟩ := connect_cases alone refused
        · exact .inl ⟨rfl, ⟨no_fd'.trans no_fd, close_alone alone'⟩, accepted.trans same.accepted,
            log.trans same.log⟩
        · cases yes
      next w₂ connected =>
        cases result
        obtain ⟨log, -, ⟨no, -⟩ | ⟨-, alone', accepted⟩⟩ := connect_cases alone connected
        · cases no
        · rw [same.accepted] at alone' accepted
          exact .inr ⟨rfl, _, w.accepted, ⟨rfl, alone', rfl⟩, log.trans same.log, rfl, rfl, rfl, accepted⟩

theorem ensureConnected_cases (settled : w.Settled) {ok : Bool} (result : ensureConnected ctx w = (ok, w')) :
    (ok = false ∧ w.Closed ∧ w'.Closed ∧ SameBooks w w') ∨ (ok = true ∧ ∃ s n, Connects ctx w w' s n) := by
  have call := result
  unfold ensureConnected at result
  obtain closed | ⟨s, n, is_open⟩ := settled
  · simp only [closed.fd, Option.isSome_none, Bool.false_eq_true, if_false] at result
    obtain ⟨closed₁, same₁⟩ := closed.next (Prod.eta w.next).symm
    split at result
    -- The cooldown is not over.
    next =>
      cases result
      exact .inl ⟨rfl, closed, closed₁, same₁⟩
    next =>
      obtain ⟨no, closed', same⟩ | ⟨rfl, s, n, accepts⟩ := tryConnect_cases closed₁ result
      · exact .inl ⟨no, closed, closed', same₁.trans same⟩
      · refine .inr ⟨rfl, s, n, call, .inr ⟨closed, accepts.is_open, ?_, ?_, accepts.written,
          accepts.consumed, ?_⟩⟩
        · exact accepts.log.trans same₁.log
        · exact accepts.number.trans same₁.accepted
        · exact accepts.accepted.trans (congrArg (· + 1) same₁.accepted)
  · simp only [is_open.fd, Option.isSome_some, if_true] at result
    cases result
    exact .inr ⟨rfl, s, n, call, .inl ⟨is_open, rfl⟩⟩

/-! ## Public calls -/

theorem logged_open (is_open : w.Open s n) (m : ClientMessage) :
    logged m (true, w) = (true, { w with log := w.log ++ [(n, m)] }) := by
  obtain ⟨fd, connection, written, consumed⟩ := s
  obtain rfl : connection = some n := is_open.connection
  simp only [logged, is_open.fd, Option.bind_some, is_open.find]

/-- `m` has been written to the end on connection `n`. -/
structure Delivered (w w' : World) (n : ℕ) (m : ClientMessage) : Prop where
  accepted : w'.accepted = w.accepted
  log : w'.log = w.log ++ [(n, m)]

/-- All that a public call can do: nothing is left open and the message has not been
    written to its end; its text is too long; its reply is lost; it has no reply; or its
    reply is there. -/
inductive Performed (ctx : Context) (m : ClientMessage) (w : World) : Option Json → World → Prop where
  | unsent {w' : World} (closed : w'.Closed) (log : w'.log = w.log) (accepted : w.accepted ≤ w'.accepted) :
      Performed ctx m w none w'
  | long {w' : World} {s : Socket} {n : ℕ} (connects : Connects ctx w w' s n) (not_detach : m ≠ .detach)
      (long : maxFrameBytes < (m.text ctx.dump ctx.cameraUuid).length) : Performed ctx m w none w'
  | lost {w₁ w' : World} {s : Socket} {n : ℕ} (connects : Connects ctx w w₁ s n)
      (delivered : Delivered w₁ w' n m) (closed : w'.Closed) : Performed ctx m w none w'
  | sent {w₁ w' : World} {s : Socket} {n : ℕ} (connects : Connects ctx w w₁ s n)
      (delivered : Delivered w₁ w' n m)
      (fits : (m.text ctx.dump ctx.cameraUuid).length ≤ maxFrameBytes)
      (is_open : w'.Open (s.write (m.encode ctx.dump ctx.cameraUuid)) n)
      (no_reply : m = .attach ∨ ∃ extra, m = .config extra) : Performed ctx m w none w'
  | answered {w₁ w' : World} {s : Socket} {n : ℕ} {hdr text : List UInt8}
      (connects : Connects ctx w w₁ s n) (delivered : Delivered w₁ w' n m)
      (fits : (m.text ctx.dump ctx.cameraUuid).length ≤ maxFrameBytes)
      (header : hdr.length = 4) (size : beValue hdr = text.length) (positive : 0 < text.length)
      (arrived : hdr ++ text <+: unread ctx n (s.write (m.encode ctx.dump ctx.cameraUuid)))
      (is_open : w'.Open ((s.write (m.encode ctx.dump ctx.cameraUuid)).read (4 + text.length)) n)
      (frame : ∃ frameId tsUs w h stride body, m = .frame frameId tsUs w h stride body) :
      Performed ctx m w (ctx.parse text) w'

variable {m : ClientMessage}

theorem writeFrame_cases (is_open : w.Open s n) {ok : Bool} (result : writeFrame ctx m w = (ok, w')) :
    SameBooks w w' ∧ ((ok = false ∧ w'.Closed) ∨
      (ok = false ∧ maxFrameBytes < (m.text ctx.dump ctx.cameraUuid).length ∧ w' = w) ∨
      (ok = true ∧ (m.text ctx.dump ctx.cameraUuid).length ≤ maxFrameBytes ∧
        w'.Open (s.write (m.encode ctx.dump ctx.cameraUuid)) n)) := by
  unfold writeFrame at result
  split at result
  next w₁ header =>
    cases result
    obtain ⟨same, failed | failed | ⟨yes, -⟩⟩ := writeFramed_cases is_open header
    · exact ⟨same, .inl failed⟩
    · exact ⟨same, .inr (.inl failed)⟩
    · cases yes
  next w₁ header =>
    obtain ⟨same, ⟨no, -⟩ | ⟨no, -⟩ | ⟨-, fits, open₁⟩⟩ := writeFramed_cases is_open header
    · cases no
    · cases no
    split at result
    next empty =>
      cases result
      have whole : m.encode ctx.dump ctx.cameraUuid = framed (m.text ctx.dump ctx.cameraUuid) := by
        rw [ClientMessage.encode, List.isEmpty_iff.mp empty, List.append_nil]
      exact ⟨same, .inr (.inr ⟨rfl, fits, by rwa [whole]⟩)⟩
    next =>
      obtain ⟨same', failed | ⟨yes, open₂⟩⟩ := writeRaw_cases open₁ result
      · exact ⟨same.trans same', .inl failed⟩
      · rw [Socket.write, Socket.write, List.append_assoc] at open₂
        exact ⟨same.trans same', .inr (.inr ⟨yes, fits, open₂⟩)⟩

theorem writeFrame_eq (no_body : m.body = []) :
    writeFrame ctx m w = writeFramed (m.text ctx.dump ctx.cameraUuid) w := by
  unfold writeFrame
  rcases writeFramed (m.text ctx.dump ctx.cameraUuid) w with ⟨_ | _, w₁⟩ <;> simp [no_body]

theorem performed_refused (settled : w.Settled) (refused : ensureConnected ctx w = (false, w')) :
    Performed ctx m w none w' := by
  obtain ⟨-, -, closed, same⟩ | ⟨yes, -⟩ := ensureConnected_cases settled refused
  · exact .unsent closed same.log same.accepted.ge
  · cases yes

theorem connects_of_connected (settled : w.Settled) (connected : ensureConnected ctx w = (true, w')) :
    ∃ s n, Connects ctx w w' s n := by
  obtain ⟨no, -⟩ | ⟨-, connects⟩ := ensureConnected_cases settled connected
  · cases no
  · exact connects

/-- A message that has not been written to its end, for one of two reasons. -/
theorem performed_unwritten {w₁ : World} (connects : Connects ctx w w₁ s n) (not_detach : m ≠ .detach)
    (failed : writeFrame ctx m w₁ = (false, w')) : Performed ctx m w none w' := by
  obtain ⟨same, ⟨-, closed⟩ | ⟨-, long, rfl⟩ | ⟨yes, -⟩⟩ := writeFrame_cases connects.is_open failed
  · exact .unsent closed (same.log.trans connects.log) (connects.accepted_le.trans same.accepted.ge)
  · exact .long connects not_detach long
  · cases yes

theorem sendJsonNoReply_performed (settled : w.Settled)
    (no_reply : m = .attach ∨ ∃ extra, m = .config extra) :
    Performed ctx m w none (sendJsonNoReply ctx m w).2 := by
  have no_body : m.body = [] := by
    obtain rfl | ⟨extra, rfl⟩ := no_reply <;> rfl
  have not_detach : m ≠ .detach := by
    obtain rfl | ⟨extra, rfl⟩ := no_reply <;> nofun
  unfold sendJsonNoReply
  split
  next w₁ refused => exact performed_refused settled refused
  next w₁ connected =>
    obtain ⟨s, n, connects⟩ := connects_of_connected settled connected
    rw [← writeFrame_eq no_body]
    rcases result : writeFrame ctx m w₁ with ⟨_ | _, w₂⟩
    · exact performed_unwritten connects not_detach result
    · obtain ⟨same, ⟨no, -⟩ | ⟨no, -⟩ | ⟨-, fits, is_open⟩⟩ := writeFrame_cases connects.is_open result
      · cases no
      · cases no
      rw [logged_open is_open]
      refine .sent connects ⟨same.accepted, ?_⟩ fits ?_ no_reply
      · rw [same.log]
      · exact ⟨is_open.fd, is_open.sockets, is_open.connection⟩

theorem sendDetach_performed (settled : w.Settled) : Performed ctx .detach w none (sendDetach ctx w) := by
  unfold sendDetach
  obtain closed | ⟨s, n, is_open⟩ := settled
  · simp only [closed.fd, Option.isSome_none, Bool.false_eq_true, if_false, disconnect_closed closed]
    exact .unsent closed rfl le_rfl
  · have connects : Connects ctx w w s n := ⟨by simp [ensureConnected, is_open.fd], .inl ⟨is_open, rfl⟩⟩
    simp only [is_open.fd, Option.isSome_some, if_true]
    rw [← @writeFrame_eq w ctx .detach rfl]
    rcases result : writeFrame ctx .detach w with ⟨ok, w₂⟩
    obtain ⟨same, ⟨rfl, closed⟩ | ⟨rfl, long, rfl⟩ | ⟨rfl, fits, open₂⟩⟩ := writeFrame_cases is_open result
    -- Whatever becomes of the text, `sendDetach` closes the descriptor afterwards.
    · rw [logged, disconnect_closed closed]
      exact .unsent closed same.log same.accepted.ge
    · obtain ⟨closed, same'⟩ := disconnect_open is_open
      exact .unsent closed same'.log same'.accepted.ge
    · rw [logged_open open₂]
      have open₃ : World.Open { w₂ with log := w₂.log ++ [(n, .detach)] } _ n :=
        ⟨open₂.fd, open₂.sockets, open₂.connection⟩
      obtain ⟨closed, same'⟩ := disconnect_open open₃
      refine .lost connects ⟨same'.accepted.trans same.accepted, ?_⟩ closed
      rw [same'.log, same.log]

theorem sendFrameAndRecv_performed (settled : w.Settled) (frameId tsUs width h stride : ℤ)
    (body : List UInt8) :
    Performed ctx (.frame frameId tsUs width h stride body) w
      (sendFrameAndRecv ctx frameId tsUs width h stride body w).1
      (sendFrameAndRecv ctx frameId tsUs width h stride body w).2 := by
  unfold sendFrameAndRecv
  generalize is_frame : ClientMessage.frame frameId tsUs width h stride body = m
  simp only
  split
  next w₁ refused => exact performed_refused settled refused
  next w₁ connected =>
    obtain ⟨s, n, connects⟩ := connects_of_connected settled connected
    rcases result : writeFrame ctx m w₁ with ⟨_ | _, w₂⟩
    · exact performed_unwritten connects (by rw [← is_frame]; nofun) result
    · obtain ⟨same, ⟨no, -⟩ | ⟨no, -⟩ | ⟨-, fits, is_open⟩⟩ := writeFrame_cases connects.is_open result
      · cases no
      · cases no
      rw [logged_open is_open]
      have open₂ : World.Open { w₂ with log := w₂.log ++ [(n, m)] } _ n :=
        ⟨is_open.fd, is_open.sockets, is_open.connection⟩
      have log : w₂.log ++ [(n, m)] = w₁.log ++ [(n, m)] := by rw [same.log]
      simp only
      split
      next w₃ failed =>
        obtain ⟨same', ⟨-, closed⟩ | ⟨_, _, got, -⟩⟩ := readFramed_cases open₂ failed
        · exact .lost connects ⟨same'.accepted.trans same.accepted, same'.log.trans log⟩ closed
        · cases got
      next reply w₃ read =>
        obtain ⟨same', ⟨got, -⟩ | ⟨hdr, text, got, header, size, positive, arrived, open₃⟩⟩ :=
          readFramed_cases open₂ read
        · cases got
        cases got
        exact .answered connects ⟨same'.accepted.trans same.accepted, same'.log.trans log⟩ fits header size
          positive arrived open₃ ⟨frameId, tsUs, width, h, stride, body, is_frame.symm⟩

theorem perform_cases (settled : w.Settled) {r : Option Json} (result : perform ctx m w = (r, w')) :
    Performed ctx m w r w' := by
  cases m with
  | attach =>
    cases result
    exact sendJsonNoReply_performed settled (.inl rfl)
  | detach =>
    cases result
    exact sendDetach_performed settled
  | config extra =>
    cases result
    exact sendJsonNoReply_performed settled (.inr ⟨extra, rfl⟩)
  | frame frameId tsUs width h stride body =>
    have performed := @sendFrameAndRecv_performed w ctx settled frameId tsUs width h stride body
    rw [perform] at result
    rwa [result] at performed

/-- A call adds at most its own message to the log. -/
theorem perform_log (settled : w.Settled) {r : Option Json} (result : perform ctx m w = (r, w')) :
    w'.log = w.log ∨ ∃ n, w'.log = w.log ++ [(n, m)] := by
  cases perform_cases settled result with
  | unsent _ log => exact .inl log
  | long connects => exact .inl connects.log
  | @lost _ _ _ n connects delivered | @sent _ _ _ n connects delivered
  | @answered _ _ _ n _ _ connects delivered => exact .inr ⟨n, by rw [delivered.log, connects.log]⟩

/-! ## Connections between calls -/

def World.on (w : World) (n : ℕ) : List ClientMessage := (w.log.filter (·.1 = n)).map Prod.snd

/-- The world between public calls: numbers are given out in order. -/
structure World.Sound (w : World) : Prop where
  settled : w.Settled
  number : ∀ s n, w.Open s n → n < w.accepted
  numbers : ∀ e ∈ w.log, e.1 < w.accepted

theorem World.Open.unique {s' : Socket} {n' : ℕ} (is_open : w.Open s n) (is_open' : w.Open s' n') :
    s' = s ∧ n' = n := by
  obtain rfl : s' = s := by simpa using is_open'.sockets.symm.trans is_open.sockets
  exact ⟨rfl, by simpa using is_open'.connection.symm.trans is_open.connection⟩

theorem World.Closed.not_open (closed : w.Closed) : ¬ w.Open s n :=
  fun is_open => absurd (closed.fd.symm.trans is_open.fd) nofun

theorem on_congr (log : w'.log = w.log) (n : ℕ) : w'.on n = w.on n := by
  rw [World.on, World.on, log]

theorem Delivered.on (delivered : Delivered w w' n m) : w'.on n = w.on n ++ [m] := by
  simp [World.on, delivered.log]

/-- On a connection that is about to be accepted nothing has been written. -/
theorem World.Sound.on_fresh (sound : w.Sound) : w.on w.accepted = [] := by
  have none_there : w.log.filter (·.1 = w.accepted) = [] := by
    refine List.filter_eq_nil_iff.mpr fun e mem => ?_
    have := sound.numbers e mem
    simp only [decide_eq_true_eq]
    omega
  rw [World.on, none_there, List.map_nil]

theorem World.Sound.connects (sound : w.Sound) (connects : Connects ctx w w' s n) : n < w'.accepted := by
  obtain ⟨is_open, rfl⟩ | ⟨-, accepts⟩ := connects.source
  · exact sound.number s n is_open
  · have := accepts.number
    have := accepts.accepted
    omega

theorem sound_start (clock : ℕ) (script : List (ℕ × Outcome)) : World.Sound { clock, script } where
  settled := .inl ⟨rfl, rfl⟩
  number := fun _ _ is_open => absurd is_open (World.Closed.not_open ⟨rfl, rfl⟩)
  numbers := fun _ mem => absurd mem List.not_mem_nil

theorem World.Sound.of_closed (closed : w'.Closed) (numbers : ∀ e ∈ w'.log, e.1 < w'.accepted) : w'.Sound :=
  ⟨.inl closed, fun _ _ is_open => absurd is_open closed.not_open, numbers⟩

theorem World.Sound.of_open (is_open : w'.Open s n) (number : n < w'.accepted)
    (numbers : ∀ e ∈ w'.log, e.1 < w'.accepted) : w'.Sound := by
  refine ⟨.inr ⟨s, n, is_open⟩, fun s' n' is_open' => ?_, numbers⟩
  obtain ⟨rfl, rfl⟩ := is_open.unique is_open'
  exact number

theorem World.Sound.numbers_delivered {w₁ : World} (sound : w.Sound) (connects : Connects ctx w w₁ s n)
    (delivered : Delivered w₁ w' n m) : ∀ e ∈ w'.log, e.1 < w'.accepted := by
  have number := sound.connects connects
  rw [delivered.log, connects.log, delivered.accepted]
  intro e mem
  cases List.mem_append.mp mem with
  | inl old => exact (sound.numbers e old).trans_le connects.accepted_le
  | inr new =>
    obtain rfl := List.mem_singleton.mp new
    exact number

theorem sound_perform (sound : w.Sound) {r : Option Json} (result : perform ctx m w = (r, w')) : w'.Sound := by
  cases perform_cases sound.settled result with
  | unsent closed log accepted =>
    refine .of_closed closed ?_
    rw [log]
    exact fun e mem => (sound.numbers e mem).trans_le accepted
  | long connects =>
    refine .of_open connects.is_open (sound.connects connects) ?_
    rw [connects.log]
    exact fun e mem => (sound.numbers e mem).trans_le connects.accepted_le
  | lost connects delivered closed => exact .of_closed closed (sound.numbers_delivered connects delivered)
  | sent connects delivered _ is_open | answered connects delivered _ _ _ _ _ is_open =>
    refine .of_open is_open ?_ (sound.numbers_delivered connects delivered)
    rw [delivered.accepted]
    exact sound.connects connects

end

end VisionNx.Client
