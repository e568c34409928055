import VisionNx.FrameExchange

/-! # All connections of the worker

`main` accepts connections and starts a thread for each, which runs `serve`.  The threads
take their steps in any order, and each receives and sends in pieces of any size.  What a
thread has sent is always part of what `serve` answers to the bytes of its own connection,
and it never waits for more of them while an answer is due. -/

namespace VisionNx.Worker

open FrameExchange MessageStream TransitionRuns

variable {A : Type}

/-! ## Threads -/

/-- An accepted connection, with the thread that runs `serve` on it.  What has been received
    from it and sent on it is only a record. -/
structure Connection (A : Type) where
  serve : ServeState A := {}
  phase : WorkerPhase := .receiving .length []
  handled : ℕ := 0
  received : List UInt8 := []
  sent : List UInt8 := []

/-- The branch of a message, with the reply to send; an exception closes the connection. -/
def Connection.respond (server : Server A) (n : ℕ) (c : Connection A) (m : Incoming) : Connection A :=
  match handle server.env (server.behaviour n c.handled) c.serve m with
  | none => { c with phase := .closed }
  | some (serve, effects) =>
    match effects.replies.mapM (sendMsg server.dumps) with
    | none => { c with serve, phase := .closed }
    | some replies => { c with serve, phase := afterReply replies.flatten, handled := c.handled + 1 }

inductive ThreadAction where
  | recv (chunk : List UInt8)
  | proceed
  | handle
  | send (k : ℕ)
  | close

/-- A step of the thread of connection `n`.  It may end at any time: the other side hangs up,
    or a call raises. -/
inductive ThreadStep (server : Server A) (n : ℕ) (c : Connection A) : ThreadAction → Connection A → Prop where
  -- The part that a byte belongs to plays no role here.
  | recv {chunk want got} (receiving : c.phase = .receiving want got) (some_bytes : chunk ≠ [])
      (wanted : got.length + chunk.length ≤ want.size) :
      ThreadStep server n c (.recv chunk)
        { c with phase := .receiving want (got ++ chunk.map (Part.text, ·)), received := c.received ++ chunk }
  | proceed {want got} (receiving : c.phase = .receiving want got) (complete : want.size ≤ got.length) :
      ThreadStep server n c .proceed { c with phase := FrameExchange.proceed server.loads (bytes got) want }
  | handle {m} (handling : c.phase = .handling m) : ThreadStep server n c .handle (c.respond server n m)
  | send {k rest} (sending : c.phase = .sending rest) :
      ThreadStep server n c (.send k)
        { c with phase := afterReply (rest.drop (k + 1)), sent := c.sent ++ rest.take (k + 1) }
  | close : ThreadStep server n c .close { c with phase := .closed }

inductive FleetAction where
  | accept
  | on (n : ℕ) (a : ThreadAction)

/-- The connections in the order in which `main` has accepted them. -/
inductive FleetStep (server : Server A) (cs : List (Connection A)) : FleetAction → List (Connection A) → Prop where
  | accept : FleetStep server cs .accept (cs ++ [({} : Connection A)])
  | on {n c a c'} (at_n : cs[n]? = some c) (step : ThreadStep server n c a c') :
      FleetStep server cs (.on n a) (cs.set n c')

/-! ## The read loop, message by message -/

variable {loads : List UInt8 → Option Json} {server : Server A} {n : ℕ}

theorem takeExact_shrinks (n : ℕ) (bytes : List UInt8) :
    (takeExact n bytes).2.length + (takeExact n bytes).1.length ≤ bytes.length := by
  simp only [takeExact]
  split
  next fits =>
    rw [List.length_take, List.length_drop]
    omega
  · simp

theorem readMessage_shrinks {stream rest : List UInt8} {m : Incoming}
    (read : readMessage takeExact loads stream = some (m, rest)) : rest.length < stream.length := by
  have header := takeExact_shrinks 4 stream
  simp only [readMessage] at read
  split at read
  · cases read
  split at read
  · cases read
  generalize beValue (takeExact 4 stream).1 = length at read
  have payload := takeExact_shrinks length (takeExact 4 stream).2
  split at read
  · cases read
  split at read
  · cases read
    omega
  next msg parsed =>
    split at read
    · split at read
      · cases read
      next hdr _ =>
        split at read
        · cases read
        have body := takeExact_shrinks (hdr.h * hdr.stride).toNat (takeExact length (takeExact 4 stream).2).2
        split at read
        · cases read
        · cases read
          omega
    · cases read
      omega
  · cases read

/-- A message in front of the stream is the first one of it. -/
theorem Server.messages_cons {stream rest : List UInt8} {m : Incoming}
    (read : readMessage takeExact server.loads stream = some (m, rest)) (going : m.isDetach = false) :
    server.messages stream = m :: server.messages rest := by
  have shorter := readMessage_shrinks read
  have shrinks : ∀ stream c rest, readMessage takeExact server.loads stream = some (c, rest) →
      rest.length < stream.length := fun _ _ _ => readMessage_shrinks
  rw [Server.messages, Server.messages, received_eq _ (carries_bytes _), received_eq _ (carries_bytes _)]
  obtain ⟨fuel, len⟩ : ∃ fuel, stream.length = fuel + 1 := ⟨stream.length - 1, by omega⟩
  rw [len, decodeAll, read]
  simp only [going, Bool.false_eq_true, if_false]
  rw [decodeAll_fuel shrinks (by omega) le_rfl]

theorem Server.messages_nil {stream : List UInt8} (refused : readMessage takeExact server.loads stream = none) :
    server.messages stream = [] := by
  rw [Server.messages, received_eq _ (carries_bytes _)]
  cases stream.length with
  | zero => rfl
  | succ fuel => simp only [decodeAll, refused]

/-- Of a message that the thread still waits for, nothing is read. -/
theorem readMessage_blocked {read got : List (Part × UInt8)} {want : Want}
    (reading : Reading loads read (.receiving want got)) (waits : got.length < want.size) :
    readMessage takeExact loads (bytes read) = none := by
  cases want with
  | length =>
    obtain ⟨rfl, -⟩ := reading
    simp only [Want.size, ← length_bytes read] at waits
    simp only [readMessage, takeExact_short waits, List.length_nil]
    rfl
  | payload n =>
    obtain ⟨l, rfl, announced, -⟩ := reading
    simp only [Want.size, ← length_bytes got] at waits
    have positive := announced.pos
    rw [bytes_append, readMessage, takeExact_append announced.length]
    simp only [announced.length, lt_irrefl, if_false, announced.value]
    rw [if_neg (by have := announced.le; omega), takeExact_short waits]
    exact if_pos (Nat.pos_of_ne_zero positive)
  | body msg hdr =>
    obtain ⟨l, t, rfl, announced, parses, is_frame, header, pos, le, -⟩ := reading
    simp only [Want.size, ← length_bytes got] at waits
    rw [← length_bytes t] at announced
    rw [bytes_append, bytes_append, readMessage_announced announced, parses]
    simp only [is_frame, if_true, header]
    rw [if_neg (by omega), takeExact_short waits]
    exact if_pos (Nat.zero_lt_of_lt waits)

/-! ## The replies so far -/

theorem sendMsg_eq_some {dumps : Json → List UInt8} {r : Reply} {bytes : List UInt8} (sent : sendMsg dumps r = some bytes) :
    (dumps r.json).length < 2 ^ 32 ∧ bytes = framed (dumps r.json) := by
  simp only [sendMsg] at sent
  split at sent
  next short => exact ⟨short, (Option.some.inj sent).symm⟩
  next => cases sent

/-- The replies can all be sent. -/
def Sendable (dumps : Json → List UInt8) (rs : List Reply) : Prop := ∀ r ∈ rs, (dumps r.json).length < 2 ^ 32

theorem replyStream_append {dumps : Json → List UInt8} {rs : List Reply} (sendable : Sendable dumps rs)
    (rs' : List Reply) : replyStream dumps (rs ++ rs') = replyStream dumps rs ++ replyStream dumps rs' := by
  induction rs with
  | nil => rfl
  | cons r rs ih =>
    have sent : sendMsg dumps r = some (framed (dumps r.json)) := if_pos (sendable r List.mem_cons_self)
    have rest := ih fun r' mem => sendable r' (List.mem_cons_of_mem r mem)
    rw [List.cons_append, replyStream, replyStream, sent]
    simp only [rest, List.append_assoc]

theorem replyStream_of_mapM {dumps : Json → List UInt8} {rs : List Reply} {sent : List (List UInt8)}
    (all : rs.mapM (sendMsg dumps) = some sent) : Sendable dumps rs ∧ replyStream dumps rs = sent.flatten := by
  induction rs generalizing sent with
  | nil =>
    cases all
    exact ⟨fun _ mem => absurd mem List.not_mem_nil, rfl⟩
  | cons r rs ih =>
    simp only [List.mapM_cons, Option.bind_eq_bind, Option.bind_eq_some_iff, Option.pure_def, Option.some.injEq] at all
    obtain ⟨bytes, first, rest, others, rfl⟩ := all
    obtain ⟨short, -⟩ := sendMsg_eq_some first
    obtain ⟨shorts, stream⟩ := ih others
    refine ⟨List.forall_mem_cons.mpr ⟨short, shorts⟩, ?_⟩
    rw [replyStream, first, List.flatten_cons]
    simp only [stream]

theorem run_append_of_all {env : Env A} {s : ServeState A} {events : List (Incoming × Behaviour A)}
    (all : (run env s events).2.length = events.length) (more : List (Incoming × Behaviour A)) :
    run env s (events ++ more) =
      ((run env (run env s events).1 more).1, (run env s events).2 ++ (run env (run env s events).1 more).2) := by
  induction events generalizing s with
  | nil => rfl
  | cons e events ih =>
    obtain ⟨m, b⟩ := e
    simp only [run] at all
    simp only [List.cons_append, run]
    cases handled : handle env b s m with
    | none => simp [handled] at all
    | some result =>
      simp only [handled, List.length_cons, Nat.add_right_cancel_iff] at all
      simp only [ih all, List.cons_append]

theorem Server.events_concat (server : Server A) (n : ℕ) (msgs : List Incoming) (m : Incoming) :
    server.events n (msgs ++ [m]) = server.events n msgs ++ [(m, server.behaviour n msgs.length)] := by
  simp [Server.events, List.mapIdx_append]

/-- The messages in `done` have been handled, and `rs` is what was answered. -/
structure Handled (server : Server A) (n : ℕ) (done : List UInt8) (msgs : List Incoming) (serve : ServeState A)
    (rs : List Reply) : Prop where
  messages : ∀ tail, server.messages (done ++ tail) = msgs ++ server.messages tail
  state : (run server.env {} (server.events n msgs)).1 = serve
  all : (run server.env {} (server.events n msgs)).2.length = msgs.length
  replies : (run server.env {} (server.events n msgs)).2.flatMap (·.replies) = rs
  sendable : Sendable server.dumps rs

variable {done tail : List UInt8} {msgs : List Incoming} {serve : ServeState A} {rs : List Reply}

theorem Server.length_events (server : Server A) (n : ℕ) (msgs : List Incoming) :
    (server.events n msgs).length = msgs.length :=
  List.length_mapIdx

/-- What has been answered stands at the front of the output. -/
theorem Handled.output (handled : Handled server n done msgs serve rs) (tail : List UInt8) :
    replyStream server.dumps rs <+: server.output n (done ++ tail) := by
  have more : ∃ others, server.events n (msgs ++ server.messages tail) = server.events n msgs ++ others :=
    ⟨_, List.mapIdx_append⟩
  obtain ⟨others, split⟩ := more
  rw [Server.output, Server.effects, handled.messages, split,
    run_append_of_all (handled.all.trans (server.length_events n msgs).symm), List.flatMap_append, handled.replies,
    replyStream_append handled.sendable]
  exact List.prefix_append _ _

theorem Handled.output_eq (handled : Handled server n done msgs serve rs) (none_left : server.messages tail = []) :
    server.output n (done ++ tail) = replyStream server.dumps rs := by
  rw [Server.output, Server.effects, handled.messages, none_left, List.append_nil, handled.replies]

/-- One more message has been handled. -/
theorem Handled.concat {read : List UInt8} {m : Incoming} {serve' : ServeState A} {effects : Effects}
    (handled : Handled server n done msgs serve rs)
    (reads : ∀ tail, readMessage takeExact server.loads (read ++ tail) = some (m, tail)) (going : m.isDetach = false)
    (next : handle server.env (server.behaviour n msgs.length) serve m = some (serve', effects))
    (sendable : Sendable server.dumps effects.replies) :
    Handled server n (done ++ read) (msgs ++ [m]) serve' (rs ++ effects.replies) := by
  have all := handled.all.trans (server.length_events n msgs).symm
  have one : run server.env serve [(m, server.behaviour n msgs.length)] = (serve', [effects]) := by
    simp only [run, next]
  have ran : run server.env {} (server.events n (msgs ++ [m])) =
      (serve', (run server.env {} (server.events n msgs)).2 ++ [effects]) := by
    rw [server.events_concat, run_append_of_all all, handled.state, one]
  refine ⟨fun tail => ?_, ?_, ?_, ?_, ?_⟩
  · rw [List.append_assoc, handled.messages, Server.messages_cons (reads tail) going, List.append_assoc,
      List.singleton_append]
  · rw [ran]
  · rw [ran, List.length_append, handled.all, List.length_append, List.length_singleton, List.length_singleton]
  · rw [ran, List.flatMap_append, handled.replies, List.flatMap_singleton]
  · intro r mem
    exact (List.mem_append.mp mem).elim (handled.sendable r) (sendable r)

theorem going_of_handled {env : Env A} {b : Behaviour A} {s s' : ServeState A} {m : Incoming} {effects : Effects}
    (handled : handle env b s m = some (s', effects)) : m.isDetach = false := by
  cases m with
  | garbled | frame msg hdr body => rfl
  | message msg =>
    simp only [Incoming.isDetach]
    cases detaches : typeIs "detach" msg with
    | false => rfl
    | true =>
      have no_attach : typeIs "attach" msg = false := by
        cases attaches : typeIs "attach" msg with
        | false => rfl
        | true => exact absurd (typeIs_unique attaches detaches) (by decide)
      simp only [Worker.handle, no_attach, detaches, Bool.false_eq_true, if_false, if_true] at handled
      cases handled

/-! ## One thread -/

/-- The thread is at a message that has begun with `read`, or sends `rest` of the last reply. -/
inductive At (loads : List UInt8 → Option Json) : WorkerPhase → List (Part × UInt8) → List UInt8 → Prop where
  | reading {phase read} (reading : Reading loads read phase) : At loads phase read []
  | sending {rest} : At loads (.sending rest) [] rest

/-- The thread follows `serve`: its state is that behind the messages it has handled, and it
    has sent what was answered to these. -/
structure Going (server : Server A) (n : ℕ) (c : Connection A) : Prop where
  going : ∃ done msgs rs read rest, Handled server n done msgs c.serve rs ∧
    c.handled = msgs.length ∧ c.received = done ++ bytes read ∧ At server.loads c.phase read rest ∧
    c.sent ++ rest = replyStream server.dumps rs

/-- So it does until the connection is closed. -/
inductive Follows (server : Server A) (n : ℕ) (c : Connection A) : Prop where
  | going (going : Going server n c)
  | closed (closed : c.phase = .closed)
      (sent : ∀ written, c.received <+: written → c.sent <+: server.output n written)

variable {c c' : Connection A}

/-- What has been sent is part of the answer to the bytes that were received. -/
theorem Going.sent_inside (going : Going server n c) {written : List UInt8} (received : c.received <+: written) :
    c.sent <+: server.output n written := by
  obtain ⟨done, msgs, rs, read, rest, handled, -, split, -, sent⟩ := going
  obtain ⟨more, rfl⟩ := received
  rw [split, List.append_assoc]
  exact (sent ▸ List.prefix_append c.sent rest).trans (handled.output _)

/-- While the thread waits for bytes, nothing is left to be sent. -/
theorem Going.sent_all (going : Going server n c) (blocked : c.phase.Blocked) : c.sent = server.output n c.received := by
  obtain ⟨done, msgs, rs, read, rest, handled, -, split, at_phase, sent⟩ := going
  obtain ⟨want, got, receiving, waits⟩ := blocked
  rw [receiving] at at_phase
  cases at_phase with
  | reading reading =>
    have nothing := Server.messages_nil (readMessage_blocked reading waits)
    rw [split, handled.output_eq nothing, ← sent, List.append_nil]

theorem Going.closed {phase : WorkerPhase} (going : Going server n c) (closed : phase = .closed) (serve : ServeState A) :
    Follows server n { c with serve, phase } :=
  .closed closed fun _ received => going.sent_inside received

/-- The message that has been received is handled as `run` handles it. -/
theorem Going.respond (going : Going server n c) {m : Incoming} (handling : c.phase = .handling m) :
    Follows server n (c.respond server n m) := by
  have at_message := going
  obtain ⟨done, msgs, rs, read, rest, handled, count, split, at_phase, sent⟩ := at_message
  rw [handling] at at_phase
  cases at_phase with
  | reading reads =>
    simp only [Connection.respond]
    cases next : handle server.env (server.behaviour n c.handled) c.serve m with
    | none => exact going.closed rfl c.serve
    | some result =>
      obtain ⟨serve, effects⟩ := result
      simp only
      cases all : effects.replies.mapM (sendMsg server.dumps) with
      | none => exact going.closed rfl serve
      | some pieces =>
        obtain ⟨sendable, stream⟩ := replyStream_of_mapM all
        rw [count] at next
        have further := handled.concat reads (going_of_handled next) next sendable
        rw [List.append_nil] at sent
        refine .going ⟨done ++ bytes read, _, _, [], pieces.flatten, further, ?_, ?_, ?_, ?_⟩
        · rw [List.length_append, count, List.length_singleton]
        · exact split.trans (List.append_nil _).symm
        · simp only [afterReply]
          split
          next empty =>
            rw [List.isEmpty_iff.mp empty]
            exact .reading ⟨rfl, Nat.zero_le 4⟩
          next => exact .sending
        · rw [replyStream_append handled.sendable, stream, ← sent]

theorem Going.step (going : Going server n c) {a : ThreadAction} (step : ThreadStep server n c a c') :
    Follows server n c' := by
  have at_step := going
  obtain ⟨done, msgs, rs, read, rest, handled, count, split, at_phase, sent⟩ := at_step
  cases step with
  | @recv chunk want got receiving some_bytes wanted =>
    rw [receiving] at at_phase
    cases at_phase with
    | reading reading =>
      have fits : got.length + (chunk.map (Part.text, ·)).length ≤ want.size := by rwa [List.length_map]
      refine .going ⟨done, msgs, rs, read ++ chunk.map (Part.text, ·), [], handled, count, ?_, ?_, sent⟩
      · rw [bytes_append, bytes_map, ← List.append_assoc, split]
      · exact .reading (reading_recv reading fits)
  | proceed receiving complete =>
    rw [receiving] at at_phase
    cases at_phase with
    | reading reading =>
      cases reading_proceed reading complete with
      | inl is_closed => exact going.closed is_closed c.serve
      | inr further => exact .going ⟨done, msgs, rs, read, [], handled, count, split, .reading further, sent⟩
  | handle handling => exact going.respond handling
  | @send k _ sending =>
    rw [sending] at at_phase
    cases at_phase with
    | reading reading => exact reading.elim
    | sending =>
      refine .going ⟨done, msgs, rs, [], rest.drop (k + 1), handled, count, split, ?_, ?_⟩
      · simp only [afterReply]
        split
        next empty =>
          rw [List.isEmpty_iff.mp empty]
          exact .reading ⟨rfl, Nat.zero_le 4⟩
        next => exact .sending
      · rw [List.append_assoc, List.take_append_drop, sent]
  | close => exact going.closed rfl c.serve

theorem Follows.step (follows : Follows server n c) {a : ThreadAction} (step : ThreadStep server n c a c') :
    Follows server n c' := by
  cases follows with
  | going going => exact going.step step
  | closed closed sent =>
    -- A thread that has ended does nothing more.
    cases step with
    | recv receiving | proceed receiving => cases closed.symm.trans receiving
    | handle handling => cases closed.symm.trans handling
    | send sending => cases closed.symm.trans sending
    | close => exact .closed rfl sent

theorem follows_accepted (server : Server A) (n : ℕ) : Follows server n {} := by
  refine .going ⟨[], [], [], [], [], ⟨fun tail => rfl, rfl, rfl, rfl, ?_⟩, rfl, rfl, .reading ⟨rfl, Nat.zero_le 4⟩, rfl⟩
  exact fun _ mem => absurd mem List.not_mem_nil

/-! ## All threads -/

theorem follows_fleet_step {cs cs' : List (Connection A)} {a : FleetAction}
    (follows : ∀ n c, cs[n]? = some c → Follows server n c) (step : FleetStep server cs a cs') :
    ∀ n c, cs'[n]? = some c → Follows server n c := by
  intro n c at_n
  cases step with
  | accept =>
    rw [List.getElem?_append] at at_n
    split at at_n
    · exact follows n c at_n
    · rw [List.mem_singleton.mp (List.mem_of_getElem? at_n)]
      exact follows_accepted server n
  | @on n' c' _ c'' at_n' thread_step =>
    rw [List.getElem?_set] at at_n
    split at at_n
    next same =>
      subst same
      split at at_n
      · obtain rfl := Option.some.inj at_n
        exact (follows n' c' at_n').step thread_step
      · cases at_n
    next => exact follows n c at_n

/-- Whatever the order in which the threads take their steps, what a connection has been sent
    is part of what `serve` answers to its own bytes alone, and all of it once the thread
    waits for more.  So the other side of a connection sees a prefix of that answer, whatever
    it has written in the meantime. -/
theorem fleet_follows_serve (server : Server A) {actions : List FleetAction} {cs : List (Connection A)}
    (run : Run (FleetStep server) [] actions cs) {n : ℕ} {c : Connection A} (at_n : cs[n]? = some c) :
    (∀ written, c.received <+: written → c.sent <+: server.output n written) ∧
      (c.phase.Blocked → c.sent = server.output n c.received) := by
  have follows : ∀ n c, cs[n]? = some c → Follows server n c :=
    run.invariant (fun _ _ _ follows step => follows_fleet_step follows step) (fun n c at_n => by cases at_n)
  cases follows n c at_n with
  | going going => exact ⟨fun written received => going.sent_inside received, going.sent_all⟩
  | closed closed sent =>
    refine ⟨sent, fun blocked => ?_⟩
    obtain ⟨want, got, receiving, -⟩ := blocked
    cases closed.symm.trans receiving

/-! ## A frame beside a connection that breaks -/

/-- A thread may take its steps while the others take none. -/
theorem fleet_run_of_thread {cs : List (Connection A)} (at_n : cs[n]? = some c) {actions : List ThreadAction}
    (run : Run (ThreadStep server n) c actions c') :
    Run (FleetStep server) cs (actions.map (.on n)) (cs.set n c') := by
  obtain ⟨inside, -⟩ := List.getElem?_eq_some_iff.mp at_n
  induction run generalizing cs with
  | nil c =>
    have same : cs.set n c = cs := by
      obtain ⟨_, is⟩ := List.getElem?_eq_some_iff.mp at_n
      rw [← is, List.set_getElem_self]
    rw [same]
    exact .nil cs
  | @cons c a c' actions c'' step rest ih =>
    have next := ih (List.getElem?_set_self inside) (by rwa [List.length_set])
    rw [List.set_set] at next
    exact .cons (.on at_n step) next

/-- The thread gets all that it waits for at once. -/
theorem recv_whole {want : Want} {chunk : List UInt8} (receiving : c.phase = .receiving want [])
    (pos : 0 < chunk.length) (size : chunk.length = want.size) :
    Run (ThreadStep server n) c [.recv chunk, .proceed]
      { c with phase := FrameExchange.proceed server.loads chunk want, received := c.received ++ chunk } := by
  have first : ThreadStep server n c (.recv chunk) _ :=
    .recv receiving (List.ne_nil_of_length_pos pos) (by simp [size])
  have got : bytes ([] ++ chunk.map (Part.text, ·)) = chunk := by rw [List.nil_append, bytes_map]
  refine .cons first (.cons ?_ (.nil _))
  have second := @ThreadStep.proceed A server n
    { c with phase := .receiving want ([] ++ chunk.map (Part.text, ·)), received := c.received ++ chunk }
    want _ rfl (by simp [size])
  rwa [got] at second

/-- The thread can answer any frame that it can read. -/
theorem thread_answers {dump : Json → List UInt8} {cameraUuid : String} {frameId tsUs w h stride : ℤ}
    {body : List UInt8} (readable : Readable dump server.loads cameraUuid (.frame frameId tsUs w h stride body))
    (waits : c.phase = .receiving .length []) {serve : ServeState A} {effects : Effects} {r : Reply}
    (handled : handle server.env (server.behaviour n c.handled) c.serve
      (incoming cameraUuid (.frame frameId tsUs w h stride body)) = some (serve, effects))
    (replies : effects.replies = [r]) (short : (server.dumps r.json).length < 2 ^ 32) :
    ∃ actions c', Run (ThreadStep server n) c actions c' ∧ c'.phase = .receiving .length [] ∧
      c'.sent = c.sent ++ framed (server.dumps r.json) := by
  generalize is_frame : ClientMessage.frame frameId tsUs w h stride body = m at readable
  have small : (m.text dump cameraUuid).length < 2 ^ 32 := readable.sized.text_le.trans_lt (by decide)
  have positive := readable.sized.text_pos
  obtain ⟨size_pos, size_le, size⟩ := readable.sized.body_size _ _ _ _ _ _ is_frame.symm
  have length := @recv_whole A server n c .length (be32 (m.text dump cameraUuid).length) waits (by simp) (by simp [Want.size])
  simp only [FrameExchange.proceed, beValue_be32 small] at length
  rw [if_neg (by have := readable.sized.text_le; omega)] at length
  have text := length.append (@recv_whole A server n _ (.payload (m.text dump cameraUuid).length)
    (m.text dump cameraUuid) rfl positive rfl)
  subst is_frame
  simp only [FrameExchange.proceed, readable.parses, typeIs_fields, beq_self_eq_true, if_true, frameHeader_fields] at text
  rw [if_neg (by omega)] at text
  have whole := text.append (@recv_whole A server n _ (.body _ ⟨w, h, stride, Python.toInt (toDouble frameId)⟩) body rfl
    (by omega) (by simp only [Want.size]; omega))
  have answered := whole.append (.cons (.handle rfl) (.nil _))
  have whole_reply : sendMsg server.dumps r = some (framed (server.dumps r.json)) := if_pos short
  have replied : effects.replies.mapM (sendMsg server.dumps) = some [framed (server.dumps r.json)] := by
    simp [replies, whole_reply]
  have sending : afterReply [framed (server.dumps r.json)].flatten = .sending (framed (server.dumps r.json)) := by
    simp [afterReply, framed, be32]
  simp only [incoming] at handled
  simp only [Connection.respond, handled, replied, sending] at answered
  have sent := answered.append (.cons (.send (k := (framed (server.dumps r.json)).length) rfl) (.nil _))
  rw [List.drop_of_length_le (Nat.le_succ _), List.take_of_length_le (Nat.le_succ _)] at sent
  exact ⟨_, _, sent, rfl, rfl⟩

/-- The worker of the example session. -/
def sessionServer : Server Unit where
  loads := loadsSession
  dumps := dumpText
  env := loadedEnv
  behaviour := fun _ _ => carOrRaise true

/-- What the example frame does on a connection on which nothing has been handled. -/
def frameHandled : ServeState Unit × Effects :=
  (handle loadedEnv (carOrRaise true) {} (incoming "cam" (.frame 7 0 2 1 6 [10, 20, 30, 40, 50, 60]))).getD ({}, {})

/-- The second connection breaks off behind one byte, and the first is answered in full. -/
theorem fleet_follows_serve_frame : ∃ (actions : List FleetAction) (cs : List (Connection Unit)) (c : Connection Unit),
    Run (FleetStep sessionServer) [] ([.accept, .accept, .on 1 (.recv [0]), .on 1 .close] ++ actions) cs ∧
    cs[0]? = some c ∧ c.sent.length ≠ 0 ∧ c.sent = sessionServer.output 0 c.received := by
  have broken : Run (FleetStep sessionServer) [] [.accept, .accept, .on 1 (.recv [0]), .on 1 .close] _ :=
    .cons .accept (.cons .accept (.cons (.on rfl (.recv rfl (List.cons_ne_nil _ _) (by decide)))
      (.cons (.on rfl .close) (.nil _))))
  have handled : handle sessionServer.env (sessionServer.behaviour 0 0) {}
      (incoming "cam" (.frame 7 0 2 1 6 [10, 20, 30, 40, 50, 60])) =
        some (frameHandled.1, frameHandled.2) := rfl
  obtain ⟨r, replies, -⟩ := (handle_replies handled).2 7 (by decide +kernel)
  have short : ∀ r ∈ frameHandled.2.replies, (dumpText r.json).length < 2 ^ 32 := by decide +kernel
  obtain ⟨actions, c, answers, waits, sent⟩ := @thread_answers Unit sessionServer 0 {} dumpText "cam" 7 0 2 1 6 _
    (session_readable _ (.tail _ (.head _))) rfl _ _ r handled replies (short r (by rw [replies]; exact .head _))
  have run := broken.append (fleet_run_of_thread rfl answers)
  refine ⟨_, _, c, run, rfl, ?_, (fleet_follows_serve sessionServer run rfl).2 ⟨_, _, waits, by decide⟩⟩
  rw [sent, List.length_append, length_framed]
  omega

end VisionNx.Worker
