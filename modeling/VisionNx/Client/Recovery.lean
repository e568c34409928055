import VisionNx.Client.Cooldown
import VisionNx.Worker.Fleet

/-! # Recovery

After any outage, once the cooldown is over and the system calls succeed again, the client
finds back to the worker by itself: the first frame may still find the old connection dead,
but it closes that connection, and every frame behind it is answered. -/

namespace VisionNx.Client

open Worker

/-! ## System calls that succeed -/

/-- All system calls to come succeed, and there are at least `k`. -/
structure World.Healthy (w : World) (k : ℕ) : Prop where
  enough : k ≤ w.script.length
  succeed : ∀ e ∈ w.script, ∃ j, e.2 = .done j

variable {ctx : Context} {w w' : World} {s : Socket} {n k : ℕ} {m : ClientMessage}

theorem World.Healthy.mono (healthy : w.Healthy k) {k' : ℕ} (le : k' ≤ k) : w.Healthy k' :=
  ⟨le.trans healthy.enough, healthy.succeed⟩

theorem World.Healthy.of_script (healthy : w.Healthy k) (same : w'.script = w.script) : w'.Healthy k :=
  ⟨same ▸ healthy.enough, same ▸ healthy.succeed⟩

theorem World.Healthy.next (healthy : w.Healthy (k + 1)) : ∃ j w', w.next = (.done j, w') ∧ w'.Healthy k := by
  obtain ⟨enough, succeed⟩ := healthy
  unfold World.next
  cases script : w.script with
  | nil => simp [script] at enough
  | cons e rest =>
    rw [script] at enough succeed
    obtain ⟨elapsed, outcome⟩ := e
    obtain ⟨j, rfl⟩ := succeed _ List.mem_cons_self
    exact ⟨j, _, rfl, Nat.le_of_succ_le_succ enough, fun e mem => succeed e (List.mem_cons_of_mem _ mem)⟩

theorem send_healthy {buf : List UInt8} (some_left : buf ≠ []) (healthy : w.Healthy (k + 1)) :
    ∃ taken w', w.send s.fd buf = (taken + 1, w') ∧ w'.Healthy k := by
  obtain ⟨j, w₁, result, healthy'⟩ := healthy.next
  have positive : 0 < buf.length := List.length_pos_iff.mpr some_left
  obtain ⟨taken, is⟩ : ∃ taken, min (j + 1) buf.length = taken + 1 := ⟨min (j + 1) buf.length - 1, by omega⟩
  simp only [World.send, result, is]
  exact ⟨taken, _, rfl, healthy'.of_script rfl⟩

/-- A send takes at least a byte, so a text is written in as many calls at most. -/
theorem writeLoop_healthy {fuel : ℕ} {buf : List UInt8} (healthy : w.Healthy (buf.length + k)) :
    ∃ w', writeLoop fuel s.fd buf w = (true, w') ∧ w'.Healthy k := by
  induction fuel generalizing buf w with
  | zero => exact ⟨w, rfl, healthy.mono (Nat.le_add_left _ _)⟩
  | succ fuel ih =>
    cases buf with
    | nil => exact ⟨w, rfl, healthy.mono (Nat.le_add_left _ _)⟩
    | cons byte rest =>
      have one_more : w.Healthy (rest.length + k + 1) := healthy.mono (by simp only [List.length_cons]; omega)
      obtain ⟨taken, w₁, sent, healthy₁⟩ := @send_healthy w s _ (byte :: rest) nofun one_more
      have left : ((byte :: rest).drop (taken + 1)).length + k ≤ rest.length + k := by
        rw [List.drop_succ_cons, List.length_drop]
        omega
      obtain ⟨w₂, written, healthy₂⟩ := ih (healthy₁.mono left)
      refine ⟨w₂, ?_, healthy₂⟩
      simp only [writeLoop, List.isEmpty_cons, Bool.false_eq_true, if_false, sent, written]

theorem writeRaw_healthy {buf : List UInt8} (is_open : w.Open s n) (healthy : w.Healthy (buf.length + k)) :
    ∃ w', writeRaw buf w = (true, w') ∧ w'.Healthy k := by
  simp only [writeRaw, is_open.fd]
  exact writeLoop_healthy healthy

theorem writeFramed_healthy {utf8 : List UInt8} (is_open : w.Open s n) (fits : utf8.length ≤ maxFrameBytes)
    (healthy : w.Healthy ((framed utf8).length + k)) :
    ∃ w', writeFramed utf8 w = (true, w') ∧ w'.Healthy k := by
  rw [length_framed, Nat.add_assoc] at healthy
  obtain ⟨w₁, prefixed, healthy₁⟩ := @writeRaw_healthy w s n _ (be32 utf8.length) is_open healthy
  obtain ⟨-, ⟨no, -⟩ | ⟨-, open₁⟩⟩ := writeRaw_cases is_open prefixed
  · cases no
  have short : ¬ maxFrameBytes < utf8.length := not_lt.mpr fits
  simp only [writeFramed, is_open.fd, Option.isNone_some, Bool.false_eq_true, false_or, if_neg short, prefixed]
  split
  next => exact ⟨w₁, rfl, healthy₁.mono (Nat.le_add_left _ _)⟩
  next => exact writeRaw_healthy open₁ healthy₁

theorem writeFrame_healthy (is_open : w.Open s n) (fits : (m.text ctx.dump ctx.cameraUuid).length ≤ maxFrameBytes)
    (healthy : w.Healthy ((m.encode ctx.dump ctx.cameraUuid).length + k)) :
    ∃ w', writeFrame ctx m w = (true, w') ∧ w'.Healthy k := by
  rw [ClientMessage.encode, List.length_append, Nat.add_assoc] at healthy
  obtain ⟨w₁, header, healthy₁⟩ := writeFramed_healthy is_open fits healthy
  obtain ⟨-, ⟨no, -⟩ | ⟨no, -⟩ | ⟨-, -, open₁⟩⟩ := writeFramed_cases is_open header
  · cases no
  · cases no
  simp only [writeFrame, header]
  split
  next => exact ⟨w₁, rfl, healthy₁.mono (Nat.le_add_left _ _)⟩
  next => exact writeRaw_healthy open₁ healthy₁

/-- What is unread arrives, at least a byte at a time. -/
theorem recv_healthy (is_open : w.Open s n) {size : ℕ} (some_left : 0 < size) (healthy : w.Healthy (k + 1)) :
    ∃ bytes w', w.recv ctx s.fd size = (bytes, w') ∧ w'.Healthy k ∧ (unread ctx n s ≠ [] → bytes ≠ []) := by
  obtain ⟨j, w₁, result, healthy'⟩ := healthy.next
  obtain ⟨open_next, -⟩ := is_open.next result
  obtain ⟨fd, connection, written, consumed⟩ := s
  obtain rfl : connection = some n := is_open.connection
  simp only [World.recv, result, open_next.find]
  refine ⟨_, _, rfl, healthy'.of_script rfl, fun arrived empty => ?_⟩
  rw [List.take_eq_nil_iff] at empty
  cases empty with
  | inl none_taken => omega
  | inr none_left => exact arrived none_left

theorem readLoop_healthy {fuel size : ℕ} {got : List UInt8} (is_open : w.Open s n) (enough : size ≤ fuel)
    (arrived : size ≤ (unread ctx n s).length) (healthy : w.Healthy (size + k)) :
    ∃ bytes w', readLoop ctx fuel s.fd size got w = (some bytes, w') ∧ w'.Healthy k := by
  induction fuel generalizing w s size got with
  | zero =>
    obtain rfl : size = 0 := by omega
    exact ⟨got, w, rfl, healthy.mono (Nat.le_add_left _ _)⟩
  | succ fuel ih =>
    cases size with
    | zero => exact ⟨got, w, by simp only [readLoop, if_true], healthy.mono (Nat.le_add_left _ _)⟩
    | succ size =>
      have one_more : w.Healthy (size + k + 1) := healthy.mono (by omega)
      obtain ⟨first, w₁, received, healthy₁, filled⟩ :=
        @recv_healthy ctx w s n _ is_open (size + 1) (Nat.succ_pos size) one_more
      obtain ⟨-, short, -, open₁⟩ := recv_cases is_open received
      have some_bytes : first ≠ [] := filled fun none_left => by simp [none_left] at arrived
      have positive : 0 < first.length := List.length_pos_iff.mpr some_bytes
      obtain ⟨bytes, w₂, read, healthy₂⟩ := @ih w₁ (s.read first.length) (size + 1 - first.length) (got ++ first) open₁
        (by omega) (by rw [unread_read, List.length_drop]; omega) (healthy₁.mono (by omega))
      refine ⟨bytes, w₂, ?_, healthy₂⟩
      cases first with
      | nil => exact absurd rfl some_bytes
      | cons byte rest =>
        simp only [readLoop, Nat.succ_ne_zero, if_false, received]
        exact read

/-- A reply that has arrived is read. -/
theorem readFramed_healthy {text : List UInt8} (is_open : w.Open s n) (arrived : unread ctx n s = framed text)
    (positive : 0 < text.length) (fits : text.length ≤ maxFrameBytes) (healthy : w.Healthy ((framed text).length + k)) :
    ∃ w', readFramed ctx w = (some text, w') ∧ w'.Healthy k := by
  have total : (unread ctx n s).length = 4 + text.length := by rw [arrived, length_framed]
  rw [length_framed, Nat.add_assoc] at healthy
  obtain ⟨hdr, w₁, header, healthy₁⟩ := @readLoop_healthy ctx w s n _ 4 4 [] is_open le_rfl (by omega) healthy
  obtain ⟨-, ⟨none_got, -⟩ | ⟨hdr', got, len, from_start, open₁⟩⟩ := readLoop_cases is_open le_rfl header
  · cases none_got
  obtain rfl : hdr = hdr' := by simpa using got
  have is_size : hdr = be32 text.length := by
    rw [arrived, framed] at from_start
    exact (List.append_inj (List.prefix_iff_eq_append.mp from_start) (by rw [len, length_be32])).1
  have size : beValue hdr = text.length := by
    rw [is_size]
    exact beValue_be32 (fits.trans_lt (by decide))
  obtain ⟨bytes, w₂, read, healthy₂⟩ := @readLoop_healthy ctx w₁ (s.read 4) n _ text.length text.length [] open₁ le_rfl
    (by rw [unread_read, List.length_drop]; omega) healthy₁
  obtain ⟨-, ⟨none_got, -⟩ | ⟨bytes', got, text_len, behind, -⟩⟩ := readLoop_cases open₁ le_rfl read
  · cases none_got
  obtain rfl : bytes = bytes' := by simpa using got
  have is_text : bytes = text := by
    rw [unread_read, arrived, framed, List.drop_left' (length_be32 _)] at behind
    exact behind.eq_of_length text_len
  subst is_text
  refine ⟨w₂, ?_, healthy₂⟩
  have in_range : ¬ (bytes.length = 0 ∨ maxFrameBytes < bytes.length) := by omega
  simp only [readFramed, is_open.fd, header, size, if_neg in_range]
  exact read

/-! ## Connecting -/

/-- The cooldown is over. -/
def World.Due (w : World) : Prop := w.nextConnectAttempt ≤ w.clock

theorem Later.due (later : Later w w') (due : w.Due) : w'.Due := by
  rw [World.Due, later.deadline]
  exact due.trans later.clock

theorem ensureConnected_healthy (closed : w.Closed) (due : w.Due) (short : ctx.socketPath.length < sunPathSize)
    (healthy : w.Healthy (3 + k)) : ∃ w', ensureConnected ctx w = (true, w') ∧ w'.Healthy k ∧ w'.Due := by
  have to_clock := later_next w
  obtain ⟨j, w₁, reading, healthy₁⟩ := (healthy.mono (by omega) : w.Healthy (k + 2 + 1)).next
  rw [reading] at to_clock
  have to_socket := to_clock.trans (later_socket w₁)
  obtain ⟨fd, w₂, opening, healthy₂⟩ := healthy₁.next
  have unused : w₂.find fd = none := by
    simp [World.find, ((closed.next reading).1.next opening).1.sockets]
  have with_socket : World.Healthy { w₂ with sockets := { fd } :: w₂.sockets } (k + 1) := healthy₂.of_script rfl
  obtain ⟨j', w₃, accepting, healthy₃⟩ := with_socket.next
  have opened : w₁.socket = (some fd, { w₂ with sockets := { fd } :: w₂.sockets }) := by
    simp only [World.socket, opening, unused, Option.isSome_none, Bool.false_eq_true, if_false]
  rw [opened] at to_socket
  have to_connect := to_socket.trans (later_connect fd _)
  simp only [World.connect, accepting] at to_connect
  have expired : ¬ w₁.clock < w₁.nextConnectAttempt := not_lt.mpr (to_clock.due due)
  have fits : ¬ sunPathSize ≤ ctx.socketPath.length := not_le.mpr short
  have connected := to_connect.due due
  simp only [ensureConnected, closed.fd, Option.isSome_none, Bool.false_eq_true, if_false, World.now, reading,
    if_neg expired, tryConnect, opened, if_neg fits, World.connect, accepting]
  exact ⟨_, rfl, healthy₃.of_script rfl, connected⟩

/-- A refusal waits for 2 s at most. -/
theorem deadline_tryConnect {now : ℕ} (read : now ≤ w.clock)
    (bounded : w.nextConnectAttempt ≤ w.clock + connectCooldown) :
    (tryConnect ctx now w).2.nextConnectAttempt ≤ (tryConnect ctx now w).2.clock + connectCooldown := by
  have to_socket := later_socket w
  unfold tryConnect
  rcases opened : w.socket with ⟨_ | fd, w₁⟩
  · rw [opened] at to_socket
    exact Nat.add_le_add_right (read.trans to_socket.clock) _
  · rw [opened] at to_socket
    simp only
    split
    next => exact Nat.add_le_add_right (read.trans to_socket.clock) _
    next =>
      have to_connect := to_socket.trans (later_connect fd w₁)
      rcases connected : w₁.connect fd with ⟨_ | _, w₂⟩
      · rw [connected] at to_connect
        exact Nat.add_le_add_right (read.trans to_connect.clock) _
      · rw [connected] at to_connect
        show w₂.nextConnectAttempt ≤ w₂.clock + connectCooldown
        rw [to_connect.deadline]
        exact bounded.trans (Nat.add_le_add_right to_connect.clock _)

theorem Later.bounded (later : Later w w') (bounded : w.nextConnectAttempt ≤ w.clock + connectCooldown) :
    w'.nextConnectAttempt ≤ w'.clock + connectCooldown := by
  rw [later.deadline]
  exact bounded.trans (Nat.add_le_add_right later.clock _)

theorem deadline_perform (bounded : w.nextConnectAttempt ≤ w.clock + connectCooldown) (m : ClientMessage) :
    (perform ctx m w).2.nextConnectAttempt ≤ (perform ctx m w).2.clock + connectCooldown := by
  by_cases detach : m = .detach
  · subst detach
    exact (@exchanged_sendDetach ctx w).later.bounded bounded
  have connecting : (ensureConnected ctx w).2.nextConnectAttempt ≤
    (ensureConnected ctx w).2.clock + connectCooldown := by
    have reading := (later_next w).bounded bounded
    unfold ensureConnected
    split
    next => exact bounded
    next =>
      split
      next => exact reading
      next => exact deadline_tryConnect le_rfl reading
  rcases connected : ensureConnected ctx w with ⟨_ | _, w₁⟩
  · rw [connected] at connecting
    rwa [perform_not_connected connected detach]
  · rw [connected] at connecting
    exact (exchanged_perform connected detach).later.bounded connecting

theorem deadline_after (ctx : Context) (clock : ℕ) (script : List (ℕ × Outcome)) (calls : List ClientMessage) :
    (after ctx (World.start clock script) calls).nextConnectAttempt ≤
      (after ctx (World.start clock script) calls).clock + connectCooldown := by
  induction calls using List.reverseRecOn with
  | nil => exact Nat.zero_le _
  | append_singleton calls m ih =>
    rw [after_concat]
    exact deadline_perform ih m

/-! ## A worker that is alive -/

section

variable {A : Type} {d : Deployment A} {msgs : List ClientMessage}

/-- The worker has read and handled all of these messages on connection `n`. -/
structure Deployment.Alive (d : Deployment A) (n : ℕ) (msgs : List ClientMessage) : Prop where
  sizes : ∀ m ∈ msgs, sizeAllowed m = true
  handled : (d.server.effects n (d.wire msgs)).length = msgs.length

/-- The replies to these messages are texts of at most `size` bytes. -/
def Deployment.Bounded (d : Deployment A) (size n : ℕ) (msgs : List ClientMessage) : Prop :=
  ∀ effects ∈ d.server.effects n (d.wire msgs), ∀ r ∈ effects.replies,
    0 < (d.server.dumps r.json).length ∧ (d.server.dumps r.json).length ≤ size

/-- The replies to what has been sent so far, on any connection. -/
def Deployment.RepliesWithin (d : Deployment A) (size : ℕ) (w : World) : Prop :=
  ∀ n < w.accepted, d.Bounded size n (w.on n)

theorem replyStream_eq {dumps : Json → List UInt8} {rs : List Reply} (sent : ∀ r ∈ rs, (dumps r.json).length < 2 ^ 32) :
    replyStream dumps rs = rs.flatMap fun r => framed (dumps r.json) := by
  induction rs with
  | nil => rfl
  | cons r rs ih =>
    simp only [replyStream, sendMsg, if_pos (sent r List.mem_cons_self), List.flatMap_cons,
      ih fun r mem => sent r (List.mem_cons_of_mem _ mem)]

theorem Deployment.Bounded.output {size : ℕ} (bounded : d.Bounded size n msgs) (small : size ≤ maxFrameBytes) :
    d.server.output n (d.wire msgs) =
      ((d.server.effects n (d.wire msgs)).flatMap (·.replies)).flatMap fun r => framed (d.server.dumps r.json) := by
  apply replyStream_eq
  intro r mem
  obtain ⟨effects, is_effects, in_replies⟩ := List.mem_flatMap.mp mem
  exact ((bounded effects is_effects r in_replies).2.trans small).trans_lt (by decide)

/-- The worker reads messages of allowed sizes as they were written. -/
theorem messages_wire (consistent : ∀ m ∈ msgs, Consistent d.dump d.server.loads d.cameraUuid m)
    (attached : ∀ m ∈ msgs, m ≠ .detach) (sizes : ∀ m ∈ msgs, sizeAllowed m = true) :
    d.server.messages (d.wire msgs) = msgs.map (incoming d.cameraUuid) := by
  have read : d.server.messages (d.wire msgs) = _ := received_wire consistent attached
  rwa [List.takeWhile_eq_self_iff.mpr sizes] at read

theorem events_concat (d : Deployment A) (n : ℕ) (msgs : List ClientMessage) (m : ClientMessage) :
    d.server.events n ((msgs ++ [m]).map (incoming d.cameraUuid)) =
      d.server.events n (msgs.map (incoming d.cameraUuid)) ++
        [(incoming d.cameraUuid m, d.server.behaviour n msgs.length)] := by
  rw [List.map_append, List.map_singleton, Server.events_concat, List.length_map]

theorem length_run_le (env : Env A) (s : ServeState A) (events : List (Incoming × Behaviour A)) :
    (Worker.run env s events).2.length ≤ events.length := by
  induction events generalizing s with
  | nil => exact le_rfl
  | cons e events ih =>
    obtain ⟨m, b⟩ := e
    simp only [Worker.run]
    split
    next => exact Nat.zero_le _
    next s' effects handled => exact Nat.succ_le_succ (ih s')

theorem alive_nil (d : Deployment A) (n : ℕ) : d.Alive n [] := by
  refine ⟨fun m mem => absurd mem List.not_mem_nil, ?_⟩
  have read : d.server.messages (d.wire []) = [] :=
    @messages_wire A d [] (fun m mem => absurd mem List.not_mem_nil) (fun m mem => absurd mem List.not_mem_nil)
      fun m mem => absurd mem List.not_mem_nil
  rw [Server.effects, read]
  rfl

/-- A worker that is alive answers a frame of an allowed size, and stays alive. -/
theorem Deployment.Alive.frame (alive : d.Alive n msgs) {size : ℕ} (bounded : d.Bounded size n (msgs ++ [m]))
    (small : size ≤ maxFrameBytes)
    (consistent : ∀ m' ∈ msgs ++ [m], Consistent d.dump d.server.loads d.cameraUuid m')
    (attached : ∀ m' ∈ msgs ++ [m], m' ≠ .detach) (allowed : sizeAllowed m = true)
    (is_frame : (incoming d.cameraUuid m).frameId?.isSome) :
    ∃ r, Answers d.dump d.cameraUuid d.server n msgs m r ∧ d.Alive n (msgs ++ [m]) ∧
      0 < (d.server.dumps r.json).length ∧ (d.server.dumps r.json).length ≤ size ∧
      d.server.output n (d.wire (msgs ++ [m])) = d.server.output n (d.wire msgs) ++ framed (d.server.dumps r.json) := by
  have sizes : ∀ m' ∈ msgs ++ [m], sizeAllowed m' = true := by
    intro m' mem
    cases List.mem_append.mp mem with
    | inl old => exact alive.sizes m' old
    | inr new => exact List.mem_singleton.mp new ▸ allowed
  have before := messages_wire (fun m' mem => consistent m' (List.mem_append_left _ mem))
    (fun m' mem => attached m' (List.mem_append_left _ mem)) alive.sizes
  have after := messages_wire consistent attached sizes
  have length_events : (d.server.events n (msgs.map (incoming d.cameraUuid))).length = msgs.length := by
    simp [Server.events]
  have handled := alive.handled
  rw [Server.effects, before] at handled
  have all := handled.trans length_events.symm
  -- A frame is handled in any state.
  obtain ⟨id, is_id⟩ := Option.isSome_iff_exists.mp is_frame
  have total : ∀ s, ∃ s' effects, handle d.server.env (d.server.behaviour n msgs.length) s (incoming d.cameraUuid m) =
      some (s', effects) := by
    intro s
    cases is : incoming d.cameraUuid m with
    | garbled | message msg => simp [is, Incoming.frameId?] at is_id
    | frame msg hdr body => exact ⟨_, _, rfl⟩
  obtain ⟨s', effects, now⟩ := total (Worker.run d.server.env {}
    (d.server.events n (msgs.map (incoming d.cameraUuid)))).1
  obtain ⟨r, replies, has_id⟩ := (handle_replies now).2 id is_id
  have more : d.server.effects n (d.wire (msgs ++ [m])) = d.server.effects n (d.wire msgs) ++ [effects] := by
    rw [Server.effects, Server.effects, after, before, events_concat, run_append_of_all all]
    simp only [Worker.run, now]
  have len : (d.server.effects n (d.wire msgs)).length = msgs.length := alive.handled
  have at_end : (d.server.effects n (d.wire (msgs ++ [m])))[msgs.length]? = some effects := by
    rw [more, List.getElem?_append_right len.le, len, Nat.sub_self]
    rfl
  obtain ⟨positive, fits⟩ := bounded effects (List.mem_of_getElem? at_end) r (by simp [replies])
  have bounded_before : d.Bounded size n msgs := fun effects mem =>
    bounded effects (more ▸ List.mem_append_left _ mem)
  refine ⟨r, ⟨after, ⟨effects, replies, at_end⟩, is_id.trans (congrArg some has_id.symm)⟩, ⟨sizes, ?_⟩, positive,
    fits, ?_⟩
  · rw [more, List.length_append, len, List.length_append]
    rfl
  · rw [bounded.output small, bounded_before.output small, more, List.flatMap_append, List.flatMap_append]
    simp [replies]

/-- A worker that handles one more message has handled all before it. -/
theorem alive_of_handled (consistent : ∀ m' ∈ msgs ++ [m], Consistent d.dump d.server.loads d.cameraUuid m')
    (attached : ∀ m' ∈ msgs ++ [m], m' ≠ .detach)
    (read : d.server.messages (d.wire (msgs ++ [m])) = (msgs ++ [m]).map (incoming d.cameraUuid)) {effects : Effects}
    (handled : (d.server.effects n (d.wire (msgs ++ [m])))[msgs.length]? = some effects) : d.Alive n msgs := by
  have received : d.server.messages (d.wire (msgs ++ [m])) = _ := received_wire consistent attached
  have whole : (msgs ++ [m]).takeWhile sizeAllowed = msgs ++ [m] := by
    have lengths := congrArg List.length (received.symm.trans read)
    rw [List.length_map, List.length_map] at lengths
    exact (List.takeWhile_prefix _).eq_of_length lengths
  have sizes : ∀ m' ∈ msgs, sizeAllowed m' = true := fun m' mem =>
    List.takeWhile_eq_self_iff.mp whole m' (List.mem_append_left _ mem)
  have before := messages_wire (fun m' mem => consistent m' (List.mem_append_left _ mem))
    (fun m' mem => attached m' (List.mem_append_left _ mem)) sizes
  have length_events : (d.server.events n (msgs.map (incoming d.cameraUuid))).length = msgs.length := by
    simp [Server.events]
  refine ⟨sizes, ?_⟩
  rw [Server.effects, before]
  rw [Server.effects, read, events_concat] at handled
  obtain same | ⟨-, -, -, -, all, -⟩ := run_concat d.server.env {}
    (d.server.events n (msgs.map (incoming d.cameraUuid)))
    (incoming d.cameraUuid m) (d.server.behaviour n msgs.length)
  · -- The loop would have ended before, and there would be no such effects.
    rw [same] at handled
    have inside := (List.getElem?_eq_some_iff.mp handled).1
    have bounded := length_run_le d.server.env {} (d.server.events n (msgs.map (incoming d.cameraUuid)))
    omega
  · exact all.trans length_events

/-- A worker that has given up does not answer any more. -/
theorem output_of_dead (dead : ¬ d.Alive n msgs)
    (consistent : ∀ m' ∈ msgs ++ [m], Consistent d.dump d.server.loads d.cameraUuid m')
    (attached : ∀ m' ∈ msgs ++ [m], m' ≠ .detach) :
    d.server.output n (d.wire (msgs ++ [m])) = d.server.output n (d.wire msgs) := by
  obtain same | ⟨r, answers, -⟩ := d.server.output_concat n consistent attached
  · exact same
  · obtain ⟨effects, -, at_end⟩ := answers.replies
    exact absurd (alive_of_handled consistent attached answers.read at_end) dead

/-! ## A frame call -/

/-- The system calls that a frame call can make: the clock, `socket`, `connect`, and one
    for each byte that it sends or receives. -/
def Deployment.callsFor (d : Deployment A) (size : ℕ) (m : ClientMessage) : ℕ :=
  3 + (m.encode d.dump d.cameraUuid).length + (4 + size)

/-- A frame that the worker takes. -/
structure Deployment.Takes (d : Deployment A) (m : ClientMessage) : Prop where
  frame : ∃ frameId tsUs width height stride body, m = .frame frameId tsUs width height stride body
  well : d.WellFormed m
  fits : (m.text d.dump d.cameraUuid).length ≤ maxFrameBytes
  allowed : sizeAllowed m = true

theorem Deployment.Takes.not_detach (takes : d.Takes m) : m ≠ .detach := by
  obtain ⟨_, _, _, _, _, _, rfl⟩ := takes.frame
  nofun

theorem Deployment.Takes.has_id (takes : d.Takes m) : (incoming d.cameraUuid m).frameId?.isSome := by
  obtain ⟨_, _, _, _, _, _, rfl⟩ := takes.frame
  rfl

theorem World.Healthy.disconnect (healthy : w.Healthy k) : (disconnect w).Healthy k := by
  unfold Client.disconnect
  split
  next => exact healthy
  next => exact healthy.of_script rfl

theorem connect_healthy (settled : w.Settled) (due : w.Due) (short : ctx.socketPath.length < sunPathSize)
    (healthy : w.Healthy (3 + k)) : ∃ w' s n, Connects ctx w w' s n ∧ w'.Healthy k ∧ w'.Due := by
  obtain ⟨w', connected, healthy', due'⟩ : ∃ w', ensureConnected ctx w = (true, w') ∧ w'.Healthy k ∧ w'.Due := by
    cases settled with
    | inl closed => exact ensureConnected_healthy closed due short healthy
    | inr is_open =>
      obtain ⟨s, n, is_open⟩ := is_open
      exact ⟨w, by simp [ensureConnected, is_open.fd], healthy.mono (Nat.le_add_left _ _), due⟩
  obtain ⟨s, n, connects⟩ := connects_of_connected settled connected
  exact ⟨w', s, n, connects, healthy', due'⟩

/-- A frame call gets to the point where its frame has been written. -/
theorem frame_written (settled : w.Settled) (due : w.Due) (short : d.socketPath.length < sunPathSize)
    (takes : d.Takes m) (healthy : w.Healthy (3 + (m.encode d.dump d.cameraUuid).length + k)) :
    ∃ w₁ s n w₂, Connects d.context w w₁ s n ∧ w₂.Open (s.write (m.encode d.dump d.cameraUuid)) n ∧
      w₂.on n = w.on n ++ [m] ∧ w₂.accepted = w₁.accepted ∧ w₂.Due ∧ w₂.Healthy k ∧
      perform d.context m w = ((readFramed d.context w₂).1.bind d.parse, (readFramed d.context w₂).2) := by
  rw [Nat.add_assoc] at healthy
  obtain ⟨w₁, s, n, connects, healthy₁, due₁⟩ := @connect_healthy d.context w _ settled due short healthy
  obtain ⟨w₂, written, healthy₂⟩ := @writeFrame_healthy d.context w₁ s n k m connects.is_open takes.fits healthy₁
  obtain ⟨same, ⟨no, -⟩ | ⟨no, -⟩ | ⟨-, -, open₂⟩⟩ := writeFrame_cases connects.is_open written
  · cases no
  · cases no
  have to_written := (@exchanged_writeFrame d.context m w₁).later
  rw [written] at to_written
  refine ⟨w₁, s, n, { w₂ with log := w₂.log ++ [(n, m)] }, connects, ⟨open₂.fd, open₂.sockets, open₂.connection⟩, ?_,
    same.accepted, to_written.due due₁, healthy₂.of_script rfl, ?_⟩
  · rw [← on_congr connects.log n]
    exact Delivered.on ⟨same.accepted, by rw [same.log]⟩
  · obtain ⟨frameId, tsUs, width, height, stride, body, rfl⟩ := takes.frame
    simp only [perform, sendFrameAndRecv, connects.result, written, logged_open open₂]
    rcases readFramed d.context _ with ⟨_ | reply, w₃⟩
    · rfl
    · rfl

/-- All replies before have been read, so what is unread answers the message. -/
theorem Deployment.AtBoundary.unread_eq (boundary : d.AtBoundary w s n) (m : ClientMessage) :
    unread d.context n (s.write (m.encode d.dump d.cameraUuid)) =
      (d.server.output n (d.wire (w.on n ++ [m]))).drop (d.server.output n (d.wire (w.on n))).length := by
  rw [← boundary.written_concat m, ← boundary.written, ← boundary.consumed]
  rfl

/-- What holds between the calls once the client has recovered: any connection that is
    open leads to a worker that is alive. -/
structure Deployment.Recovered (d : Deployment A) (w : World) : Prop where
  tidy : d.Tidy w
  due : w.Due
  live : ∀ s n, w.Open s n → d.Alive n (w.on n)

theorem Deployment.Recovered.connects (recovered : d.Recovered w) (connects : Connects d.context w w' s n) :
    d.Alive n (w.on n) := by
  obtain ⟨is_open, -⟩ | ⟨-, accepts⟩ := connects.source
  · exact recovered.live s n is_open
  · obtain rfl := accepts.number
    rw [recovered.tidy.sound.on_fresh]
    exact alive_nil d _

/-- A client that has recovered gets the reply to its frame. -/
theorem Deployment.Recovered.frame (recovered : d.Recovered w) {size : ℕ}
    (within : d.RepliesWithin size (perform d.context m w).2)
    (small : size ≤ maxFrameBytes) (short : d.socketPath.length < sunPathSize) (takes : d.Takes m)
    (healthy : w.Healthy (d.callsFor size m + k)) :
    ∃ n earlier r w', perform d.context m w = (d.parse (d.server.dumps r.json), w') ∧
      Answers d.dump d.cameraUuid d.server n earlier m r ∧ d.Recovered w' ∧ w'.Healthy k := by
  rw [Deployment.callsFor, Nat.add_assoc] at healthy
  obtain ⟨w₁, s, n, w₂, connects, open₂, on, accepted, due, healthy₂, result⟩ :=
    frame_written recovered.tidy.sound.settled recovered.due short takes healthy
  have boundary := recovered.tidy.connects connects
  obtain ⟨consistent, attached⟩ := boundary.messages_concat takes.well takes.fits takes.not_detach
  -- The bound on the replies of the run covers the one to this frame.
  have books := (readFramed_cases open₂ (Prod.eta (readFramed d.context w₂)).symm).1
  have bounded : d.Bounded size n (w.on n ++ [m]) := by
    rw [result] at within
    have here := within n (by rw [books.accepted, accepted]; exact recovered.tidy.sound.connects connects)
    rwa [on_congr books.log, on] at here
  obtain ⟨r, answers, alive, positive, fits, more⟩ :=
    (recovered.connects connects).frame bounded small consistent attached takes.allowed takes.has_id
  have arrived : unread d.context n (s.write (m.encode d.dump d.cameraUuid)) = framed (d.server.dumps r.json) := by
    rw [boundary.unread_eq, more, List.drop_left]
  obtain ⟨w₃, read, healthy₃⟩ := @readFramed_healthy d.context w₂ _ n k _ open₂ arrived positive (fits.trans small)
    (healthy₂.mono (by rw [length_framed]; omega))
  obtain ⟨same, ⟨no, -⟩ | ⟨_, _, -, -, -, -, -, open₃⟩⟩ := readFramed_cases open₂ read
  · cases no
  have to_reply := (@exchanged_readFramed d.context w₂).later
  rw [read] at result to_reply
  refine ⟨n, w.on n, r, w₃, result, answers, ⟨?_, to_reply.due due, fun s' n' is_open => ?_⟩, healthy₃⟩
  · exact (tidy_perform recovered.tidy takes.well result).1
  · obtain ⟨-, rfl⟩ := open₃.unique is_open
    rw [on_congr same.log, on]
    exact alive

/-- On a connection that the worker has given up, a frame call closes the descriptor. -/
theorem frame_lost (tidy : d.Tidy w) (due : w.Due) (is_open : w.Open s n) (dead : ¬ d.Alive n (w.on n))
    (short : d.socketPath.length < sunPathSize) (takes : d.Takes m)
    (healthy : w.Healthy (3 + (m.encode d.dump d.cameraUuid).length + (1 + k))) :
    ∃ w', perform d.context m w = (none, w') ∧ w'.Closed ∧ d.Recovered w' ∧ w'.Healthy k := by
  obtain ⟨w₁, s', n', w₂, connects, open₂, -, -, due₂, healthy₂, result⟩ :=
    frame_written tidy.sound.settled due short takes healthy
  obtain ⟨rfl, rfl⟩ := is_open.unique (connects.was_open fun closed => absurd (closed.symm.trans is_open.fd) nofun)
  have boundary := tidy.boundary s' n' is_open
  obtain ⟨consistent, attached⟩ := boundary.messages_concat takes.well takes.fits takes.not_detach
  have nothing : unread d.context n' (s'.write (m.encode d.dump d.cameraUuid)) = [] := by
    rw [boundary.unread_eq, output_of_dead dead consistent attached, List.drop_length]
  obtain ⟨bytes, w₃, received, healthy₃, -⟩ :=
    @recv_healthy d.context w₂ _ n' k open₂ 4 (by decide) (healthy₂.mono (by omega))
  obtain ⟨-, -, unread_bytes, open₃⟩ := recv_cases open₂ received
  obtain rfl : bytes = [] := List.prefix_nil.mp (nothing ▸ unread_bytes)
  have read : readFramed d.context w₂ = (none, disconnect w₃) := by
    simp [readFramed, open₂.fd, readLoop, received]
  obtain ⟨closed, -⟩ := disconnect_open open₃
  have to_end := (@exchanged_readFramed d.context w₂).later
  rw [read] at result to_end
  refine ⟨disconnect w₃, result, closed, ⟨?_, to_end.due due₂, fun _ _ is_open => absurd is_open closed.not_open⟩,
    healthy₃.disconnect⟩
  exact (tidy_perform tidy takes.well result).1

/-! ## Runs -/

/-- The call returns the reply of the worker to this message. -/
def Deployment.Answered (d : Deployment A) (m : ClientMessage) (w : World) : Prop :=
  ∃ n earlier r, Answers d.dump d.cameraUuid d.server n earlier m r ∧
    (perform d.context m w).1 = d.parse (d.server.dumps r.json)

theorem after_cons (ctx : Context) (w : World) (m : ClientMessage) (calls : List ClientMessage) :
    after ctx w (m :: calls) = after ctx (perform ctx m w).2 calls := rfl

theorem Deployment.Recovered.frames (recovered : d.Recovered w) {size : ℕ}
    (small : size ≤ maxFrameBytes) (short : d.socketPath.length < sunPathSize) {ms : List ClientMessage}
    (within : ∀ i ≤ ms.length, d.RepliesWithin size (after d.context w (ms.take i))) (takes : ∀ m ∈ ms, d.Takes m)
    (healthy : w.Healthy (ms.map (d.callsFor size)).sum) {i : ℕ} (here : ms[i]? = some m) :
    d.Answered m (after d.context w (ms.take i)) := by
  induction ms generalizing w i with
  | nil => simp at here
  | cons m' ms ih =>
    rw [List.map_cons, List.sum_cons] at healthy
    obtain ⟨n, earlier, r, w₁, result, answers, recovered₁, healthy₁⟩ :=
      recovered.frame (within 1 (Nat.succ_le_succ (Nat.zero_le _))) small short (takes m' List.mem_cons_self) healthy
    cases i with
    | zero =>
      obtain rfl : m' = m := by simpa using here
      exact ⟨n, earlier, r, answers, congrArg Prod.fst result⟩
    | succ i =>
      have within₁ : ∀ i ≤ ms.length, d.RepliesWithin size (after d.context w₁ (ms.take i)) := by
        intro i inside
        have here := within (i + 1) (Nat.succ_le_succ inside)
        rwa [List.take_succ_cons, after_cons, result] at here
      have later := ih recovered₁ within₁ (fun m mem => takes m (List.mem_cons_of_mem _ mem)) healthy₁ here
      rwa [List.take_succ_cons, after_cons, result]

/-- Time passes while no call is running, and other system calls are to come. -/
def World.pause (w : World) (elapsed : ℕ) (script : List (ℕ × Outcome)) : World :=
  { w with clock := w.clock + elapsed, script }

theorem World.Open.of_pause {elapsed : ℕ} {script : List (ℕ × Outcome)} (is_open : (w.pause elapsed script).Open s n) :
    w.Open s n :=
  ⟨is_open.fd, is_open.sockets, is_open.connection⟩

theorem Deployment.Tidy.pause (tidy : d.Tidy w) (elapsed : ℕ) (script : List (ℕ × Outcome)) :
    d.Tidy (w.pause elapsed script) where
  sound := {
    settled := tidy.sound.settled.imp (fun closed => ⟨closed.fd, closed.sockets⟩) fun ⟨s, n, is_open⟩ =>
      ⟨s, n, is_open.fd, is_open.sockets, is_open.connection⟩
    number := fun s n is_open => tidy.sound.number s n is_open.of_pause
    numbers := tidy.sound.numbers }
  boundary s n is_open :=
    have boundary := tidy.boundary s n is_open.of_pause
    ⟨boundary.written, boundary.consumed, boundary.messages⟩

/-- Whatever the calls so far have run into, once 2 s have passed and system calls
    succeed again, every frame call returns the reply to its frame, but for the first of
    them if the worker has given up the connection that it finds: that one returns nothing
    and leaves no connection behind. -/
theorem client_recovers (d : Deployment A) (short : d.socketPath.length < sunPathSize) {size : ℕ}
    (small : size ≤ maxFrameBytes) (clock : ℕ) (script : List (ℕ × Outcome))
    (calls : List ClientMessage) (well : ∀ m ∈ calls, d.WellFormed m) {elapsed : ℕ} (cooled : connectCooldown ≤ elapsed)
    (healthy : List (ℕ × Outcome)) (succeed : ∀ e ∈ healthy, ∃ k, e.2 = .done k) (ms : List ClientMessage)
    (takes : ∀ m ∈ ms, d.Takes m) (enough : (ms.map (d.callsFor size)).sum ≤ healthy.length) :
    let w := after d.context (World.start clock script) calls
    (∀ i ≤ ms.length, d.RepliesWithin size (after d.context (w.pause elapsed healthy) (ms.take i))) →
    ∀ (i : ℕ) (m : ClientMessage), ms[i]? = some m →
      d.Answered m (after d.context (w.pause elapsed healthy) (ms.take i)) ∨
        i = 0 ∧ (∃ s n, w.Open s n ∧ ¬ d.Alive n (w.on n)) ∧
          (perform d.context m (w.pause elapsed healthy)).1 = none ∧
          (perform d.context m (w.pause elapsed healthy)).2.Closed := by
  intro w within i m here
  have tidy : d.Tidy w := tidy_after (tidy_start clock script) well
  have due : (w.pause elapsed healthy).Due :=
    (deadline_after d.context clock script calls).trans (Nat.add_le_add_left cooled _)
  have sound_calls : (w.pause elapsed healthy).Healthy (ms.map (d.callsFor size)).sum := ⟨enough, succeed⟩
  by_cases live : ∀ s n, w.Open s n → d.Alive n (w.on n)
  · have recovered : d.Recovered (w.pause elapsed healthy) :=
      ⟨tidy.pause elapsed healthy, due, fun s n is_open => live s n is_open.of_pause⟩
    exact .inl (recovered.frames small short within takes sound_calls here)
  · obtain ⟨s, n, is_open, dead⟩ : ∃ s n, w.Open s n ∧ ¬ d.Alive n (w.on n) := by
      simpa only [not_forall, exists_prop] using live
    have still_open : (w.pause elapsed healthy).Open s n := ⟨is_open.fd, is_open.sockets, is_open.connection⟩
    cases ms with
    | nil => simp at here
    | cons first ms =>
      have takes_first := takes first List.mem_cons_self
      rw [List.map_cons, List.sum_cons] at sound_calls
      have sound_first : (w.pause elapsed healthy).Healthy
          (3 + (first.encode d.dump d.cameraUuid).length + (1 + (ms.map (d.callsFor size)).sum)) :=
        sound_calls.mono (by rw [Deployment.callsFor]; omega)
      obtain ⟨w₁, result, closed, recovered, healthy₁⟩ :=
        frame_lost (tidy.pause elapsed healthy) due still_open dead short takes_first sound_first
      cases i with
      | zero =>
        obtain rfl : first = m := by simpa using here
        exact .inr ⟨rfl, ⟨s, n, is_open, dead⟩, congrArg Prod.fst result, congrArg Prod.snd result ▸ closed⟩
      | succ i =>
        left
        have within₁ : ∀ i ≤ ms.length, d.RepliesWithin size (after d.context w₁ (ms.take i)) := by
          intro i inside
          have here := within (i + 1) (Nat.succ_le_succ inside)
          rwa [List.take_succ_cons, after_cons, result] at here
        have later := recovered.frames small short within₁
          (fun m mem => takes m (List.mem_cons_of_mem _ mem)) healthy₁ here
        rwa [List.take_succ_cons, after_cons, result]

/-! ## An example -/

theorem smallDeployment_takes : smallDeployment.Takes (.frame 7 0 2 1 6 [10, 20, 30, 40, 50, 60]) := by
  have in_session : ClientMessage.frame 7 0 2 1 6 [10, 20, 30, 40, 50, 60] ∈ session :=
    List.mem_cons_of_mem _ List.mem_cons_self
  exact ⟨⟨7, 0, 2, 1, 6, [10, 20, 30, 40, 50, 60], rfl⟩, smallDeployment_wellFormed in_session,
    (session_readable _ in_session).sized.text_le, by decide⟩

/-- The first send of a frame breaks off. -/
def brokenWorld : World :=
  after smallDeployment.context (World.start 0 [(0, .fail), (1, .done 3), (1, .done 0), (1, .done 2)])
    [.frame 7 0 2 1 6 [10, 20, 30, 40, 50, 60]]

/-- After a pause, system calls succeed. -/
def healedWorld : World := brokenWorld.pause connectCooldown (List.replicate 2000 (1, .done 50))

/-- A frame that breaks off, a pause, and two frames, the second of which is answered. -/
theorem client_recovers_two_frames :
    smallDeployment.Answered (.frame 7 0 2 1 6 [10, 20, 30, 40, 50, 60])
      (after smallDeployment.context healedWorld [.frame 7 0 2 1 6 [10, 20, 30, 40, 50, 60]]) := by
  have takes : ∀ m ∈ List.replicate 2 (ClientMessage.frame 7 0 2 1 6 [10, 20, 30, 40, 50, 60]),
      smallDeployment.Takes m := by
    intro m mem
    obtain rfl := List.eq_of_mem_replicate mem
    exact smallDeployment_takes
  have well : ∀ m ∈ [ClientMessage.frame 7 0 2 1 6 [10, 20, 30, 40, 50, 60]], smallDeployment.WellFormed m := by
    intro m mem
    obtain rfl := List.mem_singleton.mp mem
    exact smallDeployment_takes.well
  have succeed : ∀ e ∈ List.replicate 2000 (1, Outcome.done 50), ∃ k, e.2 = .done k := by
    intro e mem
    obtain rfl := List.eq_of_mem_replicate mem
    exact ⟨50, rfl⟩
  have within : ∀ i ≤ 2, smallDeployment.RepliesWithin 300 (after smallDeployment.context healedWorld
      ((List.replicate 2 (.frame 7 0 2 1 6 [10, 20, 30, 40, 50, 60])).take i)) := by
    unfold Deployment.RepliesWithin Deployment.Bounded
    decide +kernel
  obtain answered | ⟨no, -⟩ := @client_recovers Unit smallDeployment (by decide) 300 (by decide)
    0 [(0, .fail), (1, .done 3), (1, .done 0), (1, .done 2)]
    [.frame 7 0 2 1 6 [10, 20, 30, 40, 50, 60]] well connectCooldown le_rfl (List.replicate 2000 (1, .done 50)) succeed
    (List.replicate 2 (.frame 7 0 2 1 6 [10, 20, 30, 40, 50, 60])) takes (by decide +kernel) within 1 _ rfl
  · exact answered
  · cases no

end

end VisionNx.Client
