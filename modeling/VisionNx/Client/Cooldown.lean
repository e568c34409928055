import VisionNx.Client.Pairing
import VisionNx.Library.TimedHistories

/-! # The cooldown of the IPC client

The failure policy of the class is that any I/O error closes the descriptor and that the
client waits before it connects again.  The deadline is set by the exits of
`ensureConnected` only; a send or a receive that fails closes the descriptor and leaves
the deadline in the past.  So the policy is kept just in the runs whose calls come late
enough after such a failure by themselves. -/

namespace VisionNx.Client

open TimedHistories

/-! ## What happens in a call -/

inductive Event where
  /-- `connect` is called. -/
  | attempt
  /-- `socket` or `connect` has failed, in a call that read the clock at `since`. -/
  | refused (since : ℕ)
  /-- `send` or `recv` has failed, or the other end has closed. -/
  | dropped
  deriving DecidableEq

def Event.isAttempt : Event → Bool
  | .attempt => true
  | _ => false

def Event.isError : Event → Bool
  | .attempt => false
  | _ => true

/-- The events of `tryConnect`: a call happens when the one before it has returned, and
    an error when the call that fails returns. -/
def tryConnectEvents (ctx : Context) (now : ℕ) (w : World) : List (ℕ × Event) :=
  match w.socket with
  | (none, w) => [(w.clock, .refused now)]
  | (some fd, w) =>
    if sunPathSize ≤ ctx.socketPath.length then []
    else
      match w.connect fd with
      | (false, w') => [(w.clock, .attempt), (w'.clock, .refused now)]
      | (true, _) => [(w.clock, .attempt)]

def ensureConnectedEvents (ctx : Context) (w : World) : List (ℕ × Event) :=
  if w.fd.isSome then []
  else if w.now.1 < w.now.2.nextConnectAttempt then []
  else tryConnectEvents ctx w.now.1 w.now.2

/-- `writeRaw` fails on an open descriptor when a send has failed. -/
def writeRawEvents (buf : List UInt8) (w : World) : List (ℕ × Event) :=
  if w.fd.isNone then []
  else
    match writeRaw buf w with
    | (false, w) => [(w.clock, .dropped)]
    | (true, _) => []

def writeFramedEvents (utf8 : List UInt8) (w : World) : List (ℕ × Event) :=
  if w.fd.isNone ∨ maxFrameBytes < utf8.length then []
  else
    writeRawEvents (be32 utf8.length) w ++
      match writeRaw (be32 utf8.length) w with
      | (false, _) => []
      | (true, w) => if utf8.isEmpty then [] else writeRawEvents utf8 w

def writeFrameEvents (ctx : Context) (m : ClientMessage) (w : World) : List (ℕ × Event) :=
  writeFramedEvents (m.text ctx.dump ctx.cameraUuid) w ++
    match writeFramed (m.text ctx.dump ctx.cameraUuid) w with
    | (false, _) => []
    | (true, w) => if m.body.isEmpty then [] else writeRawEvents m.body w

/-- The loops of `readFramed` fail when a receive has. -/
def readLoopEvents (ctx : Context) (fd n : ℕ) (w : World) : List (ℕ × Event) :=
  match readLoop ctx n fd n [] w with
  | (none, w) => [(w.clock, .dropped)]
  | (some _, _) => []

def readFramedEvents (ctx : Context) (w : World) : List (ℕ × Event) :=
  match w.fd with
  | none => []
  | some fd =>
    readLoopEvents ctx fd 4 w ++
      match readLoop ctx 4 fd 4 [] w with
      | (none, _) => []
      | (some hdr, w) =>
        let length := beValue hdr
        -- A length out of range closes the descriptor, but no call has failed.
        if length = 0 ∨ maxFrameBytes < length then [] else readLoopEvents ctx fd length w

/-- What a call does once it is connected. -/
def exchangeEvents (ctx : Context) (m : ClientMessage) (w : World) : List (ℕ × Event) :=
  match m with
  | .frame .. =>
    writeFrameEvents ctx m w ++
      match logged m (writeFrame ctx m w) with
      | (false, _) => []
      | (true, w) => readFramedEvents ctx w
  | _ => writeFramedEvents (m.text ctx.dump ctx.cameraUuid) w

/-- The events of a public call. -/
def performEvents (ctx : Context) (m : ClientMessage) (w : World) : List (ℕ × Event) :=
  match m with
  | .detach => if w.fd.isSome then exchangeEvents ctx .detach w else []
  | m =>
    ensureConnectedEvents ctx w ++
      match ensureConnected ctx w with
      | (false, _) => []
      | (true, w) => exchangeEvents ctx m w

def history (ctx : Context) : World → List ClientMessage → List (ℕ × Event)
  | _, [] => []
  | w, m :: calls => performEvents ctx m w ++ history ctx (perform ctx m w).2 calls

/-- The failure policy: no attempt to connect in the 2 s behind an error. -/
def CooldownKept (h : List (ℕ × Event)) : Prop := KeepsCooldown connectCooldown Event.isError Event.isAttempt h

/-- Where a call without a connection gets a descriptor, 2 s have passed since the last
    error, or that was a refusal whose own cooldown is still running. -/
def Rested (ctx : Context) (h : List (ℕ × Event)) (m : ClientMessage) (w : World) : Prop :=
  m ≠ .detach → w.fd = none → ctx.socketPath.length < sunPathSize →
    ∀ fd w', w.now.2.socket = (some fd, w') →
      ∀ last ∈ mostRecent Event.isError h,
        last.1 + connectCooldown ≤ w'.clock ∨
          ∃ since, last.2 = .refused since ∧ w.now.1 < since + connectCooldown

/-! ## Time passes -/

/-- What every system call keeps to, and every function of the client but for a
    connection that succeeds. -/
structure Later (w w' : World) : Prop where
  clock : w.clock ≤ w'.clock
  deadline : w'.nextConnectAttempt = w.nextConnectAttempt
  fd : w'.fd.isSome → w.fd.isSome

theorem Later.refl (w : World) : Later w w := ⟨le_rfl, rfl, id⟩

theorem Later.trans {w w' w'' : World} (first : Later w w') (second : Later w' w'') : Later w w'' :=
  ⟨first.clock.trans second.clock, second.deadline.trans first.deadline, fun opened => first.fd (second.fd opened)⟩

theorem Later.closed {w w' : World} (later : Later w w') (no_fd : w.fd = none) : w'.fd = none := by
  have opened := later.fd
  rw [no_fd] at opened
  simpa using opened

section

variable {ctx : Context} {w w' : World} {h : List (ℕ × Event)} {m : ClientMessage}

theorem later_next (w : World) : Later w w.next.2 := by
  unfold World.next
  split
  next => exact .refl w
  next => exact ⟨Nat.le_add_right _ _, rfl, id⟩

theorem later_of_next {outcome : Outcome} (result : w.next = (outcome, w')) : Later w w' := by
  have later := later_next w
  rwa [result] at later

theorem later_modify (fd : ℕ) (f : Socket → Socket) (w : World) : Later w (w.modify fd f) := ⟨le_rfl, rfl, id⟩

theorem later_close (fd : ℕ) (w : World) : Later w (w.close fd) := ⟨le_rfl, rfl, id⟩

theorem later_socket (w : World) : Later w w.socket.2 := by
  unfold World.socket
  split
  next fd w₁ result =>
    have later := later_of_next result
    split
    next => exact later
    next => exact ⟨later.clock, later.deadline, later.fd⟩
  next w₁ result => exact later_of_next result

theorem later_connect (fd : ℕ) (w : World) : Later w (w.connect fd).2 := by
  unfold World.connect
  split
  next k w₁ result =>
    have later := later_of_next result
    exact ⟨later.clock, later.deadline, later.fd⟩
  next w₁ result => exact later_of_next result

theorem later_send (fd : ℕ) (buf : List UInt8) (w : World) : Later w (w.send fd buf).2 := by
  unfold World.send
  split
  next k w₁ result => exact (later_of_next result).trans (later_modify _ _ _)
  next w₁ result => exact later_of_next result

theorem later_recv (fd n : ℕ) (w : World) : Later w (w.recv ctx fd n).2 := by
  unfold World.recv
  split
  next w₁ result => exact later_of_next result
  next k w₁ result =>
    split
    next => exact (later_of_next result).trans (later_modify _ _ _)
    next => exact later_of_next result

theorem later_disconnect (w : World) : Later w (disconnect w) := by
  unfold disconnect
  split
  next => exact .refl w
  next => exact ⟨le_rfl, rfl, nofun⟩

theorem later_writeLoop (fuel fd : ℕ) (buf : List UInt8) (w : World) : Later w (writeLoop fuel fd buf w).2 := by
  induction fuel generalizing buf w with
  | zero => exact .refl w
  | succ fuel ih =>
    have later := later_send fd buf w
    unfold writeLoop
    split
    next => exact .refl w
    next =>
      split
      next w₁ sent =>
        rw [sent] at later
        exact later.trans (later_disconnect _)
      next k w₁ sent =>
        rw [sent] at later
        exact later.trans (ih _ _)

theorem later_readLoop (fuel fd n : ℕ) (got : List UInt8) (w : World) :
    Later w (readLoop ctx fuel fd n got w).2 := by
  induction fuel generalizing n got w with
  | zero => exact .refl w
  | succ fuel ih =>
    have later := @later_recv ctx fd n w
    unfold readLoop
    split
    next => exact .refl w
    next =>
      split
      next w₁ received =>
        rw [received] at later
        exact later.trans (later_disconnect _)
      next bytes w₁ _ received =>
        rw [received] at later
        exact later.trans (ih _ _ _)

/-! ## An exchange on an open connection -/

/-- Time passes, and nothing happens but that a send or a receive fails. -/
structure Exchanged (w w' : World) (events : List (ℕ × Event)) : Prop where
  later : Later w w'
  drops : ∀ e ∈ events, e.2 = .dropped ∧ w.clock ≤ e.1 ∧ e.1 ≤ w'.clock

theorem Later.silent (later : Later w w') : Exchanged w w' [] :=
  ⟨later, fun _ mem => absurd mem List.not_mem_nil⟩

theorem Later.dropped (later : Later w w') : Exchanged w w' [(w'.clock, .dropped)] := by
  refine ⟨later, fun e mem => ?_⟩
  obtain rfl := List.mem_singleton.mp mem
  exact ⟨rfl, later.clock, le_rfl⟩

theorem Exchanged.append {w'' : World} {h' : List (ℕ × Event)} (first : Exchanged w w' h)
    (second : Exchanged w' w'' h') : Exchanged w w'' (h ++ h') := by
  refine ⟨first.later.trans second.later, fun e mem => ?_⟩
  cases List.mem_append.mp mem with
  | inl early =>
    obtain ⟨drop, after_start, before_end⟩ := first.drops e early
    exact ⟨drop, after_start, before_end.trans second.later.clock⟩
  | inr late =>
    obtain ⟨drop, after_start, before_end⟩ := second.drops e late
    exact ⟨drop, first.later.clock.trans after_start, before_end⟩

theorem Exchanged.silent {w'' : World} (first : Exchanged w w' h) (later : Later w' w'') : Exchanged w w'' h := by
  have both := first.append later.silent
  rwa [List.append_nil] at both

theorem exchanged_writeRaw (buf : List UInt8) (w : World) :
    Exchanged w (writeRaw buf w).2 (writeRawEvents buf w) := by
  unfold writeRawEvents
  rcases no_fd : w.fd with _ | fd
  · simp only [writeRaw, no_fd, Option.isNone_none, if_true]
    exact (Later.refl w).silent
  · have later : Later w (writeRaw buf w).2 := by
      simp only [writeRaw, no_fd]
      exact later_writeLoop _ _ _ _
    simp only [Option.isNone_some, Bool.false_eq_true, if_false]
    split
    next w₁ failed =>
      rw [failed] at later ⊢
      exact later.dropped
    next w₁ sent => exact later.silent

theorem exchanged_writeFramed (utf8 : List UInt8) (w : World) :
    Exchanged w (writeFramed utf8 w).2 (writeFramedEvents utf8 w) := by
  unfold writeFramed writeFramedEvents
  split
  next => exact (Later.refl w).silent
  next =>
    have first := exchanged_writeRaw (be32 utf8.length) w
    rcases sent : writeRaw (be32 utf8.length) w with ⟨_ | _, w₁⟩
    · rw [sent] at first
      exact first.append (Later.refl w₁).silent
    · rw [sent] at first
      simp only
      split
      next => exact first.append (Later.refl w₁).silent
      next => exact first.append (exchanged_writeRaw utf8 w₁)

theorem exchanged_writeFrame (m : ClientMessage) (w : World) :
    Exchanged w (writeFrame ctx m w).2 (writeFrameEvents ctx m w) := by
  have header := exchanged_writeFramed (m.text ctx.dump ctx.cameraUuid) w
  unfold writeFrame writeFrameEvents
  rcases sent : writeFramed (m.text ctx.dump ctx.cameraUuid) w with ⟨_ | _, w₁⟩
  · rw [sent] at header
    exact header.append (Later.refl w₁).silent
  · rw [sent] at header
    simp only
    split
    next => exact header.append (Later.refl w₁).silent
    next => exact header.append (exchanged_writeRaw m.body w₁)

theorem exchanged_readLoop (fd n : ℕ) (w : World) :
    Exchanged w (readLoop ctx n fd n [] w).2 (readLoopEvents ctx fd n w) := by
  have later := @later_readLoop ctx n fd n [] w
  unfold readLoopEvents
  rcases received : readLoop ctx n fd n [] w with ⟨_ | _, w₁⟩
  · rw [received] at later
    exact later.dropped
  · rw [received] at later
    exact later.silent

theorem exchanged_readFramed (w : World) : Exchanged w (readFramed ctx w).2 (readFramedEvents ctx w) := by
  unfold readFramed readFramedEvents
  rcases w.fd with _ | fd
  · exact (Later.refl w).silent
  · have header := @exchanged_readLoop ctx fd 4 w
    rcases received : readLoop ctx 4 fd 4 [] w with ⟨_ | hdr, w₁⟩
    · rw [received] at header
      simp only [received]
      exact header.append (Later.refl w₁).silent
    · rw [received] at header
      simp only [received]
      split
      next => exact header.append (later_disconnect w₁).silent
      next => exact header.append (exchanged_readLoop fd (beValue hdr) w₁)

theorem later_logged (m : ClientMessage) (r : Bool × World) : Later r.2 (logged m r).2 := by
  unfold logged
  split
  next => exact .refl _
  next =>
    split
    next => exact ⟨le_rfl, rfl, id⟩
    next => exact .refl _

/-- Behind `ensureConnected` a call only exchanges bytes. -/
theorem exchanged_perform (connected : ensureConnected ctx w = (true, w')) (not_detach : m ≠ .detach) :
    Exchanged w' (perform ctx m w).2 (exchangeEvents ctx m w') := by
  cases m with
  | attach | config extra =>
    simp only [perform, sendAttach, sendConfig, sendJsonNoReply, connected, exchangeEvents]
    exact (exchanged_writeFramed _ w').silent (later_logged _ _)
  | detach => exact absurd rfl not_detach
  | frame frameId tsUs width height stride body =>
    simp only [perform, sendFrameAndRecv, connected, exchangeEvents]
    generalize ClientMessage.frame frameId tsUs width height stride body = m
    have written := (@exchanged_writeFrame ctx m w').silent (later_logged m _)
    rcases sent : logged m (writeFrame ctx m w') with ⟨_ | _, w₁⟩
    · rw [sent] at written
      exact written.append (Later.refl w₁).silent
    · rw [sent] at written
      have read := @exchanged_readFramed ctx w₁
      simp only
      rcases received : readFramed ctx w₁ with ⟨_ | reply, w₂⟩
      · rw [received] at read
        exact written.append read
      · rw [received] at read
        exact written.append read

theorem exchanged_sendDetach (w : World) :
    Exchanged w (sendDetach ctx w) (if w.fd.isSome then exchangeEvents ctx .detach w else []) := by
  unfold sendDetach
  split
  next =>
    exact ((exchanged_writeFramed _ w).silent (later_logged _ _)).silent (later_disconnect _)
  next => exact (later_disconnect w).silent

/-! ## The deadline and the last error -/

/-- What the deadline says of the last error: it has been set by a refusal, and has
    expired at a drop, since there was a connection. -/
structure Armed (ctx : Context) (h : List (ℕ × Event)) (w : World) : Prop where
  open_past : w.fd.isSome → w.nextConnectAttempt ≤ w.clock
  refused : ctx.socketPath.length < sunPathSize → ∀ t since,
    mostRecent Event.isError h = some (t, .refused since) → w.nextConnectAttempt = since + connectCooldown
  dropped : ctx.socketPath.length < sunPathSize → ∀ t,
    mostRecent Event.isError h = some (t, .dropped) → w.nextConnectAttempt ≤ t ∧ t ≤ w.clock

theorem armed_start (clock : ℕ) (script : List (ℕ × Outcome)) : Armed ctx [] (World.start clock script) :=
  ⟨nofun, nofun, nofun⟩

theorem Armed.later (armed : Armed ctx h w) (later : Later w w') : Armed ctx h w' where
  open_past opened := by
    rw [later.deadline]
    exact (armed.open_past (later.fd opened)).trans later.clock
  refused fits t since last := by
    rw [later.deadline]
    exact armed.refused fits t since last
  dropped fits t last := by
    rw [later.deadline]
    obtain ⟨expired, past⟩ := armed.dropped fits t last
    exact ⟨expired, past.trans later.clock⟩

theorem Armed.exchanged (armed : Armed ctx h w) {events : List (ℕ × Event)}
    (expired : w.nextConnectAttempt ≤ w.clock) (exchanged : Exchanged w w' events) : Armed ctx (h ++ events) w' where
  open_past := (armed.later exchanged.later).open_past
  refused fits t since last := by
    cases mostRecent_append_cases last with
    | inl new => exact absurd (exchanged.drops _ new).1 nofun
    | inr old => exact (armed.later exchanged.later).refused fits t since old
  dropped fits t last := by
    cases mostRecent_append_cases last with
    | inl new =>
      obtain ⟨-, after_start, before_end⟩ := exchanged.drops _ new
      rw [exchanged.later.deadline]
      exact ⟨expired.trans after_start, before_end⟩
    | inr old => exact (armed.later exchanged.later).dropped fits t old

/-- A refusal sets the deadline. -/
theorem armed_refused (no_fd : w.fd = none) (t now : ℕ) :
    Armed ctx (h ++ [(t, .refused now)]) { w with nextConnectAttempt := now + connectCooldown } where
  open_past opened := by simp [no_fd] at opened
  refused _ t' since last := by
    rw [mostRecent_concat rfl] at last
    cases last
    rfl
  dropped _ t' last := by
    rw [mostRecent_concat rfl] at last
    cases last

theorem kept_append_of_no_attempt {events : List (ℕ × Event)} (none : ∀ e ∈ events, e.2 ≠ .attempt) :
    CooldownKept (h ++ events) ↔ CooldownKept h := by
  apply keepsCooldown_append_of_not
  intro e mem
  have other := none e mem
  rcases e with ⟨t, _ | since | _⟩
  · exact absurd rfl other
  · rfl
  · rfl

theorem Exchanged.kept_iff {events : List (ℕ × Event)} (exchanged : Exchanged w w' events) :
    CooldownKept (h ++ events) ↔ CooldownKept h := by
  apply kept_append_of_no_attempt
  intro e mem
  rw [(exchanged.drops e mem).1]
  nofun

/-! ## Connecting -/

/-- While the client waits for its deadline, the last error was a refusal. -/
theorem Armed.rested_of_waiting (armed : Armed ctx h w) (waiting : w.now.1 < w.nextConnectAttempt) :
    Rested ctx h m w := by
  intro _ _ fits fd w' _ last found
  have reading : w.clock ≤ w.now.1 := (later_next w).clock
  obtain ⟨t, _ | since | _⟩ := last
  · cases mostRecent_kind found
  · refine .inr ⟨since, rfl, ?_⟩
    rwa [← armed.refused fits t since found]
  · obtain ⟨expired, past⟩ := armed.dropped fits t found
    omega

/-- Once the deadline has expired it does not delay an attempt any more. -/
theorem Armed.rested_iff (armed : Armed ctx h w) (expired : w.nextConnectAttempt ≤ w.now.1)
    (not_detach : m ≠ .detach) (no_fd : w.fd = none) (fits : ctx.socketPath.length < sunPathSize) {fd : ℕ}
    (opened : w.now.2.socket = (some fd, w')) :
    Rested ctx h m w ↔ ∀ last ∈ mostRecent Event.isError h, last.1 + connectCooldown ≤ w'.clock := by
  constructor
  · intro rested last found
    obtain late | ⟨since, refused, waiting⟩ := rested not_detach no_fd fits fd w' opened last found
    · exact late
    · obtain ⟨t, event⟩ := last
      obtain rfl : event = .refused since := refused
      rw [← armed.refused fits t since found] at waiting
      omega
  · intro late _ _ _ fd' w'' opened' last found
    rw [opened] at opened'
    cases opened'
    exact .inl (late last found)

theorem Armed.attempt (armed : Armed ctx h w) (t : ℕ) : Armed ctx (h ++ [(t, .attempt)]) w := by
  have same : mostRecent Event.isError (h ++ [(t, Event.attempt)]) = mostRecent Event.isError h := by
    apply mostRecent_append_of_not
    simp [Event.isError]
  refine ⟨armed.open_past, ?_, ?_⟩
  · rw [same]
    exact armed.refused
  · rw [same]
    exact armed.dropped

/-- A call that finds no connection, and that the deadline has expired. -/
theorem armed_tryConnect (armed : Armed ctx h w) {now : ℕ} (expired : w.nextConnectAttempt ≤ now)
    (read : now ≤ w.clock) (no_fd : w.fd = none) :
    Armed ctx (h ++ tryConnectEvents ctx now w) (tryConnect ctx now w).2 := by
  have to_socket := later_socket w
  unfold tryConnect tryConnectEvents
  rcases opened : w.socket with ⟨_ | fd, w₁⟩
  · rw [opened] at to_socket
    exact armed_refused (to_socket.closed no_fd) _ _
  · rw [opened] at to_socket
    simp only
    split
    next long =>
      have still : ¬ ctx.socketPath.length < sunPathSize := not_lt.mpr long
      have no_fd' : w₁.fd = none := to_socket.closed no_fd
      refine ⟨?_, fun fits => absurd fits still, fun fits => absurd fits still⟩
      simp [World.close, no_fd']
    next =>
      have to_connect := to_socket.trans (later_connect fd w₁)
      rcases connected : w₁.connect fd with ⟨_ | _, w₂⟩
      · rw [connected] at to_connect
        simp only
        rw [← List.singleton_append, ← List.append_assoc]
        exact armed_refused ((to_connect.trans (later_close fd w₂)).closed no_fd) _ _
      · rw [connected] at to_connect
        have armed' := (armed.later to_connect).attempt w₁.clock
        refine ⟨fun _ => ?_, armed'.refused, armed'.dropped⟩
        show w₂.nextConnectAttempt ≤ w₂.clock
        rw [to_connect.deadline]
        exact expired.trans (read.trans to_connect.clock)

/-- It attempts to connect just where it would not be rested. -/
theorem kept_tryConnect (armed : Armed ctx h w) (expired : w.nextConnectAttempt ≤ w.now.1)
    (not_detach : m ≠ .detach) (no_fd : w.fd = none) :
    CooldownKept (h ++ tryConnectEvents ctx w.now.1 w.now.2) ↔ CooldownKept h ∧ Rested ctx h m w := by
  unfold tryConnectEvents
  split
  next w₁ refused =>
    have rested : Rested ctx h m w := by
      intro _ _ _ fd w' opened
      rw [refused] at opened
      cases opened
    rw [kept_append_of_no_attempt (by simp)]
    exact (and_iff_left rested).symm
  next fd w₁ opened =>
    split
    next long =>
      have rested : Rested ctx h m w := fun _ _ fits => absurd fits (not_lt.mpr long)
      rw [List.append_nil]
      exact (and_iff_left rested).symm
    next fits =>
      rw [armed.rested_iff expired not_detach no_fd (not_le.mp fits) opened]
      have attempt : CooldownKept (h ++ [(w₁.clock, .attempt)]) ↔ CooldownKept h ∧
          ∀ last ∈ mostRecent Event.isError h, last.1 + connectCooldown ≤ w₁.clock := by
        rw [CooldownKept, keepsCooldown_concat]
        simp [Event.isAttempt, CooldownKept]
      split
      next w₂ refused =>
        rw [← List.singleton_append, ← List.append_assoc, kept_append_of_no_attempt (by simp)]
        exact attempt
      next => exact attempt

theorem armed_ensureConnected (armed : Armed ctx h w) :
    Armed ctx (h ++ ensureConnectedEvents ctx w) (ensureConnected ctx w).2 := by
  have reading := later_next w
  unfold ensureConnected ensureConnectedEvents
  split
  next =>
    rw [List.append_nil]
    exact armed
  next closed =>
    split
    next =>
      rw [List.append_nil]
      exact armed.later reading
    next expired =>
      have no_fd : w.fd = none := by simpa using closed
      exact armed_tryConnect (armed.later reading) (not_lt.mp expired) le_rfl (reading.closed no_fd)

theorem kept_ensureConnected (armed : Armed ctx h w) (not_detach : m ≠ .detach) :
    CooldownKept (h ++ ensureConnectedEvents ctx w) ↔ CooldownKept h ∧ Rested ctx h m w := by
  have deadline : w.now.2.nextConnectAttempt = w.nextConnectAttempt := (later_next w).deadline
  unfold ensureConnectedEvents
  split
  next is_open =>
    have rested : Rested ctx h m w := fun _ no_fd => absurd is_open (by simp [no_fd])
    rw [List.append_nil]
    exact (and_iff_left rested).symm
  next closed =>
    rw [deadline]
    split
    next waiting =>
      rw [List.append_nil]
      exact (and_iff_left (armed.rested_of_waiting waiting)).symm
    next expired => exact kept_tryConnect armed (not_lt.mp expired) not_detach (by simpa using closed)

/-! ## Runs -/

theorem perform_not_connected (refused : ensureConnected ctx w = (false, w')) (not_detach : m ≠ .detach) :
    (perform ctx m w).2 = w' := by
  cases m with
  | detach => exact absurd rfl not_detach
  | attach | config extra => simp only [perform, sendAttach, sendConfig, sendJsonNoReply, refused]
  | frame => simp only [perform, sendFrameAndRecv, refused]

theorem performEvents_of_ne_detach (not_detach : m ≠ .detach) :
    performEvents ctx m w = ensureConnectedEvents ctx w ++
      match ensureConnected ctx w with
      | (false, _) => []
      | (true, w) => exchangeEvents ctx m w := by
  cases m with
  | detach => exact absurd rfl not_detach
  | attach | config | frame => rfl

theorem fd_of_connected (connected : ensureConnected ctx w = (true, w')) : w'.fd.isSome := by
  unfold ensureConnected at connected
  split at connected
  next is_open =>
    cases connected
    exact is_open
  next =>
    split at connected
    next => cases connected
    next =>
      unfold tryConnect at connected
      split at connected
      next => cases connected
      next =>
        split at connected
        next => cases connected
        next =>
          split at connected
          next => cases connected
          next =>
            cases connected
            rfl

/-- One call keeps the deadline in step with the last error, and keeps the cooldown just
    when it is rested. -/
theorem armed_perform (armed : Armed ctx h w) (m : ClientMessage) :
    Armed ctx (h ++ performEvents ctx m w) (perform ctx m w).2 ∧
      (CooldownKept (h ++ performEvents ctx m w) ↔ CooldownKept h ∧ Rested ctx h m w) := by
  by_cases detach : m = .detach
  · subst detach
    have exchanged := @exchanged_sendDetach ctx w
    have rested : Rested ctx h .detach w := fun not_detach => absurd rfl not_detach
    refine ⟨?_, exchanged.kept_iff.trans (and_iff_left rested).symm⟩
    by_cases is_open : w.fd.isSome
    · exact armed.exchanged (armed.open_past is_open) exchanged
    · rw [performEvents, if_neg is_open, List.append_nil]
      exact armed.later exchanged.later
  · have armed' := armed_ensureConnected armed
    rw [performEvents_of_ne_detach detach, ← List.append_assoc, ← kept_ensureConnected armed detach]
    split
    next w₁ refused =>
      rw [refused] at armed'
      rw [perform_not_connected refused detach, List.append_nil]
      exact ⟨armed', Iff.rfl⟩
    next w₁ connected =>
      rw [connected] at armed'
      have exchanged := exchanged_perform connected detach
      exact ⟨armed'.exchanged (armed'.open_past (fd_of_connected connected)) exchanged, exchanged.kept_iff⟩

theorem history_concat (ctx : Context) (w : World) (calls : List ClientMessage) (m : ClientMessage) :
    history ctx w (calls ++ [m]) = history ctx w calls ++ performEvents ctx m (after ctx w calls) := by
  induction calls generalizing w with
  | nil => simp [history, after]
  | cons first calls ih => simp [history, after, ih, List.append_assoc]

theorem after_concat (ctx : Context) (w : World) (calls : List ClientMessage) (m : ClientMessage) :
    after ctx w (calls ++ [m]) = (perform ctx m (after ctx w calls)).2 := by
  simp [after]

theorem armed_history (ctx : Context) (clock : ℕ) (script : List (ℕ × Outcome)) (calls : List ClientMessage) :
    Armed ctx (history ctx (World.start clock script) calls) (after ctx (World.start clock script) calls) := by
  induction calls using List.reverseRecOn with
  | nil => exact armed_start clock script
  | append_singleton calls m ih =>
    rw [history_concat, after_concat]
    exact (armed_perform ih m).1

/-- A run keeps the cooldown just when each of its calls is rested. -/
theorem cooldown_kept_iff (ctx : Context) (clock : ℕ) (script : List (ℕ × Outcome))
    (calls : List ClientMessage) :
    CooldownKept (history ctx (World.start clock script) calls) ↔
      AtEach (fun before m => Rested ctx (history ctx (World.start clock script) before) m
        (after ctx (World.start clock script) before)) calls := by
  induction calls using List.reverseRecOn with
  | nil => exact iff_of_true keepsCooldown_nil atEach_nil
  | append_singleton calls m ih =>
    rw [history_concat, atEach_concat, (armed_perform (armed_history ctx clock script calls) m).2, ih]

/-- What the deadline is good for: it keeps the cooldown behind refusals that do not take
    long, as long as no connection is dropped. -/
theorem kept_of_prompt_refusals (ctx : Context) (clock : ℕ) (script : List (ℕ × Outcome))
    (calls : List ClientMessage)
    (prompt : ∀ e ∈ history ctx (World.start clock script) calls, e.2.isError = true → e.2 = .refused e.1) :
    CooldownKept (history ctx (World.start clock script) calls) := by
  induction calls using List.reverseRecOn with
  | nil => exact keepsCooldown_nil
  | append_singleton calls m ih =>
    rw [history_concat] at prompt ⊢
    have before : ∀ e ∈ history ctx (World.start clock script) calls, e.2.isError = true → e.2 = .refused e.1 :=
      fun e mem => prompt e (List.mem_append_left _ mem)
    refine (armed_perform (armed_history ctx clock script calls) m).2.mpr ⟨ih before, ?_⟩
    intro _ _ _ fd w' opened last found
    have refused := before last (mostRecent_mem found) (mostRecent_kind found)
    by_cases waiting : (after ctx (World.start clock script) calls).now.1 < last.1 + connectCooldown
    · exact .inr ⟨last.1, refused, waiting⟩
    · have later := (later_socket (after ctx (World.start clock script) calls).now.2).clock
      rw [opened] at later
      exact .inl ((not_lt.mp waiting).trans later)

/-! ## A worker that drops its connections -/

/-- The other end accepts, takes a frame and closes. -/
def droppingContext : Context where
  dump := dumpText
  parse _ := none
  socketPath := [47, 115]
  cameraUuid := "cam"
  peer _ _ := []

/-- Two frames 33 ms apart: the clock, `socket`, `connect`, three sends and a `recv` each. -/
def droppingScript : List (ℕ × Outcome) :=
  [(0, .fail), (0, .done 3), (0, .done 0)] ++ List.replicate 4 (0, .done 999) ++
    [(33000000, .fail), (0, .done 3), (0, .done 0)] ++ List.replicate 4 (0, .done 999)

def droppedFrame (frameId : ℤ) : ClientMessage := .frame frameId 0 2 1 6 [10, 20, 30, 40, 50, 60]

theorem reconnects_on_the_next_frame :
    history droppingContext (World.start 0 droppingScript) [droppedFrame 0, droppedFrame 1] =
        [(0, .attempt), (0, .dropped), (33000000, .attempt), (33000000, .dropped)] ∧
      ¬ CooldownKept (history droppingContext (World.start 0 droppingScript) [droppedFrame 0, droppedFrame 1]) := by
  have events : history droppingContext (World.start 0 droppingScript) [droppedFrame 0, droppedFrame 1] =
      [(0, .attempt), (0, .dropped), (33000000, .attempt), (33000000, .dropped)] := by
    decide +kernel
  refine ⟨events, fun kept => ?_⟩
  rw [events] at kept
  have late := kept [(0, .attempt), (0, .dropped)] (33000000, .attempt) [(33000000, .dropped)] rfl rfl
    (0, .dropped) rfl
  exact absurd late (by decide)

end

end VisionNx.Client
