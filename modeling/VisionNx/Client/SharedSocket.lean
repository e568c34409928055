import Mathlib.Data.List.Permutation
import Mathlib.Logic.Function.Basic
import VisionNx.Library.TransitionRuns
import VisionNx.Worker.ReadLoop

/-! # One socket, several threads

`DeviceAgent` calls its `IpcClient` from the frame thread and from the threads that
deliver settings, with no lock around it.  A frame is three `writeRaw` calls and a
config two, and each `::send` may take a part of what it is given, so messages can
interleave on the stream.  They do not as long as no thread sends while another is
inside a message. -/

namespace VisionNx.Client

open TransitionRuns Worker

/-! ## Threads and their writes -/

inductive Writer where
  | frame
  | settings (thread : ℕ)
  deriving DecidableEq

/-- Only the frame thread sends frames, and it sends nothing else. -/
def Writer.Sends : Writer → ClientMessage → Prop
  | frame, .frame .. => True
  | settings _, .config _ => True
  | _, _ => False

inductive Phase where
  | idle
  /-- inside `writeRaw`: what the socket has taken of the message, and the buffers left -/
  | sending (m : ClientMessage) (done : List UInt8) (bufs : List (List UInt8))
  /-- the frame thread inside `readFramed` -/
  | receiving

structure SocketState where
  stream : List UInt8 := []
  phase : Writer → Phase := fun _ => .idle
  /-- the messages that have been written to their end, with the threads that wrote them -/
  log : List (Writer × ClientMessage) := []

/-- The buffers that a message is written in; empty ones are not written. -/
def writes (dump : Json → List UInt8) (cameraUuid : String) (m : ClientMessage) : List (List UInt8) :=
  [be32 (m.text dump cameraUuid).length, m.text dump cameraUuid, m.body].filter (!·.isEmpty)

inductive Action where
  | call (w : Writer) (m : ClientMessage)
  | send (w : Writer) (k : ℕ)
  | receive (w : Writer)

/-- The steps of the threads.  `call` is the start of `sendConfig` or `sendFrameAndRecv`,
    which returns at once when the text is too long; `send` is one `::send` that takes
    `k` bytes; `receive` is the whole of `readFramed`. -/
inductive Step (dump : Json → List UInt8) (cameraUuid : String) :
    SocketState → Action → SocketState → Prop where
  | call {s w m} (idle : s.phase w = .idle) (sends : w.Sends m)
      (fits : (m.text dump cameraUuid).length ≤ maxFrameBytes) :
      Step dump cameraUuid s (.call w m)
        { s with phase := Function.update s.phase w (.sending m [] (writes dump cameraUuid m)) }
  | refuse {s w m} (idle : s.phase w = .idle) (sends : w.Sends m)
      (long : maxFrameBytes < (m.text dump cameraUuid).length) : Step dump cameraUuid s (.call w m) s
  | part {s w m done buf bufs k} (sending : s.phase w = .sending m done (buf :: bufs))
      (positive : 0 < k) (less : k < buf.length) :
      Step dump cameraUuid s (.send w k)
        { s with
          stream := s.stream ++ buf.take k
          phase := Function.update s.phase w (.sending m (done ++ buf.take k) (buf.drop k :: bufs)) }
  | whole {s w m done buf next bufs} (sending : s.phase w = .sending m done (buf :: next :: bufs)) :
      Step dump cameraUuid s (.send w buf.length)
        { s with
          stream := s.stream ++ buf
          phase := Function.update s.phase w (.sending m (done ++ buf) (next :: bufs)) }
  | last {s w m done buf} (sending : s.phase w = .sending m done [buf]) :
      Step dump cameraUuid s (.send w buf.length)
        { stream := s.stream ++ buf
          phase := Function.update s.phase w (if w = .frame then .receiving else .idle)
          log := s.log ++ [(w, m)] }
  | receive {s w} (receiving : s.phase w = .receiving) :
      Step dump cameraUuid s (.receive w) { s with phase := Function.update s.phase w .idle }

/-- The messages on the socket, in the order in which they were finished. -/
def SocketState.messages (s : SocketState) : List ClientMessage := s.log.map Prod.snd

/-- The messages that a thread sends in a call, which are none when it refuses. -/
def sentBy (dump : Json → List UInt8) (cameraUuid : String) (w : Writer) : Action → List ClientMessage
  | .call w' m => if w' = w ∧ (m.text dump cameraUuid).length ≤ maxFrameBytes then [m] else []
  | _ => []

/-- The thread has sent a part of its message, but not all of it. -/
def Inside (s : SocketState) (w : Writer) : Prop :=
  ∃ m done bufs, s.phase w = .sending m done bufs ∧ done ≠ []

/-- A thread only sends while no other is inside a message. -/
def Alone (s : SocketState) : Action → Prop
  | .send w _ => ∀ w' ≠ w, ¬ Inside s w'
  | _ => True

/-! ## The invariant -/

variable {dump : Json → List UInt8} {loads : List UInt8 → Option Json} {cameraUuid : String}

theorem writes_flatten (m : ClientMessage) :
    (writes dump cameraUuid m).flatten = m.encode dump cameraUuid := by
  have dropped : ∀ bufs : List (List UInt8), (bufs.filter (!·.isEmpty)).flatten = bufs.flatten := by
    intro bufs
    induction bufs with
    | nil => rfl
    | cons buf bufs ih => cases buf <;> simp [ih]
  rw [writes, dropped]
  simp [ClientMessage.encode, framed]

theorem writes_ne_nil (m : ClientMessage) : writes dump cameraUuid m ≠ [] := by
  simp [writes, be32]

/-- What a thread that is sending has sent and has left makes up its message. -/
structure Accounted (dump : Json → List UInt8) (cameraUuid : String) (w : Writer) (m : ClientMessage)
    (done : List UInt8) (bufs : List (List UInt8)) : Prop where
  split : done ++ bufs.flatten = m.encode dump cameraUuid
  left : bufs ≠ []
  filled : ∀ buf ∈ bufs, buf ≠ []
  sends : w.Sends m

/-- The stream is whole messages, followed by what the one thread that is inside a
    message has sent of it. -/
structure Orderly (dump : Json → List UInt8) (cameraUuid : String) (s : SocketState) : Prop where
  accounted : ∀ w m done bufs, s.phase w = .sending m done bufs → Accounted dump cameraUuid w m done bufs
  stream : ((∀ w, ¬ Inside s w) ∧ s.stream = wire dump cameraUuid s.messages) ∨
    ∃ w m done bufs, s.phase w = .sending m done bufs ∧ done ≠ [] ∧ (∀ w' ≠ w, ¬ Inside s w') ∧
      s.stream = wire dump cameraUuid s.messages ++ done
  no_detach : ∀ m ∈ s.messages, m ≠ .detach

theorem not_inside_of_phase {s : SocketState} {w : Writer} {phase : Phase} (is : s.phase w = phase)
    (outside : ∀ m done bufs, phase = .sending m done bufs → done = []) : ¬ Inside s w := by
  rintro ⟨m, done, bufs, sending, started⟩
  exact started (outside m done bufs (is.symm.trans sending))

theorem inside_update {s s' : SocketState} {w : Writer} {phase : Phase}
    (phases : s'.phase = Function.update s.phase w phase) (before : ¬ Inside s w)
    (outside : ∀ m done bufs, phase = .sending m done bufs → done = []) (w' : Writer) :
    Inside s' w' ↔ Inside s w' := by
  by_cases same : w' = w
  · subst same
    have after : ¬ Inside s' w' := not_inside_of_phase (by rw [phases, Function.update_self]) outside
    exact iff_of_false after before
  · simp only [Inside, phases, Function.update_of_ne same]

/-- A thread that may send finds the stream at whole messages and its own part. -/
theorem Orderly.stream_of_alone {s : SocketState} (orderly : Orderly dump cameraUuid s) {w : Writer}
    {m : ClientMessage} {done : List UInt8} {bufs : List (List UInt8)}
    (sending : s.phase w = .sending m done bufs) (alone : ∀ w' ≠ w, ¬ Inside s w') :
    s.stream = wire dump cameraUuid s.messages ++ done := by
  obtain ⟨nobody, whole⟩ | ⟨w', m', done', bufs', sending', started, _, partial_stream⟩ := orderly.stream
  -- Nobody is inside a message, so this thread has not sent anything either.
  · have fresh : done = [] := by
      by_contra started
      exact nobody w ⟨m, done, bufs, sending, started⟩
    rw [whole, fresh, List.append_nil]
  · have same : w' = w := by
      by_contra other
      exact alone w' other ⟨m', done', bufs', sending', started⟩
    subst same
    rw [sending] at sending'
    cases sending'
    exact partial_stream

theorem Orderly.accounted_update {s : SocketState} (orderly : Orderly dump cameraUuid s) {w : Writer}
    {phase : Phase}
    (own : ∀ m done bufs, phase = .sending m done bufs → Accounted dump cameraUuid w m done bufs)
    (w' : Writer) (m : ClientMessage) (done : List UInt8) (bufs : List (List UInt8))
    (sending : Function.update s.phase w phase w' = .sending m done bufs) :
    Accounted dump cameraUuid w' m done bufs := by
  by_cases same : w' = w
  · subst same
    rw [Function.update_self] at sending
    exact own m done bufs sending
  · rw [Function.update_of_ne same] at sending
    exact orderly.accounted w' m done bufs sending

/-- A step that does not touch the stream and leaves its thread outside any message. -/
theorem Orderly.local {s s' : SocketState} (orderly : Orderly dump cameraUuid s) {w : Writer} {phase : Phase}
    (phases : s'.phase = Function.update s.phase w phase) (stream : s'.stream = s.stream)
    (log : s'.log = s.log) (before : ¬ Inside s w)
    (outside : ∀ m done bufs, phase = .sending m done bufs → done = [])
    (own : ∀ m done bufs, phase = .sending m done bufs → Accounted dump cameraUuid w m done bufs) :
    Orderly dump cameraUuid s' := by
  have inside := inside_update phases before outside
  have messages : s'.messages = s.messages := by rw [SocketState.messages, SocketState.messages, log]
  refine ⟨?_, ?_, by rw [messages]; exact orderly.no_detach⟩
  · rw [phases]
    exact orderly.accounted_update own
  · simp only [inside, stream, messages]
    obtain whole | ⟨w', m, done, bufs, sending, started, rest⟩ := orderly.stream
    · exact .inl whole
    · have other : w' ≠ w := by
        rintro rfl
        exact before ⟨m, done, bufs, sending, started⟩
      exact .inr ⟨w', m, done, bufs, by rw [phases, Function.update_of_ne other, sending], started, rest⟩

theorem Orderly.advance {s : SocketState} (orderly : Orderly dump cameraUuid s) {w : Writer}
    {m : ClientMessage} {done sent : List UInt8} {bufs bufs' : List (List UInt8)}
    (sending : s.phase w = .sending m done bufs) (alone : ∀ w' ≠ w, ¬ Inside s w') (some_bytes : sent ≠ [])
    (split : bufs.flatten = sent ++ bufs'.flatten) (left : bufs' ≠ []) (filled : ∀ buf ∈ bufs', buf ≠ []) :
    Orderly dump cameraUuid { s with
      stream := s.stream ++ sent
      phase := Function.update s.phase w (.sending m (done ++ sent) bufs') } := by
  have account := orderly.accounted w m done bufs sending
  refine ⟨orderly.accounted_update ?_, .inr ⟨w, m, done ++ sent, bufs', ?_, ?_, ?_, ?_⟩, orderly.no_detach⟩
  · rintro _ _ _ ⟨⟩
    refine ⟨?_, left, filled, account.sends⟩
    rw [← account.split, split, List.append_assoc]
  · exact Function.update_self ..
  · simp [some_bytes]
  · intro w' other
    simp only [Inside, Function.update_of_ne other]
    exact alone w' other
  · rw [orderly.stream_of_alone sending alone, List.append_assoc]
    rfl

/-- The thread sends what is left of its message and is done with it. -/
theorem Orderly.finish {s : SocketState} (orderly : Orderly dump cameraUuid s) {w : Writer}
    {m : ClientMessage} {done buf : List UInt8} {phase : Phase} (sending : s.phase w = .sending m done [buf])
    (alone : ∀ w' ≠ w, ¬ Inside s w') (silent : ∀ m done bufs, phase ≠ .sending m done bufs) :
    Orderly dump cameraUuid
      { stream := s.stream ++ buf
        phase := Function.update s.phase w phase
        log := s.log ++ [(w, m)] } := by
  have account := orderly.accounted w m done [buf] sending
  have complete : done ++ buf = m.encode dump cameraUuid := by simpa using account.split
  refine ⟨orderly.accounted_update fun m done bufs is => absurd is (silent m done bufs),
    .inl ⟨fun w' => ?_, ?_⟩, ?_⟩
  -- No other thread was inside a message.
  · by_cases same : w' = w
    · subst same
      exact not_inside_of_phase (Function.update_self ..) fun m done bufs is => absurd is (silent m done bufs)
    · simp only [Inside, Function.update_of_ne same]
      exact alone w' same
  · rw [orderly.stream_of_alone sending alone, List.append_assoc, complete]
    simp [SocketState.messages, wire]
  -- No thread sends a `detach`.
  · intro m' mem
    rw [SocketState.messages, List.map_append] at mem
    cases List.mem_append.mp mem with
    | inl old => exact orderly.no_detach m' old
    | inr new =>
      obtain rfl := List.mem_singleton.mp new
      rintro rfl
      have := account.sends
      cases w <;> cases this

theorem orderly_step {s s' : SocketState} {a : Action} (orderly : Orderly dump cameraUuid s)
    (step : Guarded Alone (Step dump cameraUuid) s a s') : Orderly dump cameraUuid s' := by
  obtain ⟨alone, step⟩ := step
  cases step with
  | @call w m idle sends fits =>
    refine orderly.local rfl rfl rfl (not_inside_of_phase idle nofun) ?_ ?_
    · rintro _ _ _ ⟨⟩
      rfl
    · rintro _ _ _ ⟨⟩
      refine ⟨by rw [List.nil_append, writes_flatten], writes_ne_nil m, ?_, sends⟩
      intro buf mem
      simpa using (List.mem_filter.mp mem).2
  | refuse => exact orderly
  | @part w m done buf bufs k sending positive less =>
    have account := orderly.accounted w m done (buf :: bufs) sending
    refine orderly.advance sending alone ?_ ?_ (List.cons_ne_nil _ _) ?_
    · intro nothing
      cases List.take_eq_nil_iff.mp nothing with
      | inl zero => omega
      | inr empty => exact account.filled buf List.mem_cons_self empty
    · rw [List.flatten_cons, List.flatten_cons, ← List.append_assoc, List.take_append_drop]
    · rintro _ (_ | ⟨_, mem⟩)
      · intro nothing
        have := List.drop_eq_nil_iff.mp nothing
        omega
      · exact account.filled _ (List.mem_cons_of_mem _ mem)
  | @whole w m done buf next bufs sending =>
    have account := orderly.accounted w m done (buf :: next :: bufs) sending
    exact orderly.advance sending alone (account.filled buf List.mem_cons_self) (List.flatten_cons ..)
      (List.cons_ne_nil _ _) fun b mem => account.filled b (List.mem_cons_of_mem _ mem)
  | @last w m done buf sending =>
    refine orderly.finish sending alone fun m done bufs => ?_
    split <;> nofun
  | @receive w receiving =>
    exact orderly.local rfl rfl rfl (not_inside_of_phase receiving nofun) nofun nofun

theorem orderly_run {s : SocketState} {actions : List Action}
    (run : Run (Guarded Alone (Step dump cameraUuid)) {} actions s) : Orderly dump cameraUuid s := by
  refine run.invariant (fun _ _ _ orderly step => orderly_step orderly step) ⟨nofun, .inl ⟨?_, rfl⟩, nofun⟩
  rintro w ⟨_, _, _, ⟨⟩, _⟩

/-! ## What each thread has sent -/

def Phase.pending : Phase → List ClientMessage
  | .sending m _ _ => [m]
  | _ => []

/-- The messages of a thread: those it has finished, and the one it is sending. -/
def SocketState.begun (s : SocketState) (w : Writer) : List ClientMessage :=
  ((s.log.filter (·.1 = w)).map Prod.snd) ++ (s.phase w).pending

/-- A thread that stays in its message, or without one, has begun no other. -/
theorem begun_update {s s' : SocketState} {w' : Writer} {phase : Phase}
    (phases : s'.phase = Function.update s.phase w' phase) (log : s'.log = s.log)
    (pending : phase.pending = (s.phase w').pending) (w : Writer) : s'.begun w = s.begun w := by
  by_cases same : w = w'
  · subst same
    simp [SocketState.begun, phases, log, pending]
  · simp [SocketState.begun, phases, log, Function.update_of_ne same]

theorem begun_step {s s' : SocketState} {a : Action} (step : Step dump cameraUuid s a s') (w : Writer) :
    s'.begun w = s.begun w ++ sentBy dump cameraUuid w a := by
  cases step with
  | @call w' m idle sends fits =>
    by_cases same : w' = w
    · subst same
      simp [SocketState.begun, sentBy, Phase.pending, idle, fits]
    · simp [SocketState.begun, sentBy, same, Function.update_of_ne (Ne.symm same)]
  | @refuse w' m idle sends long => simp [sentBy, Nat.not_le.mpr long]
  | @part w' m done buf bufs k sending =>
    simp only [sentBy, List.append_nil]
    apply begun_update
    · rfl
    · rfl
    · rw [sending]
      rfl
  | @whole w' m done buf next bufs sending =>
    simp only [sentBy, List.append_nil]
    apply begun_update
    · rfl
    · rfl
    · rw [sending]
      rfl
  | @last w' m done buf sending =>
    by_cases same : w' = w
    · subst same
      have after : (if w' = .frame then Phase.receiving else .idle).pending = [] := by
        split <;> rfl
      have before : (Phase.sending m done [buf]).pending = [m] := rfl
      simp [SocketState.begun, sentBy, sending, before, after]
    · simp [SocketState.begun, sentBy, same, Function.update_of_ne (Ne.symm same)]
  | @receive w' receiving =>
    simp only [sentBy, List.append_nil]
    apply begun_update
    · rfl
    · rfl
    · rw [receiving]
      rfl

theorem finished_of_idle {s : SocketState} {actions : List Action}
    (run : Run (Step dump cameraUuid) {} actions s) {w : Writer} (idle : s.phase w = .idle) :
    (s.log.filter (·.1 = w)).map Prod.snd = actions.flatMap (sentBy dump cameraUuid w) := by
  -- What it has begun but not finished is nothing when it is idle.
  have appended := run.appends (·.begun w) (sentBy dump cameraUuid w) fun _ _ _ step => begun_step step w
  simpa [SocketState.begun, idle, Phase.pending] using appended

/-! ## The stream that the worker reads -/

/-- If every thread only sends while no other is inside a message, then whenever all are
    idle the stream is whole messages, the ones that each thread was called with in the
    order of its calls, and the worker decodes exactly these. -/
theorem whole_messages_of_alone (dump : Json → List UInt8) (loads : List UInt8 → Option Json)
    (cameraUuid : String) {s : SocketState} {actions : List Action}
    (run : Run (Guarded Alone (Step dump cameraUuid)) {} actions s) (idle : ∀ w, s.phase w = .idle) :
    s.stream = wire dump cameraUuid s.messages ∧
    (∀ w, (s.log.filter (·.1 = w)).map Prod.snd = actions.flatMap (sentBy dump cameraUuid w)) ∧
    ((∀ w, ∀ m ∈ actions.flatMap (sentBy dump cameraUuid w), Readable dump loads cameraUuid m) →
      ∀ sock : List (List UInt8), (∀ chunk ∈ sock, chunk ≠ []) → sock.flatten = s.stream →
        received loads sock = s.messages.map (incoming cameraUuid)) := by
  have orderly := orderly_run run
  have finished := fun w => finished_of_idle run.of_guarded (idle w)
  have whole : s.stream = wire dump cameraUuid s.messages := by
    obtain ⟨_, whole⟩ | ⟨w, m, done, bufs, sending, _⟩ := orderly.stream
    · exact whole
    · exact absurd (sending.symm.trans (idle w)) nofun
  refine ⟨whole, finished, fun readable sock nonempty stream => ?_⟩
  -- Every message on the stream was sent by one of the threads.
  have sent : ∀ m ∈ s.messages, Readable dump loads cameraUuid m := by
    intro m mem
    obtain ⟨⟨w, _⟩, logged, rfl⟩ := List.mem_map.mp mem
    refine readable w _ (finished w ▸ List.mem_map.mpr ⟨(w, _), ?_, rfl⟩)
    exact List.mem_filter.mpr ⟨logged, by simp⟩
  have last : ∀ m ∈ s.messages.dropLast, m ≠ .detach :=
    fun m mem => orderly.no_detach m (List.dropLast_subset _ mem)
  exact received_all sent last nonempty (stream.trans whole)

/-! ## Two threads -/

/-- A socket that the frame thread and one settings thread use. -/
def two (stream : List UInt8) (frame settings : Phase) (log : List (Writer × ClientMessage)) :
    SocketState where
  stream := stream
  phase
    | .frame => frame
    | .settings 0 => settings
    | .settings _ => .idle
  log := log

section

variable {stream done buf next : List UInt8} {bufs : List (List UInt8)} {m : ClientMessage}
  {p q : Phase} {log : List (Writer × ClientMessage)}

theorem start_eq_two : ({} : SocketState) = two [] .idle .idle [] := by
  have phase : (fun _ => .idle : Writer → Phase) = (two [] .idle .idle []).phase := by
    funext w
    rcases w with _ | _ | _ <;> rfl
  exact congrArg (fun phase => (⟨[], phase, []⟩ : SocketState)) phase

theorem two_update_frame (p' : Phase) :
    Function.update (two stream p q log).phase .frame p' = (two stream p' q log).phase := by
  funext w
  rcases w with _ | _ | _ <;> simp [two, Function.update]

theorem two_update_settings (q' : Phase) :
    Function.update (two stream p q log).phase (.settings 0) q' = (two stream p q' log).phase := by
  funext w
  rcases w with _ | _ | _ <;> simp [two, Function.update]

theorem frame_calls (sends : Writer.frame.Sends m) (fits : (m.text dump cameraUuid).length ≤ maxFrameBytes) :
    Step dump cameraUuid (two stream .idle q log) (.call .frame m)
      (two stream (.sending m [] (writes dump cameraUuid m)) q log) := by
  have step : Step dump cameraUuid (two stream .idle q log) (.call .frame m) _ := .call rfl sends fits
  rwa [two_update_frame] at step

theorem frame_sends : Step dump cameraUuid (two stream (.sending m done (buf :: next :: bufs)) q log)
    (.send .frame buf.length) (two (stream ++ buf) (.sending m (done ++ buf) (next :: bufs)) q log) := by
  have step : Step dump cameraUuid (two stream (.sending m done (buf :: next :: bufs)) q log)
    (.send .frame buf.length) _ := .whole rfl
  rwa [two_update_frame] at step

theorem frame_finishes : Step dump cameraUuid (two stream (.sending m done [buf]) q log)
    (.send .frame buf.length) (two (stream ++ buf) .receiving q (log ++ [(.frame, m)])) := by
  have step : Step dump cameraUuid (two stream (.sending m done [buf]) q log)
    (.send .frame buf.length) _ := .last rfl
  rwa [two_update_frame] at step

theorem frame_receives : Step dump cameraUuid (two stream .receiving q log) (.receive .frame)
    (two stream .idle q log) := by
  have step : Step dump cameraUuid (two stream .receiving q log) (.receive .frame) _ := .receive rfl
  rwa [two_update_frame] at step

theorem settings_calls (sends : (Writer.settings 0).Sends m)
    (fits : (m.text dump cameraUuid).length ≤ maxFrameBytes) :
    Step dump cameraUuid (two stream p .idle log) (.call (.settings 0) m)
      (two stream p (.sending m [] (writes dump cameraUuid m)) log) := by
  have step : Step dump cameraUuid (two stream p .idle log) (.call (.settings 0) m) _ := .call rfl sends fits
  rwa [two_update_settings] at step

theorem settings_sends : Step dump cameraUuid (two stream p (.sending m done (buf :: next :: bufs)) log)
    (.send (.settings 0) buf.length)
    (two (stream ++ buf) p (.sending m (done ++ buf) (next :: bufs)) log) := by
  have step : Step dump cameraUuid (two stream p (.sending m done (buf :: next :: bufs)) log)
    (.send (.settings 0) buf.length) _ := .whole rfl
  rwa [two_update_settings] at step

theorem settings_finishes : Step dump cameraUuid (two stream p (.sending m done [buf]) log)
    (.send (.settings 0) buf.length) (two (stream ++ buf) p .idle (log ++ [(.settings 0, m)])) := by
  have step : Step dump cameraUuid (two stream p (.sending m done [buf]) log)
    (.send (.settings 0) buf.length) _ := .last rfl
  rwa [two_update_settings] at step

theorem frame_alone (outside : ∀ m done bufs, q = .sending m done bufs → done = []) (k : ℕ) :
    Alone (two stream p q log) (.send .frame k) := by
  rintro (_ | _ | _) other
  · exact absurd rfl other
  · exact not_inside_of_phase rfl outside
  · exact not_inside_of_phase rfl nofun

theorem settings_alone (outside : ∀ m done bufs, p = .sending m done bufs → done = []) (k : ℕ) :
    Alone (two stream p q log) (.send (.settings 0) k) := by
  rintro (_ | _ | _) other
  · exact not_inside_of_phase rfl outside
  · exact absurd rfl other
  · exact not_inside_of_phase rfl nofun

theorem call_alone {s : SocketState} {w : Writer} : Alone s (.call w m) := trivial

theorem receive_alone {s : SocketState} {w : Writer} : Alone s (.receive w) := trivial

end

def smallFrame : ClientMessage := .frame 7 0 2 1 6 [10, 20, 30, 40, 50, 60]

def smallConfig : ClientMessage := .config [("fps_cap", .num 10)]

theorem writes_smallFrame : writes dumpText "cam" smallFrame =
    [be32 (smallFrame.text dumpText "cam").length, smallFrame.text dumpText "cam",
      [10, 20, 30, 40, 50, 60]] := by
  have nonempty : (smallFrame.text dumpText "cam").isEmpty = false := by decide +kernel
  have body : smallFrame.body = [10, 20, 30, 40, 50, 60] := rfl
  simp [writes, nonempty, body, be32]

theorem writes_smallConfig : writes dumpText "cam" smallConfig =
    [be32 (smallConfig.text dumpText "cam").length, smallConfig.text dumpText "cam"] := by
  have nonempty : (smallConfig.text dumpText "cam").isEmpty = false := by decide +kernel
  have body : smallConfig.body = [] := rfl
  simp [writes, nonempty, body, be32]

def loadsSmall (bytes : List UInt8) : Option Json :=
  ([smallFrame, smallConfig].find? fun m => m.text dumpText "cam" == bytes).map
    fun m => .obj (m.fields "cam")

theorem smallFrame_readable : Readable dumpText loadsSmall "cam" smallFrame where
  sized := ⟨by decide +kernel, by decide +kernel, by rintro _ _ _ _ _ _ ⟨⟩; decide⟩
  parses := by simp only [loadsSmall, List.find?_cons, beq_self_eq_true, Option.map_some]

theorem smallConfig_readable : Readable dumpText loadsSmall "cam" smallConfig where
  sized := ⟨by decide +kernel, by decide +kernel, by rintro _ _ _ _ _ _ ⟨⟩⟩
  parses := by
    have differ : (smallFrame.text dumpText "cam" == smallConfig.text dumpText "cam") = false := by
      decide +kernel
    simp only [loadsSmall, List.find?_cons, differ, beq_self_eq_true, Option.map_some]

/-- A settings thread whose call waits until a frame is through. -/
theorem whole_messages_of_alone_waiting : ∃ s : SocketState,
    s.messages = [smallFrame, smallConfig] ∧ s.stream = wire dumpText "cam" s.messages ∧
    received loadsSmall [s.stream] = [incoming "cam" smallFrame, incoming "cam" smallConfig] := by
  have fits : (smallFrame.text dumpText "cam").length ≤ maxFrameBytes := by decide +kernel
  have fits' : (smallConfig.text dumpText "cam").length ≤ maxFrameBytes := by decide +kernel
  have called : ∀ q, Step dumpText "cam" (two [] .idle q []) (.call .frame smallFrame) _ :=
    fun _ => frame_calls trivial fits
  have called' : Step dumpText "cam" (two [] .idle .idle []) (.call (.settings 0) smallConfig) _ :=
    settings_calls trivial fits'
  simp only [writes_smallFrame] at called
  rw [writes_smallConfig] at called'
  have waiting : ∀ m done bufs, Phase.sending smallConfig [] [be32 (smallConfig.text dumpText "cam").length,
      smallConfig.text dumpText "cam"] = .sending m done bufs → done = [] := by
    rintro _ _ _ ⟨⟩
    rfl
  have run : Run (Guarded Alone (Step dumpText "cam")) (two [] .idle .idle []) _ _ :=
    .cons ⟨call_alone, called'⟩ <| .cons ⟨call_alone, called _⟩ <|
    .cons ⟨frame_alone waiting _, frame_sends⟩ <| .cons ⟨frame_alone waiting _, frame_sends⟩ <|
    .cons ⟨frame_alone waiting _, frame_finishes⟩ <| .cons ⟨receive_alone, frame_receives⟩ <|
    .cons ⟨settings_alone (p := .idle) nofun _, settings_sends⟩ <|
    .cons ⟨settings_alone (p := .idle) nofun _, settings_finishes⟩ (.nil _)
  rw [← start_eq_two] at run
  have idle : ∀ stream log w, (two stream .idle .idle log).phase w = .idle := by
    rintro stream log (_ | _ | _) <;> rfl
  obtain ⟨whole, _, decoded⟩ := whole_messages_of_alone dumpText loadsSmall "cam" run (idle _ _)
  refine ⟨_, rfl, whole, decoded ?_ [_] ?_ (List.append_nil _)⟩
  · rintro (_ | _ | _) m mem
    · obtain rfl : m = smallFrame := by simpa [sentBy, fits] using mem
      exact smallFrame_readable
    · obtain rfl : m = smallConfig := by simpa [sentBy, fits'] using mem
      exact smallConfig_readable
    · simp [sentBy] at mem
  · intro chunk mem
    obtain rfl := List.mem_singleton.mp mem
    simp [two, be32]

/-- A settings thread sends a config while the frame thread is between the header and
    the body of a frame. -/
theorem config_inside_frame : ∃ (s : SocketState) (actions : List Action),
    Run (Step dumpText "cam") {} actions s ∧ (∀ w, s.phase w = .idle) ∧
    actions.flatMap (sentBy dumpText "cam" .frame) = [smallFrame] ∧
    actions.flatMap (sentBy dumpText "cam" (.settings 0)) = [smallConfig] ∧
    ¬ ∃ msgs : List ClientMessage, msgs.Perm [smallFrame, smallConfig] ∧
      s.stream = wire dumpText "cam" msgs := by
  have fits : (smallFrame.text dumpText "cam").length ≤ maxFrameBytes := by decide +kernel
  have fits' : (smallConfig.text dumpText "cam").length ≤ maxFrameBytes := by decide +kernel
  have called : Step dumpText "cam" (two [] .idle .idle []) (.call .frame smallFrame) _ :=
    frame_calls trivial fits
  have called' : ∀ stream p log, Step dumpText "cam" (two stream p .idle log)
      (.call (.settings 0) smallConfig) _ := fun _ _ _ => settings_calls trivial fits'
  rw [writes_smallFrame] at called
  simp only [writes_smallConfig] at called'
  rw [start_eq_two]
  refine ⟨_, _, .cons called <| .cons frame_sends <| .cons frame_sends <| .cons (called' _ _ _) <|
    .cons settings_sends <| .cons settings_finishes <| .cons frame_finishes <|
    .cons frame_receives (.nil _), ?_, ?_, ?_, ?_⟩
  · rintro (_ | _ | _) <;> rfl
  · simp [sentBy, fits]
  · simp [sentBy, fits']
  -- Neither order of the two messages gives the bytes on the stream.
  · rintro ⟨msgs, perm, stream⟩
    obtain rfl | rfl := List.perm_pair.mp perm
    · exact absurd stream (by decide +kernel)
    · exact absurd stream (by decide +kernel)

end VisionNx.Client
