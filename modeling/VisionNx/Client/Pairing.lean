import VisionNx.Client.Calls
import VisionNx.Worker.ReplyStream

/-! # Replies belong to their frames

The client never looks at the id of a reply.  It does not have to: whenever no call is
running, either nothing is open, or the connection carries whole messages and all that
the worker has sent on it has been received. -/

namespace VisionNx.Client

open Worker

variable {A : Type}

/-! ## The client of a worker -/

/-- A client and the worker that it connects to. -/
structure Deployment (A : Type) where
  dump : Json → List UInt8
  parse : List UInt8 → Option Json
  socketPath : List UInt8
  cameraUuid : String
  server : Server A

def Deployment.context (d : Deployment A) : Context where
  dump := d.dump
  parse := d.parse
  socketPath := d.socketPath
  cameraUuid := d.cameraUuid
  peer := d.server.output

def Deployment.wire (d : Deployment A) (msgs : List ClientMessage) : List UInt8 :=
  Worker.wire d.dump d.cameraUuid msgs

/-- A message that the worker parses back, with a body of the size in its header. -/
structure Deployment.WellFormed (d : Deployment A) (m : ClientMessage) : Prop where
  text_pos : 1 ≤ (m.text d.dump d.cameraUuid).length
  parses : d.server.loads (m.text d.dump d.cameraUuid) = some (.obj (m.fields d.cameraUuid))
  body_size : ∀ frameId tsUs w h stride body, m = .frame frameId tsUs w h stride body →
    (body.length : ℤ) = h * stride

def World.start (clock : ℕ) (script : List (ℕ × Outcome)) : World := { clock, script }

/-- The world after some public calls. -/
def after (ctx : Context) (w : World) (calls : List ClientMessage) : World :=
  calls.foldl (fun w m => (perform ctx m w).2) w

/-! ## Between calls -/

/-- The socket carries whole messages, and everything sent back on it has been received. -/
structure Deployment.AtBoundary (d : Deployment A) (w : World) (s : Socket) (n : ℕ) : Prop where
  written : s.written = d.wire (w.on n)
  consumed : s.consumed = (d.server.output n s.written).length
  messages : ∀ m ∈ w.on n, Consistent d.dump d.server.loads d.cameraUuid m ∧ m ≠ .detach

structure Deployment.Tidy (d : Deployment A) (w : World) : Prop where
  sound : w.Sound
  boundary : ∀ s n, w.Open s n → d.AtBoundary w s n

variable {d : Deployment A} {w w' : World} {s : Socket} {n : ℕ} {m : ClientMessage}

theorem Deployment.Tidy.connects (tidy : d.Tidy w) (connects : Connects d.context w w' s n) :
    d.AtBoundary w s n := by
  obtain ⟨is_open, -⟩ | ⟨-, accepts⟩ := connects.source
  · exact tidy.boundary s n is_open
  -- On a new connection nothing has been written, and nothing sent back.
  · obtain rfl := accepts.number
    refine ⟨?_, ?_, ?_⟩
    · rw [accepts.written, tidy.sound.on_fresh]
      rfl
    · rw [accepts.written, accepts.consumed]
      rfl
    · rw [tidy.sound.on_fresh]
      exact fun _ mem => absurd mem List.not_mem_nil

theorem tidy_of_closed (sound : w.Sound) (closed : w.Closed) : d.Tidy w :=
  ⟨sound, fun _ _ is_open => absurd is_open closed.not_open⟩

theorem tidy_of_open (sound : w.Sound) (is_open : w.Open s n) (boundary : d.AtBoundary w s n) : d.Tidy w := by
  refine ⟨sound, fun s' n' is_open' => ?_⟩
  obtain ⟨rfl, rfl⟩ := is_open.unique is_open'
  exact boundary

theorem Deployment.AtBoundary.messages_concat (boundary : d.AtBoundary w s n) (well : d.WellFormed m)
    (fits : (m.text d.dump d.cameraUuid).length ≤ maxFrameBytes) (not_detach : m ≠ .detach) :
    (∀ m' ∈ w.on n ++ [m], Consistent d.dump d.server.loads d.cameraUuid m') ∧
      ∀ m' ∈ w.on n ++ [m], m' ≠ .detach := by
  have consistent : Consistent d.dump d.server.loads d.cameraUuid m :=
    ⟨⟨well.text_pos, fits, well.parses⟩, well.body_size⟩
  constructor
  · intro m' mem
    cases List.mem_append.mp mem with
    | inl old => exact (boundary.messages m' old).1
    | inr new => exact List.mem_singleton.mp new ▸ consistent
  · intro m' mem
    cases List.mem_append.mp mem with
    | inl old => exact (boundary.messages m' old).2
    | inr new => exact List.mem_singleton.mp new ▸ not_detach

theorem Deployment.AtBoundary.written_concat (boundary : d.AtBoundary w s n) (m : ClientMessage) :
    (s.write (m.encode d.dump d.cameraUuid)).written = d.wire (w.on n ++ [m]) := by
  rw [Socket.write, boundary.written, Deployment.wire, Deployment.wire, Worker.wire, Worker.wire]
  simp

theorem Deployment.AtBoundary.sent (boundary : d.AtBoundary w s n) (well : d.WellFormed m)
    (fits : (m.text d.dump d.cameraUuid).length ≤ maxFrameBytes) (on : w'.on n = w.on n ++ [m])
    (no_reply : m = .attach ∨ ∃ extra, m = .config extra) :
    d.AtBoundary w' (s.write (m.encode d.dump d.cameraUuid)) n := by
  have not_detach : m ≠ .detach := by
    obtain rfl | ⟨extra, rfl⟩ := no_reply <;> nofun
  have silent : (incoming d.cameraUuid m).frameId? = none := by
    obtain rfl | ⟨extra, rfl⟩ := no_reply <;> rfl
  obtain ⟨consistent, attached⟩ := boundary.messages_concat well fits not_detach
  refine ⟨?_, ?_, ?_⟩
  · rw [on, boundary.written_concat]
  · rw [boundary.written_concat]
    obtain same | ⟨r, answers, -⟩ := d.server.output_concat n consistent attached
    · rw [Deployment.wire, same, ← Deployment.wire, ← boundary.written]
      exact boundary.consumed
    · exact absurd (silent.symm.trans answers.id) nofun
  · rw [on]
    exact fun m' mem => ⟨consistent m' mem, attached m' mem⟩

/-- The bytes that `readFramed` gets behind a frame are the reply to it. -/
theorem Deployment.AtBoundary.answered (boundary : d.AtBoundary w s n) (well : d.WellFormed m)
    (fits : (m.text d.dump d.cameraUuid).length ≤ maxFrameBytes) (on : w'.on n = w.on n ++ [m])
    (not_detach : m ≠ .detach) {hdr text : List UInt8} (header : hdr.length = 4)
    (size : beValue hdr = text.length)
    (arrived : hdr ++ text <+: unread d.context n (s.write (m.encode d.dump d.cameraUuid))) :
    d.AtBoundary w' ((s.write (m.encode d.dump d.cameraUuid)).read (4 + text.length)) n ∧
      ∃ r, Answers d.dump d.cameraUuid d.server n (w.on n) m r ∧ text = d.server.dumps r.json := by
  obtain ⟨consistent, attached⟩ := boundary.messages_concat well fits not_detach
  -- All earlier replies have been received, so what is unread answers this message.
  have sent_back : unread d.context n (s.write (m.encode d.dump d.cameraUuid)) =
      (d.server.output n (d.wire (w.on n ++ [m]))).drop (d.server.output n (d.wire (w.on n))).length := by
    rw [← boundary.written_concat m, ← boundary.written, ← boundary.consumed]
    rfl
  have written := boundary.written_concat m
  have output : d.server.output n (d.wire (w.on n ++ [m])) = d.server.output n (d.wire (w.on n)) ∨ _ :=
    d.server.output_concat n consistent attached
  rw [sent_back] at arrived
  obtain same | ⟨r, answers, short, more⟩ := output
  · -- Without a reply there is nothing to read.
    rw [same, List.drop_length] at arrived
    have := arrived.length_le
    rw [List.length_append, List.length_nil] at this
    omega
  · obtain ⟨rest, split⟩ : hdr ++ text <+: be32 (d.server.dumps r.json).length ++ d.server.dumps r.json := by
      have behind : (d.server.output n (d.wire (w.on n ++ [m]))).drop
          (d.server.output n (d.wire (w.on n))).length = framed (d.server.dumps r.json) := by
        rw [Deployment.wire, Deployment.wire, more, List.drop_left]
      rwa [behind] at arrived
    -- The four bytes are the length of the reply, so the text is all of it.
    rw [List.append_assoc] at split
    obtain ⟨rfl, data⟩ := List.append_inj split header
    rw [beValue_be32 short] at size
    have whole : rest = [] := by
      have := congrArg List.length data
      rw [List.length_append] at this
      exact List.length_eq_zero_iff.mp (by omega)
    rw [whole, List.append_nil] at data
    refine ⟨⟨?_, ?_, ?_⟩, r, answers, data⟩
    · rw [on]
      exact written
    · have consumed : s.consumed = (d.server.output n (d.wire (w.on n))).length := by
        rw [← boundary.written, ← boundary.consumed]
      have total : (d.server.output n (d.wire (w.on n ++ [m]))).length =
          (d.server.output n (d.wire (w.on n))).length + (4 + text.length) := by
        rw [Deployment.wire, Deployment.wire, more, List.length_append, length_framed, data]
      have same_bytes : ((s.write (m.encode d.dump d.cameraUuid)).read (4 + text.length)).written =
          d.wire (w.on n ++ [m]) := written
      rw [same_bytes, total, ← consumed]
      rfl
    · rw [on]
      exact fun m' mem => ⟨consistent m' mem, attached m' mem⟩

/-! ## Every call -/

theorem tidy_perform (tidy : d.Tidy w) (well : d.WellFormed m) {r : Option Json}
    (result : perform d.context m w = (r, w')) :
    d.Tidy w' ∧ ∀ j, r = some j → ∃ s n reply, w'.Open s n ∧ s.written = d.wire (w.on n ++ [m]) ∧
      Answers d.dump d.cameraUuid d.server n (w.on n) m reply ∧
      d.parse (d.server.dumps reply.json) = some j := by
  have sound := sound_perform tidy.sound result
  cases perform_cases tidy.sound.settled result with
  | unsent closed => exact ⟨tidy_of_closed sound closed, nofun⟩
  | lost _ _ closed => exact ⟨tidy_of_closed sound closed, nofun⟩
  | @long _ s n connects =>
    -- Nothing has been written, on a connection that may be new.
    have boundary := tidy.connects connects
    have on := on_congr connects.log n
    refine ⟨tidy_of_open sound connects.is_open ⟨?_, boundary.consumed, ?_⟩, nofun⟩
    · rw [on, boundary.written]
    · rw [on]
      exact boundary.messages
  | @sent _ _ s n connects delivered fits is_open no_reply =>
    have boundary := tidy.connects connects
    have on : w'.on n = w.on n ++ [m] := delivered.on.trans (by rw [on_congr connects.log])
    exact ⟨tidy_of_open sound is_open (boundary.sent well fits on no_reply), nofun⟩
  | @answered _ _ s n hdr text connects delivered fits header size positive arrived is_open frame =>
    have boundary := tidy.connects connects
    have on : w'.on n = w.on n ++ [m] := delivered.on.trans (by rw [on_congr connects.log])
    have not_detach : m ≠ .detach := by
      obtain ⟨_, _, _, _, _, _, rfl⟩ := frame
      nofun
    obtain ⟨boundary', reply, answers, whole⟩ := boundary.answered well fits on not_detach header size arrived
    refine ⟨tidy_of_open sound is_open boundary', fun j parsed => ?_⟩
    exact ⟨_, n, reply, is_open, boundary.written_concat m, answers, whole ▸ parsed⟩

theorem tidy_start (clock : ℕ) (script : List (ℕ × Outcome)) : d.Tidy (World.start clock script) :=
  tidy_of_closed (sound_start clock script) ⟨rfl, rfl⟩

theorem tidy_after {calls : List ClientMessage} (tidy : d.Tidy w)
    (well : ∀ m ∈ calls, d.WellFormed m) : d.Tidy (after d.context w calls) := by
  induction calls generalizing w with
  | nil => exact tidy
  | cons m calls ih =>
    have tidy' := (tidy_perform tidy (well m List.mem_cons_self) (Prod.eta (perform d.context m w)).symm).1
    exact ih tidy' fun m' mem => well m' (List.mem_cons_of_mem m mem)

theorem disconnect_settled (settled : w.Settled) : (disconnect w).Closed := by
  obtain closed | ⟨s, n, is_open⟩ := settled
  · rwa [disconnect_closed closed]
  · exact (disconnect_open is_open).1

/-- After any public calls, whatever became of their system calls, either no socket is
    open or one is, with whole messages written and all replies received; and the JSON
    value that a frame call returns is the reply to its own frame. -/
theorem replies_paired (d : Deployment A) (clock : ℕ) (script : List (ℕ × Outcome))
    (calls : List ClientMessage) (well : ∀ m ∈ calls, d.WellFormed m) :
    let w := after d.context (World.start clock script) calls
    (w.Closed ∨ ∃ s n msgs, w.Open s n ∧ s.written = d.wire msgs ∧
      s.consumed = (d.server.output n s.written).length) ∧
    (disconnect w).Closed ∧
    ∀ frameId tsUs width h stride body, d.WellFormed (.frame frameId tsUs width h stride body) →
      ∀ j w', sendFrameAndRecv d.context frameId tsUs width h stride body w = (some j, w') →
        ∃ s n earlier r, w'.Open s n ∧
          s.written = d.wire (earlier ++ [.frame frameId tsUs width h stride body]) ∧
          Answers d.dump d.cameraUuid d.server n earlier (.frame frameId tsUs width h stride body) r ∧
          d.parse (d.server.dumps r.json) = some j ∧ r.id = Python.toInt (toDouble frameId) ∧
          (frameId.natAbs < 2 ^ 53 → r.id = frameId) := by
  intro w
  have tidy : d.Tidy w := tidy_after (tidy_start clock script) well
  refine ⟨?_, disconnect_settled tidy.sound.settled, ?_⟩
  · refine tidy.sound.settled.imp id fun ⟨s, n, is_open⟩ => ?_
    have boundary := tidy.boundary s n is_open
    exact ⟨s, n, w.on n, is_open, boundary.written, boundary.consumed⟩
  · intro frameId tsUs width h stride body well_frame j w' returned
    have call : perform d.context (.frame frameId tsUs width h stride body) w = (some j, w') := returned
    obtain ⟨s, n, r, is_open, written, answers, parsed⟩ := (tidy_perform tidy well_frame call).2 j rfl
    -- The id goes through a `double`, which holds 53 bits.
    have id : r.id = Python.toInt (toDouble frameId) := by simpa [incoming, Incoming.frameId?] using answers.id.symm
    refine ⟨s, n, w.on n, r, is_open, written, answers, parsed, id, fun small => ?_⟩
    rw [id, toDouble_of_small small, Python.toInt_intCast]

/-! ## An example -/

def emptyReply : Reply where
  cameraUuid := .str "cam"
  id := 7
  boxes := []
  inferMs := 0
  runtime := ""
  device := ""

/-- A client and a worker that only ever see the messages of the example. -/
def smallDeployment : Deployment Unit where
  dump := dumpText
  parse bytes := if bytes = dumpText emptyReply.json then some emptyReply.json else none
  socketPath := []
  cameraUuid := "cam"
  server := {
    loads := loadsSession
    dumps := dumpText
    env := loadedEnv
    behaviour := fun _ _ => carOrRaise true }

/-- Opening a socket, connecting, and sends and receives of at most 51 bytes each. -/
def smallScript : List (ℕ × Outcome) :=
  [(0, .fail), (1, .done 3), (1, .done 0)] ++ List.replicate 12 (1, .done 50)

theorem smallDeployment_wellFormed {m : ClientMessage} (mem : m ∈ session) : smallDeployment.WellFormed m :=
  ⟨(session_readable m mem).sized.text_pos, (session_readable m mem).parses, fun _ _ _ _ _ _ is_frame =>
    ((session_readable m mem).sized.body_size _ _ _ _ _ _ is_frame).2.2⟩

/-- A frame behind an `attach`, in short sends and receives. -/
theorem replies_paired_small : ∃ n earlier r, Answers dumpText "cam" smallDeployment.server n earlier
    (.frame 7 0 2 1 6 [10, 20, 30, 40, 50, 60]) r ∧ r.id = 7 := by
  have well : ∀ m ∈ [ClientMessage.attach], smallDeployment.WellFormed m := by
    intro m mem
    obtain rfl := List.mem_singleton.mp mem
    exact smallDeployment_wellFormed List.mem_cons_self
  have returned : (sendFrameAndRecv smallDeployment.context 7 0 2 1 6 [10, 20, 30, 40, 50, 60]
      (after smallDeployment.context (World.start 0 smallScript) [.attach])).1.isSome = true := by
    decide +kernel
  obtain ⟨j, some_reply⟩ := Option.isSome_iff_exists.mp returned
  obtain ⟨-, -, paired⟩ := replies_paired smallDeployment 0 smallScript [.attach] well
  obtain ⟨s, n, earlier, r, -, -, answers, -, -, same_id⟩ := paired 7 0 2 1 6 [10, 20, 30, 40, 50, 60]
    (smallDeployment_wellFormed (List.mem_cons_of_mem _ List.mem_cons_self)) j _ (Prod.ext some_reply rfl)
  exact ⟨n, earlier, r, answers, same_id (by decide)⟩

end VisionNx.Client
