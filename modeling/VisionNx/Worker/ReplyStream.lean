import Mathlib.Data.List.TakeWhile
import VisionNx.Worker.ServeContract

/-! # What the worker sends back

The replies of a connection, as bytes, are a function of the bytes it has received: the
read loop takes the messages off them and each frame among these is answered.  One more
message from the client adds its own reply to what was sent before, or nothing. -/

namespace VisionNx

/-! ## Replies as JSON -/

def Xyxy.json (b : Xyxy) : Json := .arr [.num b.x1, .num b.y1, .num b.x2, .num b.y2]

def Tracker.Box.json (b : Box) : Json :=
  .obj ([("xyxy", b.xyxy.json), ("score", .num b.score)] ++
    b.cls.toList.map (fun cls => ("cls", .num cls.toInt)) ++
    b.trackId.toList.map (fun tid => ("track_id", .num tid)))

namespace Worker

open MessageStream

def Reply.json (r : Reply) : Json :=
  .obj [("type", .str "result"), ("camera_uuid", r.cameraUuid), ("id", .num r.id),
    ("boxes", .arr (r.boxes.map Tracker.Box.json)), ("infer_ms", .num r.inferMs),
    ("runtime", .str r.runtime), ("device", .str r.device)]

/-- `send_msg`; `none` is the exception of `struct.pack` for a length above 32 bits. -/
def sendMsg (dumps : Json → List UInt8) (r : Reply) : Option (List UInt8) :=
  let data := dumps r.json
  if data.length < 2 ^ 32 then some (framed data) else none

/-- The bytes of the replies, up to one that cannot be sent. -/
def replyStream (dumps : Json → List UInt8) : List Reply → List UInt8
  | [] => []
  | r :: rs =>
    match sendMsg dumps r with
    | none => []
    | some bytes => bytes ++ replyStream dumps rs

/-- A worker: Python's JSON library, and what third-party code does on each message of
    each connection. -/
structure Server (A : Type) where
  loads : List UInt8 → Option Json
  dumps : Json → List UInt8
  env : Env A
  behaviour : ℕ → ℕ → Behaviour A

variable {A : Type}

/-- The messages that the bytes hold.  How they were chunked does not matter. -/
def Server.messages (server : Server A) (bytes : List UInt8) : List Incoming :=
  received server.loads (bytes.map fun byte => [byte])

def Server.events (server : Server A) (connection : ℕ) (messages : List Incoming) :
    List (Incoming × Behaviour A) :=
  messages.mapIdx fun i m => (m, server.behaviour connection i)

/-- What each message has caused once a connection got these bytes. -/
def Server.effects (server : Server A) (connection : ℕ) (bytes : List UInt8) : List Effects :=
  (run server.env {} (server.events connection (server.messages bytes))).2

def Server.output (server : Server A) (connection : ℕ) (bytes : List UInt8) : List UInt8 :=
  replyStream server.dumps ((server.effects connection bytes).flatMap (·.replies))

/-! ## One more message -/

theorem replyStream_concat (dumps : Json → List UInt8) (rs : List Reply) (r : Reply) :
    replyStream dumps (rs ++ [r]) = replyStream dumps rs ∨
      ((dumps r.json).length < 2 ^ 32 ∧
        replyStream dumps (rs ++ [r]) = replyStream dumps rs ++ framed (dumps r.json)) := by
  induction rs with
  | nil =>
    by_cases sent : (dumps r.json).length < 2 ^ 32
    · exact .inr ⟨sent, by simp only [List.nil_append, replyStream, sendMsg, if_pos sent, List.append_nil]⟩
    · exact .inl (by simp only [List.nil_append, replyStream, sendMsg, if_neg sent])
  | cons first rs ih =>
    rw [List.cons_append, replyStream, replyStream]
    cases sendMsg dumps first with
    | none => exact .inl rfl
    | some bytes =>
      refine ih.imp (fun same => ?_) fun ⟨sent, more⟩ => ⟨sent, ?_⟩
      · simp only [same]
      · simp only [more, List.append_assoc]

theorem handle_replies {env : Env A} {b : Behaviour A} {s s' : ServeState A} {m : Incoming}
    {effects : Effects} (handled : handle env b s m = some (s', effects)) :
    (m.frameId? = none → effects.replies = []) ∧
      ∀ id, m.frameId? = some id → ∃ r, effects.replies = [r] ∧ r.id = id := by
  cases m with
  | garbled =>
    cases handled
    exact ⟨fun _ => rfl, nofun⟩
  | frame msg hdr body =>
    cases handled
    refine ⟨nofun, fun id is_id => ⟨_, rfl, ?_⟩⟩
    cases is_id
    rfl
  | message msg =>
    refine ⟨fun _ => ?_, nofun⟩
    unfold handle at handled
    simp only at handled
    split at handled
    · cases handled
      rfl
    split at handled
    · cases handled
    split at handled
    · obtain ⟨_, _, same⟩ := Option.map_eq_some_iff.mp handled
      cases same
      rfl
    · cases handled
      rfl

/-- One more event is handled in the state that the others leave, if the loop gets to it. -/
theorem run_concat (env : Env A) (s : ServeState A) (events : List (Incoming × Behaviour A))
    (m : Incoming) (b : Behaviour A) :
    (run env s (events ++ [(m, b)])).2 = (run env s events).2 ∨
      ∃ s₁ s₂ effects, handle env b s₁ m = some (s₂, effects) ∧
        (run env s events).2.length = events.length ∧
        (run env s (events ++ [(m, b)])).2 = (run env s events).2 ++ [effects] := by
  induction events generalizing s with
  | nil =>
    cases handled : handle env b s m with
    | none => exact .inl (by simp [run, handled])
    | some result => exact .inr ⟨s, result.1, result.2, handled, rfl, by simp [run, handled]⟩
  | cons e events ih =>
    obtain ⟨m', b'⟩ := e
    rw [List.cons_append, run, run]
    cases handle env b' s m' with
    | none => exact .inl rfl
    | some result =>
      simp only
      obtain same | ⟨s₁, s₂, effects, handled, all, more⟩ := ih result.1
      · exact .inl (by rw [same])
      · exact .inr ⟨s₁, s₂, effects, handled, by simp [all], by rw [more, List.cons_append]⟩

/-! ## The client's messages on a connection -/

section

variable {dump : Json → List UInt8} {loads : List UInt8 → Option Json} {cameraUuid : String}

/-- A message whose body has the size that its header gives. -/
structure Consistent (dump : Json → List UInt8) (loads : List UInt8 → Option Json) (cameraUuid : String)
    (m : ClientMessage) : Prop where
  legible : Legible dump loads cameraUuid m
  body_size : ∀ frameId tsUs w h stride body, m = .frame frameId tsUs w h stride body →
    (body.length : ℤ) = h * stride

def sizeAllowed : ClientMessage → Bool
  | .frame _ _ _ h stride _ => 0 < h * stride ∧ h * stride ≤ maxBodyBytes
  | _ => true

theorem Consistent.readable {m : ClientMessage} (consistent : Consistent dump loads cameraUuid m)
    (allowed : sizeAllowed m = true) : Readable dump loads cameraUuid m where
  sized := {
    text_pos := consistent.legible.text_pos
    text_le := consistent.legible.text_le
    body_size := by
      rintro frameId tsUs w h stride body rfl
      have sizes : 0 < h * stride ∧ h * stride ≤ maxBodyBytes := by simpa [sizeAllowed] using allowed
      exact ⟨sizes.1, sizes.2, consistent.body_size _ _ _ _ _ _ rfl⟩ }
  parses := consistent.legible.parses

theorem readMessage_refused {m : ClientMessage} (legible : Legible dump loads cameraUuid m)
    (refused : sizeAllowed m = false) (tail : List UInt8) :
    readMessage takeExact loads (m.encode dump cameraUuid ++ tail) = none := by
  rw [ClientMessage.encode, List.append_assoc, readMessage_text legible]
  cases m with
  | attach | detach | config _ => cases refused
  | frame frameId tsUs w h stride body =>
    have sizes : h * stride ≤ 0 ∨ maxBodyBytes < h * stride := by
      simp only [sizeAllowed, decide_eq_false_iff_not] at refused
      omega
    exact if_pos sizes

/-- The worker reads the messages up to a frame whose size it refuses. -/
theorem received_wire {msgs : List ClientMessage}
    (consistent : ∀ m ∈ msgs, Consistent dump loads cameraUuid m) (attached : ∀ m ∈ msgs, m ≠ .detach) :
    received loads ((wire dump cameraUuid msgs).map fun byte => [byte]) =
      (msgs.takeWhile sizeAllowed).map (incoming cameraUuid) := by
  rw [received_eq loads (carries_bytes _)]
  have delimits := @readMessage_delimits dump loads cameraUuid
  have readable : ∀ m ∈ msgs.takeWhile sizeAllowed, Readable dump loads cameraUuid m := fun m mem =>
    (consistent m (List.takeWhile_subset _ mem)).readable (List.mem_takeWhile_imp mem)
  have going : ∀ m ∈ msgs.takeWhile sizeAllowed, (incoming cameraUuid m).isDetach = false := fun m mem =>
    Bool.eq_false_iff.mpr ((isDetach_incoming m).not.mpr (attached m (List.takeWhile_subset _ mem)))
  have split : wire dump cameraUuid msgs =
      wire dump cameraUuid (msgs.takeWhile sizeAllowed) ++
        wire dump cameraUuid (msgs.dropWhile sizeAllowed) := by
    rw [wire, wire, wire, ← List.flatMap_append, List.takeWhile_append_dropWhile]
  -- The first message behind them, if any, has a size that ends the loop.
  have refused : readMessage takeExact loads (wire dump cameraUuid (msgs.dropWhile sizeAllowed)) = none := by
    cases left : msgs.dropWhile sizeAllowed with
    | nil => exact delimits.empty
    | cons m rest =>
      have mem : m ∈ msgs := List.dropWhile_subset _ (left ▸ List.mem_cons_self)
      have not_allowed : sizeAllowed m = false := by
        have := List.head?_dropWhile_not sizeAllowed msgs
        simpa [left] using this
      rw [wire, List.flatMap_cons]
      exact readMessage_refused (consistent m mem).legible not_allowed _
  rw [split]
  refine delimits.decodeAll_refused readable going refused ?_
  rw [List.length_append]
  exact Nat.le_add_right _ _

/-- With one more message the worker reads what it read before, or that message as well. -/
theorem Server.messages_concat {server : Server A} {msgs : List ClientMessage} {m : ClientMessage}
    (consistent : ∀ m' ∈ msgs ++ [m], Consistent dump server.loads cameraUuid m')
    (attached : ∀ m' ∈ msgs ++ [m], m' ≠ .detach) :
    server.messages (wire dump cameraUuid (msgs ++ [m])) = server.messages (wire dump cameraUuid msgs) ∨
      (server.messages (wire dump cameraUuid msgs) = msgs.map (incoming cameraUuid) ∧
        server.messages (wire dump cameraUuid (msgs ++ [m])) =
          msgs.map (incoming cameraUuid) ++ [incoming cameraUuid m]) := by
  have before : server.messages (wire dump cameraUuid msgs) = _ :=
    received_wire (fun m' mem => consistent m' (List.mem_append_left _ mem))
      fun m' mem => attached m' (List.mem_append_left _ mem)
  have after : server.messages (wire dump cameraUuid (msgs ++ [m])) = _ := received_wire consistent attached
  rw [List.takeWhile_append] at after
  -- A refused message among the earlier ones has ended the loop already.
  by_cases all : (msgs.takeWhile sizeAllowed).length = msgs.length
  · have whole : msgs.takeWhile sizeAllowed = msgs := (List.takeWhile_prefix _).eq_of_length all
    rw [if_pos all] at after
    rw [whole] at before
    cases allowed : sizeAllowed m with
    | true => exact .inr ⟨before, by simpa [allowed] using after⟩
    | false => exact .inl (by simpa [before, allowed] using after)
  · rw [if_neg all] at after
    exact .inl (after.trans before.symm)

/-- `r` is what the worker answers on message `m`, which comes after `msgs`. -/
structure Answers (dump : Json → List UInt8) (cameraUuid : String) (server : Server A) (connection : ℕ)
    (msgs : List ClientMessage) (m : ClientMessage) (r : Reply) : Prop where
  read : server.messages (wire dump cameraUuid (msgs ++ [m])) =
    (msgs ++ [m]).map (incoming cameraUuid)
  replies : ∃ effects, effects.replies = [r] ∧
    (server.effects connection (wire dump cameraUuid (msgs ++ [m])))[msgs.length]? = some effects
  id : (incoming cameraUuid m).frameId? = some r.id

/-- One more message adds nothing to the output, or its reply. -/
theorem Server.output_concat {server : Server A} {msgs : List ClientMessage} {m : ClientMessage}
    (connection : ℕ) (consistent : ∀ m' ∈ msgs ++ [m], Consistent dump server.loads cameraUuid m')
    (attached : ∀ m' ∈ msgs ++ [m], m' ≠ .detach) :
    server.output connection (wire dump cameraUuid (msgs ++ [m])) =
        server.output connection (wire dump cameraUuid msgs) ∨
      ∃ r, Answers dump cameraUuid server connection msgs m r ∧ (server.dumps r.json).length < 2 ^ 32 ∧
        server.output connection (wire dump cameraUuid (msgs ++ [m])) =
          server.output connection (wire dump cameraUuid msgs) ++ framed (server.dumps r.json) := by
  obtain same | ⟨before, after⟩ := Server.messages_concat consistent attached
  · exact .inl (by rw [Server.output, Server.output, Server.effects, Server.effects, same])
  have read : server.messages (wire dump cameraUuid (msgs ++ [m])) =
    (msgs ++ [m]).map (incoming cameraUuid) := by
    rw [List.map_append]
    exact after
  have effects_before : server.effects connection (wire dump cameraUuid msgs) =
      (run server.env {} (server.events connection (msgs.map (incoming cameraUuid)))).2 := by
    rw [Server.effects, before]
  have effects_after : server.effects connection (wire dump cameraUuid (msgs ++ [m])) =
      (run server.env {} (server.events connection (msgs.map (incoming cameraUuid)) ++
        [(incoming cameraUuid m, server.behaviour connection msgs.length)])).2 := by
    rw [Server.effects, after, Server.events, Server.events, List.mapIdx_append]
    simp
  rw [Server.output, Server.output]
  rcases run_concat server.env {} (server.events connection (msgs.map (incoming cameraUuid)))
    (incoming cameraUuid m) (server.behaviour connection msgs.length) with
    same | ⟨s₁, s₂, effects, handled, all, more⟩
  · exact .inl (by rw [effects_after, effects_before, same])
  · rw [effects_after, effects_before, more, List.flatMap_append, List.flatMap_singleton]
    obtain ⟨silent, answered⟩ := handle_replies handled
    cases is_frame : (incoming cameraUuid m).frameId? with
    | none => exact .inl (by rw [silent is_frame, List.append_nil])
    | some frameId =>
      obtain ⟨r, replies, is_id⟩ := answered frameId is_frame
      -- Every message before it has left its effects, so its own stand at its index.
      have at_end : (server.effects connection (wire dump cameraUuid (msgs ++ [m])))[msgs.length]? =
          some effects := by
        have len : (run server.env {} (server.events connection (msgs.map (incoming cameraUuid)))).2.length =
            msgs.length := by
          rw [all]
          simp [Server.events]
        rw [effects_after, more, List.getElem?_append_right len.le, len, Nat.sub_self]
        rfl
      rw [replies]
      refine (replyStream_concat server.dumps _ r).imp id fun ⟨sent, stream⟩ => ⟨r, ?_, sent, stream⟩
      exact ⟨read, ⟨effects, replies, at_end⟩, by rw [is_frame, is_id]⟩

end

end Worker

end VisionNx
