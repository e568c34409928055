import VisionNx.Library.MessageStream
import VisionNx.Wire

/-! # The worker's read loop

`serve` reads a length, a JSON text and, after a frame's header, its body, each with
`recv_exact`.  What it hands to its branches depends on the bytes of the stream only,
not on the chunks they arrive in, and on a stream of the client's messages it is
exactly the messages that are complete. -/

namespace VisionNx.Worker

open MessageStream

/-! ## Receiving -/

/-- `sock.recv(n)` on a stream that arrives in chunks: no more than `n` bytes of the next
    one, and no bytes at the end of the stream. -/
def recv (n : ℕ) : List (List UInt8) → List UInt8 × List (List UInt8)
  | [] => ([], [])
  | chunk :: rest =>
    if chunk.length ≤ n then (chunk, rest) else (chunk.take n, chunk.drop n :: rest)

/-- The loop of `recv_exact`.  Every round but the last receives a byte, so there are at
    most as many as bytes are asked for. -/
def recvLoop : ℕ → ℕ → List UInt8 → List (List UInt8) → List UInt8 × List (List UInt8)
  | 0, _, received, sock => (received, sock)
  | fuel + 1, remaining, received, sock =>
    if remaining = 0 then (received, sock)
    else
      let (chunk, sock') := recv remaining sock
      if chunk.isEmpty then ([], sock')
      else recvLoop fuel (remaining - chunk.length) (received ++ chunk) sock'

def recvExact (n : ℕ) (sock : List (List UInt8)) : List UInt8 × List (List UInt8) :=
  recvLoop n n [] sock

/-! ## One message -/

structure FrameHeader where
  w : ℤ
  h : ℤ
  stride : ℤ
  id : ℤ
  deriving DecidableEq

/-- What the loop hands to the branches of `serve`. -/
inductive Incoming where
  | garbled
  | message (msg : List (String × Json))
  | frame (msg : List (String × Json)) (hdr : FrameHeader) (body : List UInt8)

def maxBodyBytes : ℤ := 128 * 1024 * 1024

/-- `mtype == t`. -/
def typeIs (t : String) (msg : List (String × Json)) : Bool :=
  match Json.lookup "type" msg with
  | some (.str s) => s == t
  | _ => false

/-- The header fields of a frame; `none` is an exception of `int`. -/
def frameHeader (msg : List (String × Json)) : Option FrameHeader := do
  let w ← ((Json.lookup "w" msg).getD (.num 0)).toInt?
  let h ← ((Json.lookup "h" msg).getD (.num 0)).toInt?
  let stride ← ((Json.lookup "stride" msg).getD (.num (w * 3 : ℤ))).toInt?
  let id ← ((Json.lookup "id" msg).getD (.num 0)).toInt?
  return { w, h, stride, id }

/-- One round of the loop, up to the branches; `none` when the loop breaks or the round
    raises. -/
def readMessage {σ : Type*} (recvExact : ℕ → σ → List UInt8 × σ) (loads : List UInt8 → Option Json)
    (sock : σ) : Option (Incoming × σ) :=
  let (hdr, sock) := recvExact 4 sock
  if hdr.length < 4 then none
  else
    let length := beValue hdr
    -- A length out of range is logged, and the loop breaks.
    if length = 0 ∨ maxFrameBytes < length then none
    else
      let (payload, sock) := recvExact length sock
      if payload.length < length then none
      else
        match loads payload with
        -- Bad JSON is logged and skipped.
        | none => some (.garbled, sock)
        | some (.obj msg) =>
          if typeIs "frame" msg then
            match frameHeader msg with
            | none => none
            | some header =>
              let bodySize := header.h * header.stride
              if bodySize ≤ 0 ∨ maxBodyBytes < bodySize then none
              else
                let (body, sock) := recvExact bodySize.toNat sock
                if body.length < bodySize.toNat then none else some (.frame msg header body, sock)
          else some (.message msg, sock)
        -- Only a dictionary has `get`.
        | some _ => none

def Incoming.isDetach : Incoming → Bool
  | message msg => typeIs "detach" msg
  | _ => false

/-- The messages that reach the branches; `detach` ends the loop.  A message takes at
    least one byte off the stream. -/
def received (loads : List UInt8 → Option Json) (sock : List (List UInt8)) : List Incoming :=
  decodeAll (readMessage recvExact loads) Incoming.isDetach sock.flatten.length sock

/-! ## Chunks do not matter -/

def takeExact (n : ℕ) (bytes : List UInt8) : List UInt8 × List UInt8 :=
  if n ≤ bytes.length then (bytes.take n, bytes.drop n) else ([], [])

/-- The bytes still to come, in chunks that are not empty. -/
structure Carries (sock : List (List UInt8)) (bytes : List UInt8) : Prop where
  flatten : sock.flatten = bytes
  nonempty : ∀ chunk ∈ sock, chunk ≠ []

theorem recv_carries {n : ℕ} {sock : List (List UInt8)} {bytes : List UInt8} (carries : Carries sock bytes)
    (wanted : 0 < n) (more : bytes ≠ []) :
    (recv n sock).1 ≠ [] ∧ (recv n sock).1.length ≤ n ∧
      ∃ rest, Carries (recv n sock).2 rest ∧ bytes = (recv n sock).1 ++ rest := by
  cases sock with
  | nil =>
    have := carries.flatten
    simp_all
  | cons chunk sock =>
    have filled := carries.nonempty chunk List.mem_cons_self
    have others : ∀ c ∈ sock, c ≠ [] := fun c mem => carries.nonempty c (List.mem_cons_of_mem _ mem)
    have split : bytes = chunk ++ sock.flatten := by rw [← carries.flatten, List.flatten_cons]
    -- A chunk that is too long is cut, and its rest stays in front.
    by_cases fits : chunk.length ≤ n
    · rw [recv, if_pos fits]
      exact ⟨filled, fits, _, ⟨rfl, others⟩, split⟩
    · rw [recv, if_neg fits]
      refine ⟨?_, ?_, chunk.drop n ++ sock.flatten, ⟨rfl, ?_⟩, ?_⟩
      · intro none_taken
        cases List.take_eq_nil_iff.mp none_taken with
        | inl zero => omega
        | inr no_chunk => exact filled no_chunk
      · exact List.length_take_le n chunk
      · rintro c (_ | ⟨_, mem⟩)
        · simpa using fits
        · exact others c mem
      · rw [← List.append_assoc, List.take_append_drop, split]

theorem recvLoop_carries {fuel remaining : ℕ} {acc : List UInt8} {sock : List (List UInt8)}
    {bytes : List UInt8} (carries : Carries sock bytes) (enough : remaining ≤ fuel) :
    if remaining ≤ bytes.length then
      (recvLoop fuel remaining acc sock).1 = acc ++ bytes.take remaining ∧
        Carries (recvLoop fuel remaining acc sock).2 (bytes.drop remaining)
    else recvLoop fuel remaining acc sock = ([], []) := by
  -- Each round takes a byte at least, so `remaining` drops along with the fuel.
  induction fuel generalizing remaining acc sock bytes with
  | zero =>
    obtain rfl : remaining = 0 := by omega
    simpa [recvLoop] using carries
  | succ fuel ih =>
    by_cases done : remaining = 0
    · simpa [recvLoop, done] using carries
    by_cases more : bytes = []
    · -- The stream has ended before the last byte.
      have closed : sock = [] := by
        cases sock with
        | nil => rfl
        | cons chunk sock =>
          have := carries.flatten
          have := carries.nonempty chunk List.mem_cons_self
          simp_all
      subst more closed
      simp [recvLoop, recv, done]
    · obtain ⟨some_bytes, bounded, rest, carries', split⟩ :=
        recv_carries carries (Nat.pos_of_ne_zero done) more
      have one_round : recvLoop (fuel + 1) remaining acc sock =
          recvLoop fuel (remaining - (recv remaining sock).1.length) (acc ++ (recv remaining sock).1)
            (recv remaining sock).2 := by
        simp [recvLoop, done, some_bytes]
      have positive : 0 < (recv remaining sock).1.length := List.length_pos_iff.mpr some_bytes
      have step := @ih (remaining - (recv remaining sock).1.length)
        (acc ++ (recv remaining sock).1) _ _ carries' (by omega)
      rw [one_round]
      generalize recv remaining sock = chunk at *
      subst split
      by_cases fits : remaining ≤ (chunk.1 ++ rest).length
      · rw [if_pos fits]
        rw [if_pos (by rw [List.length_append] at fits; omega)] at step
        rw [List.take_append, List.take_of_length_le bounded, List.drop_append,
          List.drop_of_length_le bounded]
        simpa using step
      · rw [if_neg fits]
        rwa [if_neg (by rw [List.length_append] at fits; omega)] at step

theorem recvExact_carries (n : ℕ) {sock : List (List UInt8)} {bytes : List UInt8}
    (carries : Carries sock bytes) :
    (recvExact n sock).1 = (takeExact n bytes).1 ∧ Carries (recvExact n sock).2 (takeExact n bytes).2 := by
  have loop := @recvLoop_carries n n [] _ _ carries le_rfl
  unfold takeExact
  by_cases fits : n ≤ bytes.length
  · rw [if_pos fits] at loop ⊢
    simpa [recvExact] using loop
  · rw [if_neg fits] at loop ⊢
    rw [recvExact, loop]
    exact ⟨rfl, rfl, by simp⟩

/-- One round takes the same message from the chunks as from their bytes. -/
theorem readMessage_carries (loads : List UInt8 → Option Json) {sock : List (List UInt8)}
    {bytes : List UInt8} (carries : Carries sock bytes) :
    Option.Rel (fun x y => x.1 = y.1 ∧ Carries x.2 y.2) (readMessage recvExact loads sock)
      (readMessage takeExact loads bytes) := by
  obtain ⟨same_hdr, carries₁⟩ := recvExact_carries 4 carries
  simp only [readMessage, same_hdr]
  split
  · exact .none
  split
  · exact .none
  generalize beValue (takeExact 4 bytes).1 = length
  obtain ⟨same_payload, carries₂⟩ := recvExact_carries length carries₁
  simp only [same_payload]
  split
  · exact .none
  cases loads (takeExact length (takeExact 4 bytes).2).1 with
  | none => exact .some ⟨rfl, carries₂⟩
  | some json =>
    cases json with
    | obj msg =>
      simp only
      split
      · cases frameHeader msg with
        | none => exact .none
        | some header =>
          simp only
          split
          · exact .none
          obtain ⟨same_body, carries₃⟩ := recvExact_carries (header.h * header.stride).toNat carries₂
          simp only [same_body]
          split
          · exact .none
          · exact .some ⟨rfl, carries₃⟩
      · exact .some ⟨rfl, carries₂⟩
    | null | bool _ | num _ | str _ | arr _ => exact .none

theorem carries_bytes (bytes : List UInt8) : Carries (bytes.map fun byte => [byte]) bytes := by
  refine ⟨?_, by simp⟩
  induction bytes with
  | nil => rfl
  | cons byte bytes ih => simp [ih]

theorem received_eq (loads : List UInt8 → Option Json) {sock : List (List UInt8)} {bytes : List UInt8}
    (carries : Carries sock bytes) :
    received loads sock = decodeAll (readMessage takeExact loads) Incoming.isDetach bytes.length bytes := by
  rw [received, carries.flatten]
  exact decodeAll_congr (fun _ _ related => readMessage_carries loads related) _ _ carries

/-! ## The client's messages -/

section

variable {dump : Json → List UInt8} {loads : List UInt8 → Option Json} {cameraUuid : String}

/-- What the worker makes of a client's message. -/
def incoming (cameraUuid : String) : ClientMessage → Incoming
  | .frame frameId tsUs w h stride body =>
    .frame (ClientMessage.fields cameraUuid (.frame frameId tsUs w h stride body))
      ⟨w, h, stride, Python.toInt (toDouble frameId)⟩ body
  | m => .message (m.fields cameraUuid)

/-- The sizes of a message are within the worker's limits, and a frame's body has the
    size that its header gives. -/
structure WellSized (dump : Json → List UInt8) (cameraUuid : String) (m : ClientMessage) : Prop where
  text_pos : 1 ≤ (m.text dump cameraUuid).length
  text_le : (m.text dump cameraUuid).length ≤ maxFrameBytes
  body_size : ∀ frameId tsUs w h stride body, m = .frame frameId tsUs w h stride body →
    0 < h * stride ∧ h * stride ≤ maxBodyBytes ∧ (body.length : ℤ) = h * stride

/-- A message within the limits whose text the worker parses back. -/
structure Readable (dump : Json → List UInt8) (loads : List UInt8 → Option Json) (cameraUuid : String)
    (m : ClientMessage) : Prop where
  sized : WellSized dump cameraUuid m
  parses : loads (m.text dump cameraUuid) = some (.obj (m.fields cameraUuid))

/-- A message whose text has an allowed length and is parsed back. -/
structure Legible (dump : Json → List UInt8) (loads : List UInt8 → Option Json) (cameraUuid : String)
    (m : ClientMessage) : Prop where
  text_pos : 1 ≤ (m.text dump cameraUuid).length
  text_le : (m.text dump cameraUuid).length ≤ maxFrameBytes
  parses : loads (m.text dump cameraUuid) = some (.obj (m.fields cameraUuid))

theorem Readable.legible {m : ClientMessage} (readable : Readable dump loads cameraUuid m) :
    Legible dump loads cameraUuid m :=
  ⟨readable.sized.text_pos, readable.sized.text_le, readable.parses⟩

theorem takeExact_append {n : ℕ} {front : List UInt8} (len : front.length = n) (rest : List UInt8) :
    takeExact n (front ++ rest) = (front, rest) := by
  subst len
  simp [takeExact]

theorem takeExact_short {n : ℕ} {bytes : List UInt8} (short : bytes.length < n) :
    takeExact n bytes = ([], []) :=
  if_neg (Nat.not_le.mpr short)

theorem frameHeader_fields (frameId tsUs w h stride : ℤ) (body : List UInt8) :
    frameHeader (ClientMessage.fields cameraUuid (.frame frameId tsUs w h stride body)) =
      some ⟨w, h, stride, Python.toInt (toDouble frameId)⟩ := by
  simp [frameHeader, ClientMessage.fields, Json.lookup, Json.toInt?]

theorem typeIs_fields (t : String) (m : ClientMessage) :
    typeIs t (m.fields cameraUuid) = match m with
      | .attach => "attach" == t
      | .detach => "detach" == t
      | .config _ => "config" == t
      | .frame .. => "frame" == t := by
  have ne : "camera_uuid" ≠ "type" := by decide
  cases m with
  | frame => simp [typeIs, ClientMessage.fields, Json.lookup]
  | attach | detach | config _ =>
    simp [typeIs, ClientMessage.fields, Json.lookup_set_of_ne ne]

/-- A round that finds the text of a client's message in the stream. -/
theorem readMessage_text {m : ClientMessage} (legible : Legible dump loads cameraUuid m)
    (tail : List UInt8) :
    readMessage takeExact loads (framed (m.text dump cameraUuid) ++ tail) =
      match m with
      | .frame frameId tsUs w h stride body =>
        if h * stride ≤ 0 ∨ maxBodyBytes < h * stride then none
        else
          let (body', rest) := takeExact (h * stride).toNat tail
          if body'.length < (h * stride).toNat then none
          else some (.frame (ClientMessage.fields cameraUuid (.frame frameId tsUs w h stride body))
            ⟨w, h, stride, Python.toInt (toDouble frameId)⟩ body', rest)
      | m => some (.message (m.fields cameraUuid), tail) := by
  have small : (m.text dump cameraUuid).length < 2 ^ 32 := legible.text_le.trans_lt (by decide)
  have positive := legible.text_pos
  have bounded := legible.text_le
  rw [framed, List.append_assoc, readMessage, takeExact_append (length_be32 _)]
  simp only [length_be32, lt_irrefl, if_false, beValue_be32 small]
  rw [if_neg (by omega), takeExact_append rfl]
  simp only [lt_irrefl, if_false, legible.parses, typeIs_fields]
  cases m with
  | attach | detach | config _ => simp
  | frame frameId tsUs w h stride body => simp only [frameHeader_fields, beq_self_eq_true, if_true]

theorem readMessage_cut {m : ClientMessage} (legible : Legible dump loads cameraUuid m)
    {p : List UInt8} (cut : p <+: framed (m.text dump cameraUuid))
    (short : p.length < (framed (m.text dump cameraUuid)).length) :
    readMessage takeExact loads p = none := by
  have small : (m.text dump cameraUuid).length < 2 ^ 32 := legible.text_le.trans_lt (by decide)
  have positive := legible.text_pos
  have bounded := legible.text_le
  by_cases no_length : p.length < 4
  · simp [readMessage, takeExact_short no_length]
  · obtain ⟨q, rfl⟩ : be32 (m.text dump cameraUuid).length <+: p := by
      refine (List.prefix_or_prefix_of_prefix cut (List.prefix_append _ _)).elim (fun inside => ?_) id
      have whole := inside.eq_of_length (le_antisymm inside.length_le (by simpa using no_length))
      exact ⟨[], by rw [List.append_nil, whole]⟩
    rw [length_framed, List.length_append, length_be32] at short
    rw [readMessage, takeExact_append (length_be32 _)]
    simp only [length_be32, lt_irrefl, if_false, beValue_be32 small]
    rw [if_neg (by omega), takeExact_short (by omega), if_pos (by simp only [List.length_nil]; omega)]

/-- The stream of a client's message is read as that message, and no part of it is. -/
theorem readMessage_delimits :
    Delimits (readMessage takeExact loads) (ClientMessage.encode dump cameraUuid)
      (incoming cameraUuid) (Readable dump loads cameraUuid) where
  complete m rest readable := by
    rw [ClientMessage.encode, List.append_assoc, readMessage_text readable.legible]
    cases m with
    | attach | detach | config _ => rfl
    | frame frameId tsUs w h stride body =>
      obtain ⟨positive, bounded, len⟩ := readable.sized.body_size _ _ _ _ _ _ rfl
      have len' : body.length = (h * stride).toNat := by omega
      have accepted : ¬ (h * stride ≤ 0 ∨ maxBodyBytes < h * stride) := by omega
      simp [ClientMessage.body, takeExact_append len', len', incoming, accepted]
  incomplete m p readable cut ne := by
    rw [ClientMessage.encode] at cut ne
    by_cases text : framed (m.text dump cameraUuid) <+: p
    · -- The cut is inside the body.
      obtain ⟨q, rfl⟩ := text
      have inside : q <+: m.body := (List.prefix_append_right_inj _).mp cut
      have part : q ≠ m.body := fun same => ne (same ▸ rfl)
      have short : q.length < m.body.length :=
        lt_of_le_of_ne inside.length_le fun same => part (inside.eq_of_length same)
      rw [readMessage_text readable.legible]
      cases m with
      | attach | detach | config _ => exact absurd short (Nat.not_lt_zero _)
      | frame frameId tsUs w h stride body =>
        obtain ⟨_, _, len⟩ := readable.sized.body_size _ _ _ _ _ _ rfl
        have short' : q.length < (h * stride).toNat := by
          rw [ClientMessage.body] at short
          omega
        simp [takeExact_short short', Nat.zero_lt_of_lt short']
    · have inside : p <+: framed (m.text dump cameraUuid) :=
        (List.prefix_or_prefix_of_prefix cut (List.prefix_append _ _)).resolve_right text
      refine readMessage_cut readable.legible inside (lt_of_le_of_ne inside.length_le fun same => text ?_)
      exact ⟨[], by rw [List.append_nil, inside.eq_of_length same]⟩
  empty := by
    simp [readMessage, takeExact]

def wire (dump : Json → List UInt8) (cameraUuid : String) (msgs : List ClientMessage) : List UInt8 :=
  msgs.flatMap (ClientMessage.encode dump cameraUuid)

theorem isDetach_incoming (m : ClientMessage) :
    (incoming cameraUuid m).isDetach = true ↔ m = .detach := by
  cases m with
  | frame => simp [incoming, Incoming.isDetach]
  | attach | detach | config _ => simp [incoming, Incoming.isDetach, typeIs_fields]

/-- The worker reads exactly the messages that were complete when the stream ended. -/
theorem received_prefix {msgs : List ClientMessage}
    (readable : ∀ m ∈ msgs, Readable dump loads cameraUuid m) (last : ∀ m ∈ msgs.dropLast, m ≠ .detach)
    {sock : List (List UInt8)} (nonempty : ∀ chunk ∈ sock, chunk ≠ []) {k : ℕ}
    (cut : sock.flatten = (wire dump cameraUuid msgs).take k) :
    ∃ n ≤ msgs.length, received loads sock = (msgs.take n).map (incoming cameraUuid) ∧
      (wire dump cameraUuid (msgs.take n)).length ≤ k ∧
      (n < msgs.length → k < (wire dump cameraUuid (msgs.take (n + 1))).length) := by
  rw [received_eq loads ⟨cut, nonempty⟩]
  have last' : ∀ m ∈ msgs.dropLast, (incoming cameraUuid m).isDetach = false := by
    intro m mem
    exact Bool.eq_false_iff.mpr ((isDetach_incoming m).not.mpr (last m mem))
  obtain ⟨n, bound, read, fits, maximal⟩ :=
    readMessage_delimits.decodeAll_prefix readable last' le_rfl (List.take_prefix k _)
  rw [List.length_take] at fits maximal
  refine ⟨n, bound, read, fits.trans (min_le_left _ _), fun lt => ?_⟩
  -- A cut behind the last byte cuts nothing.
  cases min_lt_iff.mp (maximal lt) with
  | inl inside => exact inside
  | inr behind => exact absurd behind (Nat.not_lt.mpr (length_flatMap_take_le _ msgs (n + 1)))

theorem received_all {msgs : List ClientMessage}
    (readable : ∀ m ∈ msgs, Readable dump loads cameraUuid m) (last : ∀ m ∈ msgs.dropLast, m ≠ .detach)
    {sock : List (List UInt8)} (nonempty : ∀ chunk ∈ sock, chunk ≠ [])
    (whole : sock.flatten = wire dump cameraUuid msgs) :
    received loads sock = msgs.map (incoming cameraUuid) := by
  rw [received_eq loads ⟨whole, nonempty⟩]
  refine readMessage_delimits.decodeAll_all readable (fun m mem => ?_) le_rfl
  exact Bool.eq_false_iff.mpr ((isDetach_incoming m).not.mpr (last m mem))

end

/-! ## An example connection -/

def session : List ClientMessage := [.attach, .frame 7 0 2 1 6 [10, 20, 30, 40, 50, 60], .detach]

def loadsSession (bytes : List UInt8) : Option Json :=
  (session.find? fun m => m.text dumpText "cam" == bytes).map fun m => .obj (m.fields "cam")

theorem session_readable : ∀ m ∈ session, Readable dumpText loadsSession "cam" m := by
  have attach_frame : (ClientMessage.text dumpText "cam" .attach ==
      ClientMessage.text dumpText "cam" (.frame 7 0 2 1 6 [10, 20, 30, 40, 50, 60])) = false := by
    decide +kernel
  have attach_detach : (ClientMessage.text dumpText "cam" .attach ==
      ClientMessage.text dumpText "cam" .detach) = false := by
    decide +kernel
  have frame_detach : (ClientMessage.text dumpText "cam" (.frame 7 0 2 1 6 [10, 20, 30, 40, 50, 60]) ==
      ClientMessage.text dumpText "cam" .detach) = false := by
    decide +kernel
  intro m mem
  simp only [session, List.mem_cons, List.not_mem_nil, or_false] at mem
  obtain rfl | rfl | rfl := mem
  · refine ⟨⟨by decide +kernel, by decide +kernel, by rintro _ _ _ _ _ _ ⟨⟩⟩, ?_⟩
    simp only [loadsSession, session, List.find?_cons, beq_self_eq_true, Option.map_some]
  · refine ⟨⟨by decide +kernel, by decide +kernel, by rintro _ _ _ _ _ _ ⟨⟩; decide⟩, ?_⟩
    simp only [loadsSession, session, List.find?_cons, attach_frame, beq_self_eq_true, Option.map_some]
  · refine ⟨⟨by decide +kernel, by decide +kernel, by rintro _ _ _ _ _ _ ⟨⟩⟩, ?_⟩
    simp only [loadsSession, session, List.find?_cons, attach_detach, frame_detach, beq_self_eq_true,
      Option.map_some]

end VisionNx.Worker
