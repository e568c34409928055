import VisionNx.Client.Calls
import VisionNx.Client.SharedSocket

/-! # From the client's writes to the worker's messages

What `writeFramed` and `writeRaw` put on a socket for a list of messages is what the read
loop of `serve` takes them off again, however the stream is chunked and wherever it is
cut. -/

namespace VisionNx.Worker

open Client

variable {ctx : Context} {w w' : World} {s : Socket} {n : ℕ}

/-- The messages one after the other, as long as none fails. -/
def writeAll (ctx : Context) : List ClientMessage → World → Bool × World
  | [], w => (true, w)
  | m :: msgs, w =>
    match writeFrame ctx m w with
    | (false, w) => (false, w)
    | (true, w) => writeAll ctx msgs w

/-- The messages that have been written are on the socket. -/
theorem writeAll_open {msgs : List ClientMessage} (is_open : w.Open s n) (written : writeAll ctx msgs w = (true, w')) :
    w'.Open (s.write (wire ctx.dump ctx.cameraUuid msgs)) n := by
  induction msgs generalizing w s with
  | nil =>
    cases written
    simpa [wire, Socket.write] using is_open
  | cons m msgs ih =>
    rw [writeAll] at written
    rcases result : writeFrame ctx m w with ⟨_ | _, w₁⟩
    · simp [result] at written
    · rw [result] at written
      obtain ⟨-, ⟨no, -⟩ | ⟨no, -⟩ | ⟨-, -, open₁⟩⟩ := writeFrame_cases is_open result
      · cases no
      · cases no
      · simpa [wire, Socket.write] using ih open₁ written

theorem flatten_writes (dump : Json → List UInt8) (cameraUuid : String) (msgs : List ClientMessage) :
    (msgs.flatMap (writes dump cameraUuid)).flatten = wire dump cameraUuid msgs := by
  induction msgs with
  | nil => rfl
  | cons m msgs ih => rw [List.flatMap_cons, List.flatten_append, writes_flatten, ih, wire, wire, List.flatMap_cons]

/-- The framing round trip: the client's writes make up the stream; however that is chunked, the worker
    gets exactly the messages and bodies the client wrote, and of a stream that is cut short exactly the
    complete ones. -/
theorem framing_round_trip (dump : Json → List UInt8) (loads : List UInt8 → Option Json)
    (cameraUuid : String) (msgs : List ClientMessage)
    (roundTrip : ∀ m ∈ msgs, loads (m.text dump cameraUuid) = some (.obj (m.fields cameraUuid)))
    (sized : ∀ m ∈ msgs, WellSized dump cameraUuid m) (last : ∀ m ∈ msgs.dropLast, m ≠ .detach) :
    (∀ sock : List (List UInt8), (∀ chunk ∈ sock, chunk ≠ []) →
      sock.flatten = wire dump cameraUuid msgs →
      received loads sock = msgs.map (incoming cameraUuid)) ∧
    (∀ (k : ℕ) (sock : List (List UInt8)), (∀ chunk ∈ sock, chunk ≠ []) →
      sock.flatten = (wire dump cameraUuid msgs).take k →
      ∃ n ≤ msgs.length, received loads sock = (msgs.take n).map (incoming cameraUuid) ∧
        (wire dump cameraUuid (msgs.take n)).length ≤ k ∧
        (n < msgs.length → k < (wire dump cameraUuid (msgs.take (n + 1))).length)) ∧
    (msgs.flatMap (writes dump cameraUuid)).flatten = wire dump cameraUuid msgs ∧
    ∀ (ctx : Context) (w w' : World) (s : Socket) (n : ℕ), ctx.dump = dump → ctx.cameraUuid = cameraUuid →
      w.Open s n → writeAll ctx msgs w = (true, w') →
      ∃ s', w'.Open s' n ∧ s'.written = s.written ++ wire dump cameraUuid msgs := by
  have readable : ∀ m ∈ msgs, Readable dump loads cameraUuid m :=
    fun m mem => ⟨sized m mem, roundTrip m mem⟩
  refine ⟨fun sock nonempty whole => ?_, fun k sock nonempty cut => ?_, flatten_writes dump cameraUuid msgs, ?_⟩
  · exact received_all readable last nonempty whole
  · exact received_prefix readable last nonempty cut
  · rintro ctx w w' s n rfl rfl is_open written
    exact ⟨_, writeAll_open is_open written, rfl⟩

def sessionContext : Context where
  dump := dumpText
  parse _ := none
  socketPath := []
  cameraUuid := "cam"
  peer _ _ := []

/-- A connection that takes seven bytes at a time. -/
def slowWorld : World where
  fd := some 3
  script := List.replicate 100 (1, .done 6)
  sockets := [{ fd := 3, connection := some 0 }]

theorem session_last : ∀ m ∈ session.dropLast, m ≠ .detach := by
  simp [session]

/-- A session that is sent seven bytes at a time and arrives one byte at a time. -/
theorem framing_round_trip_bytewise :
    received loadsSession ((wire dumpText "cam" session).map fun b => [b]) = session.map (incoming "cam") ∧
    ∃ w' s', writeAll sessionContext session slowWorld = (true, w') ∧ w'.Open s' 0 ∧
      s'.written = wire dumpText "cam" session := by
  have carries := carries_bytes (wire dumpText "cam" session)
  have round_trip := framing_round_trip dumpText loadsSession "cam" session
    (fun m mem => (session_readable m mem).parses) (fun m mem => (session_readable m mem).sized) session_last
  have whole := round_trip.1
  have sent := round_trip.2.2.2
  refine ⟨whole _ carries.nonempty carries.flatten, ?_⟩
  have is_open : slowWorld.Open { fd := 3, connection := some 0 } 0 := ⟨rfl, rfl, rfl⟩
  have written : (writeAll sessionContext session slowWorld).1 = true := by decide +kernel
  have result : writeAll sessionContext session slowWorld =
      (true, (writeAll sessionContext session slowWorld).2) := Prod.ext written rfl
  obtain ⟨s', is_open', bytes⟩ := sent sessionContext slowWorld _ _ 0 rfl rfl is_open result
  exact ⟨_, s', result, is_open', bytes⟩

end VisionNx.Worker
