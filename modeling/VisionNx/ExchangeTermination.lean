import VisionNx.FrameExchange

/-! # Every frame call returns

Both sides wait without a timeout, and the operating system decides how many bytes each
call moves and who goes first.  As long as the camera's frames fit, no schedule of the two
sides goes on forever, and none gets stuck before the call has returned or the connection
is closed. -/

namespace VisionNx.FrameExchange

open Worker TransitionRuns

variable {A : Type} {e : Endpoints A} {m : ClientMessage} {rest up : List (Part × UInt8)} {s s' : State A} {a : Action A}

/-! ## Steps within a call -/

/-- The steps of a call that is running; a side may only close because of what it has received. -/
def Action.Moves : Action A → Prop
  | .push _ _ | .clientCloses | .workerCloses => False
  | _ => True

def Move (e : Endpoints A) (s : State A) (a : Action A) (s' : State A) : Prop := a.Moves ∧ Step e s a s'

/-- The receives that are left. -/
def ReplyPart.stage : ReplyPart → ℕ
  | length => 2
  | payload _ => 1

def ClientPhase.stage : ClientPhase → ℕ
  | .receiving _ want _ => want.stage
  | _ => 0

def ClientPhase.unsent : ClientPhase → ℕ
  | .sending _ rest => rest.length
  | _ => 0

def Want.stage : Want → ℕ
  | length => 3
  | payload _ => 2
  | body _ _ => 1

def WorkerPhase.stage : WorkerPhase → ℕ
  | .receiving want _ => want.stage
  | _ => 0

def WorkerPhase.unsent : WorkerPhase → ℕ
  | .sending rest => rest.length
  | _ => 0

theorem stage_proceedReply {want : ReplyPart} {got : List UInt8} : (proceedReply m got want).stage < want.stage := by
  cases want with
  | length =>
    simp only [proceedReply]
    split
    · exact Nat.zero_lt_succ 1
    · exact Nat.lt_succ_self 1
  | payload n => exact Nat.zero_lt_one

theorem stage_proceed {loads : List UInt8 → Option Json} {want : Want} {got : List UInt8} :
    (proceed loads got want).stage < want.stage := by
  cases want with
  | length =>
    simp only [proceed]
    split
    · exact Nat.zero_lt_succ 2
    · exact Nat.lt_succ_self 2
  | payload n =>
    simp only [proceed]
    cases loads got with
    | none => exact Nat.zero_lt_succ 1
    | some json =>
      cases json with
      | obj msg =>
        simp only
        split
        · cases frameHeader msg with
          | none => exact Nat.zero_lt_succ 1
          | some hdr =>
            simp only
            split
            · exact Nat.zero_lt_succ 1
            · exact Nat.lt_succ_self 1
        · exact Nat.zero_lt_succ 1
      | null | bool _ | num _ | str _ | arr _ => exact Nat.zero_lt_succ 1
  | body msg hdr => exact Nat.zero_lt_one

theorem unsent_afterSend : (afterSend m rest).unsent = rest.length := by
  cases rest with
  | nil => rfl
  | cons byte rest => rfl

theorem unsent_afterReply {left : List UInt8} : (afterReply left).unsent = left.length := by
  cases left with
  | nil => rfl
  | cons byte left => rfl

/-! ## The worker has closed -/

/-- The client takes what has been sent, and then it waits or returns. -/
theorem terminates_of_closed (closed : s.worker = .closed) : Terminates (Move e) s := by
  let I (s : State A) : Prop := s.worker = .closed
  refine @terminates_of_measure _ _ (Move e) I (fun s => s.down.length + s.client.stage) ?_ s closed
  intro s a s' closed move
  obtain ⟨moves, step⟩ := move
  left
  cases step with
  | push | clientCloses | workerCloses => exact moves.elim
  | clientSend _ is_open => exact absurd closed is_open
  | clientRecv receiving wanted arrived =>
    refine ⟨closed, ?_⟩
    have some_bytes := List.length_pos_iff.mpr arrived
    simp only [receiving, ClientPhase.stage, List.length_drop]
    omega
  | clientProceed receiving complete =>
    refine ⟨closed, ?_⟩
    simp only [receiving]
    exact Nat.add_lt_add_left stage_proceedReply _
  | workerRecv receiving | workerProceed receiving => cases closed.symm.trans receiving
  | handle handling => cases closed.symm.trans handling
  | workerSend sending => cases closed.symm.trans sending

/-! ## A reply is on its way -/

/-- `Sound.reply` -/
structure Replying (s : State A) (left : List UInt8) : Prop where
  taken : s.up = []
  worker : s.worker = afterReply left
  hearing : Hearing left s.down s.client

theorem Replying.move {left : List UInt8} (replying : Replying s left) (move : Move e s a s') :
    (∃ left', Replying s' left') ∧
      2 * s'.worker.unsent + s'.down.length + s'.client.stage < 2 * s.worker.unsent + s.down.length + s.client.stage := by
  obtain ⟨taken, answering, hearing⟩ := replying
  obtain ⟨moves, step⟩ := move
  cases step with
  | push | clientCloses | workerCloses => exact moves.elim
  | clientSend sending =>
    rw [sending] at hearing
    cases hearing
  | clientRecv receiving wanted arrived =>
    rw [receiving] at hearing
    refine ⟨⟨left, taken, answering, hearing.clientRecv (by omega)⟩, ?_⟩
    have some_bytes := List.length_pos_iff.mpr arrived
    simp only [receiving, ClientPhase.stage, List.length_drop]
    omega
  | clientProceed receiving complete =>
    rw [receiving] at hearing
    refine ⟨⟨left, taken, answering, hearing.clientProceed complete⟩, ?_⟩
    simp only [receiving]
    exact Nat.add_lt_add_left stage_proceedReply _
  | workerRecv _ _ arrived => exact absurd taken arrived
  | workerProceed receiving complete =>
    cases left with
    | nil =>
      cases answering.symm.trans receiving
      exact absurd complete (by decide)
    | cons byte left => cases answering.symm.trans receiving
  | handle handling =>
    cases left with
    | nil => cases answering.symm.trans handling
    | cons byte left => cases answering.symm.trans handling
  | workerSend sending =>
    cases left with
    | nil => cases answering.symm.trans sending
    | cons byte left =>
      cases answering.symm.trans sending
      refine ⟨⟨_, taken, rfl, hearing.workerSend (List.cons_ne_nil _ _) _⟩, ?_⟩
      simp only [unsent_afterReply, answering, List.length_append, List.length_take, List.length_drop, List.length_cons]
      omega

theorem Replying.terminates {left : List UInt8} (replying : Replying s left) : Terminates (Move e) s := by
  let I (s : State A) : Prop := ∃ left, Replying s left
  refine @terminates_of_measure _ _ (Move e) I
    (fun s => 2 * s.worker.unsent + s.down.length + s.client.stage) ?_ s ⟨left, replying⟩
  intro s a s' replying move
  obtain ⟨left, replying⟩ := replying
  exact .inl (replying.move move)

/-! ## A message is on its way -/

/-- `Sound.request` -/
structure Calling (e : Endpoints A) (s : State A) (m : ClientMessage) (rest : List (Part × UInt8)) : Prop where
  requesting : Requesting e m rest s.up s.worker
  client : s.client = .closed ∨ s.client = afterSend m rest ∧ s.down = []

theorem Calling.move (calling : Calling e s m rest) (move : Move e s a s') :
    ((∃ m' rest', Calling e s' m' rest') ∧
      2 * s'.client.unsent + s'.up.length + s'.worker.stage < 2 * s.client.unsent + s.up.length + s.worker.stage) ∨
    Terminates (Move e) s' := by
  obtain ⟨requesting, client⟩ := calling
  obtain ⟨moves, step⟩ := move
  cases step with
  | push | clientCloses | workerCloses => exact moves.elim
  | @clientSend k m' rest' sending is_open =>
    cases client with
    | inl is_closed => cases is_closed.symm.trans sending
    | inr sent =>
      obtain ⟨at_call, none_down⟩ := sent
      obtain ⟨-, at_call⟩ | ⟨more, at_call⟩ := eq_of_afterSend at_call
      · cases at_call.symm.trans sending
      · cases at_call.symm.trans sending
        refine .inl ⟨⟨_, _, requesting.clientSend _, .inr ⟨rfl, none_down⟩⟩, ?_⟩
        have some_bytes := List.length_pos_iff.mpr more
        have unsent : s.client.unsent = rest.length := by rw [at_call, ClientPhase.unsent]
        simp only [unsent_afterSend, unsent, List.length_append, List.length_take, List.length_drop]
        omega
  | clientRecv receiving _ arrived =>
    cases client with
    | inl is_closed => cases is_closed.symm.trans receiving
    | inr sent => exact absurd sent.2 arrived
  | clientProceed receiving complete =>
    cases client with
    | inl is_closed => cases is_closed.symm.trans receiving
    | inr sent =>
      obtain ⟨-, at_call⟩ | ⟨-, at_call⟩ := eq_of_afterSend sent.1
      · cases at_call.symm.trans receiving
        exact absurd complete (by decide)
      · cases at_call.symm.trans receiving
  | workerRecv receiving wanted arrived =>
    rw [receiving] at requesting
    refine .inl ⟨⟨m, rest, requesting.workerRecv (by omega), client⟩, ?_⟩
    have some_bytes := List.length_pos_iff.mpr arrived
    simp only [receiving, WorkerPhase.stage, List.length_drop]
    omega
  | workerProceed receiving complete =>
    rw [receiving] at requesting
    cases requesting.workerProceed complete with
    | inl is_closed => exact .inr (terminates_of_closed is_closed)
    | inr further =>
      refine .inl ⟨⟨m, rest, further, client⟩, ?_⟩
      simp only [receiving]
      exact Nat.add_lt_add_left stage_proceed _
  | @handle b m' handling =>
    right
    rw [handling] at requesting
    obtain ⟨rfl, none_up, rfl⟩ := requesting.handled
    obtain ⟨frameId, tsUs, w, h, stride, body, rfl, -⟩ := requesting.sent.fits
    cases respond_frame e b s.serve _ _ _ with
    | inl is_closed => exact terminates_of_closed is_closed
    | inr answered =>
      obtain ⟨data, small, answered⟩ := answered
      refine @Replying.terminates A e _ (framed data) ⟨none_up, answered, ?_⟩
      cases client with
      | inl is_closed =>
        simp only [is_closed]
        exact .closed
      | inr sent =>
        simp only [sent]
        exact .receiving ⟨rfl, Nat.zero_le _⟩ small rfl
  | workerSend sending =>
    obtain ⟨-, read, -, reading⟩ := requesting
    rw [sending] at reading
    exact reading.elim

theorem Calling.terminates (calling : Calling e s m rest) : Terminates (Move e) s := by
  let I (s : State A) : Prop := ∃ m rest, Calling e s m rest
  refine @terminates_of_measure _ _ (Move e) I
    (fun s => 2 * s.client.unsent + s.up.length + s.worker.stage) ?_ s ⟨m, rest, calling⟩
  intro s a s' calling move
  obtain ⟨m, rest, calling⟩ := calling
  exact calling.move move

theorem Sound.terminates (sound : Sound e s) : Terminates (Move e) s := by
  cases sound with
  | refused closed => exact terminates_of_closed closed
  | request requesting client => exact Calling.terminates ⟨requesting, client⟩
  | reply left taken worker client => exact Replying.terminates ⟨taken, worker, client⟩

/-! ## No call gets stuck -/

/-- Third-party code that only raises. -/
def raising (A : Type) : Behaviour A where
  construct := fun _ => none
  load := fun adapter _ _ => (adapter, false)
  infer := fun _ _ _ _ _ => none
  inferMs := 0

theorem Calling.moves (calling : Calling e s m rest) :
    s.client = .closed ∨ s.worker = .closed ∨ ∃ a s', Move e s a s' := by
  obtain ⟨requesting, client⟩ := calling
  cases client with
  | inl is_closed => exact .inl is_closed
  | inr sent =>
    obtain ⟨rfl, -⟩ | ⟨-, at_call⟩ := eq_of_afterSend sent.1
    · cases worker : s.worker with
      | receiving want got =>
        refine .inr (.inr ?_)
        by_cases complete : want.size ≤ got.length
        · exact ⟨.workerProceed, _, trivial, .workerProceed worker complete⟩
        · refine ⟨.workerRecv 0, _, trivial, .workerRecv worker (Nat.lt_of_not_le complete) fun none_up => ?_⟩
          rw [none_up] at requesting
          exact requesting.not_blocked ⟨want, got, worker, Nat.lt_of_not_le complete⟩
      | handling m' => exact .inr (.inr ⟨.handle (raising A), _, trivial, .handle worker⟩)
      | sending left =>
        obtain ⟨-, read, -, reading⟩ := requesting
        rw [worker] at reading
        exact reading.elim
      | closed => exact .inr (.inl rfl)
    · by_cases is_closed : s.worker = .closed
      · exact .inr (.inl is_closed)
      · exact .inr (.inr ⟨.clientSend 0, _, trivial, .clientSend at_call is_closed⟩)

theorem Replying.moves {left : List UInt8} (replying : Replying s left) :
    s.client = .idle ∨ s.client = .closed ∨ ∃ a s', Move e s a s' := by
  obtain ⟨taken, answering, hearing⟩ := replying
  cases left with
  | cons byte left =>
    by_cases is_closed : s.client = .closed
    · exact .inr (.inl is_closed)
    · exact .inr (.inr ⟨.workerSend 0, _, trivial, .workerSend answering is_closed⟩)
  | nil =>
    generalize is : s.client = client at hearing
    cases hearing with
    | closed => exact .inr (.inl rfl)
    | idle => exact .inl rfl
    | @receiving m want got received data reading small stream =>
      refine .inr (.inr ?_)
      by_cases complete : want.size ≤ got.length
      · exact ⟨.clientProceed, _, trivial, .clientProceed is complete⟩
      · refine ⟨.clientRecv 0, _, trivial, .clientRecv is (Nat.lt_of_not_le complete) fun none_down => ?_⟩
        rw [none_down] at stream
        exact (Hearing.receiving reading small stream).not_blocked ⟨m, want, got, rfl, Nat.lt_of_not_le complete⟩

theorem Sound.returned (sound : Sound e s) (stuck : ∀ a s', ¬Move e s a s') :
    s.client = .idle ∨ s.client = .closed ∨ s.worker = .closed := by
  cases sound with
  | refused closed => exact .inr (.inr closed)
  | request requesting client =>
    obtain closed | closed | ⟨a, s', move⟩ := Calling.moves ⟨requesting, client⟩
    · exact .inr (.inl closed)
    · exact .inr (.inr closed)
    · exact absurd move (stuck a s')
  | reply left taken worker client =>
    obtain idle | closed | ⟨a, s', move⟩ := @Replying.moves A e s left ⟨taken, worker, client⟩
    · exact .inl idle
    · exact .inr (.inl closed)
    · exact absurd move (stuck a s')

/-! ## Every call -/

theorem sound_of_reaches {allowed : ℤ → VideoFrame → Prop} {serve : ServeState A} (trips : e.RoundTrips allowed)
    (fits : ∀ frameId f m, allowed frameId f → frameMessage frameId f = some m →
      (e.text m).length ≤ maxFrameBytes → BodyFits f) (reaches : e.Reaches allowed serve s) : Sound e s := by
  obtain ⟨actions, run⟩ := reaches
  refine run.invariant (fun s a s' sound step => ?_) (.reply [] rfl rfl (.idle rfl rfl))
  obtain ⟨delivers, step⟩ := step
  refine step.sound (fun frameId f m pushed passes short => ?_) sound
  subst pushed
  exact frameSent_of_bodyFits trips delivers passes short (fits frameId f m delivers passes short)

/-- As long as the frames fit, no schedule of the two sides goes on forever, and where neither
    can do anything more the call has returned or the connection is closed. -/
theorem frame_calls_return (e : Endpoints A) (allowed : ℤ → VideoFrame → Prop) (trips : e.RoundTrips allowed)
    (serve : ServeState A)
    (fits : ∀ frameId f m, allowed frameId f → frameMessage frameId f = some m →
      (e.text m).length ≤ maxFrameBytes → BodyFits f) (s : State A) (reaches : e.Reaches allowed serve s) :
    (¬∃ (states : ℕ → State A) (actions : ℕ → Action A), states 0 = s ∧
      ∀ i, Move e (states i) (actions i) (states (i + 1))) ∧
    ((∀ a s', ¬Move e s a s') → s.client = .idle ∨ s.client = .closed ∨ s.worker = .closed) := by
  have sound := sound_of_reaches trips fits reaches
  exact ⟨sound.terminates.no_infinite_run, sound.returned⟩

/-- From the moment at which the padded frame is on its way, every schedule ends. -/
theorem frame_calls_return_padded : ∃ s : State Unit, s.client.call?.isSome = true ∧
    ¬∃ (states : ℕ → State Unit) (actions : ℕ → Action Unit), states 0 = s ∧
      ∀ i, Move smallEndpoints (states i) (actions i) (states (i + 1)) := by
  have trips := smallEndpoints_roundTrips true
  have written := @reaches_written Unit smallEndpoints _ (fun frameId f => frameId = 1 ∧ f = rowsOfEight true) {} 1
    (rowsOfEight true) ⟨rfl, rfl⟩ (rowsOfEight_passes true) (smallEndpoints_text _).2
  refine ⟨_, rfl, (frame_calls_return smallEndpoints _ trips {} ?_ _ written).1⟩
  intro frameId f m is_allowed _ _
  obtain ⟨rfl, rfl⟩ := is_allowed
  exact .inl (by decide)

end VisionNx.FrameExchange
