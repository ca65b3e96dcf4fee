import RoomRelay.Proofs.Answer
import RoomRelay.Proofs.Packet
import RoomRelay.Proofs.Slate

/-!
# Used buffers

A worker receives every datagram into the same buffer, rewrites it there when it relays a packet,
and writes all its answers on the same slate. Whatever earlier datagrams have left in either is
never seen: a datagram is dispatched as it would be on a copy of its own and with a writer of its
own.
-/

namespace RoomRelay

/-- A slate that is kept from one datagram to the next, and the datagram at hand. -/
structure Desk where
  slate : Wire.Slate
  datagram : List UInt8

namespace Desk

/-- What dispatching sees of a desk. -/
def scratch (desk : Desk) : Scratch := ⟨desk.slate.toWriter, desk.datagram⟩

/-- Sends what a script leaves on the slate; nothing if the script fails. -/
def write (desk : Desk) (recipient : SocketAddress) (script : Wire.Slate.Script) :
    Desk × List Frame :=
  match script desk.slate with
  | .ok () slate => ({ desk with slate }, [⟨recipient, slate.written⟩])
  | .error _ slate => ({ desk with slate }, [])

/-- Sends a frame cut from the datagram to a list of addresses; nothing if the datagram does not
reach far enough. -/
def relay (desk : Desk) (recipients : List SocketAddress)
    (cut? : List UInt8 → Option Wire.Cut) : Desk × List Frame :=
  match cut? desk.datagram with
  | some cut => ({ desk with datagram := cut.buffer }, recipients.map (⟨·, cut.frame⟩))
  | none => (desk, [])

/-- Whether the same was sent from a desk and from a scratch, and the same is left. -/
def Sends (sent : Desk × List Frame) (sent' : Scratch × List Frame) : Prop :=
  sent.1.scratch = sent'.1 ∧ sent.2 = sent'.2

variable {desk : Desk} {recipient : SocketAddress}

theorem sends_write {script : Wire.Slate.Script}
    {encode : Wire.Writer → Except Wire.Error Wire.Writer} {written : Wire.Writer}
    (h : Wire.Slate.Implements script encode) (hencode : encode desk.slate.toWriter = .ok written) :
    Sends (desk.write recipient script) (desk.scratch.write recipient encode) := by
  obtain ⟨slate, hscript, rfl⟩ := h.of_ok hencode
  have hencode : encode desk.scratch.writer = .ok slate.toWriter := hencode
  rw [write, Scratch.write, hscript, hencode]
  exact ⟨rfl, rfl⟩

theorem sends_record {α : Type} {record : Wire.Record α} (h : record.size ≤ Wire.maxDatagram)
    (message : α) :
    Sends (desk.write recipient (record.inscribe message))
      (desk.scratch.write recipient (record.encode message)) := by
  obtain ⟨_, hencode, -⟩ := record.encode_eq_bytes message desk.slate.toWriter h
  exact sends_write (record.implements_inscribe message) hencode

theorem sends_relay (recipients : List SocketAddress) (cut? : List UInt8 → Option Wire.Cut) :
    Sends (desk.relay recipients cut?) (desk.scratch.relay recipients cut?) := by
  have hdatagram : desk.scratch.datagram = desk.datagram := rfl
  rw [relay, Scratch.relay, hdatagram]
  cases cut? desk.datagram <;> exact ⟨rfl, rfl⟩

end Desk

/-- The frames that answer a request of a kind from a peer, in the order in which they are sent. -/
def Answer.framesOn (desk : Desk) (kind : Wire.Kind) (peer : SocketAddress) :
    Answer → Desk × List Frame
  | .drop | .silent => (desk, [])
  | .status outcome => desk.write peer (Wire.StatusResponse.mk kind outcome).inscribe
  | .pinged response => desk.write peer (Wire.PingResponse.record.inscribe response)
  | .loggedIn response => desk.write peer (Wire.LoginResponse.record.inscribe response)
  | .created response => desk.write peer (Wire.CreateResponse.record.inscribe response)
  | .joined response => desk.write peer (Wire.JoinResponse.record.inscribe response)
  | .relayUnreliable header recipients =>
    desk.relay recipients fun buffer => header.relayFrame? buffer header.credentials.index
  | .relayReliable header recipient =>
    desk.relay [recipient] fun buffer => header.relayFrame? buffer header.credentials.index
  | .acknowledge index ack recipient =>
    desk.relay [recipient] fun buffer => Wire.ackFrame? buffer index ack

theorem Answer.sends_framesOn (answer : Answer) (desk : Desk) (kind : Wire.Kind)
    (peer : SocketAddress) :
    Desk.Sends (answer.framesOn desk kind peer) (answer.frames desk.scratch kind peer) := by
  cases answer with
  | drop | silent => exact ⟨rfl, rfl⟩
  | status outcome =>
      obtain ⟨_, hencode, -⟩ :=
        (Wire.StatusResponse.mk kind outcome).exists_encode desk.slate.toWriter
      exact Desk.sends_write (Wire.StatusResponse.implements_inscribe _) hencode
  | pinged response => exact Desk.sends_record (by decide) response
  | loggedIn response => exact Desk.sends_record (by decide) response
  | created response => exact Desk.sends_record (by decide) response
  | joined response => exact Desk.sends_record (by decide) response
  | relayUnreliable header recipients => exact Desk.sends_relay _ _
  | relayReliable header recipient => exact Desk.sends_relay _ _
  | acknowledge index ack recipient => exact Desk.sends_relay _ _

/-- Dispatches a datagram with a slate. What does not decode is dropped. -/
def World.dispatchOn (world : World) (config : Config) (now : Instant) (desk : Desk)
    (peer : SocketAddress) : World × Desk × List Frame :=
  match Request.decode desk.datagram with
  | .error _ => (world, desk, [])
  | .ok request =>
    let (world, answer) := world.serve config now peer request
    (world, answer.framesOn desk request.kind peer)

theorem World.dispatchOn_eq (world : World) (config : Config) (now : Instant) (desk : Desk)
    (peer : SocketAddress) :
    (world.dispatchOn config now desk peer).1 =
        (world.dispatch config now desk.scratch peer).world ∧
      (world.dispatchOn config now desk peer).2.1.scratch =
        (world.dispatch config now desk.scratch peer).scratch ∧
      (world.dispatchOn config now desk peer).2.2 =
        (world.dispatch config now desk.scratch peer).frames := by
  have hdatagram : desk.scratch.datagram = desk.datagram := rfl
  rw [dispatchOn, dispatch, hdatagram]
  cases Request.decode desk.datagram with
  | error fault => exact ⟨rfl, rfl, rfl⟩
  | ok request => exact ⟨rfl, Answer.sends_framesOn _ desk request.kind peer⟩

namespace Station

/-- Runs a worker: it receives and dispatches once at each reading of the clock. -/
def work (station : Station) (config : Config) (reachable : SocketAddress → Bool)
    (readings : List Instant) : Station :=
  readings.foldl (fun station now => station.step config reachable now) station

end Station

/-- A station whose worker writes on a slate. -/
structure Bench where
  world : World
  mailbox : Mailbox
  buffer : List UInt8
  slate : Wire.Slate

namespace Bench

/-- A bench as a station. -/
def station (bench : Bench) : Station :=
  ⟨bench.world, bench.mailbox, ⟨bench.buffer, bench.slate.toWriter⟩⟩

/-- Receives one datagram, if one waits, and dispatches it. -/
def step (bench : Bench) (config : Config) (reachable : SocketAddress → Bool) (now : Instant) :
    Bench :=
  match bench.mailbox.receive bench.buffer with
  | (mailbox, none) => { bench with mailbox }
  | (mailbox, some received) =>
    let desk : Desk := ⟨bench.slate, received.buffer.take received.length⟩
    let (world, desk, frames) := bench.world.dispatchOn config now desk received.source
    { world
      mailbox := mailbox.sendReachable reachable frames
      buffer := desk.datagram ++ received.buffer.drop received.length
      slate := desk.slate }

/-- Runs a worker: it receives and dispatches once at each reading of the clock. -/
def work (bench : Bench) (config : Config) (reachable : SocketAddress → Bool)
    (readings : List Instant) : Bench :=
  readings.foldl (fun bench now => bench.step config reachable now) bench

variable (bench : Bench) (config : Config) (reachable : SocketAddress → Bool)

theorem station_step (now : Instant) :
    (bench.step config reachable now).station = bench.station.step config reachable now := by
  obtain ⟨world, mailbox, buffer, slate⟩ := bench
  simp only [step, Station.step, station]
  rcases mailbox.receive buffer with ⟨mailbox, _ | received⟩
  · rfl
  · obtain ⟨hworld, hscratch, hframes⟩ := world.dispatchOn_eq config now
      ⟨slate, received.buffer.take received.length⟩ received.source
    simp only [Desk.scratch] at hworld hscratch hframes
    simp only [← hworld, ← hscratch, ← hframes]

theorem station_work (readings : List Instant) :
    (bench.work config reachable readings).station =
      bench.station.work config reachable readings := by
  induction readings generalizing bench with
  | nil => rfl
  | cons now rest ih =>
      have hrest := ih (bench.step config reachable now)
      rw [station_step] at hrest
      exact hrest

end Bench

/-- Dispatches datagrams one after another, each of them at a reading of the clock, on a copy of its
own and with a writer of its own. What does not fit a buffer is lost. -/
def World.dispatchAfresh (world : World) (config : Config) :
    List (Datagram × Instant) → World × List Frame
  | [] => (world, [])
  | (datagram, now) :: rest =>
    let scratch : Scratch := ⟨.empty, datagram.bytes.take Wire.maxDatagram⟩
    let dispatched := world.dispatch config now scratch datagram.source
    let (after, frames) := dispatched.world.dispatchAfresh config rest
    (after, dispatched.frames ++ frames)

/-- What is dispatched and sent does not tell what the writer held before. -/
theorem World.dispatch_writer (world : World) (config : Config) (now : Instant)
    (first second : Wire.Writer) (datagram : List UInt8) (peer : SocketAddress) :
    (world.dispatch config now ⟨first, datagram⟩ peer).world =
        (world.dispatch config now ⟨second, datagram⟩ peer).world ∧
      (world.dispatch config now ⟨first, datagram⟩ peer).frames =
        (world.dispatch config now ⟨second, datagram⟩ peer).frames := by
  refine ⟨by rw [world_dispatch, world_dispatch], ?_⟩
  rw [frames_dispatch, frames_dispatch]
  cases Request.decode datagram with
  | error fault => rfl
  | ok request => exact Answer.frames_writer _ first second datagram request.kind peer

/-- A frame is cut from a datagram without making it longer or shorter. -/
theorem Answer.length_datagram_frames (answer : Answer) (scratch : Scratch) (kind : Wire.Kind)
    (peer : SocketAddress) :
    (answer.frames scratch kind peer).1.datagram.length = scratch.datagram.length := by
  have written : ∀ encode, (scratch.write peer encode).1.datagram = scratch.datagram := by
    intro encode
    rw [Scratch.write]
    cases encode scratch.writer <;> rfl
  have relayed : ∀ recipients (cut? : List UInt8 → Option Wire.Cut),
      (∀ cut, cut? scratch.datagram = some cut → cut.buffer.length = scratch.datagram.length) →
        (scratch.relay recipients cut?).1.datagram.length = scratch.datagram.length := by
    intro recipients cut? hcut
    rw [Scratch.relay]
    cases hresult : cut? scratch.datagram with
    | none => rfl
    | some cut => exact hcut cut hresult
  cases answer with
  | drop | silent => rfl
  | status _ | pinged _ | loggedIn _ | created _ | joined _ => exact congrArg _ (written _)
  | relayUnreliable _ _ | relayReliable _ _ | acknowledge _ _ _ =>
      exact relayed _ _ fun _ h => Wire.length_of_cut? h

theorem World.length_datagram_dispatch (world : World) (config : Config) (now : Instant)
    (scratch : Scratch) (peer : SocketAddress) :
    (world.dispatch config now scratch peer).scratch.datagram.length =
      scratch.datagram.length := by
  rw [dispatch]
  cases Request.decode scratch.datagram with
  | error fault => rfl
  | ok request => exact Answer.length_datagram_frames _ scratch request.kind peer

namespace Mailbox

theorem foldl_send (mailbox : Mailbox) (frames : List Frame) :
    (frames.foldl send mailbox).inbound = mailbox.inbound ∧
      (frames.foldl send mailbox).outbound = mailbox.outbound ++ frames := by
  induction frames generalizing mailbox with
  | nil => exact ⟨rfl, (List.append_nil _).symm⟩
  | cons frame rest ih =>
      obtain ⟨hinbound, houtbound⟩ := ih (mailbox.send frame)
      refine ⟨hinbound, ?_⟩
      rw [List.foldl_cons, houtbound, send, List.append_assoc]
      rfl

end Mailbox

namespace Station

variable (station : Station) {datagram : Datagram} {waiting : List Datagram}

/-- A worker dispatches the oldest datagram as it would be dispatched on its own. -/
theorem step_of_waiting (hbuffer : station.worker.buffer.length = Wire.maxDatagram)
    (hwaits : station.mailbox.inbound = datagram :: waiting) (config : Config)
    (reachable : SocketAddress → Bool) (now : Instant) :
    let afresh := station.world.dispatch config now
      ⟨.empty, datagram.bytes.take Wire.maxDatagram⟩ datagram.source
    let after := station.step config reachable now
    after.world = afresh.world ∧
      after.mailbox.outbound =
        station.mailbox.outbound ++ afresh.frames.filter (fun frame => reachable frame.to) ∧
      after.mailbox.inbound = waiting ∧
      after.worker.buffer.length = Wire.maxDatagram := by
  obtain ⟨world, mailbox, buffer, writer⟩ := station
  dsimp only at hbuffer hwaits ⊢
  simp only [step, Mailbox.receive, hwaits, hbuffer]
  rw [List.take_left]
  obtain ⟨hworld, hframes⟩ := world.dispatch_writer config now writer .empty
    (datagram.bytes.take Wire.maxDatagram) datagram.source
  have hlength := world.length_datagram_dispatch config now
    ⟨writer, datagram.bytes.take Wire.maxDatagram⟩ datagram.source
  rw [Mailbox.sendReachable, (Mailbox.foldl_send _ _).1, (Mailbox.foldl_send _ _).2, hframes]
  refine ⟨hworld, rfl, rfl, ?_⟩
  rw [List.length_append, hlength, List.drop_left, ← List.length_append]
  simp only [List.length_append, List.length_take, List.length_drop, hbuffer]
  omega

/-- So it does with all datagrams that wait. -/
theorem work_of_waiting (hbuffer : station.worker.buffer.length = Wire.maxDatagram)
    (arrivals : List (Datagram × Instant))
    (hwaits : station.mailbox.inbound = arrivals.map Prod.fst ++ waiting) (config : Config)
    (reachable : SocketAddress → Bool) :
    let afresh := station.world.dispatchAfresh config arrivals
    let after := station.work config reachable (arrivals.map Prod.snd)
    after.world = afresh.1 ∧
      after.mailbox.outbound =
        station.mailbox.outbound ++ afresh.2.filter (fun frame => reachable frame.to) ∧
      after.mailbox.inbound = waiting := by
  induction arrivals generalizing station with
  | nil => exact ⟨rfl, (List.append_nil _).symm, hwaits⟩
  | cons arrival rest ih =>
      obtain ⟨datagram, now⟩ := arrival
      obtain ⟨hworld, houtbound, hinbound, hlength⟩ :=
        station.step_of_waiting hbuffer hwaits config reachable now
      obtain ⟨hworld', houtbound', hinbound'⟩ := ih _ hlength hinbound
      rw [hworld] at hworld' houtbound'
      rw [houtbound, List.append_assoc, ← List.filter_append] at houtbound'
      exact ⟨hworld', houtbound', hinbound'⟩

end Station

/-- Nothing leaks from one datagram to the next. Take a worker whose buffer and slate hold whatever
they may, and any datagrams that wait for it. If it receives and dispatches each of them at some
reading of the clock, then it does so as a station whose writer knows of no old bytes, the world is
the one that these datagrams lead to if each is dispatched on a copy of its own and with a writer of
its own, and the same frames are sent to the same addresses in the same order. -/
theorem Bench.afresh_of_work (bench : Bench) (hbuffer : bench.buffer.length = Wire.maxDatagram)
    (arrivals : List (Datagram × Instant)) (waiting : List Datagram)
    (hwaits : bench.mailbox.inbound = arrivals.map Prod.fst ++ waiting) (config : Config)
    (reachable : SocketAddress → Bool) :
    let afresh := bench.world.dispatchAfresh config arrivals
    let after := bench.work config reachable (arrivals.map Prod.snd)
    after.station = bench.station.work config reachable (arrivals.map Prod.snd) ∧
      after.world = afresh.1 ∧
      after.mailbox.outbound =
        bench.mailbox.outbound ++ afresh.2.filter (fun frame => reachable frame.to) ∧
      after.mailbox.inbound = waiting := by
  intro afresh after
  have hstation := bench.station_work config reachable (arrivals.map Prod.snd)
  have hafter := bench.station.work_of_waiting hbuffer arrivals hwaits config reachable
  rw [← hstation] at hafter
  exact ⟨hstation, hafter⟩

/-- After a login comes a datagram of one byte. With what the login has left behind it in the buffer
it would be the same login again, but it is dropped. -/
theorem Bench.afresh_of_single_byte :
    let login := Wire.Login.record.bytes ⟨Vector.replicate _ 7⟩
    let arrivals : List (Datagram × Instant) :=
      [(⟨login, smallPeer⟩, 3), (⟨login.take 1, smallPeer⟩, 4)]
    let bench : Bench :=
      { world := World.ofConfig .small
        mailbox := { Mailbox.atAddress smallPeer with inbound := arrivals.map Prod.fst }
        buffer := List.replicate Wire.maxDatagram 255
        slate := ⟨List.replicate Wire.maxDatagram 255, Wire.maxDatagram, List.length_replicate,
          Nat.le_refl _⟩ }
    bench.buffer.length = Wire.maxDatagram ∧
      bench.mailbox.inbound = arrivals.map Prod.fst ++ [] ∧
      (bench.work .small (fun _ => true) (arrivals.map Prod.snd)).mailbox.outbound =
        [⟨smallPeer, Wire.LoginResponse.record.bytes
          { status := .ok, token := 654988, slot := 0, room := -1, index := -1 }⟩] := by
  intro login arrivals bench
  have hbuffer : bench.buffer.length = Wire.maxDatagram := List.length_replicate
  have hwaits : bench.mailbox.inbound = arrivals.map Prod.fst ++ [] :=
    (List.append_nil (arrivals.map Prod.fst)).symm
  have hsent : ((World.ofConfig .small).dispatchAfresh .small arrivals).2.filter (fun _ => true) =
      [⟨smallPeer, Wire.LoginResponse.record.bytes
        { status := .ok, token := 654988, slot := 0, room := -1, index := -1 }⟩] := by
    decide +kernel
  obtain ⟨-, -, houtbound, -⟩ :=
    bench.afresh_of_work hbuffer arrivals [] hwaits .small fun _ => true
  refine ⟨hbuffer, hwaits, ?_⟩
  rw [houtbound, hsent]
  rfl

end RoomRelay
