import RoomRelay.Proofs.Delivery
import RoomRelay.Proofs.Reuse

/-!
# Refused sends

The network may refuse to send to some addresses. Here a worker's handling of a datagram is written
out with every attempt to send a frame, each of which may fail, and with the rejections that a
handler may raise. A refusal raises none of them: it comes after the request was carried out, the
handler goes on behind it, and the frames to other addresses are sent as if nothing had happened.
So a server that runs over such a network goes through the same states as over one that sends
everything, and sends what the latter sends, less what is for the addresses in question.
-/

namespace RoomRelay

/-- The network has not sent a frame to an address. -/
structure Refusal where
  recipient : SocketAddress

/-- Why a handler does not give the regular answer to a request. -/
inductive Rejection
  /-- Nothing is to be sent. -/
  | drop
  /-- A status is to be sent instead. -/
  | status (status : Wire.Status)

/-- Sends a frame if its address can be reached. -/
def Mailbox.trySend (mailbox : Mailbox) (reachable : SocketAddress → Bool) (frame : Frame) :
    Except Refusal Mailbox :=
  if reachable frame.to then .ok (mailbox.send frame) else .error ⟨frame.to⟩

/-- What a worker works on while it handles a datagram. -/
structure Errand where
  world : World
  scratch : Scratch
  mailbox : Mailbox

/-- Handling a datagram. What was done before a rejection is raised stays done. -/
abbrev Handling := EStateM Rejection Errand Unit

namespace Handling

section Sending

variable (reachable : SocketAddress → Bool)

/-- Sends a frame. A refusal is passed over. -/
def send (frame : Frame) : Handling := do
  match (← get).mailbox.trySend reachable frame with
  | .ok mailbox => modify fun errand => { errand with mailbox }
  | .error _ => return ()

/-- Sends the same bytes to one address after another. -/
def sendEach (bytes : List UInt8) : List SocketAddress → Handling
  | [] => return ()
  | recipient :: rest => do
    send reachable ⟨recipient, bytes⟩
    sendEach bytes rest

/-- Sends a record to the peer. One that does not fit makes the request be dropped. -/
def reply (peer : SocketAddress) (encode : Wire.Writer → Except Wire.Error Wire.Writer) :
    Handling := do
  match encode (← get).scratch.writer with
  | .error _ => throw .drop
  | .ok writer =>
    modify fun errand => { errand with scratch := { errand.scratch with writer } }
    send reachable ⟨peer, writer.contents⟩

/-- Sends a status to the peer, if it fits. -/
def replyStatus (kind : Wire.Kind) (status : Wire.Status) (peer : SocketAddress) : Handling := do
  match (Wire.StatusResponse.mk kind status).encode (← get).scratch.writer with
  | .error _ => return ()
  | .ok writer =>
    modify fun errand => { errand with scratch := { errand.scratch with writer } }
    send reachable ⟨peer, writer.contents⟩

/-- Cuts a frame from the datagram and sends it to a list of addresses. -/
def relay (recipients : List SocketAddress) (cut? : List UInt8 → Option Wire.Cut) : Handling := do
  match cut? (← get).scratch.datagram with
  | none => return ()
  | some cut =>
    modify fun errand => { errand with scratch := { errand.scratch with datagram := cut.buffer } }
    sendEach reachable cut.frame recipients

/-- Gives an answer. A handler that drops a request, or has another status for it than `ok`, leaves
it to the dispatcher to answer. -/
def give (kind : Wire.Kind) (peer : SocketAddress) : Answer → Handling
  | .drop => throw .drop
  | .silent => return ()
  | .status .ok => replyStatus reachable kind .ok peer
  | .status status => throw (.status status)
  | .pinged response => reply reachable peer (Wire.PingResponse.record.encode response)
  | .loggedIn response => reply reachable peer (Wire.LoginResponse.record.encode response)
  | .created response => reply reachable peer (Wire.CreateResponse.record.encode response)
  | .joined response => reply reachable peer (Wire.JoinResponse.record.encode response)
  | .relayUnreliable header recipients =>
    relay reachable recipients fun buffer => header.relayFrame? buffer header.credentials.index
  | .relayReliable header recipient =>
    relay reachable [recipient] fun buffer => header.relayFrame? buffer header.credentials.index
  | .acknowledge index ack recipient =>
    relay reachable [recipient] fun buffer => Wire.ackFrame? buffer index ack

/-- Carries a request out, then answers it. -/
def handle (config : Config) (now : Instant) (peer : SocketAddress) (request : Request) :
    Handling := do
  let served := (← get).world.serve config now peer request
  modify fun errand => { errand with world := served.1 }
  give reachable request.kind peer served.2

/-- What comes of the rejection of a request: its status is sent, if it has one. -/
def recover (kind : Wire.Kind) (peer : SocketAddress) : Rejection → Handling
  | .drop => return ()
  | .status status => replyStatus reachable kind status peer

/-- Handles the datagram at hand. What does not decode is dropped. -/
def dispatch (config : Config) (now : Instant) (peer : SocketAddress) : Handling := do
  match Request.decode (← get).scratch.datagram with
  | .error _ => return ()
  | .ok request =>
    try handle reachable config now peer request
    catch rejection => recover reachable request.kind peer rejection

end Sending

end Handling

/-- The errand after frames were sent as far as they could be. -/
def Errand.post (errand : Errand) (reachable : SocketAddress → Bool)
    (sent : Scratch × List Frame) : Errand :=
  { errand with
    scratch := sent.1
    mailbox := errand.mailbox.sendReachable reachable sent.2 }

theorem Errand.post_post (errand : Errand) (reachable : SocketAddress → Bool)
    (scratch scratch' : Scratch) (first second : List Frame) :
    (errand.post reachable (scratch, first)).post reachable (scratch', second) =
      errand.post reachable (scratch', first ++ second) := by
  simp only [post, Mailbox.sendReachable, List.filter_append, List.foldl_append]

namespace Handling

variable (reachable : SocketAddress → Bool) (errand : Errand)

theorem get_bind (next : Errand → Handling) : (get >>= next) errand = next errand errand := rfl

theorem modify_bind (change : Errand → Errand) (next : Unit → Handling) :
    (modify change >>= next) errand = next () (change errand) := rfl

theorem bind_of_ok {first : Handling} {after : Errand} (h : first errand = .ok () after)
    (next : Unit → Handling) : (first >>= next) errand = next () after := by
  simp only [bind, EStateM.bind, h]

/-- What raises no rejection is not recovered from. -/
theorem tryCatch_of_ok {handling : Handling} {after : Errand} (h : handling errand = .ok () after)
    (raised : Rejection → Handling) : tryCatch handling raised errand = .ok () after := by
  simp only [tryCatch, tryCatchThe, MonadExceptOf.tryCatch]
  delta EStateM.tryCatch
  simp only [h]

theorem tryCatch_of_error {handling : Handling} {rejection : Rejection} {after : Errand}
    (h : handling errand = .error rejection after) (raised : Rejection → Handling) :
    tryCatch handling raised errand = raised rejection after := by
  simp only [tryCatch, tryCatchThe, MonadExceptOf.tryCatch]
  delta EStateM.tryCatch
  simp only [h]
  rfl

/-- Sending never fails, whether or not the frame is refused. -/
theorem send_eq (frame : Frame) :
    send reachable frame errand = .ok () (errand.post reachable (errand.scratch, [frame])) := by
  rw [send, get_bind]
  cases h : reachable frame.to with
  | false =>
      have hrefused : errand.mailbox.trySend reachable frame = .error ⟨frame.to⟩ := by
        rw [Mailbox.trySend, h, if_neg Bool.false_ne_true]
      have hframes : [frame].filter (fun frame => reachable frame.to) = [] := by simp [h]
      rw [hrefused, Errand.post, Mailbox.sendReachable, hframes]
      rfl
  | true =>
      have hsent : errand.mailbox.trySend reachable frame = .ok (errand.mailbox.send frame) := by
        rw [Mailbox.trySend, h, if_pos rfl]
      have hframes : [frame].filter (fun frame => reachable frame.to) = [frame] := by simp [h]
      rw [hsent, Errand.post, Mailbox.sendReachable, hframes]
      rfl

/-- A refusal does not keep the rest from being sent. -/
theorem sendEach_eq (bytes : List UInt8) (recipients : List SocketAddress) :
    sendEach reachable bytes recipients errand =
      .ok () (errand.post reachable (errand.scratch, recipients.map (⟨·, bytes⟩))) := by
  induction recipients generalizing errand with
  | nil => rfl
  | cons recipient rest ih =>
      rw [sendEach, bind_of_ok errand (send_eq reachable errand ⟨recipient, bytes⟩), ih,
        Errand.post_post]
      rfl

theorem replyStatus_eq (kind : Wire.Kind) (status : Wire.Status) (peer : SocketAddress) :
    replyStatus reachable kind status peer errand =
      .ok () (errand.post reachable
        (errand.scratch.write peer (Wire.StatusResponse.mk kind status).encode)) := by
  obtain ⟨writer, hencode, -⟩ :=
    (Wire.StatusResponse.mk kind status).exists_encode errand.scratch.writer
  rw [replyStatus, get_bind]
  simp only [hencode, Scratch.write]
  rw [modify_bind, send_eq]
  rfl

theorem relay_eq (recipients : List SocketAddress) (cut? : List UInt8 → Option Wire.Cut) :
    relay reachable recipients cut? errand =
      .ok () (errand.post reachable (errand.scratch.relay recipients cut?)) := by
  rw [relay, get_bind, Scratch.relay]
  cases cut? errand.scratch.datagram with
  | none => rfl
  | some cut =>
      dsimp only
      rw [modify_bind, sendEach_eq]
      rfl

/-- A record that does not fit makes the request be dropped, so that nothing is sent. -/
theorem reply_eq (kind : Wire.Kind) (peer : SocketAddress)
    (encode : Wire.Writer → Except Wire.Error Wire.Writer) :
    tryCatch (reply reachable peer encode) (recover reachable kind peer) errand =
      .ok () (errand.post reachable (errand.scratch.write peer encode)) := by
  cases hencode : encode errand.scratch.writer with
  | error fault =>
      have hreply : reply reachable peer encode errand = .error .drop errand := by
        rw [reply, get_bind, hencode]
        rfl
      rw [tryCatch_of_error errand hreply, Scratch.write, hencode]
      rfl
  | ok writer =>
      refine tryCatch_of_ok errand ?_ _
      rw [reply, get_bind, hencode, Scratch.write, hencode]
      dsimp only
      rw [modify_bind, send_eq]
      rfl

/-- Whatever is given as an answer, what is sent for it in the end are its frames. -/
theorem give_eq (answer : Answer) (kind : Wire.Kind) (peer : SocketAddress) :
    tryCatch (give reachable kind peer answer) (recover reachable kind peer) errand =
      .ok () (errand.post reachable (answer.frames errand.scratch kind peer)) := by
  cases answer with
  | drop | silent => rfl
  | status status =>
      -- Either the handler sends the status, or the dispatcher does when it is raised.
      have hstatus := replyStatus_eq reachable errand kind status peer
      cases status with
      | ok => exact tryCatch_of_ok errand hstatus _
      | _ => exact hstatus
  | pinged response =>
      exact reply_eq reachable errand kind peer (Wire.PingResponse.record.encode response)
  | loggedIn response =>
      exact reply_eq reachable errand kind peer (Wire.LoginResponse.record.encode response)
  | created response =>
      exact reply_eq reachable errand kind peer (Wire.CreateResponse.record.encode response)
  | joined response =>
      exact reply_eq reachable errand kind peer (Wire.JoinResponse.record.encode response)
  | relayUnreliable _ _ | relayReliable _ _ | acknowledge _ _ _ =>
      exact tryCatch_of_ok errand (by rw [give, relay_eq]; rfl) _

/-- Handling a datagram never fails. It does to the world what dispatching the datagram does, and it
sends those of the frames that are for addresses that can be reached. -/
theorem dispatch_eq (config : Config) (now : Instant) (peer : SocketAddress) :
    dispatch reachable config now peer errand =
      let dispatched := errand.world.dispatch config now errand.scratch peer
      .ok () ⟨dispatched.world, dispatched.scratch,
        errand.mailbox.sendReachable reachable dispatched.frames⟩ := by
  rw [dispatch, get_bind, World.dispatch]
  cases Request.decode errand.scratch.datagram with
  | error fault => rfl
  | ok request =>
      let served := errand.world.serve config now peer request
      exact give_eq reachable { errand with world := served.1 } served.2 request.kind peer

end Handling

/-- A server that handles one datagram after another, with one writer, and holds a series of
sweeps. -/
structure Node where
  world : World
  writer : Wire.Writer
  sweeper : Sweeper

/-- What a node has to see to. -/
inductive Duty
  /-- A datagram has arrived. -/
  | datagram (now : Instant) (datagram : Datagram)
  /-- A sweep is due. -/
  | sweep (now : Instant)

/-- A node that has seen to a duty, and what was sent meanwhile. -/
structure Stage where
  node : Node
  sent : List Frame

namespace Node

/-- Sees to a duty. After a rejection that nobody recovers from, things are left as they are. -/
def step (node : Node) (reachable : SocketAddress → Bool) (config : Config) (mailbox : Mailbox) :
    Duty → Node × Mailbox
  | .datagram now datagram =>
    let errand : Errand := ⟨node.world, ⟨node.writer, datagram.bytes⟩, mailbox⟩
    match Handling.dispatch reachable config now datagram.source errand with
    | .ok () errand | .error _ errand =>
      ({ node with world := errand.world, writer := errand.scratch.writer }, errand.mailbox)
  | .sweep now =>
    let swept := node.sweeper.tick config node.world now
    ({ node with world := swept.world, sweeper := swept.sweeper }, mailbox)

/-- Sees to a series of duties. What is sent is taken out of the mailbox after each of them. -/
def trace (node : Node) (reachable : SocketAddress → Bool) (config : Config) (mailbox : Mailbox) :
    List Duty → List Stage
  | [] => []
  | duty :: rest =>
    let after := node.step reachable config mailbox duty
    let taken := after.2.takeSent
    ⟨after.1, taken.2⟩ :: after.1.trace reachable config taken.1 rest

/-- A node after a duty, and all frames that there are to be sent for it. -/
def next (node : Node) (config : Config) : Duty → Stage
  | .datagram now datagram =>
    let dispatched := node.world.dispatch config now ⟨node.writer, datagram.bytes⟩ datagram.source
    ⟨{ node with world := dispatched.world, writer := dispatched.scratch.writer },
      dispatched.frames⟩
  | .sweep now =>
    let swept := node.sweeper.tick config node.world now
    ⟨{ node with world := swept.world, sweeper := swept.sweeper }, []⟩

variable (node : Node) (reachable : SocketAddress → Bool) (config : Config)

theorem step_eq (mailbox : Mailbox) (duty : Duty) :
    node.step reachable config mailbox duty =
      ((node.next config duty).node,
        mailbox.sendReachable reachable (node.next config duty).sent) := by
  cases duty with
  | datagram now datagram => rw [step, Handling.dispatch_eq]; rfl
  | sweep now => rfl

/-- All stages but for what is refused, whatever passed through the mailbox before. -/
theorem trace_cons {mailbox : Mailbox} (h : mailbox.outbound = []) (duty : Duty)
    (rest : List Duty) :
    ∃ mailbox' : Mailbox, mailbox'.outbound = [] ∧
      node.trace reachable config mailbox (duty :: rest) =
        { node.next config duty with
          sent := (node.next config duty).sent.filter fun frame => reachable frame.to } ::
            (node.next config duty).node.trace reachable config mailbox' rest := by
  -- The mailbox is emptied after the duty, though it still counts what went through it.
  refine ⟨(mailbox.sendReachable reachable (node.next config duty).sent).takeSent.1, rfl, ?_⟩
  rw [trace, step_eq]
  simp only [Mailbox.takeSent, Mailbox.sendReachable, (Mailbox.foldl_send _ _).2, h,
    List.nil_append]

/-- Refusals change nothing but what is sent. -/
theorem trace_eq_map {mailbox mailbox' : Mailbox} (h : mailbox.outbound = [])
    (h' : mailbox'.outbound = []) (duties : List Duty) :
    node.trace reachable config mailbox duties =
      (node.trace (fun _ => true) config mailbox' duties).map fun stage =>
        { stage with sent := stage.sent.filter fun frame => reachable frame.to } := by
  induction duties generalizing node mailbox mailbox' with
  | nil => rfl
  | cons duty rest ih =>
      obtain ⟨left, hleft, htrace⟩ := node.trace_cons reachable config h duty rest
      obtain ⟨left', hleft', htrace'⟩ := node.trace_cons (fun _ => true) config h' duty rest
      rw [htrace, htrace', List.map_cons, ih _ hleft hleft', List.filter_filter]
      simp

end Node

/-- Whether refusals of a network, to send to addresses that cannot be reached, are contained. -/
structure RefusalsContained (config : Config) (reachable : SocketAddress → Bool) : Prop where
  /-- A datagram is handled to its end, and all its frames but the refused ones are sent. -/
  dispatch : ∀ (errand : Errand) (now : Instant) (peer : SocketAddress),
    Handling.dispatch reachable config now peer errand =
      let dispatched := errand.world.dispatch config now errand.scratch peer
      .ok () ⟨dispatched.world, dispatched.scratch,
        errand.mailbox.sendReachable reachable dispatched.frames⟩
  /-- This is how a worker handles a datagram that it has received. -/
  worker : ∀ (station : Station) (now : Instant) {mailbox : Mailbox} {received : Received},
    station.mailbox.receive station.worker.buffer = (mailbox, some received) →
      ∃ left : Errand,
        Handling.dispatch reachable config now received.source
            { world := station.world
              scratch := ⟨station.worker.writer, received.buffer.take received.length⟩
              mailbox } = .ok () left ∧
          station.step config reachable now =
            { world := left.world
              mailbox := left.mailbox
              worker :=
                { buffer := left.scratch.datagram ++ received.buffer.drop received.length
                  writer := left.scratch.writer } }
  /-- A packet for several members gets to all of them that can be reached. -/
  broadcast : ∀ {errand : Errand} {after : World} {now : Instant} {peer : SocketAddress}
    {header : Wire.UnreliableHeader} {recipients : List SocketAddress},
    Request.decode errand.scratch.datagram = .ok (.unreliable header) →
      errand.world.serve config now peer (.unreliable header) =
        (after, .relayUnreliable header recipients) →
          ∃ (frame : List UInt8) (left : Errand),
            (errand.world.dispatch config now errand.scratch peer).frames =
              recipients.map (⟨·, frame⟩) ∧
            Handling.dispatch reachable config now peer errand = .ok () left ∧
            left.mailbox.outbound =
              errand.mailbox.outbound ++ (recipients.filter reachable).map (⟨·, frame⟩)
  /-- A run goes through the same stages as over a network that refuses nothing, and after each
  duty the same frames were sent in the same order, less the refused ones. -/
  trace : ∀ (node : Node) (address : SocketAddress) (duties : List Duty),
    node.trace reachable config (.atAddress address) duties =
      (node.trace (fun _ => true) config (.atAddress address) duties).map fun stage =>
        { stage with sent := stage.sent.filter fun frame => reachable frame.to }

/-- A refusal to send affects nobody else. -/
theorem refusals_contained (config : Config) (reachable : SocketAddress → Bool) :
    RefusalsContained config reachable where
  dispatch errand now peer := Handling.dispatch_eq reachable errand config now peer
  worker station now mailbox received hreceive := by
    refine ⟨_, Handling.dispatch_eq reachable _ config now received.source, ?_⟩
    rw [Station.step, hreceive]
  broadcast {errand after now peer header recipients} hdecode hserve := by
    obtain ⟨-, left, hcut⟩ := Wire.UnreliableHeader.exists_relayFrame?
      (Request.decode_eq_unreliable_iff.mp hdecode) header.credentials.index
    have hframes := (World.dispatch_of_serve hdecode hserve).2
    simp only [Answer.frames, Scratch.relay, hcut] at hframes
    refine ⟨_, _, hframes, Handling.dispatch_eq reachable errand config now peer, ?_⟩
    rw [hframes, Mailbox.sendReachable, (Mailbox.foldl_send _ _).2, List.filter_map]
    rfl
  trace node address duties := node.trace_eq_map reachable config rfl rfl duties

end RoomRelay
