import RoomRelay.Proofs.Run

/-!
# What answers send

The frames of an answer are made from the datagram that it answers. The writer lends its room and
nothing else, so answers to equal datagrams send equal frames however much was sent in between. A
bare status always fits.
-/

namespace RoomRelay

/-- A record is sent alike from writers into which it is written alike. -/
theorem Scratch.snd_write_congr (first second : Scratch) (peer : SocketAddress)
    {encode : Wire.Writer → Except Wire.Error Wire.Writer}
    (h : encode first.writer = encode second.writer) :
    (first.write peer encode).2 = (second.write peer encode).2 := by
  simp only [write]
  rw [h]
  cases encode second.writer <;> rfl

namespace Answer

/-- The frames of an answer do not tell what the writer held before. -/
theorem frames_writer (answer : Answer) (first second : Wire.Writer) (datagram : List UInt8)
    (kind : Wire.Kind) (peer : SocketAddress) :
    (answer.frames ⟨first, datagram⟩ kind peer).2 =
      (answer.frames ⟨second, datagram⟩ kind peer).2 := by
  have written : ∀ encode : Wire.Writer → Except Wire.Error Wire.Writer,
      encode first = encode second →
        (Scratch.write ⟨first, datagram⟩ peer encode).2 =
          (Scratch.write ⟨second, datagram⟩ peer encode).2 :=
    fun _ => Scratch.snd_write_congr ⟨first, datagram⟩ ⟨second, datagram⟩ peer
  have relayed : ∀ recipients cut?, (Scratch.relay ⟨first, datagram⟩ recipients cut?).2 =
      (Scratch.relay ⟨second, datagram⟩ recipients cut?).2 := by
    intro recipients cut?
    simp only [Scratch.relay]
    cases cut? datagram <;> rfl
  cases answer with
  | drop | silent => rfl
  | status _ | pinged _ | loggedIn _ | created _ | joined _ => exact written _ rfl
  | relayUnreliable _ _ | relayReliable _ _ | acknowledge _ _ _ => exact relayed _ _

/-- A bare status is sent to whom it answers. -/
theorem frames_status (status : Wire.Status) (scratch : Scratch) (kind : Wire.Kind)
    (peer : SocketAddress) :
    ((Answer.status status).frames scratch kind peer).2 =
      [⟨peer, (Wire.StatusResponse.mk kind status).bytes⟩] := by
  obtain ⟨written, hencode, hcontents⟩ :=
    (Wire.StatusResponse.mk kind status).exists_encode scratch.writer
  simp only [frames, Scratch.write, hencode, hcontents]

end Answer

namespace World

/-- A dispatched datagram is received, and the answer to it is sent. -/
theorem frames_dispatch (world : World) (config : Config) (now : Instant) (scratch : Scratch)
    (peer : SocketAddress) :
    (world.dispatch config now scratch peer).frames =
      match Request.decode scratch.datagram with
      | .error _ => []
      | .ok request =>
        ((world.serve config now peer request).2.frames scratch request.kind peer).2 := by
  rw [dispatch]
  cases Request.decode scratch.datagram <;> rfl

/-- A request is served, and the answer to it is sent. -/
theorem dispatch_of_decode (world : World) (config : Config) (now : Instant) {scratch : Scratch}
    (peer : SocketAddress) {request : Request}
    (hdecode : Request.decode scratch.datagram = .ok request) :
    let served := world.serve config now peer request
    let dispatched := world.dispatch config now scratch peer
    dispatched.world = served.1 ∧
      dispatched.frames = (served.2.frames scratch request.kind peer).2 := by
  refine ⟨?_, ?_⟩
  · rw [world_dispatch, receive_of_decode _ _ _ _ hdecode]
  · rw [frames_dispatch, hdecode]

theorem dispatch_of_serve {world after : World} {config : Config} {now : Instant}
    {scratch : Scratch} {peer : SocketAddress} {request : Request} {answer : Answer}
    (hdecode : Request.decode scratch.datagram = .ok request)
    (hserve : world.serve config now peer request = (after, answer)) :
    let dispatched := world.dispatch config now scratch peer
    dispatched.world = after ∧
      dispatched.frames = (answer.frames scratch request.kind peer).2 := by
  have hdispatch := world.dispatch_of_decode config now peer hdecode
  rwa [hserve] at hdispatch

end World

end RoomRelay
