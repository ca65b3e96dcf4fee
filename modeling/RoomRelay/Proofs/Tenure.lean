import RoomRelay.Proofs.Turn

/-!
# A room and its terms

A room is opened on the terms of a session that creates it while it is empty, and that session is
its first member. From then on members come and go, the one who opened it among them, and none of
this changes the terms: they stay for as long as anybody sits in the room, and once nobody does the
room is nobody's until it is opened again. So whoever is matched into a room is matched by the terms
that the latest creation in the room set, and within the time that it allowed.
-/

namespace RoomRelay

/-- Just those clients accept parameters in whose bounds each of them lies. -/
theorem Wire.Ranges.accept_iff {ranges : Wire.Ranges} {params : Wire.Params} :
    ranges.accept params = true ↔
      ∀ i : Fin Wire.paramCount, ranges[i].low ≤ params[i] ∧ params[i] ≤ ranges[i].high := by
  simp only [accept, List.all_eq_true, Prod.forall, Wire.Range.contains, Bool.and_eq_true,
    decide_eq_true_eq]
  constructor
  · intro h i
    apply h
    apply List.mem_iff_getElem.mpr
    exact ⟨i, by simp, by simp⟩
  · intro h range value hmem
    obtain ⟨i, hlt, hpair⟩ := List.mem_iff_getElem.mp hmem
    simp only [List.length_zip, Vector.length_toList, Nat.min_self] at hlt
    have hbounds := h ⟨i, hlt⟩
    simp only [List.getElem_zip, Vector.getElem_toList, Prod.mk.injEq] at hpair
    obtain ⟨rfl, rfl⟩ := hpair
    exact hbounds

/-- A room suits a client if it has members and a place, is still open, and has parameters that the
client accepts. -/
theorem Room.isJoinable_iff {room : Room} {ranges : Wire.Ranges} {now : Instant} :
    room.isJoinable ranges now = true ↔
      room.isEmpty = false ∧ room.isFull = false ∧
        (∃ since, room.openSince = some since ∧
          (room.terms.openTimeout = 0 ∨ now.since since ≤ room.terms.openTimeout)) ∧
        ∀ i : Fin Wire.paramCount, ranges[i].low ≤ room.terms.params[i] ∧
          room.terms.params[i] ≤ ranges[i].high := by
  have hopen : room.isOpen now = true ↔ ∃ since, room.openSince = some since ∧
      (room.terms.openTimeout = 0 ∨ now.since since ≤ room.terms.openTimeout) := by
    rw [isOpen]
    cases room.openSince <;> simp
  simp only [isJoinable, Bool.and_eq_true, Bool.not_eq_true', Wire.Ranges.accept_iff, hopen,
    and_assoc]

namespace World

variable {config : Config} {world : World} {event : Event} {id : RoomId} {room : Room}

/-- A room has members just in case somebody sits there. -/
theorem Consistent.occupied_iff (h : world.Consistent config)
    (hroom : world.rooms.room? id = some room) :
    world.Occupied id ↔ room.isEmpty = false := by
  constructor
  · rintro ⟨session, index, hsits⟩
    have hmember := (h.member?_iff hroom).mpr hsits.seat?
    refine Bool.eq_false_iff.mpr fun hempty => ?_
    rw [(h.room hroom).member?_of_isEmpty hempty index] at hmember
    cases hmember
  · intro hmembers
    obtain ⟨slot, hcell⟩ := (h.room hroom).isEmpty_eq_false_iff.mp hmembers
    obtain ⟨position, hposition⟩ := Array.mem_iff_getElem?.mp hcell
    obtain ⟨session, seat, hget, hseat, hplace, -⟩ := (h.cell_iff hroom).mp hposition
    obtain rfl := RoomId.position_inj.mp hplace
    have hsits : world.lobby.get? slot = some session := Lobby.get?_eq_some_iff.mpr hget
    obtain rfl := h.lobby.slot_eq hsits
    exact ⟨session, seat.index, hsits, hseat⟩

/-- How a room that has members came to its terms: it was founded, and nobody has founded it again,
since somebody has sat there all the time. -/
structure Tenure (config : Config) (events : List Event) (id : RoomId) (room : Room)
    (past : List Event) (founding : Event) (create : Wire.Create) : Prop where
  latest : Latest config (ofConfig config) (fun world event => Founds config world event id) events
    past founding
  request : founding.request? = some (.create create)
  occupied : ∀ since rest, events = past ++ founding :: since ++ rest →
    ((ofConfig config).run config (past ++ founding :: since)).Occupied id
  openSince : room.openSince = some founding.now
  terms : room.terms = create.terms

/-- A room that has members after a run from the start has its terms from its latest founding. -/
theorem exists_tenure (hconfig : config.Bounded) (events : List Event)
    (hroom : ((ofConfig config).run config events).rooms.room? id = some room)
    (hmembers : room.isEmpty = false) :
    ∃ past founding create, Tenure config events id room past founding create := by
  induction events using List.reverseRecOn generalizing room with
  | nil =>
      have hvacant : room = Room.vacant id _ := RoomTable.room?_ofSize hroom
      rw [hvacant] at hmembers
      cases hmembers
  | append_singleton events event ih =>
      have consistent := (Consistent.ofConfig config).run events
      have hoccupied : ((ofConfig config).run config (events ++ [event])).Occupied id :=
        (((Consistent.ofConfig config).run (events ++ [event])).occupied_iff hroom).mpr hmembers
      have hroom' := hroom
      rw [run_concat] at hroom'
      obtain ⟨old, hold⟩ : ∃ old,
          ((ofConfig config).run config events).rooms.room? id = some old := by
        obtain ⟨hlt, -⟩ := Array.getElem?_eq_some_iff.mp hroom'
        have hsize := (consistent.handle event).size_eq.trans consistent.size_eq.symm
        exact ⟨_, Array.getElem?_eq_getElem (Nat.lt_of_lt_of_eq hlt hsize)⟩
      cases turn_of_handle hconfig consistent event hold hroom' with
      | @founded create hrequest hfounds hsince hterms =>
          refine ⟨events, event, create, .concat_of_kind hfounds, hrequest, ?_, hsince, hterms⟩
          intro since rest hsplit
          have hlength := congrArg List.length hsplit
          simp only [List.length_append, List.length_cons, List.length_nil] at hlength
          obtain rfl : since = [] := List.length_eq_zero_iff.mp (by omega)
          exact hoccupied
      | kept hsince hterms hempty hfounds =>
          have hmembers' : old.isEmpty = false :=
            Bool.eq_false_iff.mpr fun h => Bool.eq_false_iff.mp hmembers (hempty h)
          obtain ⟨past, founding, create, tenure⟩ := ih hold hmembers'
          refine ⟨past, founding, create, tenure.latest.concat_of_not hfounds, tenure.request, ?_,
            hsince.trans tenure.openSince, hterms.trans tenure.terms⟩
          intro since rest hsplit
          obtain rfl | ⟨rest, last, rfl⟩ := rest.eq_nil_or_concat
          · rw [List.append_nil] at hsplit
            rw [← hsplit]
            exact hoccupied
          · rw [List.concat_eq_append, ← List.append_assoc] at hsplit
            exact tenure.occupied since rest (List.append_inj' hsplit rfl).1

/-- Whoever is newly seated by a join sits in a room that suited it, and is told its properties. -/
theorem Takes.of_join (h : world.Consistent config) {join : Wire.Join} {seat : Seat}
    {peer : SocketAddress} (htakes : Takes config world event (.join join) seat)
    (hpeer : event.peer? = some peer) :
    ∃ room flags, world.rooms.room? seat.room = some room ∧
      room.isJoinable join.ranges event.now = true ∧
      (world.serve config event.now peer (.join join)).2 =
        .joined
          { status := .ok, room := seat.room.toWire, index := seat.index.toWire, flags
            properties := room.terms.properties } := by
  obtain ⟨session, hrequest, hfound, hseat, hafter⟩ := htakes
  have hfound : world.lobby.findByToken join.token join.slot = some session := hfound
  obtain ⟨-, hget, -⟩ := Lobby.of_findByToken h.lobby hfound
  have hunseated := (seat?_touch_of_get? hget peer event.now).trans hseat
  have touched := h.touch session.slot peer event.now
  have hserve : world.serve config event.now peer (.join join) = _ := serveJoin_of_eq_some hfound
  rw [(handle_of_request? world config hrequest hpeer).1, hserve,
    settle_of_unseated hunseated, seat?_answerSeated] at hafter
  rw [hserve, settle_of_unseated hunseated]
  obtain hmatch | ⟨joining, id, room, index, room', hlive, -, hroom, hjoinable, hinsert, hmatch⟩ :=
    touched.matchmake_cases session.slot join.ranges event.now
  · rw [hmatch, hunseated] at hafter
    cases hafter
  · have hseated := (seat?_sit hlive ⟨id, index⟩ room' session.slot).trans (if_pos rfl)
    rw [hmatch, hseated] at hafter
    obtain rfl := Option.some.inj hafter
    have hopened := room?_sit hroom session.slot joining index room'
    rw [hmatch, answerSeated_of_seat? hseated hopened]
    obtain ⟨-, rfl⟩ := Room.insert?_eq_some_iff.mp hinsert
    exact ⟨room, _, hroom, hjoinable, rfl⟩

/-- Whoever joins is matched by the terms that the latest founding of the room set. Take a join that
newly seats its sender in a room, at whatever reading of the clock. Some creation before it newly
seated its sender there; of all of these take the latest. Somebody has sat in the room ever since,
whether or not its founder does. The time that it was to be open for has not run out, or is
unlimited. Its parameters lie within the bounds of whoever joins, who is told its properties. -/
theorem terms_of_join (hconfig : config.validate = .ok ()) (events : List Event) (now : Instant)
    (peer : SocketAddress) (scratch : Scratch) {join : Wire.Join} {seat : Seat}
    (htakes : Takes config ((ofConfig config).run config events) (.datagram now peer scratch)
      (.join join) seat) :
    ∃ past founding create,
      Latest config (ofConfig config) (fun world event => Founds config world event seat.room)
        events past founding ∧
      founding.request? = some (.create create) ∧
      (∀ since rest, events = past ++ founding :: since ++ rest →
        ((ofConfig config).run config (past ++ founding :: since)).Occupied seat.room) ∧
      (create.openSeconds = 0 ∨
        now.toNat ≤ founding.now.toNat + 1000 * create.openSeconds.toNat) ∧
      (∀ i : Fin Wire.paramCount, join.ranges[i].low ≤ create.params[i] ∧
        create.params[i] ≤ join.ranges[i].high) ∧
      ∃ flags,
        (((ofConfig config).run config events).dispatch config now scratch peer).frames =
          [⟨peer, Wire.JoinResponse.record.bytes
            { status := .ok, room := seat.room.toWire, index := seat.index.toWire, flags
              properties := create.properties }⟩] := by
  have bounded := Config.bounded_of_validate hconfig
  have consistent := (Consistent.ofConfig config).run events
  obtain ⟨room, flags, hroom, hjoinable, hanswer⟩ := htakes.of_join consistent rfl
  obtain ⟨hmembers, -, ⟨since, hsince, hwindow⟩, haccepts⟩ := Room.isJoinable_iff.mp hjoinable
  obtain ⟨past, founding, create, tenure⟩ := exists_tenure bounded events hroom hmembers
  obtain rfl := Option.some.inj (tenure.openSince.symm.trans hsince)
  rw [tenure.terms] at hwindow haccepts hanswer
  refine ⟨past, founding, create, tenure.latest, tenure.request, tenure.occupied, ?_, haccepts,
    flags, ?_⟩
  · obtain hunlimited | hlate := hwindow
    · left
      have hzero : create.openSeconds.toNat * 1000 = 0 := hunlimited
      exact UInt16.toNat_inj.mp (show create.openSeconds.toNat = 0 by omega)
    · right
      have hlate : now.toNat - founding.now.toNat ≤ create.openSeconds.toNat * 1000 := hlate
      omega
  · obtain ⟨session, hrequest, -⟩ := htakes
    obtain ⟨_, _, _, ⟨⟩, hdecode⟩ := Event.request?_eq_some_iff.mp hrequest
    rw [frames_dispatch, hdecode]
    refine Eq.trans (congrArg (fun answer => (Answer.frames _ _ _ answer).2) hanswer) ?_
    exact Scratch.snd_write_record _ _ (by decide) _

/-- The founder of a room leaves it to the second member and comes back by a join. -/
theorem terms_of_return :
    let leave : Event :=
      .datagram 20000 smallPeer ⟨.empty, Wire.Leave.record.bytes ⟨⟨654988, 0, 0, 0⟩⟩⟩
    let events := smallPair ++ [leave]
    let join : Wire.Join := ⟨654988, 0, Vector.replicate _ ⟨2, 2⟩⟩
    let scratch : Scratch := ⟨.empty, Wire.Join.record.bytes join⟩
    let world := (ofConfig .small).run .small events
    Config.validate .small = .ok () ∧
      Takes .small world (.datagram 59000 smallPeer scratch) (.join join) ⟨⟨0⟩, ⟨0⟩⟩ ∧
      ∃ past founding create,
        Latest .small (ofConfig .small) (fun world event => Founds .small world event ⟨0⟩) events
          past founding ∧
        founding.request? = some (.create create) ∧
        ∃ flags, (world.dispatch .small 59000 scratch smallPeer).frames =
          [⟨smallPeer, Wire.JoinResponse.record.bytes
            { status := .ok, room := 0, index := 0, flags, properties := create.properties }⟩] := by
  intro leave events join scratch world
  have hconfig : Config.validate .small = .ok () := rfl
  let founder : Session :=
    { slot := ⟨0⟩, device := Vector.replicate _ 7, token := ⟨654988, by decide⟩
      peer := smallPeer, lastActive := 20000, seat := none, flags := 0 }
  have hdecode : Request.decode scratch.datagram = .ok (.join join) := by decide +kernel
  have hfound : world.lobby.findByToken 654988 0 = some founder := by decide +kernel
  have hseated : (world.handle .small (.datagram 59000 smallPeer scratch)).lobby.seat? ⟨0⟩ =
      some ⟨⟨0⟩, ⟨0⟩⟩ := by
    decide +kernel
  have htakes : Takes .small world (.datagram 59000 smallPeer scratch) (.join join)
      ⟨⟨0⟩, ⟨0⟩⟩ :=
    ⟨founder, Event.request?_eq_some_iff.mpr ⟨_, _, _, rfl, hdecode⟩, hfound, rfl, hseated⟩
  obtain ⟨past, founding, create, hlatest, hrequest, -, -, -, hframes⟩ :=
    terms_of_join hconfig events 59000 smallPeer scratch htakes
  exact ⟨hconfig, htakes, past, founding, create, hlatest, hrequest, hframes⟩

end World

end RoomRelay
