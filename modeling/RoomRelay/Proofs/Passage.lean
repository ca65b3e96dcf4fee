import Mathlib.Algebra.Ring.Nat
import RoomRelay.Network.Mailbox

/-!
# What passes through a mailbox

A mailbox is called in any order: datagrams arrive, the oldest one is received into a buffer of some
size, frames are sent and taken out, and the counts are read. Each call leaves an entry in a log.
The log of a mailbox through which nothing had passed before tells what every call comes to:
datagrams are received in the order in which they arrived and as far as the buffers reach, frames
are taken out in the order in which they were sent, nothing is lost or doubled on the way, and the
counts are those of the log.
-/

namespace RoomRelay

/-- Whether a datagram was received into a buffer: as much of it as there is room for was put into
the front, and the rest of the buffer was left as it was. -/
structure Received.Holds (received : Received) (datagram : Datagram) (buffer : List UInt8) : Prop
    where
  source : received.source = datagram.source
  length : received.length = min datagram.bytes.length buffer.length
  front : received.buffer.take received.length = datagram.bytes.take received.length
  rest : received.buffer.drop received.length = buffer.drop received.length

namespace Received

/-- What receiving a datagram into a buffer yields. -/
def of (datagram : Datagram) (buffer : List UInt8) : Received :=
  let bytes := datagram.bytes.take buffer.length
  ⟨bytes.length, datagram.source, bytes ++ buffer.drop bytes.length⟩

theorem Holds.of (datagram : Datagram) (buffer : List UInt8) :
    (Received.of datagram buffer).Holds datagram buffer where
  source := rfl
  length := by rw [Received.of, List.length_take, Nat.min_comm]
  front := by
    rw [Received.of, List.take_left]
    simp
  rest := List.drop_left

end Received

namespace Mailbox

/-- What a mailbox is called for. -/
inductive Call
  | inject (datagram : Datagram)
  | receive (buffer : List UInt8)
  | send (frame : Frame)
  | takeSent
  | traffic

/-- A call and what it came to. -/
inductive Entry
  | injected (datagram : Datagram)
  /-- Something was received into a buffer, or nothing was found. -/
  | received (buffer : List UInt8) (result : Option Received)
  | sent (frame : Frame)
  | taken (frames : List Frame)
  | told (traffic : Traffic)

namespace Entry

/-- The call that left an entry. -/
def call : Entry → Call
  | injected datagram => .inject datagram
  | received buffer _ => .receive buffer
  | sent frame => .send frame
  | taken _ => .takeSent
  | told _ => .traffic

/-- The datagram that arrived. -/
def datagram? : Entry → Option Datagram
  | injected datagram => some datagram
  | _ => none

/-- What was received. -/
def receipt? : Entry → Option Received
  | received _ result => result
  | _ => none

/-- The frame that was sent. -/
def frame? : Entry → Option Frame
  | sent frame => some frame
  | _ => none

/-- The frames that were taken out. -/
def frames : Entry → List Frame
  | taken frames => frames
  | _ => []

end Entry

/-- Calls a mailbox once. -/
def call (mailbox : Mailbox) : Call → Mailbox × Entry
  | .inject datagram => (mailbox.inject datagram, .injected datagram)
  | .receive buffer =>
    let (mailbox, result) := mailbox.receive buffer
    (mailbox, .received buffer result)
  | .send frame => (mailbox.send frame, .sent frame)
  | .takeSent =>
    let (mailbox, frames) := mailbox.takeSent
    (mailbox, .taken frames)
  | .traffic => (mailbox, .told mailbox.traffic)

/-- Entries in the order in which they were left. -/
abbrev Log := List Entry

/-- Calls a mailbox again and again. -/
def callAll (mailbox : Mailbox) (calls : List Call) : Mailbox :=
  calls.foldl (fun mailbox next => (mailbox.call next).1) mailbox

/-- The entries that calls leave. -/
def log (mailbox : Mailbox) : List Call → Log
  | [] => []
  | next :: calls => (mailbox.call next).2 :: (mailbox.call next).1.log calls

namespace Log

/-- The datagrams that arrived. -/
def injected (log : Log) : List Datagram := log.filterMap Entry.datagram?

/-- What was received. -/
def receipts (log : Log) : List Received := log.filterMap Entry.receipt?

/-- The frames that were sent. -/
def sent (log : Log) : List Frame := log.filterMap Entry.frame?

/-- The frames that were taken out. -/
def taken (log : Log) : List Frame := log.flatMap Entry.frames

theorem filterMap_concat {β : Type} (read? : Entry → Option β) (log : Log) (entry : Entry) :
    (log ++ [entry]).filterMap read? = log.filterMap read? ++ (read? entry).toList := by
  rw [List.filterMap_append, List.filterMap_cons]
  cases read? entry <;> rfl

@[simp] theorem injected_concat (log : Log) (entry : Entry) :
    injected (log ++ [entry]) = log.injected ++ entry.datagram?.toList :=
  filterMap_concat _ log entry

@[simp] theorem receipts_concat (log : Log) (entry : Entry) :
    receipts (log ++ [entry]) = log.receipts ++ entry.receipt?.toList :=
  filterMap_concat _ log entry

@[simp] theorem sent_concat (log : Log) (entry : Entry) :
    sent (log ++ [entry]) = log.sent ++ entry.frame?.toList :=
  filterMap_concat _ log entry

@[simp] theorem taken_concat (log : Log) (entry : Entry) :
    taken (log ++ [entry]) = log.taken ++ entry.frames := by
  simp [taken]

end Log

end Mailbox

/-- Whether counts are those of a log, in words of 64 bits, and count no errors. -/
structure Traffic.Counts (traffic : Traffic) (log : Mailbox.Log) : Prop where
  packetsReceived : traffic.packetsReceived.toNat = log.receipts.length % 2 ^ 64
  bytesReceived : traffic.bytesReceived.toNat = (log.receipts.map Received.length).sum % 2 ^ 64
  packetsSent : traffic.packetsSent.toNat = log.sent.length % 2 ^ 64
  bytesSent : traffic.bytesSent.toNat =
    (log.sent.map fun frame => frame.bytes.length).sum % 2 ^ 64
  sendErrors : traffic.sendErrors = 0
  receiveErrors : traffic.receiveErrors = 0

namespace Traffic.Counts

variable {traffic : Traffic} {log more : Mailbox.Log}

/-- Only what was received and sent is counted. -/
theorem congr (h : traffic.Counts log) (hreceipts : more.receipts = log.receipts)
    (hsent : more.sent = log.sent) : traffic.Counts more where
  packetsReceived := hreceipts ▸ h.packetsReceived
  bytesReceived := hreceipts ▸ h.bytesReceived
  packetsSent := hsent ▸ h.packetsSent
  bytesSent := hsent ▸ h.bytesSent
  sendErrors := h.sendErrors
  receiveErrors := h.receiveErrors

theorem countReceived (h : traffic.Counts log) {received : Received}
    (hreceipts : more.receipts = log.receipts ++ [received]) (hsent : more.sent = log.sent) :
    (traffic.countReceived received.length).Counts more where
  packetsReceived := by
    rw [hreceipts, Traffic.countReceived, UInt64.toNat_add, h.packetsReceived]
    simp
  bytesReceived := by
    rw [hreceipts, Traffic.countReceived, UInt64.toNat_add, h.bytesReceived]
    simp
  packetsSent := hsent ▸ h.packetsSent
  bytesSent := hsent ▸ h.bytesSent
  sendErrors := h.sendErrors
  receiveErrors := h.receiveErrors

theorem countSent (h : traffic.Counts log) {frame : Frame}
    (hreceipts : more.receipts = log.receipts) (hsent : more.sent = log.sent ++ [frame]) :
    (traffic.countSent frame.bytes.length).Counts more where
  packetsReceived := hreceipts ▸ h.packetsReceived
  bytesReceived := hreceipts ▸ h.bytesReceived
  packetsSent := by
    rw [hsent, Traffic.countSent, UInt64.toNat_add, h.packetsSent]
    simp
  bytesSent := by
    rw [hsent, Traffic.countSent, UInt64.toNat_add, h.bytesSent]
    simp
  sendErrors := h.sendErrors
  receiveErrors := h.receiveErrors

end Traffic.Counts

namespace Mailbox

/-- Whether a log tells the truth about a mailbox that was new when the log was begun, and about
all its calls. -/
structure Log.Tells (log : Log) (mailbox : Mailbox) : Prop where
  /-- What is received next is the datagram that arrived next. -/
  oldest : ∀ {before after : Log} {buffer received},
    log = before ++ .received buffer (some received) :: after →
      ∃ datagram, before.injected[before.receipts.length]? = some datagram ∧
        received.Holds datagram buffer
  /-- Nothing is found just in case everything that has arrived by then has been received. -/
  nothing : ∀ {before after : Log} {buffer result},
    log = before ++ .received buffer result :: after →
      (result = none ↔ before.receipts.length = before.injected.length)
  /-- What was taken out, and what there is still to take, is what was sent. -/
  taken : log.taken ++ mailbox.takeSent.2 = log.sent
  counted : ∀ {before after : Log} {traffic}, log = before ++ .told traffic :: after →
    traffic.Counts before

/-- What an entry tells if it comes next in a log. -/
def Entry.Follows (before : Log) : Entry → Prop
  | received _ none => before.receipts.length = before.injected.length
  | received buffer (some result) =>
    ∃ datagram, before.injected[before.receipts.length]? = some datagram ∧
      result.Holds datagram buffer
  | told traffic => traffic.Counts before
  | injected _ | sent _ | taken _ => True

/-- What a mailbox keeps after the calls of a log: the datagrams that arrived and were not received,
the frames that were sent and not taken out, and the counts. -/
structure Keeps (mailbox : Mailbox) (log : Log) : Prop where
  receipts_le : log.receipts.length ≤ log.injected.length
  inbound : mailbox.inbound = log.injected.drop log.receipts.length
  outbound : log.taken ++ mailbox.outbound = log.sent
  traffic : mailbox.traffic.Counts log

namespace Keeps

variable {mailbox : Mailbox} {log : Log}

theorem atAddress (address : SocketAddress) : (atAddress address).Keeps [] where
  receipts_le := Nat.le_refl _
  inbound := rfl
  outbound := rfl
  traffic := ⟨rfl, rfl, rfl, rfl, rfl, rfl⟩

/-- What arrives waits behind everything that has not been received yet. -/
theorem inject (h : mailbox.Keeps log) (datagram : Datagram) :
    (mailbox.inject datagram).Keeps (log ++ [.injected datagram]) where
  receipts_le := by
    have hle := h.receipts_le
    simp [Entry.receipt?, Entry.datagram?]
    omega
  inbound := by
    simp [Mailbox.inject, Entry.receipt?, Entry.datagram?, h.inbound,
      List.drop_append_of_le_length h.receipts_le]
  outbound := by simpa [Mailbox.inject, Entry.frame?, Entry.frames] using h.outbound
  traffic := h.traffic.congr (by simp [Entry.receipt?]) (by simp [Entry.frame?])

/-- Where nothing waits, everything has been received. -/
theorem receipts_eq_of_nil (h : mailbox.Keeps log) (hnone : mailbox.inbound = []) :
    log.receipts.length = log.injected.length :=
  Nat.le_antisymm h.receipts_le (List.drop_eq_nil_iff.mp (h.inbound ▸ hnone))

/-- What waits in front is the first datagram that has not been received yet. -/
theorem of_cons {datagram : Datagram} {waiting : List Datagram} (h : mailbox.Keeps log)
    (hwaits : mailbox.inbound = datagram :: waiting) :
    log.injected[log.receipts.length]? = some datagram ∧
      log.injected.drop (log.receipts.length + 1) = waiting := by
  have hdrop := h.inbound.symm.trans hwaits
  constructor
  · rw [← Nat.add_zero log.receipts.length, ← List.getElem?_drop, hdrop]
    rfl
  · rw [← List.tail_drop, hdrop]
    rfl

theorem receive (h : mailbox.Keeps log) (buffer : List UInt8) :
    let entry : Entry := .received buffer (mailbox.receive buffer).2
    entry.Follows log ∧ (mailbox.receive buffer).1.Keeps (log ++ [entry]) := by
  cases hwaits : mailbox.inbound with
  | nil =>
      simp only [Mailbox.receive, hwaits]
      refine ⟨h.receipts_eq_of_nil hwaits, ?_, ?_, ?_, ?_⟩
      · simpa [Entry.receipt?, Entry.datagram?] using h.receipts_le
      · simpa [Entry.receipt?, Entry.datagram?] using h.inbound
      · simpa [Entry.frame?, Entry.frames] using h.outbound
      · exact h.traffic.congr (by simp [Entry.receipt?]) (by simp [Entry.frame?])
  | cons datagram waiting =>
      obtain ⟨holdest, hrest⟩ := h.of_cons hwaits
      obtain ⟨hlt, -⟩ := List.getElem?_eq_some_iff.mp holdest
      let received := Received.of datagram buffer
      have hreceive : mailbox.receive buffer =
          ({ mailbox with
              inbound := waiting
              traffic := mailbox.traffic.countReceived received.length }, some received) := by
        simp only [Mailbox.receive, hwaits]
        rfl
      rw [hreceive]
      refine ⟨⟨datagram, holdest, .of datagram buffer⟩, ?_, ?_, ?_, ?_⟩
      · simpa [Entry.receipt?, Entry.datagram?] using Nat.succ_le_of_lt hlt
      · simpa [Entry.receipt?, Entry.datagram?] using hrest.symm
      · simpa [Entry.frame?, Entry.frames] using h.outbound
      · exact h.traffic.countReceived (by simp [Entry.receipt?]) (by simp [Entry.frame?])

/-- What is sent is kept behind everything that has not been taken out yet. -/
theorem send (h : mailbox.Keeps log) (frame : Frame) :
    (mailbox.send frame).Keeps (log ++ [.sent frame]) where
  receipts_le := by simpa [Entry.receipt?, Entry.datagram?] using h.receipts_le
  inbound := by simpa [Mailbox.send, Entry.receipt?, Entry.datagram?] using h.inbound
  outbound := by simp [Mailbox.send, Entry.frame?, Entry.frames, ← h.outbound]
  traffic := h.traffic.countSent (by simp [Entry.receipt?]) (by simp [Entry.frame?])

theorem takeSent (h : mailbox.Keeps log) :
    mailbox.takeSent.1.Keeps (log ++ [.taken mailbox.takeSent.2]) where
  receipts_le := by simpa [Entry.receipt?, Entry.datagram?] using h.receipts_le
  inbound := by simpa [Mailbox.takeSent, Entry.receipt?, Entry.datagram?] using h.inbound
  outbound := by simpa [Mailbox.takeSent, Entry.frame?, Entry.frames] using h.outbound
  traffic := h.traffic.congr (by simp [Entry.receipt?]) (by simp [Entry.frame?])

theorem tell (h : mailbox.Keeps log) : mailbox.Keeps (log ++ [.told mailbox.traffic]) where
  receipts_le := by simpa [Entry.receipt?, Entry.datagram?] using h.receipts_le
  inbound := by simpa [Entry.receipt?, Entry.datagram?] using h.inbound
  outbound := by simpa [Entry.frame?, Entry.frames] using h.outbound
  traffic := h.traffic.congr (by simp [Entry.receipt?]) (by simp [Entry.frame?])

/-- Every call is answered from the log before it, and its entry goes into the log. -/
theorem call (h : mailbox.Keeps log) (next : Call) :
    let entry := (mailbox.call next).2
    entry.call = next ∧ entry.Follows log ∧ (mailbox.call next).1.Keeps (log ++ [entry]) := by
  cases next with
  | inject datagram => exact ⟨rfl, trivial, h.inject datagram⟩
  | receive buffer => exact ⟨rfl, h.receive buffer⟩
  | send frame => exact ⟨rfl, trivial, h.send frame⟩
  | takeSent => exact ⟨rfl, trivial, h.takeSent⟩
  | traffic => exact ⟨rfl, h.traffic, h.tell⟩

/-- So are any number of calls. -/
theorem callAll (h : mailbox.Keeps log) (calls : List Call) :
    let more := mailbox.log calls
    more.map Entry.call = calls ∧ (mailbox.callAll calls).Keeps (log ++ more) ∧
      ∀ {before entry rest}, more = before ++ entry :: rest → entry.Follows (log ++ before) := by
  induction calls generalizing mailbox log with
  | nil =>
      refine ⟨rfl, by simpa [Mailbox.callAll, Mailbox.log] using h, ?_⟩
      intro before entry rest hsplit
      simp [Mailbox.log] at hsplit
  | cons next calls ih =>
      obtain ⟨hcall, hfollows, hkeeps⟩ := h.call next
      obtain ⟨hcalls, hafter, hrest⟩ := ih hkeeps
      refine ⟨?_, by simpa [Mailbox.callAll, Mailbox.log] using hafter, ?_⟩
      · rw [Mailbox.log, List.map_cons, hcall, hcalls]
      intro before entry rest hsplit
      cases before with
      | nil =>
          obtain ⟨rfl, -⟩ := List.cons.inj hsplit
          simpa using hfollows
      | cons first before =>
          obtain ⟨rfl, hmore⟩ := List.cons.inj hsplit
          simpa using hrest hmore

end Keeps

/-- A mailbox neither loses nor doubles nor reorders what passes through it. Whatever it is called
for and in whatever order, every call is answered as the log of the calls before it says: datagrams
are received in the order of their arrival, each as far as the buffer reaches, until none is left;
the frames that are taken out are those that were sent, in the same order; and the counts are those
of what was received and sent. -/
theorem log_tells (address : SocketAddress) (calls : List Call) :
    let log := (Mailbox.atAddress address).log calls
    log.map Entry.call = calls ∧ log.Tells ((Mailbox.atAddress address).callAll calls) := by
  obtain ⟨hcalls, hkeeps, hfollows⟩ := (Keeps.atAddress address).callAll calls
  refine ⟨hcalls, ?_, ?_, hkeeps.outbound, ?_⟩
  · intro before rest buffer received hsplit
    exact hfollows hsplit
  · intro before rest buffer result hsplit
    have hentry := hfollows hsplit
    cases result with
    | none => exact iff_of_true rfl hentry
    | some received =>
        obtain ⟨datagram, holdest, -⟩ := hentry
        obtain ⟨hlt, -⟩ := List.getElem?_eq_some_iff.mp holdest
        exact iff_of_false (Option.some_ne_none received) (Nat.ne_of_lt hlt)
  · intro before rest traffic hsplit
    exact hfollows hsplit

end Mailbox

end RoomRelay
