import RoomRelay.Wire.Exact
import RoomRelay.Wire.Response

/-!
# Slates

A writer keeps its bytes at the front of a block that is never wiped: to forget them is to go back
to the start of the block, and behind the position there is whatever was written before. A slate is
such a block and its position. What is written on it is told by the bytes before the position, and
these are the contents of a `Writer` in which the same is written.
-/

namespace RoomRelay.Wire

/-- A block of bytes, those before the position being what is written. -/
structure Slate where
  block : List UInt8
  position : Nat
  length_block : block.length = maxDatagram
  position_le : position ≤ maxDatagram

namespace Slate

/-- The bytes before the position. -/
def written (slate : Slate) : List UInt8 := slate.block.take slate.position

/-- The number of bytes that can still be written. -/
def remaining (slate : Slate) : Nat := maxDatagram - slate.position

/-- Goes back to the start. The block stays as it is. -/
def rewind (slate : Slate) : Slate :=
  { slate with position := 0, position_le := Nat.zero_le _ }

/-- Puts bytes over those behind the position, which moves on. -/
def extend (slate : Slate) (bytes : List UInt8) (h : bytes.length ≤ slate.remaining) : Slate where
  block := slate.written ++ bytes ++ slate.block.drop (slate.position + bytes.length)
  position := slate.position + bytes.length
  length_block := by
    have := slate.length_block
    have := slate.position_le
    simp only [remaining] at h
    simp only [written, List.length_append, List.length_take, List.length_drop]
    omega
  position_le := by
    have := slate.position_le
    simp only [remaining] at h
    omega

/-- What is done on a slate. Of a failure there may be traces. -/
abbrev Script := EStateM Error Slate Unit

/-- Forgets what is written. -/
def reset : Script := fun slate => .ok () slate.rewind

/-- Writes raw bytes. -/
def append (bytes : List UInt8) : Script := fun slate =>
  if h : bytes.length ≤ slate.remaining then .ok () (slate.extend bytes h)
  else .error (.bufferFull bytes.length slate.remaining) slate

/-- Writes the checksum of everything written so far. -/
def putChecksum : Script := fun slate =>
  append (Field.encode .u32 (Checksum.compute slate.written)) slate

theorem length_written (slate : Slate) : slate.written.length = slate.position := by
  rw [written, List.length_take, slate.length_block, Nat.min_eq_left slate.position_le]

/-- A writer with the bytes that are written on a slate. -/
def toWriter (slate : Slate) : Writer :=
  ⟨slate.written, by rw [slate.length_written]; exact slate.position_le⟩

/-- A script that does on a slate what a function does in a writer. -/
def Implements (script : Script) (encode : Writer → Except Error Writer) : Prop :=
  ∀ slate, match script slate with
    | .ok () after => encode slate.toWriter = .ok after.toWriter
    | .error fault _ => encode slate.toWriter = .error fault

theorem toWriter_rewind (slate : Slate) : slate.rewind.toWriter = slate.toWriter.reset := rfl

theorem toWriter_extend (slate : Slate) (bytes : List UInt8)
    (h : bytes.length ≤ slate.remaining) :
    (slate.extend bytes h).toWriter.contents = slate.toWriter.contents ++ bytes := by
  have hlength : (slate.written ++ bytes).length = slate.position + bytes.length := by
    rw [List.length_append, slate.length_written]
  show (slate.written ++ bytes ++ _).take (slate.position + bytes.length) = _
  rw [← hlength, List.take_left]
  rfl

theorem remaining_toWriter (slate : Slate) : slate.toWriter.remaining = slate.remaining := by
  rw [Writer.remaining, remaining, toWriter, slate.length_written]

namespace Implements

variable {first second : Script} {encode encode' : Writer → Except Error Writer}

theorem reset : Implements Slate.reset fun w => .ok w.reset :=
  fun slate => congrArg Except.ok slate.toWriter_rewind.symm

theorem append (bytes : List UInt8) : Implements (Slate.append bytes) (·.append bytes) := by
  intro slate
  by_cases h : bytes.length ≤ slate.remaining
  · obtain ⟨w, hw, hcontents⟩ :=
      slate.toWriter.append_of_le bytes (by rwa [slate.remaining_toWriter])
    have hsame : w = (slate.extend bytes h).toWriter := by
      obtain ⟨_, _⟩ := w
      obtain rfl := hcontents.trans (slate.toWriter_extend bytes h).symm
      rfl
    simp only [Slate.append, dif_pos h]
    rw [hw, hsame]
  · simp only [Slate.append, dif_neg h]
    rw [← slate.remaining_toWriter] at h ⊢
    exact slate.toWriter.append_of_lt bytes (Nat.lt_of_not_le h)

theorem putChecksum : Implements Slate.putChecksum Writer.putChecksum :=
  fun slate => append (Field.encode .u32 (Checksum.compute slate.written)) slate

/-- Nothing is done to either. -/
theorem done : Implements (pure ()) .ok := fun _ => rfl

/-- One after the other. -/
theorem seq (h : Implements first encode) (h' : Implements second encode') :
    Implements (do first; second) fun w => encode w >>= encode' := by
  intro slate
  have hfirst := h slate
  show match EStateM.bind first (fun _ => second) slate with
    | .ok () after => encode slate.toWriter >>= encode' = .ok after.toWriter
    | .error fault _ => encode slate.toWriter >>= encode' = .error fault
  rw [EStateM.bind]
  cases hresult : first slate with
  | ok _ mid =>
      rw [hresult] at hfirst
      dsimp only at hfirst ⊢
      rw [hfirst]
      exact h' mid
  | error fault mid =>
      rw [hresult] at hfirst
      dsimp only at hfirst ⊢
      rw [hfirst]
      rfl

/-- After a fresh start. -/
theorem afresh (h : Implements second encode') :
    Implements (do Slate.reset; second) fun w => encode' w.reset :=
  reset.seq h

/-- What is written without a failure is what the writer holds then. -/
theorem of_ok {slate : Slate} {w : Writer} (h : Implements first encode)
    (hencode : encode slate.toWriter = .ok w) :
    ∃ after, first slate = .ok () after ∧ after.toWriter = w := by
  have hresult := h slate
  cases hscript : first slate with
  | ok _ after =>
      rw [hscript, hencode] at hresult
      exact ⟨after, rfl, (Except.ok.inj hresult).symm⟩
  | error fault after =>
      rw [hscript, hencode] at hresult
      cases hresult

end Implements

end Slate

/-- Replaces what is written by a record. -/
def Record.inscribe {α : Type} (record : Record α) (message : α) : Slate.Script := do
  Slate.reset
  Slate.append (Field.encode .u8 record.kind.tag)
  Slate.append (record.body.encode message)
  if record.checksummed then Slate.putChecksum else pure ()

theorem Record.implements_inscribe {α : Type} (record : Record α) (message : α) :
    Slate.Implements (record.inscribe message) (record.encode message) := by
  have trailer : Slate.Implements
      (if record.checksummed then Slate.putChecksum else pure ())
      fun w => if record.checksummed then w.putChecksum else .ok w := by
    split
    · exact .putChecksum
    · exact .done
  have body := (Slate.Implements.append (record.body.encode message)).seq trailer
  exact ((Slate.Implements.append (Field.encode .u8 record.kind.tag)).seq body).afresh

/-- Replaces what is written by a bare status. -/
def StatusResponse.inscribe (response : StatusResponse) : Slate.Script := do
  Slate.reset
  Slate.append (Field.encode .u8 response.request.tag)
  Slate.append (Field.encode .i8 response.status.code)

theorem StatusResponse.implements_inscribe (response : StatusResponse) :
    Slate.Implements response.inscribe response.encode := by
  have code := Slate.Implements.append (Field.encode .i8 response.status.code)
  exact ((Slate.Implements.append (Field.encode .u8 response.request.tag)).seq code).afresh

end RoomRelay.Wire
