import RoomRelay.Wire.Record

/-!
# Exactness of records

A record of a message is one byte string, `Record.bytes`. Writing leaves exactly these bytes in the
writer, reading them gives the message back whatever follows them, and a datagram that is read as a
message starts with them. So each message has one written form, and every record type of the
protocol inherits this from the laws of its body's format.
-/

namespace RoomRelay.Wire.Record

variable {α : Type}

theorem length_content (record : Record α) (message : α) :
    (record.content message).length = 1 + record.body.width := by
  simp [content, record.body.length_encode, Nat.add_comm]

theorem length_bytes (record : Record α) (message : α) :
    (record.bytes message).length = record.size := by
  unfold bytes size
  split <;> simp [length_content, Field.length_encode, Field.width, Checksum.size]

/-- A record that fits a datagram replaces whatever the writer holds. -/
theorem encode_eq_bytes (record : Record α) (message : α) (w : Writer)
    (h : record.size ≤ maxDatagram) :
    ∃ w', record.encode message w = .ok w' ∧ w'.contents = record.bytes message := by
  have hsize := h
  unfold size at hsize
  obtain ⟨w₁, htag, h₁⟩ := w.reset.append_of_le [record.kind.tag]
    (by simp [Writer.remaining, Writer.reset, Writer.empty, maxDatagram])
  have h₁ : w₁.contents = [record.kind.tag] := h₁
  obtain ⟨w₂, hbody, h₂⟩ := w₁.append_of_le (record.body.encode message)
    (by
      simp only [Writer.remaining, h₁, record.body.length_encode, List.length_singleton]
      omega)
  have hcontent : w₂.contents = record.content message := by rw [h₂, h₁]; rfl
  have hencode : record.encode message w =
      if record.checksummed then w₂.putChecksum else .ok w₂ := by
    simp only [encode, Writer.put, Field.encode_u8, htag, hbody, bind, Except.bind]
  rw [hencode, bytes]
  split
  · next hsum =>
    rw [if_pos hsum] at hsize
    obtain ⟨w₃, hput, h₃⟩ := w₂.append_of_le
      (Field.encode .u32 (Checksum.compute w₂.contents))
      (by
        simp only [Writer.remaining, hcontent, length_content, Field.length_encode, Field.width]
        simp only [Checksum.size] at hsize
        omega)
    exact ⟨w₃, hput, by rw [h₃, hcontent]⟩
  · exact ⟨w₂, rfl, hcontent⟩

/-- The tag and the body come first. -/
theorem exists_bytes_eq (record : Record α) (message : α) :
    ∃ tail, record.bytes message =
      record.kind.tag :: (record.body.encode message ++ tail) := by
  unfold bytes content
  split
  · exact ⟨_, rfl⟩
  · exact ⟨[], by simp⟩

theorem verify_bytes (record : Record α) (message : α) :
    record.verify (record.bytes message) = .ok () := by
  unfold verify bytes
  split
  · exact Checksum.verify_append _
  · rfl

/-- What was written is read, whatever follows it. -/
theorem decode_bytes_append (record : Record α) (message : α) (rest : List UInt8) :
    record.decode (record.bytes message ++ rest) = .ok message := by
  have hlength := record.length_bytes message
  have hlt : ¬ (record.bytes message ++ rest).length < record.size := by simp [hlength]
  obtain ⟨tail, hbytes⟩ := record.exists_bytes_eq message
  have hexpect : (Reader.ofBytes (record.bytes message)).expect record.kind =
      .ok ⟨0 + 1, record.body.encode message ++ tail⟩ := by
    rw [hbytes]
    exact Reader.expect_tag record.kind 0 _
  rw [decode, if_neg hlt, ← hlength, List.take_left]
  simp only [decodeExact, hexpect, verify_bytes, record.body.read_encode, bind, Except.bind, pure,
    Except.pure]

theorem decode_bytes (record : Record α) (message : α) :
    record.decode (record.bytes message) = .ok message := by
  rw [← List.append_nil (record.bytes message), decode_bytes_append]

/-- What follows the body in a record that passes its check is the checksum, or nothing. -/
theorem bytes_eq_of_verify {record : Record α} {message : α} {rest : List UInt8}
    (hlength : (record.content message ++ rest).length = record.size)
    (h : record.verify (record.content message ++ rest) = .ok ()) :
    record.bytes message = record.content message ++ rest := by
  rw [List.length_append, length_content] at hlength
  unfold size at hlength
  unfold verify at h
  unfold bytes
  split at h
  · next hsum =>
    rw [if_pos hsum] at hlength ⊢
    have hposition : (record.content message ++ rest).length - Checksum.size =
        (record.content message).length := by
      rw [List.length_append]
      omega
    obtain ⟨-, hdrop⟩ := Checksum.of_verify h
    rw [hposition, List.drop_left, List.take_left] at hdrop
    rw [hdrop]
  · next hsum =>
    rw [if_neg hsum] at hlength ⊢
    rw [List.eq_nil_of_length_eq_zero (by omega : rest.length = 0), List.append_nil]

theorem bytes_eq_of_decodeExact {record : Record α} {bytes : List UInt8} {message : α}
    (hlength : bytes.length = record.size) (h : record.decodeExact bytes = .ok message) :
    record.bytes message = bytes := by
  simp only [decodeExact, bind, Except.bind, pure, Except.pure] at h
  split at h
  · cases h
  · next r hexpect =>
    split at h
    · cases h
    · next hverify =>
      split at h
      · cases h
      · next found hread =>
        obtain ⟨found, r'⟩ := found
        obtain rfl : found = message := by simpa using h
        obtain ⟨hrest, -⟩ := Reader.of_expect hexpect
        obtain ⟨hbody, -⟩ := record.body.of_read hread
        have hcontent : bytes = record.content found ++ r'.rest := by
          simp only [Reader.ofBytes] at hrest
          rw [hrest, hbody]
          rfl
        subst hcontent
        exact bytes_eq_of_verify hlength hverify

/-- Only what is written for a message is read as that message. -/
theorem bytes_append_of_decode {record : Record α} {datagram : List UInt8} {message : α}
    (h : record.decode datagram = .ok message) :
    record.bytes message ++ datagram.drop record.size = datagram := by
  unfold decode at h
  split at h
  · cases h
  · next hlt =>
    rw [bytes_eq_of_decodeExact (List.length_take_of_le (Nat.not_lt.mp hlt)) h,
      List.take_append_drop]

theorem size_le_of_decode {record : Record α} {datagram : List UInt8} {message : α}
    (h : record.decode datagram = .ok message) : record.size ≤ datagram.length := by
  unfold decode at h
  split at h
  · cases h
  · omega

end RoomRelay.Wire.Record
