import Mathlib.Data.Nat.ModEq
import RoomRelay.Wire.Exact
import RoomRelay.Wire.Response

/-!
# What the checksum catches

The checksum of a byte string depends on nothing but the number of its bytes and their sum, and the
multiplier is odd: byte strings of one length have the same checksum just in case their sums agree
modulo `2 ^ 32`. So bytes may change places, but no single byte can change unnoticed, be it in what
the checksum covers or in the checksum itself. A record with a checksum is read only if it has the
right tag and the right checksum, and a single damaged byte spoils one of the two.
-/

namespace RoomRelay.Wire

/-- Whether byte strings have the same length and differ in exactly one place. -/
structure DifferInOne (first second : List UInt8) : Prop where
  length_eq : first.length = second.length
  existsUnique : ∃! position : Nat, first[position]? ≠ second[position]?

namespace DifferInOne

variable {first second : List UInt8}

/-- Byte strings that differ in one place agree before it and after it. -/
theorem exists_append (h : DifferInOne first second) :
    ∃ before old new after, old ≠ new ∧ first = before ++ old :: after ∧
      second = before ++ new :: after := by
  obtain ⟨hlength, position, hdiffers, honly⟩ := h
  have hsame : ∀ other, other ≠ position → first[other]? = second[other]? := fun other hother =>
    not_not.mp fun hne => hother (honly other hne)
  have hfirst : position < first.length := by
    refine Nat.lt_of_not_le fun hle => hdiffers ?_
    rw [List.getElem?_eq_none hle, List.getElem?_eq_none (hlength ▸ hle)]
  have hsecond : position < second.length := hlength ▸ hfirst
  have hbefore : first.take position = second.take position := by
    apply List.ext_getElem?
    intro other
    rw [List.getElem?_take, List.getElem?_take]
    split
    · next hlt => exact hsame other (Nat.ne_of_lt hlt)
    · rfl
  have hafter : first.drop (position + 1) = second.drop (position + 1) := by
    apply List.ext_getElem?
    intro other
    rw [List.getElem?_drop, List.getElem?_drop]
    exact hsame _ (by omega)
  refine ⟨first.take position, first[position], second[position], first.drop (position + 1),
    ?_, ?_, ?_⟩
  · intro heq
    rw [List.getElem?_eq_getElem hfirst, List.getElem?_eq_getElem hsecond, heq] at hdiffers
    exact hdiffers rfl
  · rw [← List.drop_eq_getElem_cons hfirst, List.take_append_drop]
  · rw [hbefore, hafter, ← List.drop_eq_getElem_cons hsecond, List.take_append_drop]

theorem of_append (before : List UInt8) {old new : UInt8} (hne : old ≠ new) (after : List UInt8) :
    DifferInOne (before ++ old :: after) (before ++ new :: after) := by
  refine ⟨by simp, before.length, ?_, fun position hdiffers => ?_⟩
  · simpa using hne
  · by_contra hother
    apply hdiffers
    obtain hlt | hgt := Nat.lt_or_gt_of_ne hother
    · rw [List.getElem?_append_left hlt, List.getElem?_append_left hlt]
    · obtain ⟨later, rfl⟩ := Nat.exists_eq_add_of_lt hgt
      simp [List.getElem?_append_right, Nat.add_assoc]

end DifferInOne

/-- The sum of the bytes of a byte string. -/
def byteSum (bytes : List UInt8) : Nat := (bytes.map UInt8.toNat).sum

namespace Checksum

theorem toNat_foldl (bytes : List UInt8) (start : UInt32) :
    (bytes.foldl (fun sum byte => sum + (base + byte.toUInt32 * factor)) start).toNat =
      (start.toNat + (64548 * bytes.length + 6597 * byteSum bytes)) % 2 ^ 32 := by
  induction bytes generalizing start with
  | nil => simp [byteSum, Nat.mod_eq_of_lt start.toNat_lt]
  | cons byte rest ih =>
      have hbase : base.toNat = 64548 := rfl
      have hfactor : factor.toNat = 6597 := rfl
      have hsum : byteSum (byte :: rest) = byte.toNat + byteSum rest := List.sum_cons
      rw [List.foldl_cons, ih, hsum, List.length_cons, UInt32.toNat_add, UInt32.toNat_add,
        UInt32.toNat_mul, hbase, hfactor, UInt8.toNat_toUInt32]
      omega

/-- A checksum depends on the number of bytes and on their sum. -/
theorem toNat_compute (bytes : List UInt8) :
    (compute bytes).toNat = (64548 * bytes.length + 6597 * byteSum bytes) % 2 ^ 32 := by
  have h := toNat_foldl bytes 0
  rwa [UInt32.toNat_zero, Nat.zero_add] at h

variable {first second : List UInt8}

/-- Byte strings of one length have the same checksum just in case their sums are congruent. -/
theorem compute_eq_iff (h : first.length = second.length) :
    compute first = compute second ↔ byteSum first ≡ byteSum second [MOD 2 ^ 32] := by
  rw [← UInt32.toNat_inj, toNat_compute, toNat_compute, h]
  constructor
  · intro hsum
    have hscaled : 6597 * byteSum first ≡ 6597 * byteSum second [MOD 2 ^ 32] :=
      Nat.ModEq.add_left_cancel' (64548 * second.length) hsum
    exact Nat.ModEq.cancel_left_of_coprime (by decide) hscaled
  · intro hsum
    exact (hsum.mul_left 6597).add_left (64548 * second.length)

/-- A single byte makes a difference to the checksum. -/
theorem compute_ne_of_differInOne (h : DifferInOne first second) :
    compute first ≠ compute second := by
  rw [ne_eq, compute_eq_iff h.length_eq]
  obtain ⟨before, old, new, after, hne, rfl, rfl⟩ := h.exists_append
  intro hsum
  have hsums : ∀ byte, byteSum (before ++ byte :: after) =
      byteSum before + byteSum after + byte.toNat := by
    intro byte
    simp only [byteSum, List.map_append, List.map_cons, List.sum_append, List.sum_cons]
    omega
  rw [hsums, hsums] at hsum
  have hbytes : old.toNat ≡ new.toNat [MOD 2 ^ 32] := Nat.ModEq.add_left_cancel' _ hsum
  have hlt : ∀ byte : UInt8, byte.toNat < 2 ^ 32 := fun byte =>
    Nat.lt_trans byte.toNat_lt (by decide)
  exact hne (UInt8.toNat_inj.mp (hbytes.eq_of_lt_of_lt (hlt old) (hlt new)))

/-- What is long enough to hold a checksum and does not pass holds a wrong one. -/
theorem verify_of_ne_ok {record : List UInt8} (hsize : size ≤ record.length)
    (h : verify record ≠ .ok ()) :
    let computed := compute (record.take (record.length - size))
    computed ≠ trailer record ∧
      verify record = .error (.checksumMismatch computed (trailer record)) := by
  intro computed
  have hverify : verify record = if computed = trailer record then .ok ()
      else .error (.checksumMismatch computed (trailer record)) := if_neg (Nat.not_lt.mpr hsize)
  rw [hverify] at h ⊢
  by_cases hsum : computed = trailer record
  · exact absurd (if_pos hsum) h
  · exact ⟨hsum, if_neg hsum⟩

/-- Of two records that differ in one byte, at most one passes. -/
theorem verify_ne_ok_of_differInOne {record damaged : List UInt8} (h : verify record = .ok ())
    (hdiffer : DifferInOne record damaged) : verify damaged ≠ .ok () := by
  intro hpasses
  obtain ⟨-, hrecord⟩ := of_verify h
  obtain ⟨-, hdamaged⟩ := of_verify hpasses
  rw [← hdiffer.length_eq] at hdamaged
  generalize record.length - size = covered at hrecord hdamaged
  obtain ⟨before, old, new, after, hne, rfl, rfl⟩ := hdiffer.exists_append
  obtain hlt | hle := Nat.lt_or_ge before.length covered
  · -- The checksum is intact, so it would have to be that of both contents.
    obtain ⟨rest, rfl⟩ := Nat.exists_eq_add_of_lt hlt
    have htake : ∀ byte, (before ++ byte :: after).take (before.length + rest + 1) =
        before ++ byte :: after.take rest := by
      intro byte
      rw [Nat.add_assoc, List.take_length_add_append, List.take_succ_cons]
    have hdrop : ∀ byte, (before ++ byte :: after).drop (before.length + rest + 1) =
        after.drop rest := by
      intro byte
      rw [Nat.add_assoc, List.drop_length_add_append, List.drop_succ_cons]
    rw [htake, hdrop] at hrecord hdamaged
    have hsum := congrArg (Field.decode .u32) (hrecord.symm.trans hdamaged)
    rw [Field.decode_encode, Field.decode_encode] at hsum
    exact compute_ne_of_differInOne (.of_append before hne (after.take rest)) hsum
  · -- The same bytes are covered, so the checksums would have to be the same as well.
    rw [List.take_append_of_le_length hle, List.drop_append_of_le_length hle] at hrecord hdamaged
    rw [← hdamaged, List.append_cancel_left_eq, List.cons.injEq] at hrecord
    exact hne hrecord.1

/-- Damage to one byte of a record that passes is found out by its checksum. -/
theorem verify_of_differInOne {record damaged : List UInt8} (h : verify record = .ok ())
    (hdiffer : DifferInOne record damaged) :
    let computed := compute (damaged.take (damaged.length - size))
    computed ≠ trailer damaged ∧
      verify damaged = .error (.checksumMismatch computed (trailer damaged)) := by
  have hsize : size ≤ damaged.length := hdiffer.length_eq ▸ (of_verify h).1
  exact verify_of_ne_ok hsize (verify_ne_ok_of_differInOne h hdiffer)

end Checksum

namespace Record

variable {α : Type} {record : Record α} {message : α} {datagram damaged : List UInt8}

/-- Whether a datagram is refused for its tag, or for its checksum if the tag is right. -/
inductive Refuses (record : Record α) (datagram : List UInt8) : Prop
  | tag {actual : UInt8} {rest : List UInt8} (hdatagram : datagram = actual :: rest)
      (hne : actual ≠ record.kind.tag)
      (h : record.decode datagram = .error (.unexpectedKind record.kind.tag actual))
  | checksum {rest : List UInt8} (hdatagram : datagram = record.kind.tag :: rest)
      {computed received : UInt32} (hne : computed ≠ received)
      (h : record.decode datagram = .error (.checksumMismatch computed received))

/-- Whether damage to any one byte of any datagram that is read and holds nothing but the record is
noticed. -/
def DetectsDamage (record : Record α) : Prop :=
  ∀ {datagram damaged : List UInt8} {message : α}, datagram.length = record.size →
    record.decode datagram = .ok message → DifferInOne datagram damaged → record.Refuses damaged

/-- A record with a checksum lets no damaged byte pass. -/
theorem detectsDamage_of_checksummed (h : record.checksummed = true) : record.DetectsDamage := by
  intro datagram damaged message hlength hdecode hdiffer
  have hsize : ¬ damaged.length < record.size := by
    rw [← hdiffer.length_eq, hlength]
    exact Nat.lt_irrefl _
  have hexact : record.decode damaged = record.decodeExact damaged := by
    rw [decode, if_neg hsize, ← hlength, hdiffer.length_eq, List.take_length]
  have hbytes : record.bytes message = datagram := by
    have hbytes := bytes_append_of_decode hdecode
    rwa [← hlength, List.drop_length, List.append_nil] at hbytes
  have hpasses : Checksum.verify datagram = .ok () := by
    rw [← record.verify_bytes message, hbytes, verify, if_pos h]
  obtain ⟨hsum, hfails⟩ := Checksum.verify_of_differInOne hpasses hdiffer
  cases damaged with
  | nil =>
      refine absurd ?_ hsize
      simp only [List.length_nil, size]
      omega
  | cons actual rest =>
      by_cases htag : actual = record.kind.tag
      · subst htag
        refine .checksum rfl hsum ?_
        rw [hexact, decodeExact, Reader.ofBytes, Reader.expect_tag, verify, if_pos h, hfails]
        rfl
      · refine .tag rfl htag ?_
        rw [hexact, decodeExact, Reader.ofBytes, Reader.expect_cons, if_neg htag]
        rfl

end Record

/-- What the checksum catches. Byte strings of one length, however long, have the same checksum just
in case the sums of their bytes are congruent modulo `2 ^ 32`. Of a record that passes, any single
damaged byte is found out, be it one that the checksum covers or one of the checksum's own. So no
record that carries a checksum is read any more once one byte of it is damaged. -/
theorem damage_detected :
    (∀ first second : List UInt8, first.length = second.length →
      (Checksum.compute first = Checksum.compute second ↔
        byteSum first ≡ byteSum second [MOD 2 ^ 32])) ∧
    (∀ record damaged : List UInt8, Checksum.verify record = .ok () →
      DifferInOne record damaged →
        ∃ computed received, computed ≠ received ∧
          Checksum.verify damaged = .error (.checksumMismatch computed received)) ∧
    Login.record.DetectsDamage ∧ Logout.record.DetectsDamage ∧
    LoginResponse.record.DetectsDamage :=
  ⟨fun _ _ => Checksum.compute_eq_iff,
    fun _ _ hpasses hdiffer => ⟨_, _, Checksum.verify_of_differInOne hpasses hdiffer⟩,
    Record.detectsDamage_of_checksummed rfl, Record.detectsDamage_of_checksummed rfl,
    Record.detectsDamage_of_checksummed rfl⟩

/-- One bit of a login is flipped. -/
theorem damage_detected_in_login :
    let login : Login := ⟨Vector.replicate _ 9⟩
    let datagram := Login.record.bytes login
    let damaged := datagram.set 5 (datagram[5] ^^^ 0x40)
    Login.record.decode datagram = .ok login ∧ DifferInOne datagram damaged ∧
      Login.record.Refuses damaged ∧
      Login.record.decode damaged = .error (.checksumMismatch 4465422 4043214) := by
  intro login datagram damaged
  have hdecode : Login.record.decode datagram = .ok login := Login.record.decode_bytes login
  have hdiffer : DifferInOne datagram damaged := by
    have hdatagram : datagram = datagram.take 5 ++ 9 :: datagram.drop 6 := by decide +kernel
    have hdamaged : damaged = datagram.take 5 ++ 0x49 :: datagram.drop 6 := by decide +kernel
    have hdiffer : DifferInOne (datagram.take 5 ++ 9 :: datagram.drop 6)
        (datagram.take 5 ++ 0x49 :: datagram.drop 6) := .of_append _ (by decide) _
    rwa [← hdatagram, ← hdamaged] at hdiffer
  obtain ⟨-, -, hlogin, -⟩ := damage_detected
  exact ⟨hdecode, hdiffer, hlogin rfl hdecode hdiffer, by decide +kernel⟩

end RoomRelay.Wire
