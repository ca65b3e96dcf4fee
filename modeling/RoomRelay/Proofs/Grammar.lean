import Mathlib.Data.Nat.Digits.Defs
import RoomRelay.Operator.Command

/-!
# Lines that are commands

The words of a line are its maximal runs of characters that are not white space: no other division
of the line is one into such runs. A word writes a number if it is made of decimal digits, perhaps
after one plus sign. In these terms it is told which lines are commands, and which commands they
are; every other line is none.
-/

namespace RoomRelay

namespace Text

/-- Whether words are the maximal runs of characters of a text that are not white space. -/
inductive Runs : List Char → List (List Char) → Prop
  | nil : Runs [] []
  | space {c : Char} {rest : List Char} {words : List (List Char)} :
    isWhiteSpace c = true → Runs rest words → Runs (c :: rest) words
  /-- A run is not empty, and white space or the end of the text follows it. -/
  | run {word rest : List Char} {words : List (List Char)} :
    word ≠ [] → (∀ c ∈ word, isWhiteSpace c = false) →
      (∀ c ∈ rest.head?, isWhiteSpace c = true) → Runs rest words →
        Runs (word ++ rest) (word :: words)

variable {word rest : List Char} {words : List (List Char)}

/-- A word is read to its end. -/
theorem wordsFrom_append (read : List Char) (h : ∀ c ∈ word, isWhiteSpace c = false) :
    wordsFrom read (word ++ rest) = wordsFrom (word.reverse ++ read) rest := by
  induction word generalizing read with
  | nil => rfl
  | cons c word ih =>
      obtain ⟨hc, hword⟩ := List.forall_mem_cons.mp h
      rw [List.cons_append, wordsFrom, hc, if_neg Bool.false_ne_true, ih (c :: read) hword,
        List.reverse_cons, List.append_assoc]
      rfl

/-- What is read before white space or the end of the text is a word. -/
theorem wordsFrom_of_head? {read : List Char} (hread : read ≠ [])
    (h : ∀ c ∈ rest.head?, isWhiteSpace c = true) :
    wordsFrom read rest = read.reverse :: wordsFrom [] rest := by
  cases rest with
  | nil => simp [wordsFrom, hread]
  | cons c rest =>
      have hc : isWhiteSpace c = true := h c rfl
      simp [wordsFrom, hc, hread]

/-- Where a word ends, it is a run if there is one. -/
theorem Runs.wordsFrom {read : List Char} (hread : ∀ c ∈ read, isWhiteSpace c = false)
    (hend : ∀ c ∈ rest.head?, isWhiteSpace c = true) (h : Runs rest (wordsFrom [] rest)) :
    Runs (read.reverse ++ rest) (Text.wordsFrom read rest) := by
  by_cases hempty : read = []
  · subst hempty
    exact h
  · rw [wordsFrom_of_head? hempty hend]
    exact .run (by simpa using hempty) (by simpa using hread) hend h

/-- Reading a text divides it into its runs. The word that is being read belongs to the text. -/
theorem runs_wordsFrom (read line : List Char) (h : ∀ c ∈ read, isWhiteSpace c = false) :
    Runs (read.reverse ++ line) (wordsFrom read line) := by
  induction line generalizing read with
  | nil => exact Runs.wordsFrom h (fun c hc => by cases hc) .nil
  | cons c line ih =>
      cases hc : isWhiteSpace c with
      | true =>
          have hrest : Runs (c :: line) (wordsFrom [] (c :: line)) := by
            simpa [wordsFrom, hc] using Runs.space hc (ih [] (by simp))
          exact hrest.wordsFrom h (by simpa using hc)
      | false =>
          have hmore := ih (c :: read) (List.forall_mem_cons.mpr ⟨hc, h⟩)
          simpa [wordsFrom, hc] using hmore

theorem wordsFrom_of_runs {line : List Char} (h : Runs line words) :
    wordsFrom [] line = words := by
  induction h with
  | nil => rfl
  | space hc _ ih => simpa [wordsFrom, hc] using ih
  | run hne hword hend _ ih =>
      rw [wordsFrom_append [] hword, List.append_nil, wordsFrom_of_head? (by simpa using hne) hend,
        List.reverse_reverse, ih]

/-- The words of a line are its runs. -/
theorem words_eq_iff {line : String} {words : List String} :
    Text.words line = words ↔ Runs line.toList (words.map String.toList) := by
  have hruns := runs_wordsFrom [] line.toList (by simp)
  constructor
  · rintro rfl
    simpa [Text.words, Function.comp_def] using hruns
  · intro h
    rw [Text.words, wordsFrom_of_runs h, List.map_map]
    simp [Function.comp_def]

end Text

namespace Numeral

/-- Whether a text is made of decimal digits, at least one of them, that make up a number. -/
def Digits (text : List Char) (n : Nat) : Prop :=
  ∃ digits : List (Fin 10), digits ≠ [] ∧ text = digits.map (fun digit => digit.val.digitChar) ∧
    n = Nat.ofDigits 10 (digits.map Fin.val).reverse

/-- Whether a text is made of digits that make up a number, perhaps after one plus sign. -/
def Writes (text : List Char) (n : Nat) : Prop :=
  Digits text n ∨ ∃ digits, text = '+' :: digits ∧ Digits digits n

theorem digitValue?_digitChar (digit : Fin 10) :
    digitValue? 10 digit.val.digitChar = some digit.val := by
  decide +revert

/-- What has a value is a digit. -/
theorem exists_digitChar {c : Char} (h : isDigit 10 c = true) :
    ∃ digit : Fin 10, c = digit.val.digitChar := by
  have hrange : '0' ≤ c ∧ c ≤ '9' := by
    refine Classical.byContradiction fun hnot => ?_
    rw [isDigit, digitValue?, if_neg hnot] at h
    split at h
    · simp at h
    · split at h <;> simp at h
  have hlow : 48 ≤ c.toNat := hrange.1
  have hhigh : c.toNat ≤ 57 := hrange.2
  have hchar : ∀ digit : Fin 10, Char.ofNat (48 + digit) = digit.val.digitChar := by decide
  refine ⟨⟨c.toNat - 48, by omega⟩, ?_⟩
  calc c = Char.ofNat c.toNat := c.ofNat_toNat.symm
    _ = Char.ofNat (48 + (c.toNat - 48)) := congrArg Char.ofNat (by omega)
    _ = (c.toNat - 48).digitChar := hchar ⟨c.toNat - 48, by omega⟩

theorem value_digits (digits : List (Fin 10)) :
    value 10 (digits.map fun digit => digit.val.digitChar) =
      Nat.ofDigits 10 (digits.map Fin.val).reverse := by
  rw [Nat.ofDigits_eq_foldr, List.foldr_reverse, value, List.foldl_map, List.foldl_map]
  refine congrArg (fun step => digits.foldl step 0) (funext fun n => funext fun digit => ?_)
  rw [digitValue?_digitChar, Nat.add_comm]
  rfl

theorem all_isDigit_iff {text : List Char} :
    text.all (isDigit 10) = true ↔
      ∃ digits : List (Fin 10), text = digits.map fun digit => digit.val.digitChar := by
  constructor
  · intro h
    induction text with
    | nil => exact ⟨[], rfl⟩
    | cons c text ih =>
        rw [List.all_cons, Bool.and_eq_true] at h
        obtain ⟨digit, rfl⟩ := exists_digitChar h.1
        obtain ⟨digits, rfl⟩ := ih h.2
        exact ⟨digit :: digits, rfl⟩
  · rintro ⟨digits, rfl⟩
    simp [isDigit, digitValue?_digitChar]

theorem read?_eq_some_iff {text : List Char} {n : Nat} :
    read? 10 text = some n ↔ Digits text n := by
  rw [read?, Option.ite_none_right_eq_some, all_isDigit_iff, Option.some.injEq]
  constructor
  · rintro ⟨⟨hne, digits, rfl⟩, rfl⟩
    exact ⟨digits, by simpa using hne, rfl, value_digits digits⟩
  · rintro ⟨digits, hne, rfl, rfl⟩
    exact ⟨⟨by simpa using hne, digits, rfl⟩, value_digits digits⟩

/-- A plus sign is no digit. -/
theorem not_digits_plus (text : List Char) (n : Nat) : ¬ Digits ('+' :: text) n := by
  rw [← read?_eq_some_iff, read?, if_neg]
  · exact Option.some_ne_none n ∘ Eq.symm
  · rintro ⟨-, hall⟩
    rw [List.all_cons, Bool.and_eq_true] at hall
    exact absurd hall.1 (by decide)

theorem readSigned?_eq_some_iff {bound : Nat} {text : List Char} {n : Nat} :
    readSigned? bound text = some n ↔ n < bound ∧ Writes text n := by
  unfold readSigned?
  rw [Option.filter_eq_some_iff, read?_eq_some_iff, decide_eq_true_iff, And.comm, Writes]
  refine and_congr_right fun _ => ?_
  split
  · next digits =>
    simp [not_digits_plus]
  · next hplus =>
    refine ⟨.inl, ?_⟩
    rintro (h | ⟨digits, rfl, -⟩)
    · exact h
    · exact absurd rfl (hplus digits)

end Numeral

namespace Command

/-- A word numbers a room if it writes the room's number. -/
theorem roomNumber?_eq_some_iff {word : String} {id : RoomId} :
    roomNumber? word = some id ↔ Numeral.Writes word.toList id.number.toNat := by
  rw [roomNumber?, Option.map_eq_some_iff]
  constructor
  · rintro ⟨n, hread, rfl⟩
    obtain ⟨hn, hwrites⟩ := Numeral.readSigned?_eq_some_iff.mp hread
    rwa [UInt16.toNat_ofNat_of_lt' hn]
  · intro hwrites
    refine ⟨id.number.toNat, ?_, by simp⟩
    exact Numeral.readSigned?_eq_some_iff.mpr ⟨id.number.toNat_lt, hwrites⟩

/-- A word numbers no room if each number that it writes, if any, is too large for one. -/
theorem roomNumber?_eq_none_iff {word : String} :
    roomNumber? word = none ↔ ∀ n, Numeral.Writes word.toList n → 65536 ≤ n := by
  rw [roomNumber?, Option.map_eq_none_iff, Option.eq_none_iff_forall_ne_some]
  refine forall_congr' fun n => ?_
  rw [Ne, Numeral.readSigned?_eq_some_iff, not_and', Nat.not_lt]

/-- Which command, if any, a line with these words is. -/
structure Reads (words : List String) (command : Option Command) : Prop where
  exit : command = some .exit ↔ words = ["exit"]
  reportServer : command = some .reportServer ↔ words = ["report", "server"]
  reportTime : command = some .reportTime ↔ words = ["report", "time"]
  reportRoom : ∀ id, command = some (.reportRoom id) ↔
    ∃ word, words = ["report", "room", word] ∧ Numeral.Writes word.toList id.number.toNat
  /-- A line is no command if its words are those of none, or if the word for the room writes no
  number below 65536. -/
  none : command = none ↔
    words ≠ ["exit"] ∧ words ≠ ["report", "server"] ∧ words ≠ ["report", "time"] ∧
      ∀ word n, words = ["report", "room", word] → Numeral.Writes word.toList n → 65536 ≤ n

theorem reads_ofWords? (words : List String) : Reads words (ofWords? words) := by
  unfold ofWords?
  split
  case h_1 => constructor <;> simp
  case h_2 => constructor <;> simp
  case h_3 => constructor <;> simp
  case h_4 number =>
    constructor
    case reportRoom =>
      intro id
      simp [← roomNumber?_eq_some_iff]
    case none =>
      simp only [Option.map_eq_none_iff, roomNumber?_eq_none_iff]
      constructor
      · intro hlarge
        simpa using fun _ n hword => hword ▸ hlarge n
      · intro h n
        exact h.2.2.2 number n rfl
    all_goals simp
  case h_5 hexit hserver htime hroom =>
    constructor
    case reportRoom =>
      intro id
      refine iff_of_false (Option.some_ne_none _).symm ?_
      rintro ⟨word, hwords, -⟩
      exact hroom word hwords
    case none =>
      exact iff_of_true rfl ⟨hexit, hserver, htime, fun word _ hwords _ => (hroom word hwords).elim⟩
    all_goals simp_all

/-- The console understands exactly its grammar: the text of a line has one division into words,
and they tell which command the line is. -/
theorem parse?_reads (line : String) :
    ∃ words : List String,
      (∀ other : List String, Text.Runs line.toList (other.map String.toList) ↔ other = words) ∧
        Reads words (parse? line) :=
  ⟨Text.words line, fun _ => Text.words_eq_iff.symm.trans eq_comm, reads_ofWords? _⟩

/-- White space around words does not matter, and neither do leading zeros. -/
example : parse? "\treport  room +007 " = some (.reportRoom ⟨7⟩) := by decide

end Command

end RoomRelay
