import FleetGateway.Library.ByteStore

/-! UTF-8: the bytes that encode some list of characters. Such bytes may be cut at every
ASCII byte, and only whole characters stand on both sides. -/

namespace FleetGateway.Library.Utf8
open ByteStore

def WellFormed (bytes : Bytes) : Prop :=
  ∃ characters : List Char, bytes = characters.flatMap String.utf8EncodeChar

def isAscii (byte : UInt8) : Bool := decide (byte.toNat < 128)

theorem encodeChar_cases (character : Char) :
    (∃ byte, isAscii byte = true ∧ String.utf8EncodeChar character = [byte]) ∨
      ∀ byte ∈ String.utf8EncodeChar character, isAscii byte = false := by
  unfold String.utf8EncodeChar
  dsimp only
  split
  next small =>
    refine .inl ⟨_, ?_, rfl⟩
    simp only [isAscii, UInt8.toNat_ofNat', decide_eq_true_eq]
    omega
  next =>
    right
    split_ifs <;> simp only [List.mem_cons, List.not_mem_nil, or_false, isAscii, decide_eq_false_iff_not]
    · rintro byte (rfl | rfl) <;> simp only [UInt8.toNat_ofNat'] <;> omega
    · rintro byte (rfl | rfl | rfl) <;> simp only [UInt8.toNat_ofNat'] <;> omega
    · rintro byte (rfl | rfl | rfl | rfl) <;> simp only [UInt8.toNat_ofNat'] <;> omega

theorem encodeChar_lt (character : Char) (byte : UInt8) (member : byte ∈ String.utf8EncodeChar character) :
    byte.toNat < 248 := by
  revert member
  unfold String.utf8EncodeChar
  dsimp only
  split_ifs <;> simp only [List.mem_cons, List.not_mem_nil, or_false]
  · rintro rfl
    simp only [UInt8.toNat_ofNat']
    omega
  · rintro (rfl | rfl) <;> simp only [UInt8.toNat_ofNat'] <;> omega
  · rintro (rfl | rfl | rfl) <;> simp only [UInt8.toNat_ofNat'] <;> omega
  · rintro (rfl | rfl | rfl | rfl) <;> simp only [UInt8.toNat_ofNat'] <;> omega

theorem WellFormed.byte_lt {bytes : Bytes} (wellFormed : WellFormed bytes) (byte : UInt8) (member : byte ∈ bytes) :
    byte.toNat < 248 := by
  obtain ⟨characters, rfl⟩ := wellFormed
  obtain ⟨character, _, inside⟩ := List.mem_flatMap.mp member
  exact encodeChar_lt character byte inside

theorem wellFormed_nil : WellFormed [] := ⟨[], rfl⟩

theorem WellFormed.append {front back : Bytes} (first : WellFormed front) (second : WellFormed back) :
    WellFormed (front ++ back) := by
  obtain ⟨characters, rfl⟩ := first
  obtain ⟨others, rfl⟩ := second
  exact ⟨characters ++ others, List.flatMap_append.symm⟩

theorem wellFormed_encodeChar (character : Char) : WellFormed (String.utf8EncodeChar character) :=
  ⟨[character], (List.append_nil _).symm⟩

theorem wellFormed_singleton {byte : UInt8} (ascii : isAscii byte = true) : WellFormed [byte] := by
  simp only [isAscii, decide_eq_true_eq] at ascii
  have scalar : byte.toUInt32.toNat = byte.toNat := UInt8.toNat_toUInt32 byte
  have valid : byte.toUInt32.isValidChar := .inl (by rw [scalar]; omega)
  have encoded : String.utf8EncodeChar ⟨byte.toUInt32, valid⟩ = [byte] := by
    unfold String.utf8EncodeChar
    dsimp only
    rw [scalar, if_pos (by omega), UInt8.ofNat_toNat]
  exact encoded ▸ wellFormed_encodeChar _

theorem wellFormed_ascii {bytes : Bytes} (ascii : ∀ byte ∈ bytes, isAscii byte = true) : WellFormed bytes := by
  induction bytes with
  | nil => exact wellFormed_nil
  | cons byte rest ih =>
    obtain ⟨first, others⟩ := List.forall_mem_cons.mp ascii
    exact (wellFormed_singleton first).append (ih others)

theorem WellFormed.split {front back : Bytes} {byte : UInt8} (ascii : isAscii byte = true)
    (wellFormed : WellFormed (front ++ byte :: back)) : WellFormed front ∧ WellFormed back := by
  obtain ⟨characters, whole⟩ := wellFormed
  induction characters generalizing front with
  | nil => cases front <;> cases whole
  | cons character rest ih =>
    rw [List.flatMap_cons, List.append_eq_append_iff] at whole
    rcases whole with ⟨middle, encoded, behind⟩ | ⟨middle, before, behind⟩
    · cases middle with
      | nil =>
        rw [List.append_nil] at encoded
        exact ⟨encoded ▸ wellFormed_encodeChar character, (@ih [] behind).2⟩
      | cons first others =>
        -- the character has an ASCII byte, so it is no more than that
        obtain ⟨rfl, rfl⟩ := List.cons.inj behind
        rcases encodeChar_cases character with ⟨only, _, single⟩ | none
        · rw [single] at encoded
          obtain ⟨rfl, rfl⟩ : front = [] ∧ others = [] := by
            have lengths := congrArg List.length encoded
            simp only [List.length_append, List.length_cons, List.length_nil] at lengths
            exact ⟨List.length_eq_zero_iff.mp (by omega), List.length_eq_zero_iff.mp (by omega)⟩
          exact ⟨wellFormed_nil, rest, rfl⟩
        · have impossible := none byte (by rw [encoded]; exact List.mem_append_right _ List.mem_cons_self)
          rw [ascii] at impossible
          cases impossible
    · obtain ⟨inside, after⟩ := ih behind.symm
      rw [before]
      exact ⟨(wellFormed_encodeChar character).append inside, after⟩

theorem wellFormed_split_iff {front back : Bytes} {byte : UInt8} (ascii : isAscii byte = true) :
    WellFormed (front ++ byte :: back) ↔ WellFormed front ∧ WellFormed back := by
  constructor
  · exact fun wellFormed => wellFormed.split ascii
  · rintro ⟨before, after⟩
    exact before.append ((wellFormed_singleton ascii).append after)

theorem wellFormed_ascii_append {front : Bytes} (ascii : ∀ byte ∈ front, isAscii byte = true) (back : Bytes) :
    WellFormed (front ++ back) ↔ WellFormed back := by
  induction front with
  | nil => rfl
  | cons byte rest ih =>
    obtain ⟨first, others⟩ := List.forall_mem_cons.mp ascii
    rw [← ih others]
    exact (@wellFormed_split_iff [] (rest ++ back) byte first).trans (and_iff_right wellFormed_nil)

end FleetGateway.Library.Utf8
