import FleetGateway.Library.Decimal
import FleetGateway.Library.Utf8

/-! JSON at the level of bytes: a reader of texts in which the bytes from 128 on stand for
themselves inside of strings, and what it makes of values that are written one after the other. -/

namespace FleetGateway.Library.Json
open ByteStore Decimal

/-- A number is `mantissa * 10 ^ exponent`. -/
inductive Value where
  | null
  | boolean (truth : Bool)
  | number (mantissa exponent : Int)
  | string (bytes : Bytes)
  | array (items : List Value)
  | object (members : List (Bytes × Value))

def isSpace (byte : UInt8) : Bool := byte = 32 || byte = 9 || byte = 10 || byte = 13

def dropSpace (input : Bytes) : Bytes := input.dropWhile isSpace

/-- A byte, or a code unit that was given by four hexadecimal digits. -/
inductive Piece where
  | byte (byte : UInt8)
  | unit (code : Nat)

def hexValue (byte : UInt8) : Option Nat :=
  if 48 ≤ byte.toNat ∧ byte.toNat ≤ 57 then some (byte.toNat - 48)
  else if 97 ≤ byte.toNat ∧ byte.toNat ≤ 102 then some (byte.toNat - 87)
  else if 65 ≤ byte.toNat ∧ byte.toNat ≤ 70 then some (byte.toNat - 55)
  else none

def hexUnit (first second third fourth : UInt8) : Option Nat := do
  let a ← hexValue first
  let b ← hexValue second
  let c ← hexValue third
  let d ← hexValue fourth
  return ((a * 16 + b) * 16 + c) * 16 + d

def shortEscape (mark : UInt8) : Option UInt8 :=
  if mark = 34 ∨ mark = 92 ∨ mark = 47 then some mark
  else if mark = 98 then some 8
  else if mark = 102 then some 12
  else if mark = 110 then some 10
  else if mark = 114 then some 13
  else if mark = 116 then some 9
  else none

def pieces : Bytes → Option (List Piece × Bytes)
  | [] => none
  | byte :: rest =>
    if byte = 34 then some ([], rest)
    else if byte = 92 then
      match rest with
      | 117 :: first :: second :: third :: fourth :: after =>
        match hexUnit first second third fourth with
        | some code => (pieces after).map (Prod.map (.unit code :: ·) id)
        | none => none
      | mark :: after =>
        match shortEscape mark with
        | some meant => (pieces after).map (Prod.map (.byte meant :: ·) id)
        | none => none
      | [] => none
    else if byte.toNat < 32 then none
    else (pieces rest).map (Prod.map (.byte byte :: ·) id)

def encodeScalar (code : Nat) : Bytes := String.utf8EncodeChar (Char.ofNat code)

/-- Two surrogates make one character, and none stands alone. -/
def render : List Piece → Option Bytes
  | [] => some []
  | .byte byte :: rest => (render rest).map (byte :: ·)
  | .unit code :: rest =>
    if code < 0xD800 ∨ 0xDFFF < code then (render rest).map (encodeScalar code ++ ·)
    else match rest with
      | .unit low :: after =>
        if code < 0xDC00 ∧ 0xDC00 ≤ low ∧ low ≤ 0xDFFF then
          (render after).map (encodeScalar (0x10000 + (code - 0xD800) * 0x400 + (low - 0xDC00)) ++ ·)
        else none
      | _ => none

def readString (input : Bytes) : Option (Bytes × Bytes) :=
  match pieces input with
  | some (found, rest) => (render found).map (·, rest)
  | none => none

def readFraction : Bytes → Option (Bytes × Bytes)
  | 46 :: rest => if rest.takeWhile isDigit = [] then none else some (rest.takeWhile isDigit, rest.dropWhile isDigit)
  | rest => some ([], rest)

def readSign : Bytes → Int × Bytes
  | 45 :: rest => (-1, rest)
  | 43 :: rest => (1, rest)
  | rest => (1, rest)

def readExponent : Bytes → Option (Int × Bytes)
  | [] => some (0, [])
  | mark :: rest =>
    if mark = 101 ∨ mark = 69 then
      let (sign, unsigned) := readSign rest
      if unsigned.takeWhile isDigit = [] then none
      else some (sign * value (unsigned.takeWhile isDigit), unsigned.dropWhile isDigit)
    else some (0, mark :: rest)

def readMagnitude (sign : Int) (input : Bytes) : Option (Value × Bytes) :=
  let whole := input.takeWhile isDigit
  if whole = [] ∨ (1 < whole.length ∧ whole.head? = some 48) then none
  else match readFraction (input.dropWhile isDigit) with
    | none => none
    | some (fraction, rest) =>
      match readExponent rest with
      | none => none
      | some (power, rest) => some (.number (sign * value (whole ++ fraction)) (power - fraction.length), rest)

def readNumber : Bytes → Option (Value × Bytes)
  | 45 :: rest => readMagnitude (-1) rest
  | input => readMagnitude 1 input

section Items

variable {α : Type}

def separated (item : Bytes → Option (α × Bytes)) (close : UInt8) : Nat → Bytes → Option (List α × Bytes)
  | 0, _ => none
  | fuel + 1, input =>
    match item input with
    | none => none
    | some (first, rest) =>
      match dropSpace rest with
      | [] => none
      | byte :: after =>
        if byte = close then some ([first], after)
        else if byte = 44 then (separated item close fuel after).map (Prod.map (first :: ·) id)
        else none

def readItems (item : Bytes → Option (α × Bytes)) (close : UInt8) (input : Bytes) : Option (List α × Bytes) :=
  match dropSpace input with
  | [] => none
  | byte :: after => if byte = close then some ([], after) else separated item close input.length input

def expect (mark : UInt8) (input : Bytes) : Option Bytes :=
  match dropSpace input with
  | [] => none
  | byte :: rest => if byte = mark then some rest else none

def readMember (item : Bytes → Option (α × Bytes)) (input : Bytes) : Option ((Bytes × α) × Bytes) :=
  match expect 34 input with
  | none => none
  | some quoted =>
    match readString quoted with
    | none => none
    | some (name, rest) =>
      match expect 58 rest with
      | none => none
      | some behind => (item behind).map (Prod.map (name, ·) id)

end Items

def readWord (word : Bytes) (meaning : Value) (input : Bytes) : Option (Value × Bytes) :=
  if word <+: input then some (meaning, input.drop word.length) else none

def readValue : Nat → Bytes → Option (Value × Bytes)
  | 0, _ => none
  | depth + 1, input =>
    match dropSpace input with
    | [] => none
    | byte :: rest =>
      if byte = 34 then (readString rest).map (Prod.map .string id)
      else if byte = 91 then (readItems (readValue depth) 93 rest).map (Prod.map .array id)
      else if byte = 123 then (readItems (readMember (readValue depth)) 125 rest).map (Prod.map .object id)
      else if byte = 116 then readWord (text "true") (.boolean true) (byte :: rest)
      else if byte = 102 then readWord (text "false") (.boolean false) (byte :: rest)
      else if byte = 110 then readWord (text "null") .null (byte :: rest)
      else readNumber (byte :: rest)

/-- A whole text. No value is deeper than its text is long. -/
def decode (input : Bytes) : Option Value :=
  match readValue (input.length + 1) input with
  | some (found, rest) => if dropSpace rest = [] then some found else none
  | none => none

/-- A text that may be exchanged: in UTF-8, and with a value. -/
def WellFormedText (input : Bytes) : Prop := Utf8.WellFormed input ∧ (decode input).isSome = true

/-- A character, an escape and a pair of surrogates, and a number with all its parts. -/
example : (decode (text "[\"\\u00e9\\ud83d\\ude00\", -2.5e3 ]")).isSome = true := by decide +kernel

theorem dropSpace_cons {byte : UInt8} (visible : isSpace byte = false) (rest : Bytes) :
    dropSpace (byte :: rest) = byte :: rest :=
  List.dropWhile_cons_of_neg (by rw [visible]; decide)

theorem expect_cons {mark : UInt8} (visible : isSpace mark = false) (rest : Bytes) :
    expect mark (mark :: rest) = some rest := by
  rw [expect, dropSpace_cons visible]
  exact if_pos rfl

def Delimiter (next : UInt8) : Prop := next = 44 ∨ next = 93 ∨ next = 125

section Numbers

theorem padded_cons (number : Nat) : ∃ first rest, padded 1 number = first :: rest ∧ isDigit first = true := by
  cases shape : padded 1 number with
  | nil =>
    have long : 1 ≤ (padded 1 number).length := by
      simp only [padded, List.length_append, List.length_replicate]
      omega
    rw [shape] at long
    cases long
  | cons first rest =>
    have all := isDigit_padded 1 number
    rw [shape, List.all_cons, Bool.and_eq_true] at all
    exact ⟨first, rest, rfl, all.1⟩

theorem head_padded (number : Nat) (long : 1 < (padded 1 number).length) : (padded 1 number).head? ≠ some 48 := by
  have large : 10 ≤ number := by
    by_contra small
    have short := length_padded 1 number (by omega)
    omega
  have digits : Nat.digits 10 number ≠ [] := Nat.digits_ne_nil_iff_ne_zero.mpr (by omega)
  have positive := List.length_pos_iff.mpr digits
  have last := Nat.getLast_digit_ne_zero 10 (show number ≠ 0 by omega)
  have below := Nat.digits_lt_base (by decide : 1 < 10) (List.getLast_mem digits)
  have bare : padded 1 number = (Nat.digits 10 number).reverse.map digitByte := by
    simp only [padded, List.length_map, List.length_reverse]
    rw [Nat.sub_eq_zero_of_le positive]
    rfl
  rw [bare, List.head?_map, List.head?_reverse, List.getLast?_eq_getLast_of_ne_nil digits]
  intro same
  have zero := congrArg digitOf (Option.some.inj same)
  rw [digitOf_digitByte _ below] at zero
  exact last zero

theorem Delimiter.stops {next : UInt8} (delimiter : Delimiter next) :
    isDigit next = false ∧ next ≠ 46 ∧ ¬ (next = 101 ∨ next = 69) := by
  rcases delimiter with rfl | rfl | rfl <;> decide

theorem readNumber_padded (number : Nat) (next : UInt8) (tail : Bytes) (delimiter : Delimiter next) :
    readNumber (padded 1 number ++ next :: tail) = some (.number number 0, next :: tail) := by
  obtain ⟨stop, point, mark⟩ := delimiter.stops
  have all := List.all_eq_true.mp (isDigit_padded 1 number)
  have taken : (padded 1 number ++ next :: tail).takeWhile isDigit = padded 1 number := by
    rw [List.takeWhile_append_of_pos all, List.takeWhile_cons_of_neg (by rw [stop]; decide), List.append_nil]
  have dropped : (padded 1 number ++ next :: tail).dropWhile isDigit = next :: tail := by
    rw [List.dropWhile_append_of_pos all, List.dropWhile_cons_of_neg (by rw [stop]; decide)]
  have fraction : readFraction (next :: tail) = some ([], next :: tail) := by
    unfold readFraction
    split
    next same => exact absurd (List.cons.inj same).1 point
    next => rfl
  have power : readExponent (next :: tail) = some (0, next :: tail) := if_neg mark
  have unsigned : readNumber (padded 1 number ++ next :: tail) = readMagnitude 1 (padded 1 number ++ next :: tail) := by
    obtain ⟨first, rest, shape, digit⟩ := padded_cons number
    rw [shape]
    unfold readNumber
    split
    next same =>
      cases (List.cons.inj same).1
      cases digit
    next => rfl
  have whole : ¬ (padded 1 number = [] ∨ 1 < (padded 1 number).length ∧ (padded 1 number).head? = some 48) := by
    rintro (empty | ⟨long, zero⟩)
    · obtain ⟨first, rest, shape, _⟩ := padded_cons number
      cases shape.symm.trans empty
    · exact head_padded number long zero
  rw [unsigned, readMagnitude, taken, dropped, fraction]
  dsimp only
  rw [if_neg whole, power]
  dsimp only
  rw [List.append_nil, value_padded, one_mul]
  rfl

end Numbers

section Strings

def Spells (written : Bytes) (byte : UInt8) : Prop :=
  ∃ piece, (∀ rest, pieces (written ++ rest) = (pieces rest).map (Prod.map (piece :: ·) id)) ∧
    ∀ others, render (piece :: others) = (render others).map (byte :: ·)

def Plain (byte : UInt8) : Prop := 32 ≤ byte.toNat ∧ byte ≠ 34 ∧ byte ≠ 92

instance (byte : UInt8) : Decidable (Plain byte) := inferInstanceAs (Decidable (_ ∧ _))

theorem spells_plain {byte : UInt8} (plain : Plain byte) : Spells [byte] byte := by
  obtain ⟨visible, quote, backslash⟩ := plain
  refine ⟨.byte byte, fun rest => ?_, fun _ => rfl⟩
  rw [List.singleton_append, pieces.eq_def]
  dsimp only
  rw [if_neg quote, if_neg backslash, if_neg (by omega)]

theorem spells_short {mark byte : UInt8} (known : shortEscape mark = some byte) : Spells [92, mark] byte := by
  refine ⟨.byte byte, fun rest => ?_, fun _ => rfl⟩
  rw [List.cons_append, List.singleton_append, pieces.eq_def]
  dsimp only
  rw [if_neg (by decide), if_pos rfl]
  split
  next same =>
    cases (List.cons.inj same).1
    cases known
  next same =>
    obtain ⟨rfl, rfl⟩ := List.cons.inj same
    rw [known]
  next same => cases same

theorem spells_unit {first second third fourth : UInt8} {code : Nat}
    (known : hexUnit first second third fourth = some code) (ascii : code < 128) :
    Spells [92, 117, first, second, third, fourth] (UInt8.ofNat code) := by
  refine ⟨.unit code, fun rest => ?_, fun others => ?_⟩
  · show pieces (92 :: 117 :: first :: second :: third :: fourth :: rest) = _
    rw [pieces.eq_def]
    dsimp only
    rw [if_neg (by decide), if_pos rfl]
    split
    next same =>
      cases same
      rw [known]
    next different same =>
      cases same
      exact absurd rfl (different _ _ _ _ _ rfl)
    next same => cases same
  · have valid : code.isValidChar := .inl (by omega)
    have scalar : (Char.ofNat code).val.toNat = code := by
      rw [Char.ofNat, dif_pos valid]
      rfl
    have encoded : encodeScalar code = [UInt8.ofNat code] := by
      unfold encodeScalar String.utf8EncodeChar
      dsimp only
      rw [scalar, if_pos (by omega)]
    rw [render.eq_def]
    dsimp only
    rw [if_pos (.inl (by omega)), encoded]
    rfl

theorem readString_spelled (escape : UInt8 → Bytes) (bytes : Bytes)
    (spells : ∀ byte ∈ bytes, Spells (escape byte) byte) (tail : Bytes) :
    readString (bytes.flatMap escape ++ 34 :: tail) = some (bytes, tail) := by
  have read : ∃ found, pieces (bytes.flatMap escape ++ 34 :: tail) = some (found, tail) ∧ render found = some bytes := by
    induction bytes with
    | nil =>
      refine ⟨[], ?_, rfl⟩
      rw [List.flatMap_nil, List.nil_append, pieces.eq_def]
      exact if_pos rfl
    | cons byte rest ih =>
      obtain ⟨first, others⟩ := List.forall_mem_cons.mp spells
      obtain ⟨piece, scanned, rendered⟩ := first
      obtain ⟨found, scannedRest, renderedRest⟩ := ih others
      refine ⟨piece :: found, ?_, ?_⟩
      · rw [List.flatMap_cons, List.append_assoc, scanned, scannedRest]
        rfl
      · rw [rendered, renderedRest]
        rfl
  obtain ⟨found, scanned, rendered⟩ := read
  rw [readString, scanned]
  dsimp only
  rw [rendered]
  rfl

theorem readString_plain (bytes : Bytes) (plain : ∀ byte ∈ bytes, Plain byte) (tail : Bytes) :
    readString (bytes ++ 34 :: tail) = some (bytes, tail) := by
  have spelled := readString_spelled (fun byte => [byte]) bytes (fun byte member => spells_plain (plain byte member)) tail
  rwa [List.flatMap_singleton'] at spelled

/-- What stands between two quotes: a quote or a backslash only as part of an escape, and no
control character. -/
inductive Contents : Bytes → Prop
  | nil : Contents []
  | plain (byte : UInt8) (rest : Bytes) (plain : Plain byte) (inside : Contents rest) : Contents (byte :: rest)
  | short (mark : UInt8) (rest : Bytes) (known : (shortEscape mark).isSome = true) (inside : Contents rest) :
      Contents (92 :: mark :: rest)
  | unit (first second third fourth : UInt8) (rest : Bytes) (known : (hexUnit first second third fourth).isSome = true)
      (inside : Contents rest) : Contents (92 :: 117 :: first :: second :: third :: fourth :: rest)

end Strings

section Items

variable {α β : Type}

def join (write : α → Bytes) : List α → Bytes
  | [] => []
  | first :: rest => write first ++ rest.flatMap fun item => 44 :: write item

/-- Whatever ends it, the reader takes the writing whole. -/
structure Reads (item : Bytes → Option (β × Bytes)) (close : UInt8) (written : Bytes) (result : β) : Prop where
  starts : ∃ first rest, written = first :: rest ∧ isSpace first = false ∧ first ≠ close
  reads : ∀ next tail, next = 44 ∨ next = close → item (written ++ next :: tail) = some (result, next :: tail)

variable (item : Bytes → Option (β × Bytes)) (close : UInt8) (write : α → Bytes) (result : α → β)

theorem separated_join (visible : isSpace close = false) (comma : close ≠ 44) (fuel : Nat) (first : α) (rest : List α)
    (enough : rest.length < fuel)
    (reads : ∀ written ∈ first :: rest, Reads item close (write written) (result written)) (tail : Bytes) :
    separated item close fuel (join write (first :: rest) ++ close :: tail) =
      some ((first :: rest).map result, tail) := by
  induction rest generalizing first fuel with
  | nil =>
    obtain ⟨fuel, rfl⟩ := Nat.exists_eq_succ_of_ne_zero (Nat.ne_of_gt enough)
    have read := (reads first List.mem_cons_self).reads close tail (.inr rfl)
    rw [join, List.flatMap_nil, List.append_nil, separated, read]
    dsimp only
    rw [dropSpace_cons visible]
    dsimp only
    rw [if_pos rfl]
    rfl
  | cons second others ih =>
    obtain ⟨fuel, rfl⟩ := Nat.exists_eq_succ_of_ne_zero (Nat.ne_of_gt (Nat.zero_lt_of_lt enough))
    obtain ⟨head, behind⟩ := List.forall_mem_cons.mp reads
    have parts : join write (first :: second :: others) ++ close :: tail =
        write first ++ 44 :: (join write (second :: others) ++ close :: tail) := by
      simp only [join, List.flatMap_cons, List.append_assoc, List.cons_append]
    have later := ih fuel second (Nat.lt_of_succ_lt_succ enough) behind
    rw [parts, separated, head.reads 44 _ (.inl rfl)]
    dsimp only
    rw [dropSpace_cons (by decide)]
    dsimp only
    rw [if_neg (Ne.symm comma), if_pos rfl, later]
    rfl

theorem length_join (items : List α) (written : ∀ item ∈ items, write item ≠ []) :
    items.length ≤ (join write items).length := by
  have behind (rest : List α) : rest.length ≤ (rest.flatMap fun item => 44 :: write item).length := by
    induction rest with
    | nil => exact le_refl _
    | cons next rest ih =>
      simp only [List.flatMap_cons, List.length_append, List.length_cons]
      omega
  cases items with
  | nil => exact le_refl _
  | cons first rest =>
    have positive := List.length_pos_iff.mpr (written first List.mem_cons_self)
    have more := behind rest
    simp only [join, List.length_append, List.length_cons]
    omega

theorem readItems_join (visible : isSpace close = false) (comma : close ≠ 44) (items : List α)
    (reads : ∀ written ∈ items, Reads item close (write written) (result written)) (tail : Bytes) :
    readItems item close (join write items ++ close :: tail) = some (items.map result, tail) := by
  cases items with
  | nil =>
    rw [join, List.nil_append, readItems, dropSpace_cons visible]
    exact if_pos rfl
  | cons first rest =>
    have long : (first :: rest).length ≤ (join write (first :: rest)).length := by
      refine length_join write _ fun other member empty => ?_
      obtain ⟨head, behind, shape, _⟩ := (reads other member).starts
      cases shape.symm.trans empty
    have enough : rest.length < (join write (first :: rest) ++ close :: tail).length := by
      rw [List.length_append]
      simp only [List.length_cons] at long ⊢
      omega
    have all := separated_join item close write result visible comma _ first rest enough reads tail
    obtain ⟨head, behind, shape, blank, different⟩ := (reads first List.mem_cons_self).starts
    generalize whole : join write (first :: rest) ++ close :: tail = input at all
    have begins : ∃ more, input = head :: more := by
      rw [← whole, join, shape]
      exact ⟨_, rfl⟩
    obtain ⟨more, rfl⟩ := begins
    rw [readItems, dropSpace_cons blank]
    dsimp only
    rw [if_neg different]
    exact all

end Items

section Values

theorem readValue_number (depth number : Nat) (next : UInt8) (tail : Bytes) (delimiter : Delimiter next) :
    readValue (depth + 1) (padded 1 number ++ next :: tail) = some (.number number 0, next :: tail) := by
  have read := readNumber_padded number next tail delimiter
  obtain ⟨first, rest, shape, digit⟩ := padded_cons number
  rw [shape, List.cons_append] at read ⊢
  have other (byte : UInt8) (none : isDigit byte = false) : first ≠ byte := by
    rintro rfl
    cases digit.symm.trans none
  have visible : isSpace first = false := by
    simp only [isSpace, Bool.or_eq_false_iff, decide_eq_false_iff_not]
    exact ⟨⟨⟨other 32 rfl, other 9 rfl⟩, other 10 rfl⟩, other 13 rfl⟩
  rw [readValue, dropSpace_cons visible]
  dsimp only
  rw [if_neg (other 34 rfl), if_neg (other 91 rfl), if_neg (other 123 rfl), if_neg (other 116 rfl),
    if_neg (other 102 rfl), if_neg (other 110 rfl)]
  exact read

theorem readValue_string (depth : Nat) (escape : UInt8 → Bytes) (bytes : Bytes)
    (spells : ∀ byte ∈ bytes, Spells (escape byte) byte) (tail : Bytes) :
    readValue (depth + 1) (34 :: (bytes.flatMap escape ++ 34 :: tail)) = some (.string bytes, tail) := by
  rw [readValue, dropSpace_cons (by decide)]
  dsimp only
  rw [if_pos rfl, readString_spelled escape bytes spells]
  rfl

structure Member where
  name : Bytes
  written : Bytes
  value : Value

def Member.write (member : Member) : Bytes := 34 :: (member.name ++ 34 :: 58 :: member.written)

theorem readMember_reads (depth : Nat) (member : Member) (plain : ∀ byte ∈ member.name, Plain byte)
    (reads : ∀ next tail, Delimiter next →
      readValue depth (member.written ++ next :: tail) = some (member.value, next :: tail)) :
    Reads (readMember (readValue depth)) 125 member.write (member.name, member.value) := by
  refine ⟨⟨34, _, rfl, by decide, by decide⟩, fun next tail ends => ?_⟩
  have parts : member.write ++ next :: tail = 34 :: (member.name ++ 34 :: 58 :: (member.written ++ next :: tail)) := by
    simp only [Member.write, List.cons_append, List.append_assoc]
  have delimiter : Delimiter next := ends.elim .inl fun close => .inr (.inr close)
  rw [parts, readMember, expect_cons (by decide)]
  dsimp only
  rw [readString_plain member.name plain]
  dsimp only
  rw [expect_cons (by decide)]
  dsimp only
  rw [reads next tail delimiter]
  rfl

theorem readValue_object (depth : Nat) (members : List Member)
    (plain : ∀ member ∈ members, ∀ byte ∈ member.name, Plain byte)
    (reads : ∀ member ∈ members, ∀ next tail, Delimiter next →
      readValue depth (member.written ++ next :: tail) = some (member.value, next :: tail)) (tail : Bytes) :
    readValue (depth + 1) (123 :: (join Member.write members ++ 125 :: tail)) =
      some (.object (members.map fun member => (member.name, member.value)), tail) := by
  have items := readItems_join (readMember (readValue depth)) 125 Member.write
    (fun member => (member.name, member.value)) (by decide) (by decide) members
    (fun member inside => readMember_reads depth member (plain member inside) (reads member inside)) tail
  rw [readValue, dropSpace_cons (by decide)]
  dsimp only
  rw [if_neg (by decide), if_neg (by decide), if_pos rfl, items]
  rfl

theorem readValue_array {α : Type} (depth : Nat) (write : α → Bytes) (result : α → Value) (items : List α)
    (reads : ∀ item ∈ items, Reads (readValue depth) 93 (write item) (result item)) (tail : Bytes) :
    readValue (depth + 1) (91 :: (join write items ++ 93 :: tail)) = some (.array (items.map result), tail) := by
  have read := readItems_join (readValue depth) 93 write result (by decide) (by decide) items reads tail
  rw [readValue, dropSpace_cons (by decide)]
  dsimp only
  rw [if_neg (by decide), if_pos rfl, read]
  rfl

end Values

end FleetGateway.Library.Json
