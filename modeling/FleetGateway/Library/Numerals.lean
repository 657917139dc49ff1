import FleetGateway.Library.Decimal
import Mathlib.Data.List.TakeWhile

/-! Numbers at the front of a text, as stream extraction reads them. An integer has a sign
and digits; what it stands for is one thing, and what a type of some width makes of it another. -/

namespace FleetGateway.Library.Numerals
open ByteStore Decimal

/-- `isspace` in the C locale. -/
def isSpace (byte : UInt8) : Bool := byte = 32 || (9 ≤ byte && byte ≤ 13)

def splitSign : Bytes → Bool × Bytes
  | [] => (false, [])
  | first :: rest =>
    if first = 45 then (true, rest) else if first = 43 then (false, rest) else (false, first :: rest)

structure Field where
  negative : Bool
  digits : Bytes
  rest : Bytes

def integerField (source : Bytes) : Field where
  negative := (splitSign source).1
  digits := (splitSign source).2.takeWhile isDigit
  rest := (splitSign source).2.dropWhile isDigit

def Field.number (field : Field) : Int :=
  if field.negative then -(value field.digits : Int) else value field.digits

def Spells (source : Bytes) (number : Int) : Prop :=
  ∃ front sign digits back, source = front ++ (sign ++ (digits ++ back)) ∧
    (front.all isSpace = true ∧ back.all isSpace = true) ∧ (digits ≠ [] ∧ digits.all isDigit = true) ∧
    (((sign = [] ∨ sign = text "+") ∧ number = value digits) ∨ sign = text "-" ∧ number = -(value digits : Int))

theorem isDigit_isSpace {byte : UInt8} (digit : isDigit byte = true) : isSpace byte = false := by
  simp only [isDigit, Bool.and_eq_true, decide_eq_true_eq] at digit
  simp only [isSpace, Bool.or_eq_false_iff, Bool.and_eq_false_iff, decide_eq_false_iff_not]
  constructor
  · rintro rfl
    exact absurd digit (by decide)
  · right
    intro low
    have bound : byte.toNat ≤ 13 := low
    omega

theorem takeWhile_spaces {back : Bytes} (spaces : back.all isSpace = true) : back.takeWhile isDigit = [] := by
  cases back with
  | nil => rfl
  | cons first rest =>
    rw [List.all_cons, Bool.and_eq_true] at spaces
    apply List.takeWhile_cons_of_neg
    intro digit
    rw [isDigit_isSpace digit] at spaces
    cases spaces.1

theorem dropWhile_spaces {spaces : Bytes} (all : spaces.all isSpace = true) : spaces.dropWhile isSpace = [] :=
  List.dropWhile_eq_nil_iff.mpr (List.all_eq_true.mp all)

theorem Spells.field {source : Bytes} {number : Int} (spells : Spells source number) :
    let field := integerField (source.dropWhile isSpace)
    field.digits ≠ [] ∧ field.rest.dropWhile isSpace = [] ∧ field.number = number := by
  obtain ⟨front, sign, digits, back, rfl, ⟨blank, rest⟩, ⟨some, all⟩, meaning⟩ := spells
  have digit : ∀ byte ∈ digits, isDigit byte = true := List.all_eq_true.mp all
  obtain ⟨first, others, rfl⟩ := List.exists_cons_of_ne_nil some
  have leading := digit first List.mem_cons_self
  have start : (front ++ (sign ++ (first :: others ++ back))).dropWhile isSpace =
      sign ++ (first :: others ++ back) := by
    rw [List.dropWhile_append_of_pos (List.all_eq_true.mp blank)]
    rcases meaning with ⟨rfl | rfl, _⟩ | ⟨rfl, _⟩
    · exact List.dropWhile_cons_of_neg (by rw [isDigit_isSpace leading]; decide)
    · rfl
    · rfl
  have unsigned : first ≠ 45 ∧ first ≠ 43 := by
    constructor
    · rintro rfl
      cases leading
    · rintro rfl
      cases leading
  have split : splitSign (sign ++ (first :: others ++ back)) =
      (decide (sign = text "-"), first :: others ++ back) := by
    rcases meaning with ⟨rfl | rfl, _⟩ | ⟨rfl, _⟩
    · exact (if_neg unsigned.1).trans (if_neg unsigned.2)
    · rfl
    · rfl
  have taken : (first :: others ++ back).takeWhile isDigit = first :: others := by
    rw [List.takeWhile_append_of_pos digit, takeWhile_spaces rest, List.append_nil]
  have left : ((first :: others ++ back).dropWhile isDigit).dropWhile isSpace = [] := by
    have behind := List.takeWhile_append_dropWhile (p := isDigit) (l := first :: others ++ back)
    rw [taken] at behind
    rw [List.append_cancel_left behind]
    exact dropWhile_spaces rest
  rw [start]
  simp only [integerField, split, taken, left, Field.number]
  refine ⟨some, trivial, ?_⟩
  rcases meaning with ⟨rfl | rfl, same⟩ | ⟨rfl, same⟩
  · exact same.symm
  · exact same.symm
  · exact same.symm

theorem spells_of_field {source : Bytes} (digits : (integerField (source.dropWhile isSpace)).digits ≠ [])
    (whole : (integerField (source.dropWhile isSpace)).rest.dropWhile isSpace = []) :
    Spells source (integerField (source.dropWhile isSpace)).number := by
  have shape : source = source.takeWhile isSpace ++ source.dropWhile isSpace :=
    List.takeWhile_append_dropWhile.symm
  generalize source.dropWhile isSpace = field at shape digits whole ⊢
  have parts : ∃ sign, field = sign ++ (splitSign field).2 ∧
      (((sign = [] ∨ sign = text "+") ∧ (splitSign field).1 = false) ∨ sign = text "-" ∧ (splitSign field).1 = true) := by
    cases field with
    | nil => exact ⟨[], rfl, .inl ⟨.inl rfl, rfl⟩⟩
    | cons first rest =>
      rw [splitSign]
      split_ifs with minus plus
      · exact ⟨text "-", by rw [minus]; rfl, .inr ⟨rfl, rfl⟩⟩
      · exact ⟨text "+", by rw [plus]; rfl, .inl ⟨.inr rfl, rfl⟩⟩
      · exact ⟨[], rfl, .inl ⟨.inl rfl, rfl⟩⟩
  obtain ⟨sign, split, meaning⟩ := parts
  have behind : (splitSign field).2 = (integerField field).digits ++ (integerField field).rest :=
    List.takeWhile_append_dropWhile.symm
  rw [behind] at split
  refine ⟨source.takeWhile isSpace, sign, (integerField field).digits, (integerField field).rest, ?_, ⟨?_, ?_⟩,
    ⟨digits, ?_⟩, ?_⟩
  · rw [← split]
    exact shape
  · exact List.all_takeWhile
  · exact List.all_eq_true.mpr (List.dropWhile_eq_nil_iff.mp whole)
  · exact List.all_takeWhile
  · rcases meaning with ⟨plain, positive⟩ | ⟨minus, negative⟩
    · exact .inl ⟨plain, by simp only [Field.number, integerField, positive]; rfl⟩
    · exact .inr ⟨minus, by simp only [Field.number, integerField, negative]; rfl⟩

theorem Spells.unique {source : Bytes} {first second : Int} (one : Spells source first) (two : Spells source second) :
    first = second :=
  one.field.2.2.symm.trans two.field.2.2

/-- `strtoll`, and a failure where the number does not fit into the type. -/
def Field.toSigned (bits : Nat) (field : Field) : Option Int :=
  if field.digits ≠ [] ∧ -2 ^ (bits - 1) ≤ field.number ∧ field.number < 2 ^ (bits - 1) then some field.number else none

/-- `strtoull`: a minus sign takes the negative in `wide` bits, of a number that fits into them. -/
def Field.toUnsigned (wide bits : Nat) (field : Field) : Option Nat :=
  if field.digits = [] ∨ 2 ^ wide ≤ value field.digits then none
  else
    let converted := if field.negative then (2 ^ wide - value field.digits) % 2 ^ wide else value field.digits
    if converted < 2 ^ bits then some converted else none

section Converted

variable {field : Field}

theorem Field.toSigned_eq {bits : Nat} {number : Int} (converted : field.toSigned bits = some number) :
    field.digits ≠ [] ∧ number = field.number := by
  unfold Field.toSigned at converted
  split_ifs at converted with fits
  exact ⟨fits.1, (Option.some.inj converted).symm⟩

theorem Field.toUnsigned_eq {wide bits number : Nat} (converted : field.toUnsigned wide bits = some number) :
    field.digits ≠ [] ∧ ((number : Int) = field.number ↔ 0 ≤ field.number) := by
  unfold Field.toUnsigned at converted
  split at converted
  · cases converted
  next refused =>
  obtain ⟨some, small⟩ := not_or.mp refused
  refine ⟨some, ?_⟩
  dsimp only at converted
  unfold Field.number
  cases negative : field.negative with
  | false =>
    rw [negative] at converted
    simp only [Bool.false_eq_true, if_false] at converted ⊢
    split_ifs at converted
    cases converted
    omega
  | true =>
    rw [negative] at converted
    simp only [if_true] at converted ⊢
    split_ifs at converted
    cases converted
    by_cases zero : value field.digits = 0
    · rw [zero, Nat.sub_zero, Nat.mod_self]
      decide
    · rw [Nat.mod_eq_of_lt (by omega)]
      omega

end Converted

def exponentField : Bytes → Option (Int × Bytes)
  | [] => some (0, [])
  | mark :: rest =>
    if mark = 101 ∨ mark = 69 then
      let field := integerField rest
      if field.digits = [] then none else some (field.number, field.rest)
    else some (0, mark :: rest)

def fractionField : Bytes → Bytes × Bytes
  | [] => ([], [])
  | point :: rest => if point = 46 then (rest.takeWhile isDigit, rest.dropWhile isDigit) else ([], point :: rest)

/-- The nearest double to a decimal number, which fails when that is not finite. -/
def readDouble (source : Bytes) : Option (Float × Bytes) :=
  let signed := splitSign source
  let whole := signed.2.takeWhile isDigit
  let fraction := fractionField (signed.2.dropWhile isDigit)
  if whole ++ fraction.1 = [] then none
  else match exponentField fraction.2 with
    | none => none
    | some (exponent, rest) =>
      let scale := exponent - fraction.1.length
      let magnitude := Float.ofScientific (value (whole ++ fraction.1)) (decide (scale < 0)) scale.natAbs
      if magnitude.isFinite then some (if signed.1 then -magnitude else magnitude, rest) else none

end FleetGateway.Library.Numerals
