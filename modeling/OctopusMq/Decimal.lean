import OctopusMq.Address
import Mathlib.Data.List.TakeWhile
import Mathlib.Data.Nat.Digits.Lemmas

set_option autoImplicit false

/- Decimal text: what is printed, and what the standard library reads. -/
namespace OctopusMq

def isDigit (c : UInt8) : Bool := 48 ≤ c && c ≤ 57

/-- `isspace` in the C locale. -/
def isSpace (c : UInt8) : Bool := c == 32 || (9 ≤ c && c ≤ 13)

def minusSign : UInt8 := 45
def plusSign : UInt8 := 43

/-- The number whose decimal digits are the text, its first digit the highest. -/
def decimalValue (text : Text) : Nat :=
  Nat.ofDigits 10 (text.reverse.map fun c => c.toNat - 48)

/-- What `strtol` converts: behind blanks and a sign, as many digits as there are. -/
structure Numeral where
  negative : Bool
  digits : Text
deriving DecidableEq, Repr

def Numeral.value (self : Numeral) : Int :=
  if self.negative then -(decimalValue self.digits : Int) else decimalValue self.digits

def readNumeral (text : Text) : Numeral :=
  match text.dropWhile isSpace with
  | [] => ⟨false, []⟩
  | c :: rest =>
      if c = minusSign then ⟨true, rest.takeWhile isDigit⟩
      else if c = plusSign then ⟨false, rest.takeWhile isDigit⟩
      else ⟨false, (c :: rest).takeWhile isDigit⟩

/-- The exceptions of `std::stoi`. -/
inductive StoiError where
  | invalidArgument
  | outOfRange
deriving DecidableEq, Repr

/-- `std::stoi`. What follows the digits is ignored. -/
def stoi (text : Text) : Except StoiError Int :=
  let numeral := readNumeral text
  if numeral.digits = [] then .error .invalidArgument
  else if -2 ^ 31 ≤ numeral.value ∧ numeral.value < 2 ^ 31 then .ok numeral.value
  else .error .outOfRange

example : stoi (bytes " -12abc") = .ok (-12) := by decide

/-- The digit with a value. -/
def digitChar (digit : Nat) : UInt8 := 48 + UInt8.ofNat digit

theorem digitChar_toNat {digit : Nat} (small : digit < 10) :
    (digitChar digit).toNat = 48 + digit := by
  unfold digitChar
  rw [UInt8.toNat_add, UInt8.toNat_ofNat']
  have zeroChar : (48 : UInt8).toNat = 48 := rfl
  omega

theorem isDigit_iff (c : UInt8) : isDigit c = true ↔ 48 ≤ c.toNat ∧ c.toNat ≤ 57 := by
  unfold isDigit
  rw [Bool.and_eq_true, decide_eq_true_eq, decide_eq_true_eq, UInt8.le_iff_toNat_le,
    UInt8.le_iff_toNat_le]
  exact Iff.rfl

theorem isDigit_digitChar {digit : Nat} (small : digit < 10) :
    isDigit (digitChar digit) = true := by
  rw [isDigit_iff, digitChar_toNat small]
  omega

/-- The digits of a number are printed from the highest to the lowest. -/
theorem decimal_of_lt {n : Nat} (small : n < 10) : decimal n = [digitChar n] := by
  unfold decimal
  by_cases zero : n = 0
  · subst zero
    decide
  · rw [if_neg zero, Nat.digits_of_lt 10 n zero small]
    rfl

theorem decimal_append {high low : Nat} (positive : 0 < high) (small : low < 10) :
    decimal (low + 10 * high) = decimal high ++ [digitChar low] := by
  unfold decimal
  rw [if_neg (by omega), if_neg (by omega), Nat.digits_add 10 (by decide) low high small
    (Or.inr (by omega)), List.reverse_cons, List.map_append]
  rfl

/-- An induction over the digits that are printed. -/
theorem decimal_induction {motive : Nat → Prop} (digit : ∀ n, n < 10 → motive n)
    (more : ∀ high low, 0 < high → low < 10 → motive high → motive (low + 10 * high)) (n : Nat) :
    motive n := by
  induction n using Nat.strongRecOn with
  | ind n ih =>
      by_cases small : n < 10
      · exact digit n small
      · have split : n = n % 10 + 10 * (n / 10) := by omega
        rw [split]
        exact more (n / 10) (n % 10) (by omega) (by omega) (ih (n / 10) (by omega))

theorem decimal_ne_nil (n : Nat) : decimal n ≠ [] := by
  induction n using decimal_induction with
  | digit n small => simp [decimal_of_lt small]
  | more high low positive small ih => simp [decimal_append positive small]

theorem decimal_isDigit (n : Nat) : ∀ c ∈ decimal n, isDigit c = true := by
  induction n using decimal_induction with
  | digit n small =>
      rw [decimal_of_lt small]
      intro c member
      rw [List.mem_singleton.mp member]
      exact isDigit_digitChar small
  | more high low positive small ih =>
      rw [decimal_append positive small]
      intro c member
      rcases List.mem_append.mp member with before | last
      · exact ih c before
      · rw [List.mem_singleton.mp last]
        exact isDigit_digitChar small

theorem decimalValue_nil : decimalValue [] = 0 := rfl

theorem decimalValue_append (text : Text) (c : UInt8) :
    decimalValue (text ++ [c]) = (c.toNat - 48) + 10 * decimalValue text := by
  unfold decimalValue
  rw [List.reverse_append, List.reverse_singleton, List.singleton_append, List.map_cons,
    Nat.ofDigits_cons]

/-- The text of a number is read back as the number. -/
theorem decimalValue_decimal (n : Nat) : decimalValue (decimal n) = n := by
  induction n using decimal_induction with
  | digit n small =>
      rw [decimal_of_lt small, ← List.nil_append [digitChar n], decimalValue_append,
        decimalValue_nil, digitChar_toNat small]
      omega
  | more high low positive small ih =>
      rw [decimal_append positive small, decimalValue_append, ih, digitChar_toNat small]
      omega

/-- A number below a power of ten has no more digits. -/
theorem decimal_length_le {n k : Nat} (positive : 0 < k) (small : n < 10 ^ k) :
    (decimal n).length ≤ k := by
  unfold decimal
  by_cases zero : n = 0
  · rw [if_pos zero]
    exact positive
  · rw [if_neg zero, List.length_map, List.length_reverse]
    exact (Nat.digits_length_le_iff (by decide) n).mpr small

theorem readNumeral_of_digits {text : Text} (digits : ∀ c ∈ text, isDigit c = true) :
    readNumeral text = ⟨false, text⟩ := by
  cases text with
  | nil => rfl
  | cons c rest =>
      have first := (isDigit_iff c).mp (digits c List.mem_cons_self)
      have visible : isSpace c = false := by
        unfold isSpace
        rw [Bool.or_eq_false_iff, beq_eq_false_iff_ne, Bool.and_eq_false_iff]
        refine ⟨?_, Or.inr ?_⟩
        · intro same
          rw [same] at first
          exact absurd first.1 (by decide)
        · rw [decide_eq_false_iff_not, UInt8.le_iff_toNat_le]
          exact fun low => absurd (Nat.le_trans first.1 low) (by decide)
      have unsigned : c ≠ minusSign ∧ c ≠ plusSign := by
        refine ⟨?_, ?_⟩ <;> intro same <;> rw [same] at first <;> exact absurd first.1 (by decide)
      unfold readNumeral
      rw [List.dropWhile_cons_of_neg (by rw [visible]; exact Bool.false_ne_true)]
      simp only [unsigned.1, unsigned.2, ↓reduceIte]
      rw [List.takeWhile_eq_self_iff.mpr digits]

/-- Text that is all digits is read as the number, as far as an `int` reaches. -/
theorem stoi_of_digits {text : Text} (nonempty : text ≠ [])
    (digits : ∀ c ∈ text, isDigit c = true) :
    stoi text = if decimalValue text < 2 ^ 31 then .ok (decimalValue text : Int)
      else .error .outOfRange := by
  unfold stoi
  rw [readNumeral_of_digits digits]
  simp only [nonempty, ↓reduceIte, Numeral.value, Bool.false_eq_true]
  by_cases small : decimalValue text < 2 ^ 31
  · rw [if_pos small, if_pos (by omega)]
  · rw [if_neg small, if_neg (by omega)]

/-- No `int` comes of text without a digit behind blanks and a sign, or with a value
that no `int` has. -/
theorem stoi_ok_iff (text : Text) :
    (∃ value, stoi text = .ok value) ↔ (readNumeral text).digits ≠ [] ∧
      -2 ^ 31 ≤ (readNumeral text).value ∧ (readNumeral text).value < 2 ^ 31 := by
  unfold stoi
  by_cases empty : (readNumeral text).digits = []
  · simp [empty]
  · by_cases fits : -2 ^ 31 ≤ (readNumeral text).value ∧ (readNumeral text).value < 2 ^ 31
    · simp only [if_neg empty, if_pos fits]
      exact ⟨fun _ => ⟨empty, fits⟩, fun _ => ⟨_, rfl⟩⟩
    · simp only [if_neg empty, if_neg fits]
      exact ⟨fun read => (nomatch read), fun ⟨_, inside⟩ => absurd inside fits⟩

end OctopusMq
