import Mathlib.Data.List.Basic

/-!
# Base64

Three bytes are written as four digits of six bits; a last group of one or two bytes is filled up with
padding. Blanks in a text are skipped when it is read. Nothing here depends on what the bytes are.
-/

namespace FaasNet.Lib.Base64

/-- The digits, in the order of their values. -/
def digit (n : Nat) : Char :=
  if n < 26 then Char.ofNat (n + 65)
  else if n < 52 then Char.ofNat (n - 26 + 97)
  else if n < 62 then Char.ofNat (n - 52 + 48)
  else if n = 62 then '+' else '/'

def value (c : Char) : Option Nat :=
  if 65 ≤ c.toNat ∧ c.toNat < 91 then some (c.toNat - 65)
  else if 97 ≤ c.toNat ∧ c.toNat < 123 then some (c.toNat - 97 + 26)
  else if 48 ≤ c.toNat ∧ c.toNat < 58 then some (c.toNat - 48 + 52)
  else if c = '+' then some 62
  else if c = '/' then some 63
  else none

def encode : List UInt8 → List Char
  | [] => []
  | [a] => [digit (a.toNat / 4), digit (a.toNat % 4 * 16), '=', '=']
  | [a, b] => [digit (a.toNat / 4), digit (a.toNat % 4 * 16 + b.toNat / 16), digit (b.toNat % 16 * 4), '=']
  | a :: b :: c :: rest =>
    digit (a.toNat / 4) :: digit (a.toNat % 4 * 16 + b.toNat / 16) :: digit (b.toNat % 16 * 4 + c.toNat / 64) ::
      digit (c.toNat % 64) :: encode rest

/-- The bytes of a group of four digits; the values beyond the last byte are dropped. -/
def first (w x : Nat) : UInt8 := UInt8.ofNat (w * 4 + x / 16)
def second (x y : Nat) : UInt8 := UInt8.ofNat (x % 16 * 16 + y / 4)
def third (y z : Nat) : UInt8 := UInt8.ofNat (y % 4 * 64 + z)

/-- Reads groups of four. Padding stands at the end of the last group only. -/
def decodeGroups : List Char → Option (List UInt8)
  | [] => some []
  | w :: x :: y :: z :: rest => do
    let w ← value w
    let x ← value x
    if z = '=' then
      if rest ≠ [] then none
      else if y = '=' then some [first w x]
      else
        let y ← value y
        some [first w x, second x y]
    else
      let y ← value y
      let z ← value z
      let bytes ← decodeGroups rest
      some (first w x :: second x y :: third y z :: bytes)
  | _ => none

def isBlank (c : Char) : Bool := c = ' ' ∨ c = '\t' ∨ c = '\n' ∨ c = '\r'

def decode (text : List Char) : Option (List UInt8) := decodeGroups (text.filter fun c => !isBlank c)

/-! ## Reading back what was written -/

theorem value_digit {n : Nat} (six : n < 64) : value (digit n) = some n := by
  revert n
  decide

theorem digit_ne_padding {n : Nat} (six : n < 64) : digit n ≠ '=' := by
  revert n
  decide

theorem digit_not_blank {n : Nat} (six : n < 64) : isBlank (digit n) = false := by
  revert n
  decide

theorem first_digits (a : UInt8) (low : Nat) (four : low < 16) :
    first (a.toNat / 4) (a.toNat % 4 * 16 + low) = a := by
  have whole : a.toNat / 4 * 4 + (a.toNat % 4 * 16 + low) / 16 = a.toNat := by omega
  rw [first, whole, UInt8.ofNat_toNat]

theorem second_digits (high : Nat) (b : UInt8) (low : Nat) (two : low < 4) :
    second (high * 16 + b.toNat / 16) (b.toNat % 16 * 4 + low) = b := by
  have byte := b.toNat_lt
  have whole : (high * 16 + b.toNat / 16) % 16 * 16 + (b.toNat % 16 * 4 + low) / 4 = b.toNat := by omega
  rw [second, whole, UInt8.ofNat_toNat]

theorem third_digits (high : Nat) (c : UInt8) : third (high * 4 + c.toNat / 64) (c.toNat % 64) = c := by
  have byte := c.toNat_lt
  have whole : (high * 4 + c.toNat / 64) % 4 * 64 + c.toNat % 64 = c.toNat := by omega
  rw [third, whole, UInt8.ofNat_toNat]

theorem encode_not_blank (bytes : List UInt8) : ∀ c ∈ encode bytes, isBlank c = false := by
  have padding : isBlank '=' = false := by decide
  fun_induction encode bytes with
  | case1 => simp
  | case2 a =>
    have byte := a.toNat_lt
    have high := digit_not_blank (n := a.toNat / 4) (by omega)
    have low := digit_not_blank (n := a.toNat % 4 * 16) (by omega)
    simp [high, low, padding]
  | case3 a b =>
    have byteA := a.toNat_lt
    have byteB := b.toNat_lt
    have high := digit_not_blank (n := a.toNat / 4) (by omega)
    have middle := digit_not_blank (n := a.toNat % 4 * 16 + b.toNat / 16) (by omega)
    have low := digit_not_blank (n := b.toNat % 16 * 4) (by omega)
    simp [high, middle, low, padding]
  | case4 a b c rest ih =>
    have byteA := a.toNat_lt
    have byteB := b.toNat_lt
    have byteC := c.toNat_lt
    have high := digit_not_blank (n := a.toNat / 4) (by omega)
    have upper := digit_not_blank (n := a.toNat % 4 * 16 + b.toNat / 16) (by omega)
    have lower := digit_not_blank (n := b.toNat % 16 * 4 + c.toNat / 64) (by omega)
    have low := digit_not_blank (n := c.toNat % 64) (by omega)
    simp only [List.mem_cons]
    rintro d (rfl | rfl | rfl | rfl | member)
    · exact high
    · exact upper
    · exact lower
    · exact low
    · exact ih d member

theorem decodeGroups_encode (bytes : List UInt8) : decodeGroups (encode bytes) = some bytes := by
  fun_induction encode bytes with
  | case1 => rfl
  | case2 a =>
    have byte := a.toNat_lt
    have whole := first_digits a 0 (by omega)
    simp only [Nat.add_zero] at whole
    simp [decodeGroups, value_digit (n := a.toNat / 4) (by omega), value_digit (n := a.toNat % 4 * 16) (by omega),
      whole]
  | case3 a b =>
    have byteA := a.toNat_lt
    have byteB := b.toNat_lt
    have whole := second_digits (a.toNat % 4) b 0 (by omega)
    simp only [Nat.add_zero] at whole
    simp [decodeGroups, value_digit (n := a.toNat / 4) (by omega),
      value_digit (n := a.toNat % 4 * 16 + b.toNat / 16) (by omega), value_digit (n := b.toNat % 16 * 4) (by omega),
      digit_ne_padding (n := b.toNat % 16 * 4) (by omega), first_digits a (b.toNat / 16) (by omega), whole]
  | case4 a b c rest ih =>
    have byteA := a.toNat_lt
    have byteB := b.toNat_lt
    have byteC := c.toNat_lt
    simp [decodeGroups, value_digit (n := a.toNat / 4) (by omega),
      value_digit (n := a.toNat % 4 * 16 + b.toNat / 16) (by omega),
      value_digit (n := b.toNat % 16 * 4 + c.toNat / 64) (by omega), value_digit (n := c.toNat % 64) (by omega),
      digit_ne_padding (n := c.toNat % 64) (by omega), first_digits a (b.toNat / 16) (by omega),
      second_digits (a.toNat % 4) b (c.toNat / 64) (by omega), third_digits (b.toNat % 16) c, ih]

theorem decode_encode (bytes : List UInt8) : decode (encode bytes) = some bytes := by
  rw [decode, List.filter_eq_self.mpr fun c member => by simp [encode_not_blank bytes c member], decodeGroups_encode]

end FaasNet.Lib.Base64
