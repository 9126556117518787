/-!
# Bytes in base 64

Bytes can be written with characters that count six bits each, so that four characters hold three
bytes. Other characters among them mean nothing. Equals signs fill up the last group of four, and
what stands behind them is not looked at.

* `Base64.value?`: what a character counts; `value?_lt`: it is less than 64;
* `Base64.decode?`: the bytes that characters write.
-/

namespace Spreadsheet.Text.Base64

/-- What a character counts. -/
def value? (c : Char) : Option Nat :=
  if 'A' ≤ c ∧ c ≤ 'Z' then some (c.toNat - 65)
  else if 'a' ≤ c ∧ c ≤ 'z' then some (c.toNat - 71)
  else if '0' ≤ c ∧ c ≤ '9' then some (c.toNat + 4)
  else if c = '+' then some 62
  else if c = '/' then some 63
  else none

/-- A group of four that has been begun. -/
structure Begun where
  /-- How many characters of it there were. -/
  count : Nat := 0
  /-- The number that their bits make that no byte holds yet. -/
  left : Nat := 0

/-- The group with one more character, and the byte that is full with it. -/
def Begun.add (g : Begun) (v : Nat) : Begun × List UInt8 :=
  match g.count with
  | 0 => (⟨1, v⟩, [])
  | 1 => (⟨2, v % 16⟩, [(4 * g.left + v / 16).toUInt8])
  | 2 => (⟨3, v % 4⟩, [(16 * g.left + v / 4).toUInt8])
  | _ => ({}, [(64 * g.left + v).toUInt8])

/-- The bytes that characters write behind a group that was begun and as many equals signs. -/
def decodeFrom? (g : Begun) (fill : Nat) : List Char → Option (List UInt8)
  | [] => if g.count = 0 then some [] else none
  | '=' :: cs =>
    if g.count < 2 then decodeFrom? g fill cs
    else if 4 ≤ g.count + fill + 1 then some []
    else decodeFrom? g (fill + 1) cs
  | c :: cs =>
    match value? c with
    | none => decodeFrom? g fill cs
    | some v =>
      let (g, bytes) := g.add v
      (decodeFrom? g 0 cs).map (bytes ++ ·)

/-- The bytes that characters write, unless the last group is neither full nor filled up. -/
def decode? (cs : List Char) : Option (List UInt8) := decodeFrom? {} 0 cs

/-! ## Small laws -/

theorem value?_lt {c : Char} {v : Nat} (h : value? c = some v) : v < 64 := by
  have hZ : 'Z'.toNat = 90 := rfl
  have hz : 'z'.toNat = 122 := rfl
  have h9 : '9'.toNat = 57 := rfl
  simp only [value?, Char.le_def, UInt32.le_iff_toNat_le, Char.toNat_val] at h
  split at h
  · injection h; omega
  · split at h
    · injection h; omega
    · split at h
      · injection h; omega
      · split at h
        · injection h; omega
        · split at h
          · injection h; omega
          · cases h

example : decode? "TWFu".toList = some [77, 97, 110] := by decide
example : decode? "T W\nE=!".toList = some [77, 97] := by decide
example : decode? "TWFub".toList = none := by decide

end Spreadsheet.Text.Base64
