/-!
# Reading UTF-8

Bytes are read as characters one after another. Where bytes form no character, the longest run of
them that could have started one, or else a single byte, is replaced as a whole.

* `Pending`: a character of which some bytes have come;
* `start`: its first byte; `step`: any byte;
* `ofUtf8`: all bytes of a text.
-/

namespace Spreadsheet.Text

/-- What stands for bytes that are no character. -/
def replacement : Char := '\uFFFD'

/-- A character of which some bytes have come. -/
structure Pending where
  /-- What the bytes so far say about the code point. -/
  code : Nat
  /-- How many bytes are still to come. -/
  missing : Nat
  /-- The least value that the next byte may have. -/
  low : Nat
  /-- The greatest value that the next byte may have. -/
  high : Nat
  deriving DecidableEq, Repr

/-- The first byte of a character: the characters that are known now, and the one that is open. The
second byte is restricted where the character would otherwise be too long, a surrogate or beyond
the last code point. -/
def start (b : Nat) : List Char × Option Pending :=
  if b < 0x80 then ([Char.ofNat b], none)
  else if b < 0xC2 then ([replacement], none)
  else if b < 0xE0 then ([], some ⟨b - 0xC0, 1, 0x80, 0xBF⟩)
  else if b < 0xF0 then
    ([], some ⟨b - 0xE0, 2, if b = 0xE0 then 0xA0 else 0x80, if b = 0xED then 0x9F else 0xBF⟩)
  else if b < 0xF5 then
    ([], some ⟨b - 0xF0, 3, if b = 0xF0 then 0x90 else 0x80, if b = 0xF4 then 0x8F else 0xBF⟩)
  else ([replacement], none)

/-- A byte after the open character, if there is one. -/
def step (p? : Option Pending) (b : Nat) : List Char × Option Pending :=
  match p? with
  | none => start b
  | some p =>
    if p.low ≤ b ∧ b ≤ p.high then
      let code := p.code * 64 + (b - 0x80)
      if p.missing ≤ 1 then ([Char.ofNat code], none)
      else ([], some ⟨code, p.missing - 1, 0x80, 0xBF⟩)
    else
      let (cs, p?) := start b
      (replacement :: cs, p?)

/-- The characters of bytes that follow an open character. -/
def decode (p? : Option Pending) : List UInt8 → List Char
  | [] => if p?.isSome then [replacement] else []
  | b :: bs =>
    let (cs, p?) := step p? b.toNat
    cs ++ decode p? bs

/-- The characters that bytes write. -/
def ofUtf8 (bytes : List UInt8) : List Char := decode none bytes

end Spreadsheet.Text
