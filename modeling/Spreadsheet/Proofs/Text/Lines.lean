import Mathlib.Data.List.Basic
import Spreadsheet.Text.Lines
import Spreadsheet.Text.Utf8

/-!
# Bytes of lines

A text of ASCII has a byte for every character and is read back from its bytes. A line feed is a
byte of its own whatever stands around it, so bytes can be read up to a line feed and from there on
each for themselves, and so can the lines of a text: what comes after a line feed does not depend on
what comes before it.

* `Ascii`; `toUTF8_ascii`, `ofUtf8_ascii`: its bytes and back;
* **`ofUtf8_append_lineFeed`**: bytes on both sides of a line feed;
* **`lines_append_lineFeed`**: lines on both sides of one; `lines_flatMap`: lines of pieces.
-/

namespace Spreadsheet.Text

variable {c : Char} {cs ds : List Char}

/-! ## ASCII -/

/-- A text of ASCII. -/
def Ascii (cs : List Char) : Prop := ∀ c ∈ cs, c.toNat < 0x80

theorem toList_loop (bytes : ByteArray) (i : Nat) (front : List UInt8) :
    ByteArray.toList.loop bytes i front = front.reverse ++ bytes.data.toList.drop i := by
  induction i, front using ByteArray.toList.loop.induct bytes with
  | case1 i front hi ih =>
    have hlength : i < bytes.data.toList.length := by simpa using hi
    have hget : bytes.get! i = bytes.data.toList[i] := by
      simp only [ByteArray.get!, Array.getElem_toList]
      exact getElem!_pos bytes.data i (by simpa using hi)
    rw [ByteArray.toList.loop, if_pos hi, ih, List.drop_eq_getElem_cons hlength, hget,
      List.reverse_cons, List.append_assoc]
    rfl
  | case2 i front hi =>
    have hlength : bytes.data.toList.length ≤ i := by simpa using hi
    rw [ByteArray.toList.loop, if_neg hi, List.drop_eq_nil_of_le hlength, List.append_nil]

theorem toList_bytes (bytes : ByteArray) : bytes.toList = bytes.data.toList := by
  rw [ByteArray.toList, toList_loop]
  rfl

/-- A text of ASCII has a byte for every character. -/
theorem toUTF8_ascii {s : String} (h : Ascii s.toList) :
    s.toUTF8.toList = s.toList.map Char.toUInt8 := by
  have hencode : ∀ cs : List Char, Ascii cs →
      cs.utf8Encode = (cs.map Char.toUInt8).toByteArray := by
    intro cs hcs
    induction cs with
    | nil => rfl
    | cons c cs ih =>
      obtain ⟨hc, hcs⟩ := List.forall_mem_cons.1 hcs
      have hsize : c.utf8Size = 1 := by
        rw [Char.utf8Size_eq_one_iff, UInt32.le_iff_toNat_le]
        exact Nat.le_of_lt_succ hc
      rw [List.utf8Encode_cons, List.utf8Encode_singleton, String.utf8EncodeChar_eq_singleton hsize,
        ih hcs, ← List.toByteArray_append]
      rfl
  have hbytes : s.toByteArray = s.toList.utf8Encode := by
    rw [← String.toByteArray_ofList, String.ofList_toList]
  rw [String.toUTF8_eq_toByteArray, hbytes, hencode _ h, toList_bytes, List.data_toByteArray]

/-! ## Bytes -/

theorem decode_ascii (h : Ascii cs) (bytes : List UInt8) :
    decode none (cs.map Char.toUInt8 ++ bytes) = cs ++ decode none bytes := by
  induction cs with
  | nil => rfl
  | cons c cs ih =>
    obtain ⟨hc, hcs⟩ := List.forall_mem_cons.1 h
    have hbyte : c.toUInt8.toNat = c.toNat := Nat.mod_eq_of_lt (Nat.lt_trans hc (by decide))
    have hstep : step none c.toUInt8.toNat = ([c], none) := by
      rw [hbyte, step, start, if_pos hc, Char.ofNat_toNat]
    rw [List.map_cons, List.cons_append, decode, hstep]
    exact congrArg (c :: ·) (ih hcs)

/-- A text of ASCII is read back from its bytes. -/
theorem ofUtf8_ascii (h : Ascii cs) : ofUtf8 (cs.map Char.toUInt8) = cs := by
  have hdecode := decode_ascii h []
  rwa [List.append_nil, decode, Option.isSome_none, if_neg Bool.false_ne_true,
    List.append_nil] at hdecode

/-- No byte of ASCII continues an open character. -/
def Continued (p? : Option Pending) : Prop := ∀ p ∈ p?, 0x80 ≤ p.low

theorem continued_start (b : Nat) : Continued (start b).2 := by
  unfold start
  intro p hp
  split_ifs at hp <;> simp only [Option.mem_def, Option.some.injEq, reduceCtorEq] at hp <;>
    subst hp <;> simp only <;> omega

theorem continued_step (p? : Option Pending) (b : Nat) : Continued (step p? b).2 := by
  cases p? with
  | none => exact continued_start b
  | some p =>
    simp only [step]
    split_ifs
    · exact fun _ hq => by cases hq
    · exact fun q hq => Option.some.inj hq ▸ Nat.le_refl _
    · exact continued_start b

theorem decode_append_lineFeed {p? : Option Pending} (hp : Continued p?) (front back : List UInt8) :
    decode p? (front ++ 10 :: back) = decode p? front ++ '\n' :: decode none back := by
  induction front generalizing p? with
  | nil =>
    cases p? with
    | none => rfl
    | some p =>
      have hlow : ¬ (p.low ≤ (10 : UInt8).toNat ∧ (10 : UInt8).toNat ≤ p.high) := fun h =>
        absurd (Nat.le_trans (hp p rfl) h.1) (by decide)
      have hstep : step (some p) (10 : UInt8).toNat = ([replacement, '\n'], none) := by
        simp only [step, if_neg hlow]
        rfl
      change (step (some p) (10 : UInt8).toNat).1 ++
        decode (step (some p) (10 : UInt8).toNat).2 back = [replacement] ++ '\n' :: decode none back
      rw [hstep]
      rfl
  | cons b front ih =>
    rw [List.cons_append, decode, decode]
    simp only [ih (continued_step p? b.toNat), List.append_assoc]

/-- **Bytes on both sides of a line feed** are read each for themselves. -/
theorem ofUtf8_append_lineFeed (front back : List UInt8) :
    ofUtf8 (front ++ 10 :: back) = ofUtf8 front ++ '\n' :: ofUtf8 back :=
  decode_append_lineFeed (fun _ h => by cases h) front back

/-! ## Lines -/

theorem linesFrom_end {line : List Char} (hend : isLineEnd c = true)
    (h : c = '\r' → cs.head? ≠ some '\n') :
    linesFrom line (c :: cs) = line.reverse :: linesFrom [] cs := by
  rw [linesFrom, if_pos hend]
  rintro cs' hc rfl
  exact h hc rfl

theorem linesFrom_other {line : List Char} (hend : isLineEnd c = false) :
    linesFrom line (c :: cs) = linesFrom (c :: line) cs := by
  rw [linesFrom, if_neg (by simp [hend])]
  rintro cs' rfl rfl
  cases hend

theorem linesFrom_append_lineFeed (line cs ds : List Char) :
    linesFrom line (cs ++ '\n' :: ds) = linesFrom line (cs ++ ['\n']) ++ linesFrom [] ds := by
  fun_induction linesFrom line cs with
  | case1 line => rfl
  | case2 line => rfl
  | case3 line cs ih =>
    rw [List.cons_append, List.cons_append, List.cons_append, List.cons_append, linesFrom,
      linesFrom, ih, List.cons_append]
  | case4 line c cs hnext hend ih =>
    cases cs with
    | nil =>
      by_cases hreturn : c = '\r'
      · subst hreturn
        rfl
      · rw [List.cons_append, linesFrom_end hend (absurd · hreturn), ih, List.cons_append,
          linesFrom_end hend (absurd · hreturn), List.cons_append]
    | cons d cs =>
      have hcut : ∀ rest, linesFrom line (c :: (d :: cs ++ rest)) =
          line.reverse :: linesFrom [] (d :: cs ++ rest) := fun rest =>
        linesFrom_end hend fun hc hd => hnext cs hc (congrArg (· :: cs) (Option.some.inj hd))
      change linesFrom line (c :: (d :: cs ++ '\n' :: ds)) =
        linesFrom line (c :: (d :: cs ++ ['\n'])) ++ linesFrom [] ds
      rw [hcut, hcut, ih]
      rfl
  | case5 line c cs hnext hend ih =>
    have hend : isLineEnd c = false := by simpa using hend
    rw [List.cons_append, linesFrom_other hend, ih, List.cons_append, linesFrom_other hend]

/-- **Lines on both sides of a line feed** are those of both sides. -/
theorem lines_append_lineFeed (cs ds : List Char) :
    lines (cs ++ '\n' :: ds) = lines (cs ++ ['\n']) ++ lines ds :=
  linesFrom_append_lineFeed [] cs ds

theorem linesFrom_append {line : List Char} (h : ∀ c ∈ cs, isLineEnd c = false) :
    linesFrom line (cs ++ '\n' :: ds) = (line.reverse ++ cs) :: linesFrom [] ds := by
  induction cs generalizing line with
  | nil => rw [List.nil_append, List.append_nil]; rfl
  | cons c cs ih =>
    obtain ⟨hc, hcs⟩ := List.forall_mem_cons.1 h
    rw [List.cons_append, linesFrom_other hc, ih hcs, List.reverse_cons, List.append_assoc]
    rfl

/-- Texts without line ends are the lines of the text in which a line feed follows each. -/
theorem lines_flatMap {pieces : List (List Char)}
    (h : ∀ piece ∈ pieces, ∀ c ∈ piece, isLineEnd c = false) :
    lines (pieces.flatMap (· ++ ['\n'])) = pieces := by
  induction pieces with
  | nil => rfl
  | cons piece pieces ih =>
    obtain ⟨hpiece, hpieces⟩ := List.forall_mem_cons.1 h
    rw [List.flatMap_cons, List.append_assoc, List.singleton_append, lines, linesFrom_append hpiece]
    exact congrArg (piece :: ·) (ih hpieces)

end Spreadsheet.Text
