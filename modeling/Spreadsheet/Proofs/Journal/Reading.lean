import Spreadsheet.Journal.Log
import Spreadsheet.Proofs.Text.Lines
import Spreadsheet.Proofs.Json.RoundTrip

/-!
# What is read from a log of any bytes

Reading goes over the lines that are looked at. A line can make it fail: one with values nested too
deeply or an integer with too many digits, and, if anything is asked for, one with a value that is
no object. If no line does, the values on the lines that have what is asked for are found, the
newest first; lines that hold no value are skipped. What is looked at are whole lines of the log,
unless the bytes looked at are a part of its last line.

* `lineFailure?`, `lineValue?`: what one line does; `Filter.wants`; `values_eq`: all lines;
* `lines`: the lines of the whole log; `tailLines_suffix`: which of them are looked at;
* **`recent_spec`**: what reading gives, for every log; `not_skipped`: lines that are not skipped.
-/

namespace Spreadsheet.Journal.Log

variable {l : Log} {f : Filter} {limit : Int} {line : List Char} {v : Json}

/-! ## One line -/

/-- Something is asked for. -/
def Filter.asks (f : Filter) : Bool := !(f.level.isEmpty && f.type.isEmpty)

/-- A value has the wanted text in a field; any value will do if no text is wanted. -/
def hasText (key wanted : String) (v : Json) : Bool :=
  wanted.isEmpty || match v.get? key with
    | some (.string s) => s == wanted
    | _ => false

/-- A value has what is asked for. -/
def Filter.wants (f : Filter) (v : Json) : Bool :=
  hasText "level" f.level v && hasText "event_type" f.type v

/-- How a value makes reading fail, if it does: what is no object has no fields to look at. -/
def Filter.failure? (f : Filter) : Json → Option Failure
  | .object _ => none
  | v => if f.asks then some (.noFields v.kind) else none

/-- How a line makes reading fail, if it does. -/
def lineFailure? (f : Filter) (line : List Char) : Option Failure :=
  match Json.read (String.ofList line) with
  | .ok v => f.failure? v
  | .error .malformed => none
  | .error .tooDeep => some .tooDeep
  | .error (.tooLong e) => some (.tooLong e)

/-- The value that a line holds. -/
def lineValue? (line : List Char) : Option Json := (Json.read (String.ofList line)).toOption

/-- The value is an object. -/
def isObject : Json → Bool
  | .object _ => true
  | _ => false

/-- The object that a line holds. -/
def lineObject? (line : List Char) : Option Json := (lineValue? line).filter isObject

/-- A line holds an object or is no JSON, whatever the size of what it holds. -/
def isPlain (line : List Char) : Bool :=
  match Json.read (String.ofList line) with
  | .ok v => isObject v
  | .error e => e = .malformed

theorem hasField_eq (key wanted : String) (v : Json) :
    hasField key wanted v = match v with
      | .object fields => .ok (hasText key wanted (.object fields))
      | v => if wanted.isEmpty then .ok true else .error (.noFields v.kind) := by
  unfold hasField hasText
  cases v <;> cases wanted.isEmpty <;> rfl

theorem accepts_eq (f : Filter) (v : Json) :
    f.accepts v = match f.failure? v with
      | some e => .error e
      | none => .ok (f.wants v) := by
  simp only [Filter.accepts, hasField_eq, Filter.failure?, Filter.asks, Filter.wants]
  cases v with
  | object fields =>
    simp only [bind, Except.bind, pure, Except.pure]
    cases hasText "level" f.level (.object fields) <;> rfl
  | _ =>
    by_cases hlevel : f.level.isEmpty = true <;> by_cases htype : f.type.isEmpty = true <;>
      simp [hasText, hlevel, htype, bind, Except.bind]

/-- The first line of some comes first. -/
theorem values_cons (line : List Char) (lines : List (List Char)) :
    values f (line :: lines) = match lineFailure? f line with
      | some e => .error e
      | none => (values f lines).map (((lineValue? line).filter f.wants).toList ++ ·) := by
  have hskip : values f lines = (values f lines).map ([] ++ ·) := by
    cases values f lines <;> rfl
  rw [values, valueOf?, lineFailure?, lineValue?]
  cases Json.read (String.ofList line) with
  | error e =>
    cases e with
    | malformed => exact hskip
    | tooDeep | tooLong => rfl
  | ok v =>
    simp only [bind, Except.bind, pure, Except.pure, accepts_eq]
    cases f.failure? v with
    | some e => rfl
    | none =>
      simp only [Except.toOption, Option.filter_some]
      cases f.wants v
      · exact hskip
      · cases values f lines <;> rfl

/-- **The values on lines**: all that have what is asked for, unless a line fails. -/
theorem values_eq (f : Filter) (lines : List (List Char)) :
    values f lines = match lines.findSome? (lineFailure? f) with
      | some e => .error e
      | none => .ok ((lines.filterMap lineValue?).filter f.wants) := by
  induction lines with
  | nil => rfl
  | cons line lines ih =>
    rw [values_cons, List.findSome?_cons, ih]
    cases lineFailure? f line with
    | some e => rfl
    | none =>
      cases lines.findSome? (lineFailure? f) with
      | some e => rfl
      | none =>
        rw [List.filterMap_cons]
        cases lineValue? line with
        | none => rfl
        | some v =>
          rw [Option.filter_some, List.filter_cons]
          cases f.wants v <;> rfl

/-! ## The lines that are looked at -/

/-- The bytes of a log. -/
def bytes (l : Log) : List UInt8 := l.content?.getD []

/-- The last bytes of a log, as many as are looked at. -/
def window (l : Log) : List UInt8 := l.bytes.drop (l.bytes.length - l.tailBytes).toNat

/-- The lines of bytes, but for blank ones. -/
def linesOf (bytes : List UInt8) : List (List Char) :=
  (Text.lines (Text.ofUtf8 bytes)).filter fun line => !line.all Text.isBlank

theorem linesOf_append_lineFeed (front back : List UInt8) :
    linesOf (front ++ 10 :: back) = linesOf (front ++ [10]) ++ linesOf back := by
  rw [linesOf, linesOf, linesOf, ← List.filter_append, Text.ofUtf8_append_lineFeed,
    Text.ofUtf8_append_lineFeed, Text.lines_append_lineFeed]
  rfl

theorem fromLineStart_append {front : List UInt8} (h : 10 ∉ front) (back : List UInt8) :
    fromLineStart (front ++ 10 :: back) = back := by
  have hdrop : (front ++ 10 :: back).dropWhile (· != 10) = 10 :: back := by
    rw [List.dropWhile_append_of_pos fun b hb => bne_iff_ne.2 (ne_of_mem_of_not_mem hb h)]
    rfl
  rw [fromLineStart, hdrop]

theorem fromLineStart_of_notMem {bytes : List UInt8} (h : 10 ∉ bytes) :
    fromLineStart bytes = bytes := by
  have hdrop : bytes.dropWhile (· != 10) = [] :=
    List.dropWhile_eq_nil_iff.2 fun b hb => bne_iff_ne.2 (ne_of_mem_of_not_mem hb h)
  rw [fromLineStart, hdrop]

/-- **What is looked at** are whole lines of the log, the last ones, unless it is a part of its last
line. -/
theorem tailLines_suffix (l : Log) : l.tailLines <:+ linesOf l.bytes ∨
    l.window ≠ [] ∧ 10 ∉ l.window ∧ l.tailBytes < l.bytes.length ∧ l.tail = l.window := by
  change linesOf l.tail <:+ _ ∨ _
  by_cases hfits : (l.bytes.length : Int) ≤ l.tailBytes
  · have htail : l.tail = l.bytes := if_pos hfits
    exact .inl (htail ▸ List.suffix_rfl)
  · have htail : l.tail = fromLineStart l.window := if_neg hfits
    obtain ⟨front, hfront⟩ := List.drop_suffix (l.bytes.length - l.tailBytes).toNat l.bytes
    change front ++ l.window = l.bytes at hfront
    by_cases hmem : 10 ∈ l.window
    · obtain ⟨skipped, back, hwindow, hskipped⟩ := List.eq_append_cons_of_mem hmem
      left
      rw [htail, ← hfront, hwindow, fromLineStart_append hskipped, ← List.append_assoc,
        linesOf_append_lineFeed]
      exact List.suffix_append _ _
    · rw [fromLineStart_of_notMem hmem] at htail
      by_cases hempty : l.window = []
      · left
        rw [htail, hempty]
        exact List.nil_suffix
      · exact .inr ⟨hempty, hmem, Int.not_le.1 hfits, htail⟩

/-! ## Reading -/

theorem recent_eq (hfree : l.blocked = false) (f : Filter) (hlimit : 0 ≤ limit) :
    l.recent f limit = match l.tailLines.findSome? (lineFailure? f) with
      | some e => .error e
      | none => .ok (((l.tailLines.filterMap lineValue?).filter f.wants).reverse.take
          (min limit maxRead).toNat) := by
  have hpos : 0 ≤ min limit maxRead := le_min hlimit (by decide)
  rw [recent, hfree, values_eq]
  cases l.tailLines.findSome? (lineFailure? f) with
  | some e => rfl
  | none => exact congrArg Except.ok (if_pos hpos)

theorem failure?_eq_none_iff : f.failure? v = none ↔ isObject v = true ∨ f.asks = false := by
  cases v <;> cases h : f.asks <;> simp [Filter.failure?, isObject, h]

theorem lineFailure?_eq_none (h : isPlain line = true) : lineFailure? f line = none := by
  unfold isPlain at h
  unfold lineFailure?
  cases hread : Json.read (String.ofList line) with
  | ok v =>
    rw [hread] at h
    exact failure?_eq_none_iff.2 (.inl h)
  | error e =>
    rw [hread] at h
    obtain rfl := of_decide_eq_true h
    rfl

theorem lineObject?_of_isPlain (h : isPlain line = true) : lineObject? line = lineValue? line := by
  unfold isPlain at h
  unfold lineObject? lineValue?
  cases hread : Json.read (String.ofList line) with
  | ok v =>
    rw [hread] at h
    exact Option.filter_some_pos h
  | error e => rfl

theorem lineObject?_of_asks (hasks : f.asks = true) (h : lineFailure? f line = none) :
    lineObject? line = lineValue? line := by
  unfold lineFailure? at h
  unfold lineObject? lineValue?
  cases hread : Json.read (String.ofList line) with
  | ok v =>
    rw [hread] at h
    have hobject := (failure?_eq_none_iff.1 h).resolve_right (by simp [hasks])
    exact Option.filter_some_pos hobject
  | error e => rfl

/-- **What reading gives**, for every log: it fails as the first line does that makes it fail, and
otherwise finds the values on the lines that are looked at, each as it stands there, that have what
is asked for, the newest first. On lines with objects or no JSON it does not fail and finds the
objects; if anything is asked for it finds nothing but objects. The lines are whole lines of the
log, the last ones, unless the bytes that are looked at are a part of its last line. -/
theorem recent_spec (hfree : l.blocked = false) (f : Filter) (hlimit : 0 ≤ limit) :
    (l.recent f limit = match l.tailLines.findSome? (lineFailure? f) with
      | some e => .error e
      | none => .ok (((l.tailLines.filterMap lineValue?).filter f.wants).reverse.take
          (min limit maxRead).toNat)) ∧
    ((∀ line ∈ l.tailLines, isPlain line = true) →
      l.recent f limit = .ok (((l.tailLines.filterMap lineObject?).filter f.wants).reverse.take
        (min limit maxRead).toNat)) ∧
    (f.asks = true → ∀ vs, l.recent f limit = .ok vs →
      vs = ((l.tailLines.filterMap lineObject?).filter f.wants).reverse.take
        (min limit maxRead).toNat) ∧
    (l.tailLines <:+ linesOf l.bytes ∨
      l.window ≠ [] ∧ 10 ∉ l.window ∧ l.tailBytes < l.bytes.length ∧ l.tail = l.window) := by
  have heq := recent_eq hfree f hlimit
  refine ⟨heq, fun hplain => ?_, fun hasks vs hvs => ?_, l.tailLines_suffix⟩
  · have hnone : l.tailLines.findSome? (lineFailure? f) = none :=
      List.findSome?_eq_none_iff.2 fun line hline => lineFailure?_eq_none (hplain line hline)
    rw [heq, hnone, List.filterMap_congr fun line hline =>
      lineObject?_of_isPlain (hplain line hline)]
  · rw [heq] at hvs
    cases hfailure : l.tailLines.findSome? (lineFailure? f) with
    | some e =>
      rw [hfailure] at hvs
      cases hvs
    | none =>
      rw [hfailure] at hvs
      have hnone := List.findSome?_eq_none_iff.1 hfailure
      rw [← Except.ok.inj hvs, List.filterMap_congr fun line hline =>
        lineObject?_of_asks hasks (hnone line hline)]

/-- An object that is not closed is skipped. -/
theorem recent_spec_unclosed :
    (⟨some [0x7b, 0x7d, 10, 0x7b, 10], false, 100⟩ : Log).recent {} 200 = .ok [.object []] := by
  have hlines : (⟨some [0x7b, 0x7d, 10, 0x7b, 10], false, 100⟩ : Log).tailLines =
    [['\x7b', '\x7d'], ['\x7b']] := rfl
  have hclosed : isPlain ['\x7b', '\x7d'] = true := by cbv
  have hopen : isPlain ['\x7b'] = true := by cbv
  have hobject : lineObject? ['\x7b', '\x7d'] = some (.object []) := by cbv
  have hnone : lineObject? ['\x7b'] = none := by cbv
  obtain ⟨-, hplain, -⟩ := recent_spec (l := ⟨some [0x7b, 0x7d, 10, 0x7b, 10], false, 100⟩) rfl {}
    (by decide : (0 : Int) ≤ 200)
  rw [hplain (by simp [hlines, hclosed, hopen]), hlines]
  simp only [List.filterMap_cons, hobject, hnone]
  rfl

/-- A line with a number on it makes reading fail as soon as something is asked for and is found
otherwise; what is found may also be a part of a line that holds no value. -/
theorem not_skipped :
    (⟨some [53, 10], false, 100⟩ : Log).recent { level := "error" } 200 = .error (.noFields "int") ∧
    (⟨some [53, 10], false, 100⟩ : Log).recent {} 200 = .ok [.int 5] ∧
    lineValue? ['\x7b', '\x7d', '\x7b', '\x7d'] = none ∧
    (⟨some [0x7b, 0x7d, 0x7b, 0x7d], false, 2⟩ : Log).recent {} 200 = .ok [.object []] := by
  have hnumber : Json.read (String.ofList ['5']) = .ok (.int 5) := by
    have htext : String.ofList ['5'] = (Json.int 5).text := by decide +kernel
    have hshort : (Json.int 5).all Json.isShort = true := by
      simp only [Json.all]
      exact Json.isShort_of_natAbs_lt (by decide)
    rw [htext]
    exact Json.read_text (by decide) hshort
  have hlines : (⟨some [53, 10], false, 100⟩ : Log).tailLines = [['5']] := rfl
  refine ⟨?_, ?_, by cbv, by cbv⟩
  · have hfailure : lineFailure? { level := "error" } ['5'] = some (.noFields "int") := by
      rw [lineFailure?, hnumber]
      rfl
    rw [recent_eq rfl _ (by decide), hlines, List.findSome?_cons, hfailure]
  · have hnone : lineFailure? {} ['5'] = none := by
      rw [lineFailure?, hnumber]
      rfl
    have hvalue : lineValue? ['5'] = some (.int 5) := by
      rw [lineValue?, hnumber]
      rfl
    rw [recent_eq rfl _ (by decide), hlines, List.findSome?_cons, hnone]
    simp only [List.filterMap_cons, hvalue]
    rfl

end Spreadsheet.Journal.Log
