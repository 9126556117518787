import Spreadsheet.Journal.Record
import Spreadsheet.Proofs.Journal.Truncation

/-!
# How long the strings of a record are

Every string of a record of an event is short, but for two: the time, and the message, which is not
cut. This holds of all events that do not hide texts in lists inside lists, where they are not cut
either.

* `placed_kept`: what a record leaves out is no string; `length_cut`: a string that has been cut;
* `Event.Flat`: the events in question; **`Event.Flat.length_le`**: the strings of their records.
-/

namespace Spreadsheet.Journal

open Json

variable {p : Bool × String} {e : Event}

theorem isArray_kept (v : Json) : (kept v).isArray = v.isArray := by
  cases v with
  | float x =>
    rw [kept]
    split <;> rfl
  | _ => rfl

mutual

/-- The strings of a value are all kept. -/
theorem placed_kept (inner : Bool) : ∀ v : Json, (kept v).placed inner = v.placed inner
  | .null | .bool _ | .int _ | .string _ => rfl
  | .float x => by
    rw [kept]
    split <;> rfl
  | .array items => itemsPlaced_kept inner items
  | .object fields => fieldsPlaced_kept inner fields

theorem itemsPlaced_kept (inner : Bool) :
    ∀ items : List Json, itemsPlaced inner (keptItems items) = itemsPlaced inner items
  | [] => rfl
  | v :: vs => by
    rw [keptItems, itemsPlaced, itemsPlaced, isArray_kept, placed_kept (inner || v.isArray) v,
      itemsPlaced_kept inner vs]

theorem fieldsPlaced_kept (inner : Bool) : ∀ fields : List (String × Json),
    fieldsPlaced inner (keptFields fields) = fieldsPlaced inner fields
  | [] => rfl
  | (k, v) :: rest => by
    rw [keptFields, fieldsPlaced, fieldsPlaced, placed_kept inner v, fieldsPlaced_kept inner rest]

end

/-- The greatest length of a string that has been cut. -/
def cutLength : Nat := maxLength + cutMark.length

theorem length_cut (s : String) : (cut s).length ≤ cutLength := by
  rcases Nat.lt_or_ge maxLength s.length with h | h
  · rw [← String.length_toList, toList_cut_of_lt h, List.length_append, List.length_take,
      String.length_toList, String.length_toList]
    exact Nat.add_le_add_right (Nat.min_le_left _ _) _
  · rw [cut_of_le h]
    exact Nat.le_add_right_of_le h

/-- The details of an event have no texts in lists inside lists, and its code is short. -/
structure Event.Flat (e : Event) : Prop where
  context : ∀ p ∈ fieldsPlaced false e.context, p.1 = false
  code : ∀ code ∈ e.code?, code.length ≤ maxLength

/-- The strings of a record, in order. -/
theorem placed_record (e : Event) (now : String) :
    ((Record.ofEvent e).json now).placed false =
      (false, now) :: (false, e.level.text) :: (false, e.type.text) ::
        ((fieldsPlaced false e.context).map cutPlaced ++
          (false, e.message) :: (ofText? e.code?).placed false) := by
  rw [Record.json, placed_kept, ← fieldsPlaced_truncate]
  simp [Record.ofEvent, Event.cut, Event.record, placed, fieldsPlaced]

theorem length_level (l : Level) : l.text.length ≤ maxLength := by
  cases l <;> decide

theorem length_type (t : EventType) : t.text.length ≤ maxLength := by
  cases t <;> decide

/-- **The strings of a record are short**, but for its time and the message of its event. -/
theorem Event.Flat.length_le (h : e.Flat) {now : String}
    (hp : p ∈ ((Record.ofEvent e).json now).placed false) :
    p.2 = e.message ∨ p.2 = now ∨ p.2.length ≤ cutLength := by
  have hshort {s : String} (hs : s.length ≤ maxLength) : s.length ≤ cutLength :=
    Nat.le_add_right_of_le hs
  rw [placed_record] at hp
  simp only [List.mem_cons, List.mem_append, List.mem_map] at hp
  rcases hp with rfl | rfl | rfl | ⟨q, hq, rfl⟩ | rfl | hp
  · exact .inr (.inl rfl)
  · exact .inr (.inr (hshort (length_level _)))
  · exact .inr (.inr (hshort (length_type _)))
  · have hcut : (cutPlaced q).2 = Journal.cut q.2 := by
      rw [cutPlaced, h.context q hq]
      rfl
    rw [hcut]
    exact .inr (.inr (length_cut _))
  · exact .inl rfl
  · have hcode := h.code
    cases hc : e.code? with
    | none =>
      rw [hc] at hp
      cases hp
    | some code =>
      rw [hc] at hp
      obtain rfl := List.mem_singleton.1 hp
      exact .inr (.inr (hshort (hcode code hc)))

theorem message_mem_record (e : Event) (now : String) :
    (false, e.message) ∈ ((Record.ofEvent e).json now).placed false := by
  rw [placed_record]
  simp

end Spreadsheet.Journal
