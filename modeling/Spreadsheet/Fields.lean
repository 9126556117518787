/-!
# Fields

Records of any content are lists of names with values. The fields keep the order in which their
names were first given; a name that is given again has a new value at its old place.

* `Fields.put`, `Fields.override`: fields with others put over them;
* `Fields.get?`: the value of a name; `get?_put_self` says what is put is found.
-/

namespace Spreadsheet

/-- Names with values. -/
abbrev Fields (α : Type) := List (String × α)

namespace Fields

variable {α : Type}

/-- Fields with the value of one replaced, or added behind the others. -/
def put (key : String) (value : α) : Fields α → Fields α
  | [] => [(key, value)]
  | (k, v) :: rest => if k = key then (k, value) :: rest else (k, v) :: put key value rest

/-- The value of a name. -/
def get? (key : String) (fields : Fields α) : Option α := fields.lookup key

/-- Fields with the values of others put over them. -/
def override (fields others : Fields α) : Fields α :=
  others.foldl (fun fields (k, v) => put k v fields) fields

/-! ## Small laws -/

theorem get?_put_self (key : String) (value : α) (fields : Fields α) :
    get? key (put key value fields) = some value := by
  induction fields with
  | nil => simp [put, get?]
  | cons f rest ih =>
    obtain ⟨k, v⟩ := f
    by_cases h : k = key
    · simp [put, get?, h]
    · have h' : (key == k) = false := by simpa using Ne.symm h
      simpa [put, get?, h, List.lookup_cons, h'] using ih

end Fields

end Spreadsheet
