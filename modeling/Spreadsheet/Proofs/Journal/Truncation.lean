import Spreadsheet.Journal.Context

/-!
# Which strings of a context are cut

A context keeps its shape when its long strings are cut: the names of the fields, the length of
lists and everything that is no string. Strings are cut at any depth, in objects inside lists and
lists inside objects, except in a list that is itself an item of a list, which stays as it is.

* `Json.mapStrings`: a value with all its strings changed; `Json.placed`: the strings of a value,
  each with whether it stands in a list inside a list;
* `mapFields_truncate`: the shape; `fieldsPlaced_truncate`: the strings; `truncate_truncate`;
* **`truncate_spec`**: the three of them, and when every string is cut.
-/

namespace Spreadsheet

namespace Json

mutual

/-- A value with its strings changed; the names of fields are none of them. -/
def mapStrings (f : String → String) : Json → Json
  | string s => string (f s)
  | array items => array (mapItems f items)
  | object fields => object (mapFields f fields)
  | v => v

/-- The items of a list with their strings changed. -/
def mapItems (f : String → String) : List Json → List Json
  | [] => []
  | v :: vs => v.mapStrings f :: mapItems f vs

/-- The fields of an object with their strings changed. -/
def mapFields (f : String → String) : List (String × Json) → List (String × Json)
  | [] => []
  | (k, v) :: rest => (k, v.mapStrings f) :: mapFields f rest

end

/-- The value is a list. -/
def isArray : Json → Bool
  | array _ => true
  | _ => false

mutual

/-- The strings of a value in order, each with whether it stands in a list inside a list; the first
argument says whether the value does. -/
def placed (inner : Bool) : Json → List (Bool × String)
  | string s => [(inner, s)]
  | array items => itemsPlaced inner items
  | object fields => fieldsPlaced inner fields
  | _ => []

/-- The strings of the items of a list. -/
def itemsPlaced (inner : Bool) : List Json → List (Bool × String)
  | [] => []
  | v :: vs => v.placed (inner || v.isArray) ++ itemsPlaced inner vs

/-- The strings of the fields of an object. -/
def fieldsPlaced (inner : Bool) : List (String × Json) → List (Bool × String)
  | [] => []
  | (_, v) :: rest => v.placed inner ++ fieldsPlaced inner rest

end

variable {f : String → String} {p : Bool × String}

/-! ## Strings and shapes -/

mutual

theorem fst_of_mem_placed : ∀ v : Json, p ∈ v.placed true → p.1 = true
  | null, h | bool _, h | int _, h | float _, h => by cases h
  | string s, h => by rw [List.mem_singleton.1 h]
  | array items, h => fst_of_mem_itemsPlaced items h
  | object fields, h => fst_of_mem_fieldsPlaced fields h

theorem fst_of_mem_itemsPlaced : ∀ items : List Json, p ∈ itemsPlaced true items → p.1 = true
  | [], h => by cases h
  | v :: vs, h => (List.mem_append.1 h).elim (fst_of_mem_placed v) (fst_of_mem_itemsPlaced vs)

theorem fst_of_mem_fieldsPlaced :
    ∀ fields : List (String × Json), p ∈ fieldsPlaced true fields → p.1 = true
  | [], h => by cases h
  | (_, v) :: rest, h =>
    (List.mem_append.1 h).elim (fst_of_mem_placed v) (fst_of_mem_fieldsPlaced rest)

end

mutual

/-- A value stays as it is if each of its strings does. -/
theorem mapStrings_eq_self_iff (inner : Bool) :
    ∀ v : Json, v.mapStrings f = v ↔ ∀ p ∈ v.placed inner, f p.2 = p.2
  | null | bool _ | int _ | float _ => by simp [mapStrings, placed]
  | string s => by simp [mapStrings, placed]
  | array items => by simp [mapStrings, placed, mapItems_eq_self_iff inner items]
  | object fields => by simp [mapStrings, placed, mapFields_eq_self_iff inner fields]

theorem mapItems_eq_self_iff (inner : Bool) :
    ∀ items : List Json, mapItems f items = items ↔ ∀ p ∈ itemsPlaced inner items, f p.2 = p.2
  | [] => by simp [mapItems, itemsPlaced]
  | v :: vs => by
    rw [mapItems, itemsPlaced, List.cons.injEq, List.forall_mem_append,
      mapStrings_eq_self_iff (inner || v.isArray) v, mapItems_eq_self_iff inner vs]

theorem mapFields_eq_self_iff (inner : Bool) : ∀ fields : List (String × Json),
    mapFields f fields = fields ↔ ∀ p ∈ fieldsPlaced inner fields, f p.2 = p.2
  | [] => by simp [mapFields, fieldsPlaced]
  | (k, v) :: rest => by
    rw [mapFields, fieldsPlaced, List.cons.injEq, List.forall_mem_append, Prod.mk.injEq,
      mapStrings_eq_self_iff inner v, mapFields_eq_self_iff inner rest]
    simp

end

end Json

namespace Journal

open Json

/-! ## One string -/

theorem length_cutMark : cutMark.length = 14 := by decide

theorem cut_of_le {s : String} (h : s.length ≤ maxLength) : cut s = s := if_pos h

theorem toList_cut_of_lt {s : String} (h : maxLength < s.length) :
    (cut s).toList = s.toList.take maxLength ++ cutMark.toList := by
  rw [cut, if_neg (Nat.not_le.2 h), String.toList_append, String.toList_ofList]

/-- The mark does not come to more than what is cut off the next time. -/
theorem cut_cut (s : String) : cut (cut s) = cut s := by
  rcases Nat.lt_or_ge maxLength s.length with h | h
  · have hlist := toList_cut_of_lt h
    have hfirst : (s.toList.take maxLength).length = maxLength := by
      rw [List.length_take, String.length_toList]
      omega
    have hlong : maxLength < (cut s).length := by
      rw [← String.length_toList, hlist, List.length_append, hfirst, String.length_toList,
        length_cutMark]
      omega
    refine String.toList_injective ?_
    rw [toList_cut_of_lt hlong, hlist, List.take_append_of_le_length (Nat.le_of_eq hfirst.symm),
      List.take_of_length_le (Nat.le_of_eq hfirst)]
  · rw [cut_of_le h, cut_of_le h]

/-! ## All strings -/

mutual

/-- What does not tell a string from the cut one finds the same in both contexts. -/
theorem mapFields_truncate (hf : ∀ s, f (cut s) = f s) :
    ∀ fields, mapFields f (truncate fields) = mapFields f fields
  | [] => rfl
  | (k, v) :: rest => by
    rw [truncate, mapFields, mapFields, mapStrings_truncateValue hf v, mapFields_truncate hf rest]

theorem mapStrings_truncateValue (hf : ∀ s, f (cut s) = f s) :
    ∀ v, (truncateValue v).mapStrings f = v.mapStrings f
  | .null | .bool _ | .int _ | .float _ => rfl
  | .string s => congrArg Json.string (hf s)
  | .array items => congrArg Json.array (mapItems_truncateItems hf items)
  | .object fields => congrArg Json.object (mapFields_truncate hf fields)

theorem mapItems_truncateItems (hf : ∀ s, f (cut s) = f s) :
    ∀ items, mapItems f (truncateItems items) = mapItems f items
  | [] => rfl
  | .null :: rest | .bool _ :: rest | .int _ :: rest | .float _ :: rest | .array _ :: rest =>
    congrArg (List.cons _) (mapItems_truncateItems hf rest)
  | .string s :: rest => by
    rw [truncateItems, mapItems, mapItems, mapStrings, mapStrings, hf,
      mapItems_truncateItems hf rest]
  | .object fields :: rest => by
    rw [truncateItems, mapItems, mapItems, mapStrings, mapStrings, mapFields_truncate hf fields,
      mapItems_truncateItems hf rest]

end

/-- What becomes of a string: in a list inside a list it stays as it is. -/
def cutPlaced (p : Bool × String) : Bool × String := (p.1, if p.1 then p.2 else cut p.2)

theorem map_cutPlaced_inner (items : List Json) :
    (itemsPlaced true items).map cutPlaced = itemsPlaced true items := by
  refine (List.map_congr_left fun p hp => ?_).trans (List.map_id _)
  rw [cutPlaced, if_pos (fst_of_mem_itemsPlaced items hp)]
  rfl

mutual

theorem fieldsPlaced_truncate :
    ∀ fields, fieldsPlaced false (truncate fields) = (fieldsPlaced false fields).map cutPlaced
  | [] => rfl
  | (k, v) :: rest => by
    rw [truncate, fieldsPlaced, fieldsPlaced, List.map_append, placed_truncateValue v,
      fieldsPlaced_truncate rest]

theorem placed_truncateValue :
    ∀ v, (truncateValue v).placed false = (v.placed false).map cutPlaced
  | .null | .bool _ | .int _ | .float _ => rfl
  | .string _ => rfl
  | .array items => itemsPlaced_truncateItems items
  | .object fields => fieldsPlaced_truncate fields

theorem itemsPlaced_truncateItems :
    ∀ items, itemsPlaced false (truncateItems items) = (itemsPlaced false items).map cutPlaced
  | [] => rfl
  | .null :: rest | .bool _ :: rest | .int _ :: rest | .float _ :: rest =>
    itemsPlaced_truncateItems rest
  | .string s :: rest => congrArg (List.cons (false, cut s)) (itemsPlaced_truncateItems rest)
  | .object fields :: rest => by
    rw [truncateItems, itemsPlaced, itemsPlaced, List.map_append, itemsPlaced_truncateItems rest]
    exact congrArg (· ++ _) (fieldsPlaced_truncate fields)
  | .array items :: rest => by
    change itemsPlaced true items ++ itemsPlaced false (truncateItems rest) = _
    rw [itemsPlaced, List.map_append, itemsPlaced_truncateItems rest]
    exact congrArg (· ++ _) (map_cutPlaced_inner items).symm

end

mutual

/-- Cutting once is enough. -/
theorem truncate_truncate : ∀ fields, truncate (truncate fields) = truncate fields
  | [] => rfl
  | (k, v) :: rest => by
    rw [truncate, truncate, truncateValue_truncateValue v, truncate_truncate rest]

theorem truncateValue_truncateValue : ∀ v, truncateValue (truncateValue v) = truncateValue v
  | .null | .bool _ | .int _ | .float _ => rfl
  | .string s => congrArg Json.string (cut_cut s)
  | .array items => congrArg Json.array (truncateItems_truncateItems items)
  | .object fields => congrArg Json.object (truncate_truncate fields)

theorem truncateItems_truncateItems :
    ∀ items, truncateItems (truncateItems items) = truncateItems items
  | [] => rfl
  | .null :: rest | .bool _ :: rest | .int _ :: rest | .float _ :: rest | .array _ :: rest =>
    congrArg (List.cons _) (truncateItems_truncateItems rest)
  | .string s :: rest => by
    rw [truncateItems, truncateItems, cut_cut, truncateItems_truncateItems rest]
  | .object fields :: rest => by
    rw [truncateItems, truncateItems, truncate_truncate fields, truncateItems_truncateItems rest]

end

/-- Every string of a list inside a list could stand as it is. -/
def Spares (ps : List (Bool × String)) : Prop := ∀ s, (true, s) ∈ ps → cut s = s

theorem spares_append {ps qs : List (Bool × String)} :
    Spares (ps ++ qs) ↔ Spares ps ∧ Spares qs := by
  simp only [Spares, List.mem_append, or_imp, forall_and]

theorem spares_inner (items : List Json) : Spares (itemsPlaced true items) ↔
    ∀ p ∈ itemsPlaced true items, cut p.2 = p.2 := by
  refine ⟨fun h p hp => h p.2 ?_, fun h s hs => h _ hs⟩
  have hinner : (true, p.2) = p := Prod.ext (fst_of_mem_itemsPlaced items hp).symm rfl
  rwa [hinner]

mutual

/-- **All strings are cut** just if those in lists inside lists could stand as they are. -/
theorem truncate_eq_mapFields_iff :
    ∀ fields, truncate fields = mapFields cut fields ↔ Spares (fieldsPlaced false fields)
  | [] => by simp [truncate, mapFields, fieldsPlaced, Spares]
  | (k, v) :: rest => by
    rw [truncate, mapFields, fieldsPlaced, List.cons.injEq, Prod.mk.injEq, spares_append,
      truncateValue_eq_mapStrings_iff v, truncate_eq_mapFields_iff rest]
    simp

theorem truncateValue_eq_mapStrings_iff :
    ∀ v, truncateValue v = v.mapStrings cut ↔ Spares (v.placed false)
  | .null | .bool _ | .int _ | .float _ | .string _ => by
    simp [truncateValue, mapStrings, placed, Spares]
  | .array items => by
    rw [truncateValue, mapStrings, placed, Json.array.injEq, truncateItems_eq_mapItems_iff items]
  | .object fields => by
    rw [truncateValue, mapStrings, placed, Json.object.injEq, truncate_eq_mapFields_iff fields]

theorem truncateItems_eq_mapItems_iff :
    ∀ items, truncateItems items = mapItems cut items ↔ Spares (itemsPlaced false items)
  | [] => by simp [truncateItems, mapItems, itemsPlaced, Spares]
  | .null :: rest | .bool _ :: rest | .int _ :: rest | .float _ :: rest | .string _ :: rest => by
    simp only [truncateItems, mapItems, mapStrings, itemsPlaced, spares_append, List.cons.injEq,
      truncateItems_eq_mapItems_iff rest]
    simp [placed, isArray, Spares]
  | .object fields :: rest => by
    simp only [truncateItems, mapItems, mapStrings, itemsPlaced, spares_append, List.cons.injEq,
      Json.object.injEq, truncate_eq_mapFields_iff fields, truncateItems_eq_mapItems_iff rest]
    rfl
  | .array items :: rest => by
    simp only [truncateItems, mapItems, mapStrings, itemsPlaced, spares_append, List.cons.injEq,
      Json.array.injEq, truncateItems_eq_mapItems_iff rest]
    rw [eq_comm, mapItems_eq_self_iff true items, ← spares_inner]
    rfl

end

/-! ## Contexts -/

/-- **The strings of a context are cut**, and nothing else of it changes: not its shape, nor the
names of fields, nor what is no string. A string that is not too long stays as it is, of another one
the first characters are left with a mark behind them. A second time nothing is cut. In a list that
is an item of a list the strings stay as they are, so that all long strings are cut if and only if
there are none. -/
theorem truncate_spec (context : List (String × Json)) :
    mapFields (fun _ => "") (truncate context) = mapFields (fun _ => "") context ∧
    fieldsPlaced false (truncate context) = (fieldsPlaced false context).map
      (fun p => (p.1, if p.1 then p.2 else cut p.2)) ∧
    (∀ s : String, s.length ≤ 256 → cut s = s) ∧
    (∀ s : String, 256 < s.length →
      (cut s).toList = s.toList.take 256 ++ "...[truncated]".toList) ∧
    truncate (truncate context) = truncate context ∧
    (truncate context = mapFields cut context ↔
      ∀ s, (true, s) ∈ fieldsPlaced false context → cut s = s) :=
  ⟨mapFields_truncate (fun _ => rfl) context, fieldsPlaced_truncate context,
    fun _ => cut_of_le, fun _ => toList_cut_of_lt, truncate_truncate context,
    truncate_eq_mapFields_iff context⟩

/-- A string that is too long. -/
def longText : String := String.ofList (List.replicate 300 'x')

/-- A context with a long string in a list inside a list. -/
def deepContext : List (String × Json) := [("a", .array [.array [.string longText]])]

/-- There the long string is not cut. -/
theorem not_cut_deep :
    truncate deepContext = deepContext ∧ truncate deepContext ≠ mapFields cut deepContext := by
  have hplaced : (true, longText) ∈ fieldsPlaced false deepContext := List.mem_singleton.2 rfl
  have hlength : longText.length = 300 := String.length_ofList.trans List.length_replicate
  have hlong : cut longText ≠ longText := by
    intro h
    have hlimit : maxLength = 256 := rfl
    have htext := congrArg List.length (toList_cut_of_lt (s := longText) (by omega))
    rw [h, List.length_append, List.length_take, String.length_toList, String.length_toList,
      hlength, length_cutMark] at htext
    omega
  exact ⟨rfl, fun h => hlong ((truncate_eq_mapFields_iff deepContext).1 h longText hplaced)⟩

end Journal

end Spreadsheet
