import Spreadsheet.Json.Reader
import Spreadsheet.Proofs.Json.Lexing

/-!
# Values are read back

Reading the tokens of a value leads from a state in which a value has to come to the one in which
that value is complete, whatever is open around it, if no more may be open than is allowed. So the
text of a value that can be written is read as the value with its fields in order. Two things can
get lost in it: halves of a character that stand side by side are that character from then on, and
of fields of one name the last value counts.

* `asRead`: what a value is read as; `asRead_eq`: the value itself, if it `isClear` everywhere;
* `Leads`: from one state to another by tokens; `leads_tokens`: by those of a value;
* **`read_text`**: every value that can be written is read from its text;
  **`read_text_of_clear`**: as the value itself, if nothing gets lost.
-/

namespace Spreadsheet.Json

/-! ## What gets lost -/

mutual

/-- A value as it is read: its texts as they come back, of fields of one name the last value. -/
def asRead : Json → Json
  | string s => string (Text.joined s)
  | array items => array (itemsAsRead items)
  | object fields => object (fieldsAsRead [] fields)
  | v => v

/-- The items of an array as they are read. -/
def itemsAsRead : List Json → List Json
  | [] => []
  | v :: vs => v.asRead :: itemsAsRead vs

/-- The fields of an object as they are read behind others. -/
def fieldsAsRead (front : List (String × Json)) : List (String × Json) → List (String × Json)
  | [] => front
  | (k, v) :: rest => fieldsAsRead (Fields.put (Text.joined k) v.asRead front) rest

end

/-- No two fields of the value itself have one name, and no text in it has halves of a character
side by side. -/
def isClear : Json → Bool
  | string s => Text.separate s.toList
  | object fields =>
    decide (fields.map Prod.fst).Nodup && fields.all fun f => Text.separate f.1.toList
  | _ => true

variable {s s' s'' : State} {t : Token} {ts ts' : List Token} {stack : List Frame}
  {v : Json} {k : String} {fields rest : List (String × Json)}

theorem put_of_notMem (h : k ∉ fields.map Prod.fst) :
    Fields.put k v fields = fields ++ [(k, v)] := by
  induction fields with
  | nil => rfl
  | cons f fields ih =>
    rw [List.map_cons, List.mem_cons, not_or] at h
    rw [Fields.put, if_neg (Ne.symm h.1), ih h.2]
    rfl

theorem notMem_front (h : ((fields ++ (k, v) :: rest).map Prod.fst).Nodup) :
    k ∉ fields.map Prod.fst := by
  rw [List.map_append, List.map_cons, List.nodup_append] at h
  exact fun hk => h.2.2 k hk k List.mem_cons_self rfl

mutual

theorem asRead_eq : ∀ v : Json, v.all isClear = true → v.asRead = v
  | null | bool _ | int _ | float _ => fun _ => rfl
  | string s => fun h => congrArg string (Text.joined_of_separate h)
  | array items => fun h => by
    rw [all, Bool.and_eq_true] at h
    rw [asRead, itemsAsRead_eq items h.2]
  | object fields => fun h => by
    rw [all, isClear, Bool.and_eq_true, Bool.and_eq_true] at h
    rw [asRead, fieldsAsRead_eq fields h.2 h.1.2 [] (of_decide_eq_true h.1.1), List.nil_append]

theorem itemsAsRead_eq : ∀ items : List Json, allItems isClear items = true →
    itemsAsRead items = items
  | [] => fun _ => rfl
  | v :: vs => fun h => by
    rw [allItems, Bool.and_eq_true] at h
    rw [itemsAsRead, asRead_eq v h.1, itemsAsRead_eq vs h.2]

theorem fieldsAsRead_eq : ∀ rest : List (String × Json), allFields isClear rest = true →
    (rest.all fun f => Text.separate f.1.toList) = true →
    ∀ front, ((front ++ rest).map Prod.fst).Nodup → fieldsAsRead front rest = front ++ rest
  | [] => fun _ _ front _ => (List.append_nil front).symm
  | (k, v) :: rest => fun h hnames front hnodup => by
    rw [allFields, Bool.and_eq_true] at h
    rw [List.all_cons, Bool.and_eq_true] at hnames
    have hrest := fieldsAsRead_eq rest h.2 hnames.2 (front ++ [(k, v)])
      (by rwa [List.append_assoc])
    rw [fieldsAsRead, Text.joined_of_separate hnames.1, asRead_eq v h.1,
      put_of_notMem (notMem_front hnodup), hrest, List.append_assoc]
    rfl

end

theorem isShort_sorted : ∀ v : Json, v.sorted.isShort = v.isShort
  | null | bool _ | int _ | float _ | string _ | array _ | object _ => rfl

theorem isClear_sorted : ∀ v : Json, v.sorted.isClear = v.isClear
  | null | bool _ | int _ | float _ | string _ | array _ => rfl
  | object fields => by
    have hnames := names_sorted fields
    have hall := hnames.all_eq (f := fun k => Text.separate k.toList)
    rw [List.all_map, List.all_map] at hall
    rw [sorted, isClear, isClear, decide_eq_decide.2 hnames.nodup_iff]
    exact congrArg (_ && ·) hall

/-! ## States -/

/-- Tokens lead from a state to another one. -/
def Leads (s : State) (ts : List Token) (s' : State) : Prop := ts.foldlM State.step s = .ok s'

theorem Leads.cons (h : s.step t = .ok s') (h' : Leads s' ts s'') : Leads s (t :: ts) s'' := by
  rw [Leads, List.foldlM_cons, h]
  exact h'

theorem Leads.append (h : Leads s ts s') (h' : Leads s' ts' s'') : Leads s (ts ++ ts') s'' := by
  rw [Leads, List.foldlM_append, h]
  exact h'

theorem leads_singleton (h : s.step t = .ok s') : Leads s [t] s' := .cons h rfl

/-- The first token of a value closes nothing. -/
theorem exists_tokens (v : Json) : ∃ t ts, v.tokens = t :: ts ∧
    ∀ stack, State.step (.arrayStart stack) t = State.step (.value (.array [] :: stack)) t := by
  cases v <;> exact ⟨_, _, rfl, fun _ => rfl⟩

theorem Leads.arrayStart (h : Leads (.value (.array [] :: stack)) v.tokens s) :
    Leads (.arrayStart stack) v.tokens s := by
  obtain ⟨t, ts, htokens, hstep⟩ := exists_tokens v
  rw [Leads, htokens, List.foldlM_cons] at h ⊢
  rw [hstep stack]
  exact h

theorem intercalate_cons {α : Type} (a : α) (xs : List α) (xss : List (List α)) :
    [a].intercalate (xs :: xss) = xs ++ xss.flatMap (a :: ·) := by
  induction xss generalizing xs with
  | nil => rw [List.intercalate_singleton, List.flatMap_nil, List.append_nil]
  | cons ys xss ih =>
    rw [List.intercalate_cons_cons, ih ys, List.flatMap_cons, List.append_assoc]
    rfl

mutual

/-- **The tokens of a value** complete it. -/
theorem leads_tokens : ∀ (v : Json) (stack : List Frame), stack.length + v.depth ≤ depthLimit →
    Leads (.value stack) v.tokens (.complete v.asRead stack)
  | null | bool _ | int _ | float _ | string _ => fun _ _ => leads_singleton rfl
  | array items => fun stack hdepth => by
    rw [depth] at hdepth
    refine .cons (if_pos (by omega)) ?_
    cases items with
    | nil => exact leads_singleton rfl
    | cons v vs =>
      rw [itemsDepth] at hdepth
      have hfirst := leads_tokens v (.array [] :: stack) (by rw [List.length_cons]; omega)
      have hrest := leads_itemTokens vs v.asRead [] stack (by omega)
      rw [itemTokens, intercalate_cons, List.append_assoc]
      exact hfirst.arrayStart.append hrest
  | object fields => fun stack hdepth => by
    rw [depth] at hdepth
    refine .cons (if_pos (by omega)) ?_
    cases fields with
    | nil => exact leads_singleton rfl
    | cons f rest =>
      obtain ⟨k, v⟩ := f
      rw [fieldsDepth] at hdepth
      have hfirst := leads_tokens v (.object [] (Text.joined k) :: stack)
        (by rw [List.length_cons]; omega)
      have hrest := leads_fieldTokens rest (Text.joined k) v.asRead [] stack (by omega)
      rw [fieldTokens, intercalate_cons, List.append_assoc]
      exact .cons rfl (.cons rfl (hfirst.append hrest))

theorem leads_itemTokens : ∀ (vs : List Json) (v : Json) (items : List Json) (stack : List Frame),
    stack.length + (itemsDepth vs + 1) ≤ depthLimit →
      Leads (.complete v (.array items :: stack))
        ((itemTokens vs).flatMap (Token.comma :: ·) ++ [Token.closeArray])
        (.complete (.array (items.reverse ++ v :: itemsAsRead vs)) stack)
  | [] => fun v items stack _ => leads_singleton (by rw [State.step, List.reverse_cons]; rfl)
  | w :: vs => fun v items stack hdepth => by
    rw [itemsDepth] at hdepth
    have hfirst := leads_tokens w (.array (v :: items) :: stack) (by rw [List.length_cons]; omega)
    have hrest := leads_itemTokens vs w.asRead (v :: items) stack (by omega)
    rw [List.reverse_cons, List.append_assoc] at hrest
    rw [itemTokens, List.flatMap_cons, List.append_assoc]
    exact .cons rfl (hfirst.append hrest)

theorem leads_fieldTokens : ∀ (rest : List (String × Json)) (k : String) (v : Json)
    (fields : List (String × Json)) (stack : List Frame),
    stack.length + (fieldsDepth rest + 1) ≤ depthLimit →
      Leads (.complete v (.object fields k :: stack))
        ((fieldTokens rest).flatMap (Token.comma :: ·) ++ [Token.closeObject])
        (.complete (.object (fieldsAsRead (Fields.put k v fields) rest)) stack)
  | [] => fun _ _ _ _ _ => leads_singleton rfl
  | (k', w) :: rest => fun k v fields stack hdepth => by
    rw [fieldsDepth] at hdepth
    have hfirst := leads_tokens w (.object (Fields.put k v fields) (Text.joined k') :: stack)
      (by rw [List.length_cons]; omega)
    have hrest := leads_fieldTokens rest (Text.joined k') w.asRead (Fields.put k v fields) stack
      (by omega)
    rw [fieldTokens, List.flatMap_cons, List.append_assoc]
    exact .cons rfl (.cons rfl (.cons rfl (hfirst.append hrest)))

end

/-! ## Texts -/

/-- **Every value that can be written** is read from its text, with the fields of its objects in
order and without what gets lost. -/
theorem read_text (hdepth : v.depth ≤ depthLimit) (hshort : v.all isShort = true) :
    read v.text = .ok v.sorted.asRead := by
  have hlex := lexes_write v.sorted ((all_sorted isShort_sorted v).trans hshort) [] closes_nil
  have hroom : ([] : List Frame).length + v.sorted.depth ≤ depthLimit := by
    rw [depth_sorted, List.length_nil, Nat.zero_add]
    exact hdepth
  have hleads := leads_tokens v.sorted [] hroom
  rw [Leads] at hleads
  rw [List.append_nil, lex, List.append_nil] at hlex
  rw [read, text, text_eq_write_sorted, hlex]
  simp only [hleads]
  rfl

/-- **A value is read back** from its text, with the fields of its objects in order, if nothing gets
lost. -/
theorem read_text_of_clear (hdepth : v.depth ≤ depthLimit) (hshort : v.all isShort = true)
    (hclear : v.all isClear = true) : read v.text = .ok v.sorted := by
  rw [read_text hdepth hshort, asRead_eq v.sorted ((all_sorted isClear_sorted v).trans hclear)]

end Spreadsheet.Json
