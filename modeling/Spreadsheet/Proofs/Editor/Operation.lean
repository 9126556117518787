import Spreadsheet.Proofs.Editor.Recompute

/-!
# Operations keep the display fresh

Every operation that changes the document asks for a recompute in the end and leaves the editor
fresh, whether it was fresh before or not; the others leave it as it was. An operation that fails has
changed nothing of the document. The one exception to both is a paste that does not get through, at
a row number that is too long.

* `Document.Stops`: such a paste; `Operation.Fails`: how an operation fails;
* `beginEdit_meets`, `edit_meets`, `endEdit_meets`; `copy_meets`, `cut_meets`, **`paste_meets`**;
* `restructure_meets`, `replaceSheet_meets`, `resize_meets`, `load_meets`, `loadValues_meets`.
-/

namespace Spreadsheet.Editor

open Formula (roomLimit)

/-- A paste into a document does not get through: a row number is too long in a text that is to be
written or, when all is written, in the name of a cell. -/
def Document.Stops (d : Document) (c : Cell) (text : String) (t : Decimal.TooLong) : Prop :=
  match ((Sheet.mk d.grid {}).paste c text d.origin?).1 with
  | .error t' => t' = t
  | .ok _ => ∃ c', (c' = c ∨ d.origin? = some c') ∧ Address.text c' = .error t

/-- How an operation on a document fails. -/
structure Operation.Fails (op : Operation) (d : Document) (f : Failure) : Prop where
  kind : f.kind = Fault.valueKind
  document : d.perform op = d ∨
    ∃ c text t, op = .paste c text ∧ c ∈ d.grid.size ∧ f = .tooLong t ∧ d.Stops c text t

variable {watch : Observer} {ed ed' : Editor} {c : Cell} {text : String}

/-- An operation that changes nothing when it fails. -/
theorem Valid.fails (h : ed.Valid watch) {op : Operation} {f : Failure}
    (hkind : f.kind = Fault.valueKind) (hsame : ed.document.perform op = ed.document) :
    ed.Keeps watch ed.Fresh (ed.document.perform op) ∧ op.Fails ed.document f :=
  ⟨⟨h, id, hsame.symm⟩, hkind, .inl hsame⟩

/-- A recompute is asked for at the end of an operation. -/
theorem schedule_meets {α : Type} (h : ed.Valid watch) (a : α) :
    (do request .schedule; return a : Action α).Meets ed
      (fun b ed' => b = a ∧ ed'.Keeps watch True ed.document) fun _ _ => False := by
  rw [ExceptT.meets_bind]
  exact (request_schedule_meets h).imp (fun _ _ h' => ⟨rfl, h'⟩) fun _ _ => id

/-! ## Parts of operations -/

theorem requireCell_meets : (requireCell c).Meets ed (fun _ ed' => c ∈ ed.sheet.size ∧ ed = ed')
    fun f ed' => c ∉ ed.sheet.size ∧ ed = ed' ∧ f = .refused (.outside c ed.sheet.size) := by
  unfold requireCell
  rw [ExceptT.meets_bind, ExceptT.meets_get]
  split
  · exact ⟨‹_›, rfl⟩
  · exact ⟨‹_›, rfl, rfl⟩

theorem store_meets : (store c text).Meets ed
    (fun _ ed' => ∃ h : c ∈ ed.sheet.size, ed' = { ed with sheet := ed.sheet.put c text h })
    fun f ed' => c ∉ ed.sheet.size ∧ ed = ed' ∧ f = .refused (.outside c ed.sheet.size) := by
  unfold store Sheet.set
  rw [ExceptT.meets_bind, ExceptT.meets_get, ExceptT.meets_bind, ExceptT.meets_ofExcept]
  by_cases h : c ∈ ed.sheet.size
  · rw [dif_pos h]
    exact ⟨h, rfl⟩
  · rw [dif_neg h]
    exact ⟨h, rfl, rfl⟩

theorem showText_meets (h : c ∈ ed.buffer.size) : (showText c text).Meets ed
    (fun _ ed' => ed' = { ed with buffer := ed.buffer.set c text h }) fun _ _ => False := by
  unfold showText
  rw [ExceptT.meets_bind, ExceptT.meets_get, ExceptT.meets_bind, ExceptT.meets_ofExcept,
    writeText_of_mem h]
  rfl

theorem Valid.put (h : ed.Valid watch) (text : String) (hc : c ∈ ed.sheet.size) :
    Valid watch { ed with sheet := ed.sheet.put c text hc } :=
  { h with sheet := h.sheet.put text hc }

theorem document_put (hc : c ∈ ed.sheet.size) :
    document { ed with sheet := ed.sheet.put c text hc } = ed.document.put c text := by
  have hc' : c ∈ ed.document.grid.size := hc
  rw [Document.put, dif_pos hc']
  rfl

/-! ## Editing -/

theorem endEdit_meets (h : ed.Valid watch) : endEdit.Meets ed
    (fun _ ed' => ed'.Keeps watch (ed.active?.isSome = true ∨ ed.Fresh) ed.document.leave)
    fun _ _ => False := by
  unfold endEdit
  rw [ExceptT.meets_bind, ExceptT.meets_get]
  cases hactive : ed.active? with
  | none =>
    have hleave : ed.document.leave = ed.document := Document.leave_of_none hactive
    exact ⟨h, fun hF => hF.resolve_left Bool.false_ne_true, hleave.symm⟩
  | some c =>
    have hc := h.active hactive
    have hvalid : Valid watch { ed with active? := none } := { h with active := nofun }
    have hleave := Document.leave_of_active (d := ed.document) hactive
    simp only
    rw [ExceptT.meets_bind, ExceptT.meets_modify, ExceptT.meets_bind, ExceptT.meets_get]
    simp only
    rw [if_pos hc, hleave]
    -- a text that is normalized already is not written again
    by_cases hne : CellText.normalize (ed.sheet.text c) ≠ ed.sheet.text c
    · rw [if_pos hne, ExceptT.meets_bind]
      refine store_meets.imp ?_ fun _ _ hout => hout.1 hc
      rintro _ _ ⟨hc', rfl⟩
      refine (schedule_meets (hvalid.put _ hc') _).imp (fun _ _ h' => ?_) fun _ _ => id
      rw [document_put hc', Document.put, dif_pos (by exact hc)] at h'
      rw [Document.put, dif_pos (by exact hc)]
      exact h'.2.always
    · rw [if_neg hne]
      refine (schedule_meets hvalid _).imp (fun _ _ h' => ?_) fun _ _ => id
      have hput : ed.document.put c (CellText.normalize (ed.sheet.text c)) = ed.document := by
        rw [not_not.1 hne]
        exact Document.put_self
      have hgrid : ed.document.grid.text c = ed.sheet.text c := rfl
      rw [hgrid, hput]
      exact h'.2.always

/-- The cell that becomes active shows its own text. -/
theorem focus_meets (h : ed.Valid watch) (hc : c ∈ ed.sheet.size)
    (hactive : ed.active? = none ∨ ed.active? = some c) :
    (do
      modify fun ed => { ed with active? := some c }
      let text := (← get).sheet.text c
      showText c text
      return text : Action String).Meets ed
      (fun text ed' => ed'.Keeps watch ed.Fresh { ed.document with active? := some c } ∧
        ed'.buffer.text c = text)
      fun _ _ => False := by
  have hc' : c ∈ ed.buffer.size := h.size ▸ hc
  rw [ExceptT.meets_bind, ExceptT.meets_modify, ExceptT.meets_bind, ExceptT.meets_get]
  simp only
  rw [ExceptT.meets_bind]
  refine (showText_meets (by exact hc')).imp ?_ fun _ _ => id
  rintro _ _ rfl
  have hother {d : Cell} (hd : some c ≠ some d) : d ≠ c ∧ ed.active? ≠ some d := by
    refine ⟨fun e => hd (congrArg some e.symm), ?_⟩
    rcases hactive with hactive | hactive
    · rw [hactive]; exact nofun
    · rw [hactive]; exact hd
  have htext : (ed.buffer.set c (ed.sheet.text c) hc').text c = ed.sheet.text c :=
    (Grid.text_set _ c _ hc' c).trans (if_pos rfl)
  refine ⟨⟨{ h with active := ?_ }, Or.imp id (Or.imp (fun hs => ⟨hs.1, ?_⟩) id), rfl⟩, htext⟩
  · exact fun hd => Option.some.inj hd ▸ hc
  · constructor
    · intro d hd
      obtain rfl : c = d := Option.some.inj hd
      exact htext
    · intro d hd hne
      have htext : (ed.buffer.set c (ed.sheet.text c) hc').text d = ed.buffer.text d :=
        (Grid.text_set _ c _ hc' d).trans (if_neg (hother hne).1)
      change ed.sheet.grid.Shown roomLimit d ((ed.buffer.set c (ed.sheet.text c) hc').text d)
      rw [htext]
      exact hs.2.shown hd (hother hne).2
    · intro d hd hne
      exact hs.2.noted hd (hother hne).2

theorem beginEdit_meets (h : ed.Valid watch) : (beginEdit c).Meets ed
    (fun text ed' =>
      ed'.Keeps watch ((ed.active?.isSome && ed.active? != some c) = true ∨ ed.Fresh)
        (ed.document.perform (.beginEdit c)) ∧ ed'.buffer.text c = text)
    fun f ed' => c ∉ ed.sheet.size ∧ ed'.Keeps watch ed.Fresh (ed.document.perform (.beginEdit c)) ∧
      (Operation.beginEdit c).Fails ed.document f := by
  unfold beginEdit
  rw [ExceptT.meets_bind]
  refine requireCell_meets.imp ?_ ?_
  · rintro _ ed' ⟨hc, rfl⟩
    have hperform : ed.document.perform (.beginEdit c) =
        { (if ed.document.active? = some c then ed.document else ed.document.leave) with
          active? := some c } := if_pos hc
    rw [ExceptT.meets_bind, ExceptT.meets_get, hperform]
    simp only
    -- another cell that is active is left first
    split
    · rename_i hother
      have hne : ed.document.active? ≠ some c := by
        rw [Bool.and_eq_true, bne_iff_ne] at hother
        exact hother.2
      rw [if_neg hne, ExceptT.meets_bind]
      refine (endEdit_meets h).imp (fun _ ed' hk => ?_) fun _ _ => False.elim
      have hsize : ed'.sheet.size = ed.sheet.size :=
        (congrArg (·.grid.size) hk.document).trans Document.size_leave
      have hactive : ed'.active? = none :=
        (congrArg (·.active?) hk.document).trans Document.active_leave
      have hfresh : ed'.Fresh := hk.fresh (.inl (Bool.and_elim_left hother))
      refine (focus_meets hk.valid (hsize ▸ hc) (.inl hactive)).imp ?_ fun _ _ => False.elim
      rintro _ _ ⟨hfocus, htext⟩
      rw [hk.document] at hfocus
      exact ⟨hfocus.mono fun _ => hfresh, htext⟩
    · rename_i hsame
      have hactive : ed.active? = none ∨ ed.active? = some c := by
        cases hactive : ed.active? with
        | none => exact .inl rfl
        | some d => simpa [hactive] using hsame
      have hdocument : (if ed.document.active? = some c then ed.document else ed.document.leave) =
          ed.document := by
        split
        · rfl
        · rename_i hne
          exact Document.leave_of_none (hactive.resolve_right hne)
      rw [hdocument]
      refine (focus_meets h hc hactive).imp ?_ fun _ _ => False.elim
      rintro _ _ ⟨hk, htext⟩
      exact ⟨hk.mono fun hF => hF.resolve_left hsame, htext⟩
  · rintro _ _ ⟨hc, rfl, rfl⟩
    exact ⟨hc, h.fails rfl (if_neg hc)⟩

theorem edit_meets (h : ed.Valid watch) : (edit c text).Meets ed
    (fun _ ed' => ed'.Keeps watch True (ed.document.perform (.edit c text)))
    fun f ed' => ed'.Keeps watch ed.Fresh (ed.document.perform (.edit c text)) ∧
      (Operation.edit c text).Fails ed.document f := by
  unfold edit
  rw [ExceptT.meets_bind]
  refine store_meets.imp ?_ ?_
  · rintro _ _ ⟨hc, rfl⟩
    have hput : document { ed with sheet := ed.sheet.put c text hc } =
        ed.document.perform (.edit c text) := document_put hc
    have hvalid := h.put text hc
    rw [ExceptT.meets_bind, ExceptT.meets_get, ← hput]
    simp only
    split
    · have hc' : c ∈ ed.buffer.size := h.size ▸ hc
      rw [ExceptT.meets_bind]
      refine (showText_meets (by exact hc')).imp ?_ fun _ _ => False.elim
      rintro _ _ rfl
      have hshown : Valid watch
          { ed with sheet := ed.sheet.put c text hc, buffer := ed.buffer.set c text hc' } :=
        { hvalid with size := hvalid.size }
      exact (request_schedule_meets hshown).imp (fun _ _ => id) fun _ _ => False.elim
    · exact (request_schedule_meets hvalid).imp (fun _ _ => id) fun _ _ => False.elim
  · rintro _ _ ⟨hc, rfl, rfl⟩
    exact h.fails rfl (dif_neg hc)

/-! ## The clipboard -/

theorem Valid.setOrigin (h : ed.Valid watch) (hc : c ∈ ed.sheet.size) :
    Valid watch { ed with origin? := some c } :=
  { h with origin := fun hd => Option.some.inj hd ▸ hc }

theorem Fresh.setOrigin (hf : ed.Fresh) (origin? : Option Cell) : Fresh { ed with origin? } :=
  hf.imp id (Or.imp (fun hs => ⟨hs.1, hs.2.active, hs.2.shown, hs.2.noted⟩) id)

theorem copy_meets : (copy c).Meets ed
    (fun _ ed' => c ∈ ed.sheet.size ∧ ed' = { ed with origin? := some c })
    fun f ed' => c ∉ ed.sheet.size ∧ ed = ed' ∧ f = .refused (.outside c ed.sheet.size) := by
  unfold copy
  rw [ExceptT.meets_bind]
  refine requireCell_meets.imp ?_ fun _ _ => id
  rintro _ _ ⟨hc, rfl⟩
  rw [ExceptT.meets_bind, ExceptT.meets_modify, ExceptT.meets_bind, ExceptT.meets_get]
  exact ⟨hc, rfl⟩

theorem cut_meets (h : ed.Valid watch) : (cut c).Meets ed
    (fun _ ed' => ed'.Keeps watch True (ed.document.perform (.cut c)))
    fun f ed' => ed'.Keeps watch ed.Fresh (ed.document.perform (.cut c)) ∧
      (Operation.cut c).Fails ed.document f := by
  unfold cut
  rw [ExceptT.meets_bind]
  refine copy_meets.imp ?_ ?_
  · rintro _ _ ⟨hc, rfl⟩
    have hperform : ed.document.perform (.cut c) =
        { ed.document.put c "" with origin? := some c } := if_pos hc
    rw [ExceptT.meets_bind]
    refine store_meets.imp ?_ fun _ _ hout => absurd hc hout.1
    rintro _ _ ⟨_, rfl⟩
    have hvalid := (h.setOrigin hc).put "" hc
    refine (schedule_meets hvalid _).imp (fun _ _ h' => ?_) fun _ _ => False.elim
    rw [document_put (by exact hc), Document.put, dif_pos (by exact hc)] at h'
    rw [hperform, Document.put, dif_pos (by exact hc)]
    exact h'.2
  · rintro _ _ ⟨hc, rfl, rfl⟩
    exact h.fails rfl (if_neg hc)

theorem meets_nameOf {P : String → Editor → Prop} {E : Failure → Editor → Prop} :
    (nameOf c).Meets ed P E ↔ match Address.text c with
      | .ok name => P name ed
      | .error t => E (.tooLong t) ed := by
  unfold nameOf
  rw [ExceptT.meets_ofExcept]
  cases Address.text c with
  | ok name => rfl
  | error t => rfl

theorem mapM_nameOf_meets {c? : Option Cell} : (c?.mapM nameOf).Meets ed (fun _ ed' => ed = ed')
    fun f ed' => ed = ed' ∧ ∃ c ∈ c?, ∃ t, Address.text c = .error t ∧ f = .tooLong t := by
  cases c? with
  | none => rw [Option.mapM_none, ExceptT.meets_pure]
  | some c =>
    rw [Option.mapM_some, ExceptT.meets_map, meets_nameOf]
    cases hname : Address.text c with
    | ok name => rfl
    | error t => exact ⟨rfl, c, rfl, t, hname, rfl⟩

/-- A paste on a document, in terms of the paste on a sheet. -/
theorem document_paste {outcome : Except Decimal.TooLong Nat} {sheet : Sheet}
    (hpaste : ed.sheet.paste c text ed.origin? = (outcome, sheet)) :
    ed.document.paste c text = match outcome with
      | .ok _ => { ed.document with grid := sheet.grid, origin? := none }
      | .error _ => { ed.document with grid := sheet.grid } := by
  have hsame : ed.sheet.grid = (Sheet.mk ed.document.grid {}).grid := rfl
  obtain ⟨houtcome, hgrid⟩ := Sheet.paste_grid hsame c text ed.origin?
  rw [hpaste] at houtcome hgrid
  rw [Document.paste]
  rcases hplain : (Sheet.mk ed.document.grid {}).paste c text ed.document.origin? with ⟨o, plain⟩
  have horigin : ed.document.origin? = ed.origin? := rfl
  rw [horigin] at hplain
  rw [hplain] at houtcome hgrid
  have hgrid : sheet.grid = plain.grid := hgrid
  cases houtcome
  rw [hgrid]
  cases outcome <;> rfl

/-- How a paste does not get through, in terms of the paste on a sheet. -/
theorem document_stops {outcome : Except Decimal.TooLong Nat} {sheet : Sheet}
    (hpaste : ed.sheet.paste c text ed.origin? = (outcome, sheet)) {t : Decimal.TooLong} :
    ed.document.Stops c text t ↔ match outcome with
      | .error t' => t' = t
      | .ok _ => ∃ c', (c' = c ∨ ed.origin? = some c') ∧ Address.text c' = .error t := by
  have hsame : ed.sheet.grid = (Sheet.mk ed.document.grid {}).grid := rfl
  have houtcome : ((Sheet.mk ed.document.grid {}).paste c text ed.document.origin?).1 = outcome :=
    (Sheet.paste_grid hsame c text ed.document.origin?).1.symm.trans (congrArg Prod.fst hpaste)
  unfold Document.Stops
  rw [houtcome]
  cases outcome <;> rfl

/-- A paste is reported at its end and a recompute is asked for, unless the cell that was copied has
no name. -/
theorem report_meets (h : ed.Valid watch) (name : String) (origin? : Option Cell) (n : Nat) :
    (do
      emit (pasteEvent name (← origin?.mapM nameOf) n)
      request .schedule
      return n : Action Nat).Meets ed (fun _ ed' => ed'.Keeps watch True ed.document)
      fun f ed' => ed = ed' ∧ ∃ c ∈ origin?, ∃ t, Address.text c = .error t ∧ f = .tooLong t := by
  rw [ExceptT.meets_bind]
  refine mapM_nameOf_meets.imp ?_ fun _ _ => id
  rintro origin _ rfl
  unfold emit
  rw [ExceptT.meets_bind, ExceptT.meets_modify]
  have hvalid : Valid watch { ed with events := ed.events ++ [pasteEvent name origin n] } :=
    h.tell nofun
  exact (schedule_meets hvalid _).imp (fun _ _ h' => h'.2) fun _ _ => False.elim

/-- **A paste** that stops at a row number that is too long leaves what is on display and the timer
as they were. -/
theorem paste_meets (h : ed.Valid watch) : (paste c text).Meets ed
    (fun _ ed' => ed'.Keeps watch True (ed.document.perform (.paste c text)))
    fun f ed' => (Operation.paste c text).Fails ed.document f ∧
      ((∃ e, f = .refused e) ∧ ed'.Keeps watch ed.Fresh (ed.document.perform (.paste c text)) ∨
        (∃ t, f = .tooLong t) ∧ ed'.Valid watch ∧
          ed'.document = ed.document.perform (.paste c text) ∧
            ∃ sheet origin?, ed' = { ed with sheet, origin? }) := by
  unfold paste
  rw [ExceptT.meets_bind]
  refine requireCell_meets.imp ?_ ?_
  · rintro _ _ ⟨hc, rfl⟩
    have hperform : ed.document.perform (.paste c text) = ed.document.paste c text := if_pos hc
    have hfails {t : Decimal.TooLong} (ht : ed.document.Stops c text t) :
        (Operation.paste c text).Fails ed.document (.tooLong t) :=
      ⟨rfl, .inr ⟨c, text, t, rfl, hc, rfl, ht⟩⟩
    obtain ⟨hcoherent, hsize⟩ := h.sheet.paste c text ed.origin?
    rcases hpaste : ed.sheet.paste c text ed.origin? with ⟨outcome, sheet⟩
    rw [hpaste] at hcoherent hsize
    have hstops {t : Decimal.TooLong} := (document_stops hpaste (t := t)).2
    rw [hperform, document_paste hpaste, ExceptT.meets_bind, ExceptT.meets_get]
    simp only [hpaste]
    rw [ExceptT.meets_bind, ExceptT.meets_modify, ExceptT.meets_bind, ExceptT.meets_ofExcept]
    have hvalid : Valid watch { ed with sheet } :=
      { h with
        sheet := hcoherent
        size := h.size.trans hsize.symm
        active := fun hd => hsize ▸ h.active hd
        origin := fun hd => hsize ▸ h.origin hd }
    have hvalid' : Valid watch { ed with sheet, origin? := none } := { hvalid with origin := nofun }
    cases outcome with
    | error t => exact ⟨hfails (hstops rfl), .inr ⟨⟨t, rfl⟩, hvalid, rfl, sheet, ed.origin?, rfl⟩⟩
    | ok n =>
      simp only [Except.mapError]
      rw [ExceptT.meets_bind, ExceptT.meets_modify, ExceptT.meets_bind, meets_nameOf]
      cases hname : Address.text c with
      | error t =>
        have ht : ed.document.Stops c text t := hstops ⟨c, .inl rfl, hname⟩
        exact ⟨hfails ht, .inr ⟨⟨t, rfl⟩, hvalid', rfl, sheet, none, rfl⟩⟩
      | ok name =>
        refine (report_meets hvalid' name ed.origin? n).imp (fun _ _ => id) ?_
        rintro _ _ ⟨rfl, c', hc', t, hname', rfl⟩
        have ht : ed.document.Stops c text t := hstops ⟨c', .inr hc', hname'⟩
        exact ⟨hfails ht, .inr ⟨⟨t, rfl⟩, hvalid', rfl, sheet, none, rfl⟩⟩
  · rintro _ _ ⟨hc, rfl, rfl⟩
    have hsame : ed.document.perform (.paste c text) = ed.document := if_neg hc
    exact ⟨⟨rfl, .inl hsame⟩, .inl ⟨⟨_, rfl⟩, h, id, hsame.symm⟩⟩

/-! ## The extent of the grid -/

theorem mem_of_keepWithin {size : Size} {c? : Option Cell} (h : keepWithin size c? = some c) :
    c ∈ size := by
  have hkeep := (Option.filter_eq_some_iff.1 h).2
  simpa using hkeep

theorem restructure_meets (h : ed.Valid watch) (name : String) {sheet : Sheet}
    (hsheet : sheet.Coherent roomLimit) : (restructure name sheet).Meets ed
      (fun _ ed' => ed'.Keeps watch True (ed.document.within sheet.grid)) fun _ _ => False := by
  unfold restructure emit
  rw [ExceptT.meets_bind, ExceptT.meets_modify, ExceptT.meets_bind, ExceptT.meets_modify]
  have hvalid : Valid watch { ed with
      sheet
      active? := keepWithin sheet.size ed.active?
      origin? := keepWithin sheet.size ed.origin?
      buffer := ed.buffer.resize sheet.size } :=
    ⟨hsheet, rfl, mem_of_keepWithin, mem_of_keepWithin, h.observe, h.explained⟩
  exact request_schedule_meets (hvalid.tell nofun)

theorem replaceSheet_meets (h : ed.Valid watch) {event : Journal.Event}
    (hevent : event.type ≠ .recalcFailed) {sheet : Sheet} (hsheet : sheet.Coherent roomLimit) :
    (replaceSheet event sheet).Meets ed
      (fun _ ed' => ed'.Keeps watch True
        { ed.document with grid := sheet.grid, active? := none, origin? := none })
      fun _ _ => False := by
  unfold replaceSheet emit
  rw [ExceptT.meets_bind, ExceptT.meets_modify, ExceptT.meets_bind, ExceptT.meets_modify]
  have hvalid : Valid watch
      { ed with sheet, active? := none, origin? := none, buffer := ed.buffer.resize sheet.size } :=
    ⟨hsheet, rfl, nofun, nofun, h.observe, h.explained⟩
  exact request_schedule_meets (hvalid.tell hevent)

theorem load_meets (h : ed.Valid watch) (rows : List (List String)) : (load rows).Meets ed
    (fun _ ed' => ed'.Keeps watch True (ed.document.perform (.load rows))) fun _ _ => False :=
  replaceSheet_meets h (by decide) (Sheet.coherent_ofRows rows)

theorem loadValues_meets (h : ed.Valid watch) (rows : List (List Value)) :
    (loadValues rows).Meets ed
      (fun _ ed' => ∃ texts, ed'.Keeps watch True (ed.document.perform (.load texts)))
      fun f ed' => ed' = ed ∧ f.kind = Fault.valueKind := by
  unfold loadValues
  rw [ExceptT.meets_bind, ExceptT.meets_ofExcept]
  cases rows.mapM (List.mapM Value.cellText?) with
  | error e => exact ⟨rfl, rfl⟩
  | ok texts => exact (load_meets h texts).imp (fun _ _ h' => ⟨texts, h'⟩) fun _ _ => False.elim

theorem resize_meets (h : ed.Valid watch) (rows cols : Int) : (resize rows cols).Meets ed
    (fun _ ed' => ed'.Keeps watch True (ed.document.perform (.resize rows cols)))
    fun f ed' => ed'.Keeps watch ed.Fresh (ed.document.perform (.resize rows cols)) ∧
      (Operation.resize rows cols).Fails ed.document f := by
  unfold resize Sheet.resize
  rw [ExceptT.meets_bind, ExceptT.meets_get, ExceptT.meets_bind, ExceptT.meets_ofExcept]
  cases hsize : Grid.checkSize rows cols with
  | error e =>
    have hperform : ed.document.perform (.resize rows cols) = ed.document := by
      simp only [Document.perform, hsize]
    exact h.fails rfl hperform
  | ok size =>
    have hperform : ed.document.perform (.resize rows cols) =
        ed.document.within (ed.document.grid.resize size) := by
      simp only [Document.perform, hsize]
    rw [hperform]
    exact (restructure_meets h _ (h.sheet.regrid_resize size)).imp (fun _ _ => id)
      fun _ _ => False.elim

end Spreadsheet.Editor
