import Spreadsheet.Proofs.Editor.Run
import Spreadsheet.Proofs.Formula.Naming
import Spreadsheet.Proofs.Formula.Rewriting
import Spreadsheet.Proofs.Sheet.Block

/-!
# Copying a cell and pasting it

What is copied is the text of a cell, and what is pasted is the block that this text holds. Both are
the same only if the text is plain: tabs and line ends cut it into several cells, carriage returns
are lost, and an empty text is no block, so that nothing is written.

* `Formula.mem_translate`: a shift neither makes nor takes away a blank;
* `Clipboard.pasted?`: the entry of a pasted text that lies on a cell; `Sheet.paste_text`;
* `Editor.run_copy`, `Editor.run_paste`: the two operations; **`Editor.exists_copy_paste`**;
* **`Editor.copy_paste`**: when the cell is reproduced; **`Editor.not_reproduced`**: a formula on
  two lines.
-/

namespace Spreadsheet

/-! ## Blanks in shifted texts -/

namespace Formula

open Reference (Parts)

variable {d : Offset} {p : Parts} {cs out : List Char} {b : Char}

/-- The pieces of a text are all of it. -/
theorem chars_pieces (cs : List Char) : (pieces cs).flatMap Piece.chars = cs := by
  fun_induction pieces cs with
  | case1 => rfl
  | case2 c cs p htake ih =>
    obtain ⟨hp, rest, happend, -⟩ := take?_written (take?_of_cell htake)
    rw [drop_length_pred hp.chars_ne_nil happend] at ih ⊢
    rw [List.flatMap_cons, ih, happend]
    rfl
  | case3 c cs first last htake ih =>
    obtain ⟨hfirst, behind, hbehind, hlast⟩ := take?_of_range htake
    obtain ⟨-, tail, happend, -⟩ := take?_written hfirst
    obtain ⟨-, rest, rfl, -⟩ := take?_written hlast
    have htail : tail = ':' :: (last.chars ++ rest) := by
      rw [← hbehind, happend, List.drop_left]
    have hwhole : c :: cs = (Piece.range first last).chars ++ rest := by
      rw [happend, htail, Piece.chars, List.append_assoc, List.cons_append]
    have hne : (Piece.range first last).chars ≠ [] :=
      List.append_ne_nil_of_right_ne_nil _ (List.cons_ne_nil _ _)
    rw [drop_length_pred hne hwhole] at ih ⊢
    rw [List.flatMap_cons, ih, hwhole]
  | case4 c cs _ _ ih => rw [List.flatMap_cons, ih]; rfl

/-- What is written for a reference has no blanks. -/
theorem not_isBlank_shiftParts (hp : Written p) (h : shiftParts d p = .ok out) :
    ∀ c ∈ out, Text.isBlank c = false := by
  unfold shiftParts at h
  obtain ⟨r?, -, h⟩ := bind_eq_ok.1 h
  cases r? with
  | none =>
    obtain rfl := Except.ok.inj h
    exact hp.not_isBlank
  | some r =>
    simp only at h
    cases hmove : r.move? d with
    | none =>
      rw [hmove] at h
      obtain rfl := Except.ok.inj h
      have hall : lostReference.all (fun c => !Text.isBlank c) = true := by decide
      simpa using hall
    | some r' =>
      rw [hmove] at h
      obtain ⟨t, ht, h⟩ := bind_eq_ok.1 h
      obtain rfl := Except.ok.inj h
      obtain ⟨q, ⟨hq, -⟩, hchars⟩ := text_eq_chars (row_nonneg_of_move hmove) ht
      rw [hchars]
      exact hq.not_isBlank

theorem Piece.mem_shift {piece : Piece} (hp : ∀ p ∈ piece.references, Written p)
    (hb : Text.isBlank b = true) (h : piece.shift d = .ok out) : b ∈ out ↔ b ∈ piece.chars := by
  have hnot {cs : List Char} (hcs : ∀ c ∈ cs, Text.isBlank c = false) : b ∉ cs := fun hmem =>
    absurd (hcs b hmem) (by simp [hb])
  cases piece with
  | cell p =>
    have hwritten := hp p List.mem_cons_self
    exact iff_of_false (hnot (not_isBlank_shiftParts hwritten h)) (hnot hwritten.not_isBlank)
  | range first last =>
    have hfirst := hp first List.mem_cons_self
    have hlast := hp last (List.mem_cons_of_mem _ List.mem_cons_self)
    obtain ⟨out₁, h₁, h⟩ := bind_eq_ok.1 h
    obtain ⟨out₂, h₂, h⟩ := bind_eq_ok.1 h
    obtain rfl := Except.ok.inj h
    simp only [Piece.chars, List.mem_append, List.mem_cons, hnot (not_isBlank_shiftParts hfirst h₁),
      hnot (not_isBlank_shiftParts hlast h₂), hnot hfirst.not_isBlank, hnot hlast.not_isBlank]
  | other c =>
    obtain rfl := Except.ok.inj h
    rfl

theorem mem_flatten_shift {ps : List Piece} (hp : ∀ piece ∈ ps, ∀ p ∈ piece.references, Written p)
    (hb : Text.isBlank b = true) : ∀ {outs : List (List Char)},
    ps.mapM (Piece.shift d) = .ok outs → (b ∈ outs.flatten ↔ b ∈ ps.flatMap Piece.chars) := by
  induction ps with
  | nil =>
    intro outs h
    obtain rfl := Except.ok.inj h
    rfl
  | cons piece ps ih =>
    intro outs h
    obtain ⟨hpiece, hps⟩ := List.forall_mem_cons.1 hp
    obtain ⟨out, outs', rfl, hout, houts⟩ := mapM_cons_eq_ok h
    rw [List.flatten_cons, List.flatMap_cons, List.mem_append, List.mem_append,
      Piece.mem_shift hpiece hb hout, ih hps houts]

/-- **A shift neither makes nor takes away a blank.** -/
theorem mem_translate {text t : String} (h : translate d text = .ok t)
    (hb : Text.isBlank b = true) : b ∈ t.toList ↔ b ∈ text.toList := by
  unfold translate at h
  split at h
  · rename_i body htext
    obtain ⟨u, hu, h⟩ := bind_eq_ok.1 h
    obtain rfl := Except.ok.inj h
    obtain ⟨outs, houts, hu⟩ := bind_eq_ok.1 hu
    obtain rfl := Except.ok.inj hu
    have hmem := mem_flatten_shift (written_of_mem_pieces _) hb houts
    rw [String.toList_ofList, chars_pieces] at hmem
    have hequals : ("=" : String).toList = ['='] := rfl
    rw [htext, String.toList_append, hequals, String.toList_ofList, List.mem_append, hmem,
      List.mem_singleton, List.mem_cons]
  · obtain rfl := Except.ok.inj h
    rfl

end Formula

/-! ## Blocks of one cell -/

namespace Clipboard

variable {corner c : Cell} {text t : String}

/-- What cuts or is lost in a block is blank. -/
theorem plain_of_translate {d : Offset} (h : Formula.translate d text = .ok t) :
    Plain t ↔ Plain text := by
  have hmem {c : Char} (hc : c ∈ ['\t', '\r', '\n']) : c ∈ t.toList ↔ c ∈ text.toList := by
    have hall : ['\t', '\r', '\n'].all Text.isBlank = true := by decide
    exact Formula.mem_translate h (List.all_eq_true.1 hall c hc)
  exact ⟨fun ht c hc hsep => ht c ((hmem hsep).2 hc) hsep,
    fun ht c hc hsep => ht c ((hmem hsep).1 hc) hsep⟩

theorem entryOn?_singleton : entryOn? corner [[t]] c = if c = corner then some t else none := by
  unfold entryOn?
  by_cases h : c = corner
  · subst h
    rw [if_pos rfl, if_neg (by omega), Int.sub_self, Int.sub_self]
    rfl
  · rw [if_neg h, ite_eq_left_iff]
    intro hplace
    rw [Option.bind_eq_none_iff]
    intro row hrow
    obtain ⟨r, k⟩ := c
    obtain ⟨r', k'⟩ := corner
    simp only [Cell.mk.injEq] at h hplace hrow ⊢
    obtain ⟨hzero, hrow⟩ := List.getElem?_eq_some_iff.1 hrow
    rw [List.length_singleton] at hzero
    have hr : (r - r').toNat = 0 := by omega
    simp only [hr, List.getElem_cons_zero] at hrow
    subst hrow
    rw [List.getElem?_eq_none_iff, List.length_singleton]
    omega

/-- The first cell of a block has an entry. -/
theorem exists_entryOn?_corner (corner : Cell) (text : String) :
    ∃ t, entryOn? corner (rows text) corner = some t ∧ Plain t := by
  have hblock := isBlock_rows text
  obtain ⟨row, block, hrows⟩ := List.exists_cons_of_ne_nil hblock.ne_nil
  have hrow : row ∈ rows text := hrows ▸ List.mem_cons_self
  obtain ⟨t, cells, rfl⟩ := List.exists_cons_of_ne_nil (hblock.row_ne_nil row hrow)
  refine ⟨t, ?_, hblock.plain _ hrow t List.mem_cons_self⟩
  rw [entryOn?, if_neg (by omega), Int.sub_self, Int.sub_self, hrows]
  rfl

/-- The entry of a pasted text that lies on a cell; an empty text is no block. -/
def pasted? (corner : Cell) (text : String) (c : Cell) : Option String :=
  if text = "" then none else entryOn? corner (rows text) c

end Clipboard

/-! ## A pasted text -/

namespace Sheet

variable {s : Sheet} {corner origin : Cell} {text : String}

/-- What is written if it is known from where the text was copied. -/
theorem paste_text (h : s.Pastable corner text (some origin)) :
    ∃ n s', s.paste corner text (some origin) = (.ok n, s') ∧ s'.size = s.size ∧
      ∀ c ∈ s.size, match Clipboard.pasted? corner text c with
        | some t => Formula.translate (origin.offset corner) t = .ok (s'.text c)
        | none => s'.text c = s.text c := by
  by_cases hempty : text = ""
  · refine ⟨0, s, by rw [paste, if_pos (by simpa using hempty)], rfl, fun c _ => ?_⟩
    rw [Clipboard.pasted?, if_pos hempty]
  · obtain ⟨s', hpaste, hwrites⟩ := exists_paste hempty h
    refine ⟨_, s', hpaste, hwrites.size, fun c hc => ?_⟩
    rw [Clipboard.pasted?, if_neg hempty]
    cases hentry : Clipboard.entryOn? corner (Clipboard.rows text) c with
    | some t => exact hwrites.received (Clipboard.mem_cells.2 hentry) hc
    | none => exact hwrites.kept (by rw [Clipboard.mem_keys, hentry]; exact Bool.false_ne_true)

end Sheet

/-! ## Copying and pasting -/

namespace Editor

variable {watch : Observer} {ed : Editor} {c c' : Cell} {text : String}

theorem run_copy (hc : c ∈ ed.sheet.size) :
    (copy c).run ed = (.ok (ed.sheet.text c), { ed with origin? := some c }) := by
  unfold copy requireCell
  rw [ExceptT.run_bind_apply, ExceptT.run_get_bind]
  simp only [if_pos hc]
  rfl

/-- A paste that gets through leaves the sheet as it has written it and forgets what was copied. -/
theorem run_paste (h : ed.Valid watch) (hc : c ∈ ed.sheet.size) {n : Nat} {sheet : Sheet}
    (hpaste : ed.sheet.paste c text ed.origin? = (.ok n, sheet))
    (hrows : ed.sheet.size.rows < 10 ^ Decimal.maxDigits) :
    ∃ m ed', (paste c text).run ed = (.ok m, ed') ∧
      ed'.document = { ed.document with grid := sheet.grid, origin? := none } := by
  have hmeets : (paste c text).Meets ed
      (fun _ ed' => ed'.document = { ed.document with grid := sheet.grid, origin? := none })
      fun _ _ => False := by
    obtain ⟨hcoherent, hsize⟩ := h.sheet.paste c text ed.origin?
    rw [hpaste] at hcoherent hsize
    have hvalid : Valid watch { ed with sheet, origin? := none } :=
      { h with
        sheet := hcoherent
        size := h.size.trans hsize.symm
        active := fun hd => hsize ▸ h.active hd
        origin := nofun }
    have hnamed {c : Cell} (hc : c ∈ ed.sheet.size) := text_ne_error_of_mem hc hrows
    unfold paste
    rw [ExceptT.meets_bind]
    refine requireCell_meets.imp ?_ fun _ _ hout => hout.1 hc
    rintro _ _ ⟨-, rfl⟩
    rw [ExceptT.meets_bind, ExceptT.meets_get]
    simp only [hpaste]
    rw [ExceptT.meets_bind, ExceptT.meets_modify, ExceptT.meets_bind, ExceptT.meets_ofExcept]
    simp only [Except.mapError]
    rw [ExceptT.meets_bind, ExceptT.meets_modify, ExceptT.meets_bind, meets_nameOf]
    cases hname : Address.text c with
    | error t => exact hnamed hc t hname
    | ok name =>
      refine (report_meets hvalid name ed.origin? n).imp (fun _ _ hk => hk.document) ?_
      rintro _ _ ⟨-, o, ho, t, ht, -⟩
      exact hnamed (h.origin ho) t ht
  exact hmeets.exists_ok

/-- **A cell is copied and its text is pasted**: the entries of the block that the text holds are
written, shifted by the way from the cell. -/
theorem exists_copy_paste (h : ed.Valid watch) (hc : c ∈ ed.sheet.size) (hc' : c' ∈ ed.sheet.size)
    (hrows : ed.sheet.size.rows < 10 ^ Decimal.maxDigits)
    (hpastable : ed.sheet.Pastable c' (ed.sheet.text c) (some c)) :
    ∃ ed₁ n ed₂, (copy c).run ed = (.ok (ed.sheet.text c), ed₁) ∧
      (paste c' (ed.sheet.text c)).run ed₁ = (.ok n, ed₂) ∧ ed₂.origin? = none ∧
      ed₂.sheet.size = ed.sheet.size ∧
      ∀ k ∈ ed.sheet.size, match Clipboard.pasted? c' (ed.sheet.text c) k with
        | some t => Formula.translate (c.offset c') t = .ok (ed₂.sheet.text k)
        | none => ed₂.sheet.text k = ed.sheet.text k := by
  obtain ⟨n, sheet, hpaste, hsize, htexts⟩ := Sheet.paste_text hpastable
  obtain ⟨m, ed₂, hrun, hdocument⟩ :=
    run_paste (h.setOrigin hc) hc' hpaste hrows
  have hgrid : ed₂.sheet.grid = sheet.grid := congrArg Document.grid hdocument
  have hsize₂ : ed₂.sheet.size = sheet.size := congrArg Grid.size hgrid
  refine ⟨_, m, ed₂, run_copy hc, hrun, congrArg Document.origin? hdocument,
    hsize₂.trans hsize, fun k hk => ?_⟩
  have htext : ed₂.sheet.text k = sheet.text k := congrArg (Grid.text · k) hgrid
  rw [htext]
  exact htexts k hk

variable {settings : Settings} {clocked : Bool} {observe : Observer} {ops : List Operation}

/-- **A cell that is copied and pasted is reproduced**, its references moved, and nothing else
changes, if and only if its text is plain, and not empty unless the target is. Whatever its text
is, the cells on which an entry of its block lies receive that entry, and the others keep their
texts. -/
theorem copy_paste (hed : (start settings clocked observe).after ops = ed)
    (hc : c ∈ ed.sheet.size) (hc' : c' ∈ ed.sheet.size)
    (hrows : ed.sheet.size.rows < 10 ^ Decimal.maxDigits)
    (hpastable : ed.sheet.Pastable c' (ed.sheet.text c) (some c)) :
    ∃ ed₁ n ed₂, (copy c).run ed = (.ok (ed.sheet.text c), ed₁) ∧
      (paste c' (ed.sheet.text c)).run ed₁ = (.ok n, ed₂) ∧ ed₂.origin? = none ∧
      ed₂.sheet.size = ed.sheet.size ∧
      (∀ k ∈ ed.sheet.size, match Clipboard.pasted? c' (ed.sheet.text c) k with
        | some t => Formula.translate (c.offset c') t = .ok (ed₂.sheet.text k)
        | none => ed₂.sheet.text k = ed.sheet.text k) ∧
      ((Formula.translate (c.offset c') (ed.sheet.text c) = .ok (ed₂.sheet.text c') ∧
          ∀ k ∈ ed.sheet.size, k ≠ c' → ed₂.sheet.text k = ed.sheet.text k) ↔
        Clipboard.Plain (ed.sheet.text c) ∧ (ed.sheet.text c = "" → ed.sheet.text c' = "")) := by
  obtain ⟨ed₁, n, ed₂, hcopy, hpaste, horigin, hsize, htexts⟩ :=
    exists_copy_paste (valid_of_after hed) hc hc' hrows hpastable
  refine ⟨ed₁, n, ed₂, hcopy, hpaste, horigin, hsize, htexts, ?_⟩
  have htarget := htexts c' hc'
  by_cases hempty : ed.sheet.text c = ""
  · rw [hempty] at htarget htexts ⊢
    have hkept : ed₂.sheet.text c' = ed.sheet.text c' := htarget
    rw [hkept]
    constructor
    · rintro ⟨htranslate, -⟩
      exact ⟨by decide +kernel, fun _ => (Except.ok.inj htranslate).symm⟩
    · rintro ⟨-, htext⟩
      exact ⟨congrArg Except.ok (htext rfl).symm, fun k hk _ => htexts k hk⟩
  · have hpasted (k : Cell) : Clipboard.pasted? c' (ed.sheet.text c) k =
        Clipboard.entryOn? c' (Clipboard.rows (ed.sheet.text c)) k := if_neg hempty
    simp only [hpasted] at htarget htexts
    constructor
    · rintro ⟨htranslate, -⟩
      obtain ⟨t, ht, hplain⟩ := Clipboard.exists_entryOn?_corner c' (ed.sheet.text c)
      rw [ht] at htarget
      exact ⟨(Clipboard.plain_of_translate htranslate).1
        ((Clipboard.plain_of_translate htarget).2 hplain), fun he => absurd he hempty⟩
    · rintro ⟨hplain, -⟩
      rw [Clipboard.rows_eq_singleton_iff.2 hplain] at htarget htexts
      rw [Clipboard.entryOn?_singleton, if_pos rfl] at htarget
      refine ⟨htarget, fun k hk hne => ?_⟩
      have hk' := htexts k hk
      rwa [Clipboard.entryOn?_singleton, if_neg hne] at hk'

/-- The settings of a square of four cells. -/
def fourCells : Settings := ⟨⟨2, 2, Nat.two_pos, Nat.two_pos⟩, 16, []⟩

theorem fourCells_rows : fourCells.size.rows < 10 ^ Decimal.maxDigits :=
  Nat.lt_of_lt_of_le (by decide) (Nat.le_self_pow (by decide) 10)

/-- A reference moves to the right with its cell. -/
theorem copy_paste_reference : ∃ ed ed₁ n ed₂,
    (start fourCells true .silent).after [.edit ⟨0, 0⟩ "=A2", .edit ⟨1, 0⟩ "7"] = ed ∧
    (copy ⟨0, 0⟩).run ed = (.ok "=A2", ed₁) ∧ (paste ⟨0, 1⟩ "=A2").run ed₁ = (.ok n, ed₂) ∧
    ed₂.origin? = none ∧ ed₂.sheet.text ⟨0, 1⟩ = "=B2" := by
  obtain ⟨ed, hed, hsize, htext⟩ : ∃ ed,
      (start fourCells true .silent).after [.edit ⟨0, 0⟩ "=A2", .edit ⟨1, 0⟩ "7"] = ed ∧
      ed.sheet.size = fourCells.size ∧ ed.sheet.text ⟨0, 0⟩ = "=A2" := ⟨_, rfl, rfl, rfl⟩
  have hpieces : Formula.pieces "A2".toList = [.cell ⟨false, ['A'], false, ['2']⟩] := by cbv
  have hbody : "=A2".toList = '=' :: "A2".toList := by decide +kernel
  have hplain : Clipboard.Plain "=A2" := by decide +kernel
  have hpastable : ed.sheet.Pastable ⟨0, 1⟩ (ed.sheet.text ⟨0, 0⟩) (some ⟨0, 0⟩) := by
    refine Sheet.pastable_of_forall ?_
    rw [htext, Clipboard.rows_eq_singleton_iff.2 hplain]
    simp only [List.forall_mem_cons, List.not_mem_nil, false_imp_iff, implies_true, and_true]
    refine .of_body hbody ?_
    rw [hpieces]
    intro piece hpiece p hp
    obtain rfl := List.mem_singleton.1 hpiece
    obtain rfl := List.mem_singleton.1 hp
    have hresolve : Reference.Parts.resolve? ⟨false, ['A'], false, ['2']⟩ =
        .ok (some ⟨⟨1, 0⟩, false, false⟩) := rfl
    exact ⟨by decide, Formula.staysShort_of_lt hresolve (by decide)⟩
  have hcell (c : Cell) (hc : c ∈ fourCells.size) : c ∈ ed.sheet.size := hsize ▸ hc
  obtain ⟨ed₁, n, ed₂, hcopy, hpaste, horigin, -, -, hiff⟩ := copy_paste hed
    (hcell ⟨0, 0⟩ (by decide)) (hcell ⟨0, 1⟩ (by decide)) (hsize ▸ fourCells_rows) hpastable
  rw [htext] at hcopy hpaste hiff
  obtain ⟨htranslate, -⟩ := hiff.2 ⟨hplain, fun h => absurd h (by decide)⟩
  have hmoved : Formula.translate (Cell.offset ⟨0, 0⟩ ⟨0, 1⟩) "=A2" = .ok "=B2" := by
    decide +kernel
  exact ⟨ed, ed₁, n, ed₂, hed, hcopy, hpaste, horigin,
    (Except.ok.inj (hmoved.symm.trans htranslate)).symm⟩

/-- **A formula on two lines is not reproduced**: its lines become the texts of two cells. -/
theorem not_reproduced : ∃ ed ed₁ n ed₂,
    (start fourCells true .silent).after [.edit ⟨0, 0⟩ "=1+\n2"] = ed ∧
    (copy ⟨0, 0⟩).run ed = (.ok "=1+\n2", ed₁) ∧ (paste ⟨0, 1⟩ "=1+\n2").run ed₁ = (.ok n, ed₂) ∧
    Formula.translate (Cell.offset ⟨0, 0⟩ ⟨0, 1⟩) "=1+\n2" = .ok "=1+\n2" ∧
    ed₂.sheet.text ⟨0, 1⟩ = "=1+" ∧ ed.sheet.text ⟨1, 1⟩ = "" ∧ ed₂.sheet.text ⟨1, 1⟩ = "2" := by
  obtain ⟨ed, hed, hsize, htext, hbelow⟩ : ∃ ed,
      (start fourCells true .silent).after [.edit ⟨0, 0⟩ "=1+\n2"] = ed ∧
      ed.sheet.size = fourCells.size ∧ ed.sheet.text ⟨0, 0⟩ = "=1+\n2" ∧
      ed.sheet.text ⟨1, 1⟩ = "" := ⟨_, rfl, rfl, rfl, rfl⟩
  have hpieces : Formula.pieces "1+".toList = [.other '1', .other '+'] := by cbv
  have hbody : "=1+".toList = '=' :: "1+".toList := by decide +kernel
  have hrows : Clipboard.rows "=1+\n2" = [["=1+"], ["2"]] := by decide +kernel
  have hpastable : ed.sheet.Pastable ⟨0, 1⟩ (ed.sheet.text ⟨0, 0⟩) (some ⟨0, 0⟩) := by
    refine Sheet.pastable_of_forall ?_
    rw [htext, hrows]
    simp only [List.forall_mem_cons, List.not_mem_nil, false_imp_iff, implies_true, and_true]
    refine ⟨.of_body hbody ?_, .of_head (by decide +kernel)⟩
    rw [hpieces]
    simp [Formula.Piece.references]
  have hcell (c : Cell) (hc : c ∈ fourCells.size) : c ∈ ed.sheet.size := hsize ▸ hc
  obtain ⟨ed₁, n, ed₂, hcopy, hpaste, -, -, htexts⟩ := exists_copy_paste (valid_of_after hed)
    (hcell ⟨0, 0⟩ (by decide)) (hcell ⟨0, 1⟩ (by decide)) (hsize ▸ fourCells_rows) hpastable
  rw [htext] at hcopy hpaste htexts
  have hright := htexts ⟨0, 1⟩ (hcell _ (by decide))
  have hlast := htexts ⟨1, 1⟩ (hcell _ (by decide))
  have hfirst : Formula.translate (Cell.offset ⟨0, 0⟩ ⟨0, 1⟩) "=1+" = .ok "=1+" := by
    decide +kernel
  have hpasted : Clipboard.pasted? ⟨0, 1⟩ "=1+\n2" ⟨0, 1⟩ = some "=1+" ∧
      Clipboard.pasted? ⟨0, 1⟩ "=1+\n2" ⟨1, 1⟩ = some "2" := by decide +kernel
  rw [hpasted.1] at hright
  rw [hpasted.2] at hlast
  exact ⟨ed, ed₁, n, ed₂, hed, hcopy, hpaste, by decide +kernel,
    (Except.ok.inj (hfirst.symm.trans hright)).symm, hbelow, (Except.ok.inj hlast).symm⟩

end Editor

end Spreadsheet
