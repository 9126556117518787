import Mathlib.Data.List.Forall2
import Mathlib.Data.List.Nodup
import Spreadsheet.Proofs.Sheet.Coherence

/-!
# Scans show what is right

A scan reads cell after cell, and what it has shown of a cell stays right while it goes on. At its
end the reason is noted for every cell that it came by and that has no value.

* `Grid.Shown`, `Grid.Noted`; `Shown.eq_display`: the text of a cell that reaches no cycle;
* **`Grid.scan_spec`**, **`Sheet.scan_sound`**: a scan shows every cell, unless someone stops it or a
  row number is too long;
* `Sheet.mem_failures`: the cells listed as failing.
-/

namespace Spreadsheet

open Formula (CellValue Failure)

namespace Grid

variable {g : Grid} {room : Nat} {c : Cell} {t : String} {r r' : Results}

/-- A text is what a cell shows: its own text, or what the right value looks like. -/
def Shown (g : Grid) (room : Nat) (c : Cell) (t : String) : Prop :=
  (¬ CellText.isFormula (g.text c) = true ∧ t = g.text c) ∨ ∃ v, g.Right room c v ∧ t = v.display

/-- The reason why a cell has no value is noted, if there is one. -/
def Noted (g : Grid) (room : Nat) (r : Results) (c : Cell) : Prop :=
  ∀ body, CellText.body? (g.text c) = some body →
    r.failures[c]? = Formula.reason? (g.verdict room body)

/-- **What a cell shows that reaches no cycle.** -/
theorem Shown.eq_display (h : g.Shown room c t) (hc : ¬ g.ReachesCycle room c) :
    t = (g.meaning room c).display := by
  rcases h with ⟨hf, rfl⟩ | ⟨v, hv, rfl⟩
  · rw [meaning_of_not_isFormula hf]
    rfl
  · rw [hv.eq_meaning hc]

theorem Shows.mono (h : g.Shows r c t) (hr : r.Extends g r') : g.Shows r' c t := by
  rcases h with h | ⟨v, hv, ht⟩
  · exact .inl h
  · exact .inr ⟨v, hr.memo hv, ht⟩

theorem Shows.shown (h : g.Shows r c t) (hr : r.Sound g room) : g.Shown room c t := by
  rcases h with h | ⟨v, hv, ht⟩
  · exact .inl h
  · exact .inr ⟨v, hr.right hv, ht⟩

theorem Shows.noted (h : g.Shows r c t) (hr : r.Sound g room) : g.Noted room r c := by
  intro body hb
  rcases h with ⟨hf, -⟩ | ⟨v, hv, -⟩
  · exact absurd (CellText.isFormula_iff.2 ⟨body, hb⟩) hf
  · exact hr.reason hv hb

/-! ## Scans -/

theorem run_scan_cons (observe : Observer) (cs : List Cell) :
    (g.scan room observe (c :: cs)).run r = match (g.display room c).run r with
      | (.error f, r₁) => (⟨[], some f.fault⟩, r₁)
      | (.ok text, r₁) => match observe c text with
        | .error fault => (⟨[(c, text)], some fault⟩, r₁)
        | .ok () =>
          let (rest, r₂) := (g.scan room observe cs).run r₁
          ({ rest with shown := (c, text) :: rest.shown }, r₂) := by
  rw [scan, StateT.run_bind]
  have hrun : StateT.run (g.display room c).run r = (g.display room c).run r := rfl
  rw [hrun]
  rcases (g.display room c).run r with ⟨f | text, r₁⟩
  · rfl
  · change StateT.run (match observe c text with
      | .error fault => pure ⟨[(c, text)], some fault⟩
      | .ok () => do
        let rest ← g.scan room observe cs
        pure { rest with shown := (c, text) :: rest.shown } : StateM Results Scan) r₁ = _
    simp only
    cases observe c text <;> rfl

theorem run_display_of_not_isFormula (h : ¬ CellText.isFormula (g.text c) = true) :
    (g.display room c).run r = (.ok (g.text c), r) := by
  rw [display, if_neg h]
  rfl

/-- A scan of cells without formulas evaluates nothing. -/
theorem results_scan_of_not_isFormula (observe : Observer) {cs : List Cell}
    (h : ∀ c ∈ cs, ¬ CellText.isFormula (g.text c) = true) :
    ((g.scan room observe cs).run r).2 = r := by
  induction cs with
  | nil => rfl
  | cons c cs ih =>
    obtain ⟨hc, hcs⟩ := List.forall_mem_cons.1 h
    rw [run_scan_cons, run_display_of_not_isFormula hc]
    cases hobserve : observe c (g.text c) with
    | error fault => simp only [hobserve]
    | ok u =>
      simp only [hobserve]
      exact ih hcs

/-- **A scan** shows cells in their order and ends before the last one only if someone stops it or a
row number is too long where one of them leads. -/
theorem scan_spec (observe : Observer) :
    ∀ {cs : List Cell} {r : Results}, r.Sound g room → ∀ {scan : Scan} {r' : Results},
      (g.scan room observe cs).run r = (scan, r') → (r'.Sound g room ∧ r.Extends g r') ∧
        (scan.shown.map Prod.fst <+: cs ∧ ∀ p ∈ scan.shown, g.Shows r' p.1 p.2) ∧
        match scan.fault? with
        | none => scan.shown.map Prod.fst = cs
        | some fault => (∃ p ∈ scan.shown, observe p.1 p.2 = .error fault) ∨
            ∃ c ∈ cs, ∃ f, g.Overlong room c f ∧ fault = f.fault := by
  intro cs
  induction cs with
  | nil =>
    rintro r hr _ _ ⟨⟩
    exact ⟨⟨hr, .refl g r⟩, ⟨List.nil_prefix, fun _ hp => absurd hp List.not_mem_nil⟩, rfl⟩
  | cons c cs ih =>
    intro r hr scan r' hrun
    have hdisplay := display_meets (c := c) hr
    rw [run_scan_cons] at hrun
    rcases hd : (g.display room c).run r with ⟨f | text, r₁⟩
    · rw [hd] at hrun
      obtain ⟨rfl, rfl⟩ := Prod.mk.inj hrun
      obtain ⟨hr₁, hlong⟩ := hdisplay.of_run_error hd
      refine ⟨hr₁, ⟨List.nil_prefix, fun _ hp => absurd hp List.not_mem_nil⟩, .inr ?_⟩
      exact ⟨c, List.mem_cons_self, f, hlong, rfl⟩
    · rw [hd] at hrun
      obtain ⟨⟨hr₁, hext⟩, hshows⟩ := hdisplay.of_run_ok hd
      cases hobserve : observe c text with
      | error fault =>
        simp only [hobserve] at hrun
        obtain ⟨rfl, rfl⟩ := Prod.mk.inj hrun
        refine ⟨⟨hr₁, hext⟩, ⟨?_, List.forall_mem_singleton.2 hshows⟩, .inl ⟨(c, text), ?_, hobserve⟩⟩
        · exact List.prefix_cons_inj c |>.2 List.nil_prefix
        · exact List.mem_singleton_self _
      | ok u =>
        simp only [hobserve] at hrun
        rcases hrest : (g.scan room observe cs).run r₁ with ⟨rest, r₂⟩
        rw [hrest] at hrun
        obtain ⟨rfl, rfl⟩ := Prod.mk.inj hrun
        obtain ⟨⟨hr₂, hext'⟩, ⟨hinit, hall⟩, hend⟩ := ih hr₁ hrest
        refine ⟨⟨hr₂, hext.trans hext'⟩, ⟨List.prefix_cons_inj c |>.2 hinit, ?_⟩, ?_⟩
        · exact List.forall_mem_cons.2 ⟨hshows.mono hext', hall⟩
        · cases hfault : rest.fault? with
          | none =>
            rw [hfault] at hend
            exact congrArg (c :: ·) hend
          | some fault =>
            rw [hfault] at hend
            exact hend.imp (fun ⟨p, hp, hstop⟩ => ⟨p, List.mem_cons_of_mem _ hp, hstop⟩)
              fun ⟨d, hd, hlong⟩ => ⟨d, List.mem_cons_of_mem _ hd, hlong⟩

end Grid

/-! ## Cells in order -/

theorem Size.nodup_toList (s : Size) : s.toList.Nodup := by
  rw [Size.toList, List.nodup_flatMap]
  refine ⟨fun i _ => ?_, ?_⟩
  · refine List.nodup_range.map fun j k hjk => ?_
    have := congrArg Cell.col hjk
    dsimp only at this
    omega
  · refine List.nodup_range.imp fun {i j} hij c hi hj => hij ?_
    rw [List.mem_map] at hi hj
    obtain ⟨k, -, rfl⟩ := hi
    obtain ⟨l, -, hl⟩ := hj
    have := congrArg Cell.row hl
    dsimp only at this
    omega

theorem Size.mem_without {s : Size} {skipped : Option Cell} {c : Cell} :
    c ∈ s.without skipped ↔ c ∈ s ∧ skipped ≠ some c := by
  rw [Size.without, List.mem_filter, Size.mem_toList, bne_iff_ne]

theorem Size.nodup_without (s : Size) (skipped : Option Cell) : (s.without skipped).Nodup :=
  s.nodup_toList.filter _

namespace Sheet

variable {room : Nat} {s : Sheet} {c : Cell}

/-- **A scan of a sheet** shows every cell but one, unless someone stops it or a row number is too
long. -/
theorem scan_sound (h : s.results.Sound s.grid room) {observe : Observer} {skipped : Option Cell}
    {scan : Scan} {s' : Sheet} (hscan : s.scan room observe skipped = (scan, s')) :
    (s'.grid = s.grid ∧ s'.results.Sound s.grid room ∧ s.results.Extends s.grid s'.results) ∧
      (∀ p ∈ scan.shown, p.1 ∈ s.size ∧ skipped ≠ some p.1 ∧ s.grid.Shown room p.1 p.2) ∧
      match scan.fault? with
      | none => scan.shown.map Prod.fst = s.size.without skipped ∧
          ∀ c ∈ s.size, skipped ≠ some c → s.grid.Noted room s'.results c
      | some fault => (∃ p ∈ scan.shown, observe p.1 p.2 = .error fault) ∨
          ∃ c f, (c ∈ s.size ∧ skipped ≠ some c) ∧ s.grid.Overlong room c f ∧ fault = f.fault := by
  unfold Sheet.scan at hscan
  rcases hrun : (s.grid.scan room observe (s.size.without skipped)).run s.results with ⟨shows, r⟩
  rw [hrun] at hscan
  obtain ⟨rfl, rfl⟩ := Prod.mk.inj hscan
  obtain ⟨hr, ⟨hinit, hshown⟩, hend⟩ := Grid.scan_spec observe h hrun
  refine ⟨⟨rfl, hr⟩, fun p hp => ?_, ?_⟩
  · have hmem := Size.mem_without.1 (hinit.subset (List.mem_map_of_mem hp))
    exact ⟨hmem.1, hmem.2, (hshown p hp).shown hr.1⟩
  · split at hend
    · refine ⟨hend, fun c hc hskip => ?_⟩
      have hmem : c ∈ shows.shown.map Prod.fst := hend ▸ Size.mem_without.2 ⟨hc, hskip⟩
      obtain ⟨p, hp, rfl⟩ := List.mem_map.1 hmem
      exact (hshown p hp).noted hr.1
    · exact hend.imp id fun ⟨c, hc, f, hlong⟩ => ⟨c, f, Size.mem_without.1 hc, hlong⟩

/-- A cell that is displayed shows what is right, unless a row number is too long. -/
theorem Coherent.display_shown (h : s.Coherent room) (c : Cell) :
    match (s.run fun g => g.display room c).1 with
    | .ok t => s.grid.Shown room c t
    | .error f => s.grid.Overlong room c f := by
  obtain ⟨hcoherent, hread⟩ := h.run (x := fun g => g.display room c) (Grid.display_meets h.sound)
  rcases hrun : (s.run fun g => g.display room c).1 with f | t
  · rw [hrun] at hread
    exact hread
  · rw [hrun] at hread
    exact hread.shown hcoherent.sound

theorem Coherent.display_eq_meaning (h : s.Coherent room) {c : Cell}
    (hreadable : ∀ f, ¬ s.grid.Overlong room c f) (hcycle : ¬ s.grid.ReachesCycle room c) :
    (s.run fun g => g.display room c).1 = .ok (s.grid.meaning room c).display := by
  have hshown := h.display_shown c
  rcases hrun : (s.run fun g => g.display room c).1 with f | t
  · rw [hrun] at hshown
    exact absurd hshown (hreadable f)
  · rw [hrun] at hshown
    rw [hshown.eq_display hcycle]

theorem Coherent.scan (h : s.Coherent room) {observe : Observer} {skipped : Option Cell}
    {scan : Scan} {s' : Sheet} (hscan : s.scan room observe skipped = (scan, s')) :
    s'.Coherent room := by
  obtain ⟨⟨hgrid, hr⟩, -⟩ := scan_sound h.sound hscan
  obtain ⟨grid, results⟩ := s'
  obtain rfl : grid = s.grid := hgrid
  exact h.of_extends hr

/-- The cells that are listed as failing are those of which a reason is noted. -/
theorem mem_failures {m : String} : (c, m) ∈ s.failures ↔
    c ∈ s.size ∧ ∃ f, s.results.failures[c]? = some f ∧ m = f.message := by
  unfold failures
  split
  · rename_i hempty
    simp [Std.HashMap.getElem?_of_isEmpty hempty]
  · simp only [List.mem_filterMap, Size.mem_toList, Option.map_eq_some_iff, failure?,
      Prod.mk.injEq]
    constructor
    · rintro ⟨d, hd, m', ⟨f, hf, rfl⟩, rfl, rfl⟩
      exact ⟨hd, f, hf, rfl⟩
    · rintro ⟨hc, f, hf, rfl⟩
      exact ⟨c, hc, _, ⟨f, hf, rfl⟩, rfl, rfl⟩

end Sheet

end Spreadsheet
