import Spreadsheet.Proofs.Journal.Reading

/-!
# Records are read back

A record that is written is one line of visible characters. So the lines of a log with nothing else
in it are the texts of its records, and reading them gives the records again, with the fields of
their objects in order. A log that is larger than what is looked at gives its last records: those
whose lines start behind the first of the bytes that are looked at.

* `recordOf`: the object of a record; `readingOf`: the object that is read from its line;
* `values_texts`: the values on the lines of records; `recent_of_tail`: what is read where records
  are looked at;
* `writeAll`: records written one after another; **`recent_writeAll`**: all records of a log that is
  looked at as a whole;
* `startingIn`, `whole`, `seen`: records by the bytes from their line to the end; `tail_of_records`;
  **`recent_window`**: the records that are read from a log of any size.
-/

namespace Spreadsheet.Journal

variable {r : Record} {now : String} {p : Record × String} {ps rs : List (Record × String)}

/-! ## One record -/

/-- The object of a record that is written at a time, its fields in order. -/
def recordOf (p : Record × String) : Json := (p.1.json p.2).sorted

/-- An event has what is asked for. -/
def Log.Filter.matchesEvent (f : Log.Filter) (e : Event) : Bool :=
  (f.level.isEmpty || e.level.text == f.level) && (f.type.isEmpty || e.type.text == f.type)

theorem json_eq (r : Record) (now : String) : r.json now = .object
    [("schema_version", .int r.version), ("ts", .string (r.time?.getD now)),
      ("level", .string r.event.level.text), ("event_type", .string r.event.type.text),
      ("context", kept (.object r.event.context)), ("message", .string r.event.message),
      ("error_code", kept (ofText? r.event.code?))] := rfl

/-- The fields of a record stand in the order of their names. -/
theorem recordOf_eq (r : Record) (now : String) : recordOf (r, now) = .object
    [("context", (kept (.object r.event.context)).sorted),
      ("error_code", (kept (ofText? r.event.code?)).sorted),
      ("event_type", .string r.event.type.text), ("level", .string r.event.level.text),
      ("message", .string r.event.message), ("schema_version", .int r.version),
      ("ts", .string (r.time?.getD now))] := by
  have hless : ∀ k ∈ [("schema_version", "ts"), ("context", "message"), ("context", "error_code"),
      ("event_type", "message"), ("level", "message")], Json.nameLe k.1 k.2 = true := by
    decide
  have hmore : ∀ k ∈ [("level", "event_type"), ("schema_version", "event_type"),
      ("schema_version", "level"), ("message", "error_code"), ("event_type", "context"),
      ("event_type", "error_code"), ("schema_version", "message")],
      Json.nameLe k.1 k.2 = false := by
    decide
  simp only [List.forall_mem_cons, List.not_mem_nil, false_implies, implies_true, and_true]
    at hless hmore
  rw [recordOf, json_eq, Json.sorted]
  simp [Json.sortedFields, List.mergeSort, Json.fieldLe, hless, hmore, Json.sorted]

/-- The object that is read from the line of a record. -/
def readingOf (p : Record × String) : Json := (recordOf p).asRead

theorem readingOf_eq (r : Record) (now : String) : readingOf (r, now) = .object
    [("context", (kept (.object r.event.context)).sorted.asRead),
      ("error_code", (kept (ofText? r.event.code?)).sorted.asRead),
      ("event_type", .string r.event.type.text), ("level", .string r.event.level.text),
      ("message", .string (Text.joined r.event.message)), ("schema_version", .int r.version),
      ("ts", .string (Text.joined (r.time?.getD now)))] := by
  have hnames : ∀ k ∈ ["context", "error_code", "event_type", "level", "message",
      "schema_version", "ts"], Text.joined k = k := by
    simp only [List.forall_mem_cons, List.not_mem_nil, false_implies, implies_true, and_true]
    decide +kernel
  have hlevel : Text.joined r.event.level.text = r.event.level.text := by
    cases r.event.level <;> decide +kernel
  have htype : Text.joined r.event.type.text = r.event.type.text := by
    cases r.event.type <;> decide +kernel
  simp only [List.forall_mem_cons, List.not_mem_nil, false_implies, implies_true, and_true]
    at hnames
  rw [readingOf, recordOf_eq, Json.asRead]
  simp [Json.fieldsAsRead, Fields.put, Json.asRead, hnames, hlevel, htype]

theorem wants_readingOf (f : Log.Filter) (p : Record × String) :
    f.wants (readingOf p) = f.matchesEvent p.1.event := by
  obtain ⟨r, now⟩ := p
  have hlevel : (readingOf (r, now)).get? "level" = some (.string r.event.level.text) := by
    rw [readingOf_eq]
    rfl
  have htype : (readingOf (r, now)).get? "event_type" = some (.string r.event.type.text) := by
    rw [readingOf_eq]
    rfl
  simp only [Log.Filter.wants, Log.hasText, Log.Filter.matchesEvent, hlevel, htype]

/-- Nothing gets lost of the record. -/
theorem readingOf_of_clear (h : (p.1.json p.2).all Json.isClear = true) :
    readingOf p = recordOf p :=
  Json.asRead_eq _ ((Json.all_sorted Json.isClear_sorted _).trans h)

namespace Log

variable {l l' : Log} {f : Filter} {limit : Int}

/-- The bytes of the line of a record that is written at a time. -/
def lineBytes (p : Record × String) : List UInt8 := bytesOf (lineOf p.1 p.2)

/-- The characters of a record that is written at a time. -/
def lineText (p : Record × String) : List Char := (p.1.json p.2).text.toList

theorem ascii_of_visible {cs : List Char} (h : Json.Visible cs) : Text.Ascii cs := by
  intro c hc
  have hle : c.toNat ≤ 126 := UInt32.le_iff_toNat_le.1 (h c hc).2
  omega

theorem not_isLineEnd_of_visible {cs : List Char} (h : Json.Visible cs) :
    ∀ c ∈ cs, Text.isLineEnd c = false := by
  intro c hc
  have hlow : 32 ≤ c.toNat := UInt32.le_iff_toNat_le.1 (h c hc).1
  have hhigh : c.toNat ≤ 126 := UInt32.le_iff_toNat_le.1 (h c hc).2
  have hbefore : ∀ d : Char, d.toNat < 32 → ¬ c ≤ d := fun d hd hle => by
    have := UInt32.le_iff_toNat_le.1 hle
    exact absurd (Nat.le_trans hlow this) (Nat.not_le.2 hd)
  have hother : ∀ d : Char, 126 < d.toNat → c ≠ d := by
    rintro d hd rfl
    omega
  simp [Text.isLineEnd, hbefore, hother]

theorem lineBytes_eq (p : Record × String) :
    lineBytes p = (lineText p ++ ['\n']).map Char.toUInt8 := by
  have htext : (lineOf p.1 p.2).toList = lineText p ++ ['\n'] := by
    rw [lineOf, String.toList_append]
    rfl
  have hascii : Text.Ascii (lineText p ++ ['\n']) :=
    List.forall_mem_append.2 ⟨ascii_of_visible (Json.visible_text _), by simp⟩
  rw [lineBytes, bytesOf, Text.toUTF8_ascii (htext ▸ hascii), htext]

/-- The number of bytes that the lines of records have. -/
def size (ps : List (Record × String)) : Nat := (ps.flatMap lineBytes).length

theorem size_cons (p : Record × String) (ps : List (Record × String)) :
    size (p :: ps) = (lineText p).length + 1 + size ps := by
  rw [size, List.flatMap_cons, List.length_append, lineBytes_eq, List.length_map,
    List.length_append]
  rfl

theorem lineText_ne_blank (p : Record × String) : (lineText p).all Text.isBlank = false := by
  have hopen : "\x7b".toList = ['\x7b'] := rfl
  rw [lineText, json_eq, Json.text, Json.write, String.toList_append, String.toList_append, hopen,
    List.append_assoc, List.singleton_append, List.all_cons]
  rfl

/-- The lines of records are their texts. -/
theorem linesOf_records (ps : List (Record × String)) :
    linesOf (ps.flatMap lineBytes) = ps.map lineText := by
  have hbytes : ps.flatMap lineBytes =
      ((ps.map lineText).flatMap (· ++ ['\n'])).map Char.toUInt8 := by
    rw [List.map_flatMap, List.flatMap_map]
    exact List.flatMap_congr fun p _ => lineBytes_eq p
  have hvisible : ∀ cs ∈ ps.map lineText, Json.Visible cs := by
    intro cs hcs
    obtain ⟨p, -, rfl⟩ := List.mem_map.1 hcs
    exact Json.visible_text _
  have hascii : Text.Ascii ((ps.map lineText).flatMap (· ++ ['\n'])) := by
    intro c hc
    obtain ⟨cs, hcs, hc⟩ := List.mem_flatMap.1 hc
    rcases List.mem_append.1 hc with hc | hc
    · exact ascii_of_visible (hvisible cs hcs) c hc
    · rw [List.mem_singleton.1 hc]
      decide
  rw [linesOf, hbytes, Text.ofUtf8_ascii hascii,
    Text.lines_flatMap fun cs hcs => not_isLineEnd_of_visible (hvisible cs hcs)]
  refine List.filter_eq_self.2 fun cs hcs => ?_
  obtain ⟨p, -, rfl⟩ := List.mem_map.1 hcs
  rw [lineText_ne_blank]
  rfl

theorem lineText_eq (p : Record × String) :
    lineText p = ((recordOf p).write Json.Style.plain).toList := by
  rw [lineText, Json.text, Json.text_eq_write_sorted]
  rfl

theorem refusal?_eq_none_iff {v : Json} :
    refusal? v = none ↔ v.depth ≤ Json.depthLimit ∧ v.all Json.isShort = true := by
  unfold refusal?
  split_ifs with hdepth hshort
  · simp [Nat.not_le.2 hdepth]
  · simp [Nat.not_lt.1 hdepth, hshort]
  · simp [hshort]

theorem read_lineText (hp : refusal? (p.1.json p.2) = none) :
    Json.read (String.ofList (lineText p)) = .ok (readingOf p) := by
  obtain ⟨hdepth, hshort⟩ := refusal?_eq_none_iff.1 hp
  rw [lineText, String.ofList_toList]
  exact Json.read_text hdepth hshort

theorem isObject_readingOf (p : Record × String) : isObject (readingOf p) = true := rfl

/-- **The values on the lines of records** are the records. -/
theorem values_texts (f : Filter) (hps : ∀ p ∈ ps, refusal? (p.1.json p.2) = none) :
    values f (ps.map lineText) =
      .ok ((ps.filter fun p => f.matchesEvent p.1.event).map readingOf) := by
  have hfailure : (ps.map lineText).findSome? (lineFailure? f) = none := by
    refine List.findSome?_eq_none_iff.2 fun line hline => ?_
    obtain ⟨p, hp, rfl⟩ := List.mem_map.1 hline
    rw [lineFailure?, read_lineText (hps p hp)]
    exact failure?_eq_none_iff.2 (.inl (isObject_readingOf p))
  have hvalues : (ps.map lineText).filterMap lineValue? = ps.map readingOf := by
    rw [List.filterMap_map, ← List.filterMap_eq_map]
    refine List.filterMap_congr fun p hp => ?_
    rw [Function.comp_apply, lineValue?, read_lineText (hps p hp)]
    rfl
  rw [values_eq, hfailure, hvalues, List.filter_map]
  simp only [Function.comp_def, wants_readingOf]

/-- What is read where records are looked at and nothing else. -/
theorem recent_of_tail (hfree : l.blocked = false) (htail : l.tail = ps.flatMap lineBytes)
    (hps : ∀ p ∈ ps, refusal? (p.1.json p.2) = none) (f : Filter) (limit : Int) :
    l.recent f limit = .ok (firstOf (min limit maxRead)
      ((ps.filter fun p => f.matchesEvent p.1.event).map readingOf).reverse) := by
  have hlines : l.tailLines = ps.map lineText := by
    rw [← linesOf_records, ← htail]
    rfl
  rw [recent, hfree, hlines, values_texts f hps]
  rfl

/-! ## Writing -/

/-- A log with records at its end, written one after another, each at its time. -/
def writeAll (l : Log) (rs : List (Record × String)) : Except Failure Log :=
  rs.foldlM (fun l p => l.write p.1 p.2) l

/-- What writing a record does: the record can be written, and its line stands at the end. -/
theorem write_eq_ok (h : l.write p.1 p.2 = .ok l') : refusal? (p.1.json p.2) = none ∧
    l.blocked = false ∧ l' = { l with content? := some (l.bytes ++ lineBytes p) } := by
  unfold write at h
  split at h
  · cases h
  next hwritten =>
  unfold append at h
  split at h
  · cases h
  next hfree => exact ⟨hwritten, by simpa using hfree, (Except.ok.inj h).symm⟩

theorem write_of_refusal? (hfree : l.blocked = false) (h : refusal? (p.1.json p.2) = none) :
    l.write p.1 p.2 = .ok { l with content? := some (l.bytes ++ lineBytes p) } := by
  rw [write, h, append, hfree]
  rfl

/-- Records that can be written are written. -/
theorem exists_writeAll (hfree : l.blocked = false)
    (h : ∀ p ∈ rs, refusal? (p.1.json p.2) = none) : ∃ l', l.writeAll rs = .ok l' := by
  induction rs generalizing l with
  | nil => exact ⟨l, rfl⟩
  | cons p rs ih =>
    obtain ⟨hp, hrs⟩ := List.forall_mem_cons.1 h
    rw [writeAll, List.foldlM_cons, write_of_refusal? hfree hp]
    exact ih hfree hrs

/-- What writing records does. -/
theorem writeAll_eq_ok (h : l.writeAll rs = .ok l') : l'.bytes = l.bytes ++ rs.flatMap lineBytes ∧
    l'.tailBytes = l.tailBytes ∧ l'.blocked = l.blocked ∧
    ∀ p ∈ rs, refusal? (p.1.json p.2) = none := by
  induction rs generalizing l with
  | nil =>
    obtain rfl := Except.ok.inj h
    exact ⟨by simp, rfl, rfl, List.forall_mem_nil _⟩
  | cons p rs ih =>
    rw [writeAll, List.foldlM_cons] at h
    cases hfirst : l.write p.1 p.2 with
    | error e =>
      rw [hfirst] at h
      cases h
    | ok l₁ =>
      rw [hfirst] at h
      obtain ⟨hwritten, -, rfl⟩ := write_eq_ok hfirst
      obtain ⟨hbytes, htail, hblocked, hrest⟩ := ih h
      refine ⟨?_, htail, hblocked, List.forall_mem_cons.2 ⟨hwritten, hrest⟩⟩
      rw [hbytes, List.flatMap_cons, ← List.append_assoc]
      rfl

theorem bytes_of_writeAll (hempty : l.bytes = []) (h : l.writeAll rs = .ok l') :
    l'.bytes = rs.flatMap lineBytes := by
  rw [(writeAll_eq_ok h).1, hempty, List.nil_append]

/-- A record without details. -/
def sample (level : Level) (message : String) : Record × String :=
  (⟨1, some "t", { level, type := .gridChanged, message }⟩, "")

theorem refusal?_sample (level : Level) (message : String) :
    refusal? ((sample level message).1.json (sample level message).2) = none := by
  have hone : Json.isShort (.int 1) = true := Json.isShort_of_natAbs_lt (by decide)
  have hdepth : 2 ≤ Json.depthLimit := by decide
  refine refusal?_eq_none_iff.2 ⟨hdepth, ?_⟩
  rw [json_eq]
  simp only [sample, Json.all, Json.allFields, hone]
  simp [Json.isShort, kept, keptFields, Json.all, Json.allFields, ofText?]

theorem recordOf_sample (level : Level) (message : String) : recordOf (sample level message) =
    .object [("context", .object []), ("error_code", .null), ("event_type", .string "grid_changed"),
      ("level", .string level.text), ("message", .string message), ("schema_version", .int 1),
      ("ts", .string "t")] := by
  rw [sample, recordOf_eq]
  simp [kept, keptFields, Json.sorted, Json.sortedFields, ofText?, EventType.text]

/-- The records from the start of whose line to the end a number of bytes stands that passes a
test. -/
def startingIn (fits : Nat → Bool) : List (Record × String) → List (Record × String)
  | [] => []
  | p :: ps => if fits (size (p :: ps)) then p :: startingIn fits ps else startingIn fits ps

/-- The records of a log whose whole lines lie among its last bytes. -/
def whole (n : Int) (rs : List (Record × String)) : List (Record × String) :=
  startingIn (· ≤ n) rs

/-- The records of a log that are looked at: all of them, or those whose lines start behind the
first one of its last bytes. -/
def seen (n : Int) (rs : List (Record × String)) : List (Record × String) :=
  if (size rs : Int) ≤ n then rs else startingIn (· < n) rs

theorem startingIn_of_fits {fits : Nat → Bool} (h : ∀ m ≤ size ps, fits m = true) :
    startingIn fits ps = ps := by
  induction ps with
  | nil => rfl
  | cons p ps ih =>
    have hle : size ps ≤ size (p :: ps) := by
      rw [size_cons]
      omega
    rw [startingIn, if_pos (h _ (Nat.le_refl _)), ih fun m hm => h m (Nat.le_trans hm hle)]

theorem lineFeed_notMem (p : Record × String) : 10 ∉ (lineText p).map Char.toUInt8 := by
  intro h
  obtain ⟨c, hc, hcode⟩ := List.mem_map.1 h
  obtain ⟨hlow, hhigh⟩ := Json.visible_text _ c hc
  have hlow : 32 ≤ c.toNat := UInt32.le_iff_toNat_le.1 hlow
  have hhigh : c.toNat ≤ 126 := UInt32.le_iff_toNat_le.1 hhigh
  have hbyte : c.toNat % 256 = 10 := congrArg UInt8.toNat hcode
  omega

/-- From the first line start among the last bytes of the lines of records on, these are the lines
of the records whose lines start behind the first of those bytes. -/
theorem fromLineStart_drop {n : Nat} (hn : n ≤ size ps) :
    fromLineStart ((ps.flatMap lineBytes).drop (size ps - n)) =
      (startingIn (fun m => (m : Int) < n) ps).flatMap lineBytes := by
  induction ps with
  | nil => rw [List.flatMap_nil, List.drop_nil]; rfl
  | cons p ps ih =>
    have hsize := size_cons p ps
    have hline : lineBytes p = (lineText p).map Char.toUInt8 ++ [10] := by
      rw [lineBytes_eq, List.map_append]
      rfl
    rw [startingIn, if_neg (by simp; omega), List.flatMap_cons, hline]
    rcases Nat.lt_or_ge (size ps) n with hlt | hge
    · -- the last bytes start within the line of the first record, which is skipped
      have hall : startingIn (fun m => (m : Int) < n) ps = ps :=
        startingIn_of_fits fun m hm => by simp; omega
      have hdrop : size (p :: ps) - n ≤ ((lineText p).map Char.toUInt8).length := by
        rw [List.length_map]
        omega
      rw [hall, List.append_assoc, List.singleton_append, List.drop_append_of_le_length hdrop,
        fromLineStart_append fun h => lineFeed_notMem p (List.mem_of_mem_drop h)]
    · have hlength : ((lineText p).map Char.toUInt8 ++ [10]).length = (lineText p).length + 1 := by
        rw [List.length_append, List.length_map]
        rfl
      have hdrop : size (p :: ps) - n = (lineText p).length + 1 + (size ps - n) := by omega
      rw [hdrop, ← hlength, List.drop_append, List.drop_of_length_le (by omega), List.nil_append,
        Nat.add_sub_cancel_left]
      exact ih hge

/-- What is looked at of a log of records is the lines of those that are seen. -/
theorem tail_of_records (hbytes : l.bytes = rs.flatMap lineBytes) (hn : 0 ≤ l.tailBytes) :
    l.tail = (seen l.tailBytes rs).flatMap lineBytes := by
  obtain ⟨n, hn⟩ := Int.eq_ofNat_of_zero_le hn
  have hlength : l.bytes.length = size rs := by rw [hbytes, size]
  unfold seen
  by_cases hfits : (size rs : Int) ≤ l.tailBytes
  · have hall : (l.bytes.length : Int) ≤ l.tailBytes := by rwa [hlength]
    rw [if_pos hfits, ← hbytes]
    exact if_pos hall
  · have hlarge : ¬ (l.bytes.length : Int) ≤ l.tailBytes := by rwa [hlength]
    have htail : l.tail = fromLineStart l.window := if_neg hlarge
    have hskip : (l.bytes.length - l.tailBytes).toNat = size rs - n := by omega
    rw [if_neg hfits, htail, window, hskip, hbytes, hn, fromLineStart_drop (by omega)]

theorem startingIn_le (n : Int) (ps : List (Record × String)) :
    startingIn (· ≤ n) ps = startingIn (· < n) ps ∨ ∃ front p,
      ps = front ++ p :: startingIn (· < n) ps ∧
      startingIn (· ≤ n) ps = p :: startingIn (· < n) ps ∧
      (size (p :: startingIn (· < n) ps) : Int) = n := by
  induction ps with
  | nil => exact .inl rfl
  | cons q ps ih =>
    have hsize := size_cons q ps
    rw [startingIn, startingIn]
    simp only [decide_eq_true_eq]
    rcases Int.lt_trichotomy (size (q :: ps)) n with hlt | heq | hgt
    · have hless : startingIn (· < n) ps = ps := startingIn_of_fits fun m hm => by simp; omega
      have hle : startingIn (· ≤ n) ps = ps := startingIn_of_fits fun m hm => by simp; omega
      rw [if_pos (Int.le_of_lt hlt), if_pos hlt, hless, hle]
      exact .inl rfl
    · have hless : startingIn (· < n) ps = ps := startingIn_of_fits fun m hm => by simp; omega
      have hle : startingIn (· ≤ n) ps = ps := startingIn_of_fits fun m hm => by simp; omega
      rw [if_pos (Int.le_of_eq heq), if_neg (by omega), hless, hle]
      exact .inr ⟨[], q, rfl, rfl, heq⟩
    · rw [if_neg (by omega), if_neg (by omega)]
      refine ih.imp_right ?_
      rintro ⟨front, p, hps, hwhole, hn⟩
      exact ⟨q :: front, p, congrArg (q :: ·) hps, hwhole, hn⟩

/-- The records whose whole lines are among the last bytes are seen, but for one whose line starts
with the first of those bytes and is not the first line of the log. -/
theorem whole_eq_seen_or (n : Int) (rs : List (Record × String)) :
    whole n rs = seen n rs ∨ ∃ front p, front ≠ [] ∧ rs = front ++ p :: seen n rs ∧
      whole n rs = p :: seen n rs ∧ (size (p :: seen n rs) : Int) = n := by
  unfold whole seen
  by_cases hfits : (size rs : Int) ≤ n
  · rw [if_pos hfits]
    exact .inl (startingIn_of_fits fun m hm => by simp; omega)
  · rw [if_neg hfits]
    refine (startingIn_le n rs).imp_right ?_
    rintro ⟨front, p, hrs, hwhole, hn⟩
    refine ⟨front, p, ?_, hrs, hwhole, hn⟩
    rintro rfl
    rw [List.nil_append] at hrs
    rw [← hrs] at hn
    exact hfits (Int.le_of_eq hn)

theorem startingIn_sublist (fits : Nat → Bool) (ps : List (Record × String)) :
    (startingIn fits ps).Sublist ps := by
  induction ps with
  | nil => exact List.Sublist.refl _
  | cons p ps ih =>
    rw [startingIn]
    split
    · exact ih.cons_cons p
    · exact ih.cons p

theorem seen_sublist (n : Int) (rs : List (Record × String)) : (seen n rs).Sublist rs := by
  unfold seen
  split
  · exact List.Sublist.refl _
  · exact startingIn_sublist _ _

/-- **The end of a log of records** is read back: reading finds the records that are seen, as they
are read from their lines, the newest first, and nothing else. These are the records whose whole lines are among
the last bytes, but for one whose line starts with the first of those bytes, if other lines come
before it. -/
theorem recent_window (hempty : l.bytes = []) (hfree : l.blocked = false)
    (h : l.writeAll rs = .ok l') (hn : 0 ≤ l'.tailBytes) (limit : Int) :
    l'.recent {} limit =
      .ok (firstOf (min limit maxRead) ((seen l'.tailBytes rs).map readingOf).reverse) ∧
    (whole l'.tailBytes rs = seen l'.tailBytes rs ∨ ∃ front p, front ≠ [] ∧
      rs = front ++ p :: seen l'.tailBytes rs ∧
      whole l'.tailBytes rs = p :: seen l'.tailBytes rs ∧
      (size (p :: seen l'.tailBytes rs) : Int) = l'.tailBytes) := by
  obtain ⟨-, -, hblocked, hwritten⟩ := writeAll_eq_ok h
  have hbytes := bytes_of_writeAll hempty h
  have hseen : ∀ p ∈ seen l'.tailBytes rs, refusal? (p.1.json p.2) = none := fun p hp =>
    hwritten p ((seen_sublist _ _).subset hp)
  have htail := tail_of_records hbytes hn
  have hrecent := recent_of_tail (hblocked.trans hfree) htail hseen {} limit
  have hall : ((seen l'.tailBytes rs).filter fun p => Filter.matchesEvent {} p.1.event) =
    seen l'.tailBytes rs := List.filter_eq_self.2 fun _ _ => rfl
  rw [hall] at hrecent
  exact ⟨hrecent, whole_eq_seen_or _ _⟩

theorem size_samples : size [sample .info "b"] = 131 ∧
    size [sample .info "a", sample .info "b"] = 262 := by
  simp only [size_cons, lineText_eq, recordOf_sample]
  decide +kernel

theorem exists_samples (n : Int) :
    ∃ l', (⟨none, false, n⟩ : Log).writeAll [sample .info "a", sample .info "b"] = .ok l' := by
  refine exists_writeAll rfl ?_
  simp only [List.forall_mem_cons, List.not_mem_nil, false_implies, implies_true, and_true]
  exact ⟨refusal?_sample _ _, refusal?_sample _ _⟩

/-- The last of two records; the last bytes start within the line of the first one. -/
theorem recent_window_within : ∃ l',
    (⟨none, false, 140⟩ : Log).writeAll [sample .info "a", sample .info "b"] = .ok l' ∧
      l'.recent {} 200 = .ok [readingOf (sample .info "b")] := by
  obtain ⟨hone, htwo⟩ := size_samples
  obtain ⟨l', hl'⟩ := exists_samples 140
  have htail : l'.tailBytes = 140 := (writeAll_eq_ok hl').2.1
  have hseen : seen 140 [sample .info "a", sample .info "b"] = [sample .info "b"] := by
    simp [seen, startingIn, hone, htwo]
  obtain ⟨hrecent, -⟩ := recent_window rfl rfl hl' (by rw [htail]; decide) 200
  rw [htail, hseen] at hrecent
  exact ⟨l', hl', hrecent⟩

/-- The line of the last of two records is all of the last bytes, and yet it is not read. -/
theorem not_seen : ∃ l',
    (⟨none, false, 131⟩ : Log).writeAll [sample .info "a", sample .info "b"] = .ok l' ∧
      whole 131 [sample .info "a", sample .info "b"] = [sample .info "b"] ∧
      l'.recent {} 200 = .ok [] := by
  obtain ⟨hone, htwo⟩ := size_samples
  obtain ⟨l', hl'⟩ := exists_samples 131
  obtain ⟨-, htail, hblocked, -⟩ := writeAll_eq_ok hl'
  have hseen : seen 131 [sample .info "a", sample .info "b"] = [] := by
    simp [seen, startingIn, hone, htwo]
  have hnone := tail_of_records (bytes_of_writeAll rfl hl') (by rw [htail]; decide)
  rw [htail, hseen] at hnone
  exact ⟨l', hl', by simp [whole, startingIn, hone, htwo],
    recent_of_tail hblocked hnone (List.forall_mem_nil _) {} 200⟩

end Log

end Spreadsheet.Journal
