import JsxControl.Complaint
import JsxControl.Proofs.Outcome
import Mathlib.Data.Int.Order.Basic

/-!
# Carets under a source

A complaint is shown with the lines of the source that its place covers, and with carets at the
columns of the first of these lines that belong to the place. The line of carets stands below the
last line that is quoted: below the line that it marks only if the place does not go on to another
line.
-/

namespace JsxControl

open Complaint

/-! ### Stretches of a text -/

/-- A stretch of a text, from a column of a line to just before a column of a line. Lines count from
one, columns from zero. -/
structure Stretch where
  firstLine : ℕ
  firstColumn : ℕ
  lastLine : ℕ
  endColumn : ℕ

namespace Stretch

/-- A place tells of a stretch. -/
structure Placed (t : Stretch) (place : Location) : Prop where
  firstLine : place.start.line.int? = some (t.firstLine : ℤ)
  firstColumn : place.start.column.int? = some (t.firstColumn : ℤ)
  lastLine : place.stop.line.int? = some (t.lastLine : ℤ)
  endColumn : place.stop.column.int? = some (t.endColumn : ℤ)

/-- A stretch lies in some lines and is not empty; it starts before the end of the line `first` and
ends in the line `last`. -/
structure Inside (t : Stretch) (lines : List String) (first last : String) : Prop where
  pos : 0 < t.firstLine
  le : t.firstLine ≤ t.lastLine
  firstLine : lines[t.firstLine - 1]? = some first
  lastLine : lines[t.lastLine - 1]? = some last
  firstColumn : t.firstColumn < first.length
  endColumn : t.endColumn ≤ last.length
  nonempty : t.firstLine = t.lastLine → t.firstColumn < t.endColumn

/-- A column of the first line of a stretch belongs to it. -/
abbrev Marks (t : Stretch) (first : String) (column : ℕ) : Prop :=
  t.firstColumn ≤ column ∧ column < first.length ∧
    (t.firstLine = t.lastLine → column < t.endColumn)

/-- Just behind the columns of the first line that belong to a stretch. -/
def marksEnd (t : Stretch) (first : String) : ℕ :=
  if t.firstLine = t.lastLine then t.endColumn else first.length

variable {t : Stretch} {place : Location} {lines : List String} {first last : String}

lemma Inside.first_eq_last (h : t.Inside lines first last) (hline : t.firstLine = t.lastLine) :
    first = last := by
  have hlast := h.lastLine
  rw [← hline, h.firstLine] at hlast
  exact Option.some.inj hlast

lemma Inside.firstColumn_lt (h : t.Inside lines first last) : t.firstColumn < t.marksEnd first := by
  rw [marksEnd]
  split_ifs with hline
  · exact h.nonempty hline
  · exact h.firstColumn

lemma Inside.marksEnd_le (h : t.Inside lines first last) : t.marksEnd first ≤ first.length := by
  rw [marksEnd]
  split_ifs with hline
  · rw [h.first_eq_last hline]
    exact h.endColumn
  · exact Nat.le_refl _

lemma Inside.marks_iff (h : t.Inside lines first last) (k : ℕ) :
    t.Marks first k ↔ t.firstColumn ≤ k ∧ k < t.marksEnd first := by
  have hle := h.marksEnd_le
  rw [marksEnd] at hle ⊢
  split_ifs at hle ⊢ with hline
  · simp only [Marks, hline, forall_const]
    omega
  · simp [Marks, hline]

end Stretch

/-! ### Rows -/

namespace Json

variable {json : Json} {n : ℤ}

lemma toInt_eq_ok (h : json.int? = some n) : json.toInt = .ok n := by
  rw [toInt, h]

lemma toSize_eq_ok (h : json.int? = some n) (hlow : -0x8000000000000000 ≤ n)
    (hhigh : n < 0x8000000000000000) : json.toSize = .ok n := by
  rw [toSize, toInt_eq_ok h, ok_bind, if_pos ⟨hlow, hhigh⟩, pure_eq_ok]

end Json

namespace Complaint

variable {t : Stretch} {place : Location} {lines : List String} {first last : String}

/-- A line of the source is no longer than the source. -/
lemma length_le_of_mem_linesOf {source line : String} (h : line ∈ linesOf source) :
    line.length ≤ source.length := by
  have hparts (cs : List Char) : ∀ part ∈ Text.splitAt '\n' cs, part.length ≤ cs.length := by
    induction cs with
    | nil => simp [Text.splitAt]
    | cons c cs ih =>
      rw [Text.splitAt]
      split_ifs
      · exact List.forall_mem_cons.mpr
          ⟨by simp, fun part hpart => by simpa using (ih part hpart).step⟩
      · cases hsplit : Text.splitAt '\n' cs with
        | nil => simp
        | cons part parts =>
          rw [hsplit, List.forall_mem_cons] at ih
          exact List.forall_mem_cons.mpr
            ⟨by simpa using ih.1, fun part hpart => by simpa using (ih.2 part hpart).step⟩
  obtain ⟨part, hpart, rfl⟩ := List.mem_map.mp h
  simpa [← String.length_toList] using hparts source.toList part hpart

/-- The lines of the source that a complaint quotes. -/
lemma slice_lines (h : t.Inside lines first last) :
    Index.slice lines ((t.firstLine : ℤ) - 1) t.lastLine =
      (lines.take t.lastLine).drop (t.firstLine - 1) := by
  have hlength : t.lastLine - 1 < lines.length := (List.getElem?_eq_some_iff.mp h.lastLine).1
  have hpos := h.pos
  have hle := h.le
  have hstart : ((t.firstLine : ℤ) - 1) = ((t.firstLine - 1 : ℕ) : ℤ) := by omega
  rw [Index.slice, hstart, Index.gap_natCast (by omega), Index.gap_natCast (by omega)]

/-- The first of the lines that are quoted. -/
lemma drop_take_eq_cons (h : t.Inside lines first last) :
    (lines.take t.lastLine).drop (t.firstLine - 1) =
      first :: (lines.take t.lastLine).drop t.firstLine := by
  have hpos := h.pos
  have hle := h.le
  obtain ⟨hlength, hfirst⟩ := List.getElem?_eq_some_iff.mp h.firstLine
  rw [List.drop_eq_getElem_cons (by rw [List.length_take]; omega), List.getElem_take, hfirst,
    Nat.sub_add_cancel hpos]

/-- Blanks up to a column, and carets up to another. -/
def carets (start stop : ℕ) : String :=
  String.ofList (List.replicate start ' ' ++ List.replicate (stop - start) '^')

lemma getElem?_carets (start stop k : ℕ) : (carets start stop).toList[k]? =
    if start ≤ k ∧ k < stop then some '^' else if k < start then some ' ' else none := by
  simp only [carets, String.toList_ofList, List.getElem?_append, List.length_replicate,
    List.getElem?_replicate]
  split_ifs <;> first | rfl | omega

lemma columnsTo_eq_ok {stop : Json} {column end_ : ℤ} (h : stop.int? = some end_) :
    columnsTo column stop = .ok (max (end_ - column) 1) := by
  unfold columnsTo
  split
  · simp [Json.int?] at h
  · rw [Json.toInt_eq_ok h]
    rfl

/-- The line of carets under a stretch. -/
lemma caretLine_eq_ok (hplaced : t.Placed place) (h : t.Inside lines first last)
    (hsize : first.length < 0x8000000000000000) :
    caretLine lines place = .ok (carets t.firstColumn (t.marksEnd first)) := by
  have hlt := h.firstColumn_lt
  have hle := h.marksEnd_le
  have hpos := h.pos
  have hblanks : place.start.column.toSize = .ok t.firstColumn :=
    Json.toSize_eq_ok hplaced.firstColumn (by omega) (by omega)
  have hcarets : (Json.int ((t.marksEnd first : ℤ) - t.firstColumn)).toSize =
      .ok ((t.marksEnd first : ℤ) - t.firstColumn) :=
    Json.toSize_eq_ok rfl (by omega) (by omega)
  have hindex : Index.resolve? lines.length ((t.firstLine : ℤ) - 1) = some (t.firstLine - 1) := by
    have hlength := (List.getElem?_eq_some_iff.mp h.firstLine).1
    have hcast : ((t.firstLine : ℤ) - 1) = ((t.firstLine - 1 : ℕ) : ℤ) := by omega
    rw [Index.resolve?_eq_some_iff, hcast, Index.fromStart_natCast]
    exact ⟨rfl, hlength⟩
  have hline : onOneLine place = true ↔ t.firstLine = t.lastLine := by
    simp only [onOneLine, hplaced.firstLine, hplaced.lastLine, decide_eq_true_eq,
      Option.some.injEq]
    omega
  have hwritten : String.ofList (List.replicate (t.firstColumn : ℤ).toNat ' ' ++
      List.replicate ((t.marksEnd first : ℤ) - t.firstColumn).toNat '^') =
      carets t.firstColumn (t.marksEnd first) := by
    rw [carets, Int.toNat_natCast, Int.toNat_sub]
  unfold caretLine
  rw [Json.toInt_eq_ok hplaced.firstColumn, Json.toInt_eq_ok hplaced.firstLine, hblanks]
  simp only [ok_bind]
  split_ifs with hsame
  · have hend : t.marksEnd first = t.endColumn := if_pos (hline.mp hsame)
    rw [columnsTo_eq_ok hplaced.endColumn, ok_bind, ← hend, max_eq_left (by omega), hcarets,
      ok_bind, hwritten]
    rfl
  · have hend : t.marksEnd first = first.length := if_neg (mt hline.mpr hsame)
    rw [hindex, Option.bind_some, h.firstLine]
    simp only [pure_eq_ok, ok_bind]
    rw [← hend, max_eq_left (by omega), hcarets, ok_bind, hwritten]

/-- Where a place starts is shown if its line and its column are integers. -/
lemma exists_text (hplaced : t.Placed place) : ∃ point, place.start.text = .ok point := by
  have hnext : ∃ next, place.start.column.next = .ok next := by
    unfold Json.next
    split
    · exact ⟨_, rfl⟩
    · rw [Json.toInt_eq_ok hplaced.firstColumn]
      exact ⟨_, rfl⟩
  obtain ⟨next, hnext⟩ := hnext
  exact ⟨place.start.line.shown ++ ":" ++ next.shown, by rw [Position.text, hnext]; rfl⟩

/-- The rows of a complaint that is shown under a source. -/
lemma render_eq_ok {c : Complaint} (hplace : c.place = some place) {source : String}
    (hplaced : t.Placed place) (h : t.Inside (linesOf source) first last)
    (hsize : source.length < 0x8000000000000000) (filename : String) :
    ∃ point, place.start.text = .ok point ∧ c.render source filename =
      .ok ("\n".intercalate (("Rewrite error on line " ++ filename ++ ":" ++ point ++ ":") ::
        ((linesOf source).take t.lastLine).drop (t.firstLine - 1) ++
          [carets t.firstColumn (t.marksEnd first), c.message])) := by
  obtain ⟨point, hpoint⟩ := exists_text hplaced
  refine ⟨point, hpoint, ?_⟩
  have hfirst : first.length < 0x8000000000000000 :=
    Nat.lt_of_le_of_lt (length_le_of_mem_linesOf (List.mem_of_getElem? h.firstLine)) hsize
  have hlast : lastLine (linesOf source) place.stop.line = .ok t.lastLine := by
    unfold lastLine
    split
    · next hnull => simpa [hnull, Json.int?] using hplaced.lastLine
    · exact Json.toInt_eq_ok hplaced.lastLine
  rw [render, hplace]
  simp only [hpoint, Json.toInt_eq_ok hplaced.firstLine, hlast, slice_lines h,
    caretLine_eq_ok hplaced h hfirst, ok_bind, pure_eq_ok]
  have hquoted : ((linesOf source).take t.lastLine).drop (t.firstLine - 1) ≠ [] := by
    rw [drop_take_eq_cons h]
    simp
  rw [List.cons_append, String.intercalate_cons_of_ne_nil (by simp),
    String.intercalate_append_of_ne_nil hquoted (by simp), String.intercalate_cons_cons,
    String.intercalate_singleton]
  simp [String.append_assoc]

/-- A complaint that is shown under a source quotes the lines of its place, and marks the columns of
the first of them that belong to the place. Below this line stands the line of carets if the place
does not go on to another line, or if the next line of the source looks like it. -/
theorem render_marks_place {c : Complaint} (hplace : c.place = some place) {source : String}
    (hplaced : t.Placed place) (h : t.Inside (linesOf source) first last)
    (hsize : source.length < 0x8000000000000000) (filename : String) :
    ∃ point line rows, place.start.text = .ok point ∧
      c.render source filename = .ok ("\n".intercalate rows) ∧
      rows = ("Rewrite error on line " ++ filename ++ ":" ++ point ++ ":") ::
        ((linesOf source).take t.lastLine).drop (t.firstLine - 1) ++ [line, c.message] ∧
      rows[1]? = some first ∧
      (∀ k, line.toList[k]? =
        if t.Marks first k then some '^' else if k < t.firstColumn then some ' ' else none) ∧
      (rows[2]? = some line ↔
        t.firstLine = t.lastLine ∨ (linesOf source)[t.firstLine]? = some line) := by
  obtain ⟨point, hpoint, hrender⟩ := render_eq_ok hplace hplaced h hsize filename
  refine ⟨point, _, _, hpoint, hrender, rfl, ?_, ?_, ?_⟩
  · rw [drop_take_eq_cons h]
    rfl
  · intro k
    simp only [getElem?_carets, h.marks_iff]
  · rw [drop_take_eq_cons h]
    rcases Nat.lt_or_eq_of_le h.le with hlt | heq
    · have hlength := (List.getElem?_eq_some_iff.mp h.lastLine).1
      have hinside : t.firstLine < (linesOf source).length := by omega
      rw [List.drop_eq_getElem_cons (i := t.firstLine) (by rw [List.length_take]; omega)]
      simp [Nat.ne_of_lt hlt, List.getElem?_eq_getElem hinside]
    · rw [List.drop_eq_nil_of_le (by rw [List.length_take]; omega)]
      simp [heq]

/-- A complaint about a tag and what is on the line below it. -/
def twoLines : Complaint where
  rule := .orphanChainContinuation
  message := "no"
  place := some { start := { line := .int 1, column := .int 2 },
                  stop := { line := .int 2, column := .int 1 } }

/-- The source of `twoLines`. -/
def twoLinesSource : String := "a <$else>\nB</$else>"

/-- The stretch that `twoLines` is about. -/
def twoLinesStretch : Stretch := ⟨1, 2, 2, 1⟩

/-- Under two lines the carets are not below the line that they mark. -/
theorem twoLines_marked_below :
    (∃ place, twoLines.place = some place ∧ twoLinesStretch.Placed place) ∧
    twoLinesStretch.Inside (linesOf twoLinesSource) "a <$else>" "B</$else>" ∧
    twoLinesSource.length < 0x8000000000000000 ∧
    twoLines.render twoLinesSource "in" =
      .ok "Rewrite error on line in:1:3:\na <$else>\nB</$else>\n  ^^^^^^^\nno" ∧
    ∃ (line : String) (rows : List String),
      twoLines.render twoLinesSource "in" = .ok ("\n".intercalate rows) ∧
      rows[1]? = some "a <$else>" ∧ line.toList[2]? = some '^' ∧ rows[2]? ≠ some line := by
  have hplaced : twoLinesStretch.Placed
      { start := { line := .int 1, column := .int 2 },
        stop := { line := .int 2, column := .int 1 } } := ⟨rfl, rfl, rfl, rfl⟩
  have hinside : twoLinesStretch.Inside (linesOf twoLinesSource) "a <$else>" "B</$else>" := by
    constructor <;> decide
  have hsize : twoLinesSource.length < 0x8000000000000000 := by decide
  have hwritten : twoLines.render twoLinesSource "in" =
      .ok "Rewrite error on line in:1:3:\na <$else>\nB</$else>\n  ^^^^^^^\nno" := by
    rfl
  obtain ⟨point, line, rows, -, hrender, -, hfirst, hline, hbelow⟩ :=
    render_marks_place (c := twoLines) rfl hplaced hinside hsize "in"
  have hcaret : line.toList[2]? = some '^' := by
    rw [hline]
    rfl
  refine ⟨⟨_, rfl, hplaced⟩, hinside, hsize, hwritten, line, rows, hrender, hfirst, hcaret, ?_⟩
  intro h
  rcases hbelow.mp h with hsame | hnext
  · exact absurd hsame (by decide)
  · obtain rfl : "B</$else>" = line := Option.some.inj hnext
    exact absurd hcaret (by decide)

end Complaint

end JsxControl
