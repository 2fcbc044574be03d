import TraceGen.Output.Sinks
import TraceGen.Proofs.Output.Writing
import TraceGen.Proofs.Text.ByteOrder
import TraceGen.Proofs.Text.Splitting
import TraceGen.Text.Blank

/-!
# Reading a performance log back

A performance log is read as a table: its lines, each cut at its commas (`Text.table`). A name or a
key is written as it is, so a comma in it starts a field of its own and a newline a line of its own.
`PerformanceRow.table_text_iff` says that the table of a log consists of the fields of its rows
exactly if no name and no key holds one of these two characters. `PerformanceSink.log_reads_back`
carries this over to what a sink has taken over and counted, and `PerformanceSink.comma_moves_field`
shows two rows with different names and keys and the same line.

The baselines need no condition, as `Decimal.Layout.not_mem_write` lists the characters of a number.
-/

namespace TraceGen

/-! ## The characters of a number -/

namespace Decimal

/-- A character that numbers of a layout are not written with. -/
structure Layout.Lacks (l : Layout) (c : Char) : Prop where
  /-- It is not a digit. -/
  digit : c.isDigit = false
  /-- It is neither the point nor a sign nor the mark of an exponent. -/
  mark : c ∉ ['.', '-', 'e']
  /-- It does not stand in the sign of an exponent that is not negative. -/
  plus : c ∉ l.plus.toList
  /-- It does not stand in the text of infinity. -/
  infinity : c ∉ l.infinity.toList
  /-- It does not stand in the text of a NaN. -/
  nan : c ∉ l.nan.toList

variable {l : Layout} {c : Char}

/-- Zero is a digit. -/
theorem Layout.Lacks.ne_zero (h : l.Lacks c) : c ≠ '0' := by
  rintro rfl
  exact absurd h.digit (by decide)

/-- The point is among the marks. -/
theorem Layout.Lacks.ne_point (h : l.Lacks c) : c ≠ '.' :=
  fun hc => h.mark (hc ▸ List.mem_cons_self)

/-- A natural is written with digits. -/
theorem not_mem_toString (h : c.isDigit = false) (n : Nat) : c ∉ (toString n).toList := by
  intro hmem
  have hdigits : (toString n).toList = Nat.toDigits 10 n := Nat.toList_repr
  rw [hdigits] at hmem
  have hdigit : c.isDigit = true := Nat.isDigit_of_mem_toDigits (by decide) (by decide) hmem
  rw [h] at hdigit
  cases hdigit

/-- Positional digits come with zeros and the point. -/
theorem not_mem_positional (h : l.Lacks c) {digits : List Char} (hdigits : c ∉ digits)
    (pointZero : Bool) (point : Int) : c ∉ positional pointZero digits point := by
  have hzeros (n : Nat) : c ∉ List.replicate n '0' :=
    fun hmem => h.ne_zero (List.eq_of_mem_replicate hmem)
  unfold positional
  split
  · simp only [List.cons_append, List.mem_cons, List.mem_append, not_or]
    exact ⟨h.ne_zero, h.ne_point, hzeros _, hdigits⟩
  · split
    · simp only [List.mem_append, not_or]
      refine ⟨⟨hdigits, hzeros _⟩, ?_⟩
      cases pointZero with
      | false => exact List.not_mem_nil
      | true =>
        show c ∉ ['.', '0']
        simp only [List.mem_cons, List.not_mem_nil, or_false, not_or]
        exact ⟨h.ne_point, h.ne_zero⟩
    · simp only [List.mem_append, List.mem_cons, not_or]
      exact ⟨fun hmem => hdigits (List.mem_of_mem_take hmem), h.ne_point,
        fun hmem => hdigits (List.mem_of_mem_drop hmem)⟩

/-- An exponent comes with its mark, its sign and its digits. -/
theorem not_mem_scientific (h : l.Lacks c) {digits : List Char} (hdigits : c ∉ digits)
    (exponent : Int) : c ∉ scientific l.plus digits exponent := by
  have hmark := h.mark
  simp only [List.mem_cons, List.not_mem_nil, or_false, not_or] at hmark
  obtain ⟨-, hminus, he⟩ := hmark
  have hexponent := not_mem_toString h.digit exponent.natAbs
  have hsign : c ∉ if exponent < 0 then ['-'] else l.plus.toList := by
    split
    · exact fun hmem => hminus (List.mem_singleton.1 hmem)
    · exact h.plus
  unfold scientific
  simp only [List.mem_append, List.mem_cons, not_or]
  refine ⟨⟨?_, he, hsign⟩, hexponent⟩
  split
  · exact fun hmem => h.ne_zero (List.mem_singleton.1 hmem)
  · exact hdigits
  · simp only [List.mem_cons, not_or] at hdigits ⊢
    exact ⟨hdigits.1, h.ne_point, hdigits.2⟩

/-- A number is written with the characters of its layout only. -/
theorem Layout.not_mem_write (h : l.Lacks c) (x : Float) : c ∉ (l.write x).toList := by
  have hminus : c ≠ '-' := by
    rintro rfl
    exact h.mark (by decide)
  have hsign (negative : Bool) {text : List Char} (htext : c ∉ text) :
      c ∉ if negative = true then '-' :: text else text := by
    cases negative with
    | false => exact htext
    | true => exact fun hmem => (List.mem_cons.1 hmem).elim hminus htext
  have hdigits (n : Nat) := not_mem_toString h.digit n
  unfold Layout.write
  split
  · exact h.nan
  · rename_i negative _
    rw [String.toList_append]
    cases negative with
    | false => exact h.infinity
    | true => exact fun hmem => (List.mem_cons.1 hmem).elim hminus h.infinity
  · rename_i negative v _
    rw [String.toList_ofList]
    apply hsign
    split
    · split
      · simp only [List.mem_cons, List.not_mem_nil, or_false, not_or]
        exact ⟨h.ne_zero, h.ne_point, h.ne_zero⟩
      · exact fun hmem => h.ne_zero (List.mem_singleton.1 hmem)
    · unfold Layout.magnitude
      simp only
      split
      · exact not_mem_scientific h (hdigits _) _
      · exact not_mem_positional h (hdigits _) _ _

/-- Measurements hold no comma. -/
theorem measured_lacks_comma : measured.Lacks ',' :=
  ⟨by decide, by decide, by decide, by decide, by decide⟩

/-- Measurements hold no newline. -/
theorem measured_lacks_newline : measured.Lacks '\n' :=
  ⟨by decide, by decide, by decide, by decide, by decide⟩

end Decimal

/-! ## Lines and fields -/

namespace Text

/-- A line holds no newline. -/
theorem not_mem_of_mem_lines {cs line : List Char} (h : line ∈ lines cs) : '\n' ∉ line := by
  have hpiece : line ∈ cs.splitOn '\n' := by
    unfold lines at h
    dsimp only at h
    split at h
    · exact (List.dropLast_sublist _).mem h
    · exact h
  exact fun hmem => (of_mem_splitOn hpiece hmem).2 rfl

/-- Lines that each end in a newline are read back. -/
theorem lines_flatMap {ls : List (List Char)} (h : ∀ line ∈ ls, '\n' ∉ line) :
    lines (ls.flatMap (· ++ ['\n'])) = ls := by
  have hsplit : (ls.flatMap (· ++ ['\n'])).splitOn '\n' = ls ++ [[]] := by
    induction ls with
    | nil => exact List.splitOn_nil _
    | cons line ls ih =>
      have hline : ∀ c ∈ line, (c == '\n') = false := by
        intro c hc
        rw [beq_eq_false_iff_ne]
        rintro rfl
        exact h line List.mem_cons_self hc
      have hjoin (rest : List Char) : (line ++ '\n' :: rest).splitOnP (· == '\n') =
          line.splitOnP (· == '\n') ++ rest.splitOnP (· == '\n') :=
        List.splitOnP_append_cons line rest (beq_self_eq_true '\n')
      have hrest := ih fun line hmem => h line (List.mem_cons_of_mem _ hmem)
      rw [List.splitOn_eq_splitOnP] at hrest ⊢
      rw [List.flatMap_cons, List.append_assoc, List.singleton_append,
        hjoin, List.splitOnP_eq_singleton hline, hrest]
      rfl
  unfold lines
  simp only [hsplit, List.getLast?_concat, if_true, List.dropLast_concat]

/-- A text as a table: its lines, cut at their commas. -/
def table (cs : List Char) : List (List (List Char)) :=
  (lines cs).map (List.splitOn ',')

/-- The bytes of texts that are put together. -/
theorem encode_append (a b : String) : encode (a ++ b) = encode a ++ encode b := by
  unfold encode
  rw [String.toList_append, List.flatMap_append]

end Text

/-! ## Rows -/

namespace PerformanceRow

/-- The fields of a row as they are written. -/
def fields (row : PerformanceRow) : List (List Char) :=
  [row.name.toList, row.key.toList, (Decimal.measured.write row.stat.defaultReward).toList,
    (Decimal.measured.write row.stat.movingAverage).toList]

/-- Neither the name nor the key holds a comma or a newline. -/
def IsPlain (row : PerformanceRow) : Prop :=
  ∀ text ∈ [row.name, row.key], ',' ∉ text.toList ∧ '\n' ∉ text.toList

/-- The text of a log. -/
def text (rows : List PerformanceRow) : String :=
  String.join (rows.map line)

/-- A row is written with commas between its fields. -/
theorem toList_line (row : PerformanceRow) :
    row.line.toList = [','].intercalate row.fields ++ ['\n'] := by
  unfold line
  rw [String.toList_append, String.toList_intercalate]
  rfl

/-- The fields of a plain row hold no separators, and only theirs do not. -/
theorem isPlain_iff (row : PerformanceRow) :
    row.IsPlain ↔ ∀ field ∈ row.fields, ',' ∉ field ∧ '\n' ∉ field := by
  have hnumber (x : Float) : ',' ∉ (Decimal.measured.write x).toList ∧
      '\n' ∉ (Decimal.measured.write x).toList :=
    ⟨Decimal.Layout.not_mem_write Decimal.measured_lacks_comma x,
      Decimal.Layout.not_mem_write Decimal.measured_lacks_newline x⟩
  unfold IsPlain fields
  simp only [List.forall_mem_cons]
  constructor
  · rintro ⟨hname, hkey, -⟩
    exact ⟨hname, hkey, hnumber _, hnumber _, List.forall_mem_nil _⟩
  · rintro ⟨hname, hkey, -⟩
    exact ⟨hname, hkey, List.forall_mem_nil _⟩

/-- A log is made up of lines that each end in a newline. -/
theorem toList_text (rows : List PerformanceRow) :
    (text rows).toList =
      (rows.map fun row => [','].intercalate row.fields).flatMap (· ++ ['\n']) := by
  unfold text
  rw [String.toList_join, List.flatMap_map, List.flatMap_map]
  simp only [toList_line]

/-- The fields tell the names and the keys. -/
theorem map_eq_of_fields_eq {rows rows' : List PerformanceRow}
    (h : rows.map fields = rows'.map fields) :
    (rows.map fun row => (row.name, row.key)) = rows'.map fun row => (row.name, row.key) := by
  have hpair : (fun row => (row.name, row.key)) = (fun cells : List (List Char) =>
      (String.ofList (cells.getD 0 []), String.ofList (cells.getD 1 []))) ∘ fields := by
    funext row
    show (row.name, row.key) = (String.ofList row.name.toList, String.ofList row.key.toList)
    rw [String.ofList_toList, String.ofList_toList]
  rw [hpair, ← List.map_map, h, List.map_map]

/-- A row whose fields hold no newline is written without one, but for its end. -/
theorem not_mem_intercalate {row : PerformanceRow}
    (h : ∀ field ∈ row.fields, ',' ∉ field ∧ '\n' ∉ field) :
    '\n' ∉ [','].intercalate row.fields := by
  unfold fields at h ⊢
  simp only [List.forall_mem_cons] at h
  obtain ⟨hname, hkey, hdefault, haverage, -⟩ := h
  simp only [List.intercalate_cons_cons, List.intercalate_singleton, List.mem_append,
    List.mem_singleton, not_or]
  have hcomma : '\n' ≠ ',' := by decide
  exact ⟨⟨hname.2, hcomma⟩, ⟨hkey.2, hcomma⟩, ⟨hdefault.2, hcomma⟩, haverage.2⟩

/-- The table of a log consists of the fields of the rows exactly if these are plain. -/
theorem table_text_iff (rows : List PerformanceRow) :
    Text.table (text rows).toList = rows.map fields ↔ ∀ row ∈ rows, row.IsPlain := by
  constructor
  · -- What was read as a field holds no separator, and so it is with the fields that were written.
    intro htable row hrow
    rw [isPlain_iff]
    intro field hfield
    have hread : row.fields ∈ Text.table (text rows).toList := htable ▸ List.mem_map_of_mem hrow
    obtain ⟨line, hline, hcut⟩ := List.mem_map.1 hread
    have hpiece : field ∈ line.splitOn ',' := hcut ▸ hfield
    exact ⟨fun hmem => (Text.of_mem_splitOn hpiece hmem).2 rfl,
      fun hmem => Text.not_mem_of_mem_lines hline (Text.of_mem_splitOn hpiece hmem).1⟩
  · intro hplain
    have hfields (row : PerformanceRow) (hrow : row ∈ rows) :=
      row.isPlain_iff.1 (hplain row hrow)
    have hlines : Text.lines (text rows).toList =
        rows.map fun row => [','].intercalate row.fields := by
      rw [toList_text]
      apply Text.lines_flatMap
      intro line hline
      obtain ⟨row, hrow, rfl⟩ := List.mem_map.1 hline
      exact not_mem_intercalate (hfields row hrow)
    unfold Text.table
    rw [hlines, List.map_map]
    apply List.map_congr_left
    intro row hrow
    exact List.splitOn_intercalate ',' (fun field hfield => (hfields row hrow field hfield).1)
      (List.cons_ne_nil _ _)

end PerformanceRow

/-! ## What was written -/

namespace PerformanceSink

open PerformanceRow

/-- Rows that could be written have been taken over as the text of a log, and each was counted. -/
theorem received_of_writeRows {rows : List PerformanceRow} {w w' : PerformanceSink}
    (h : Sinks.writeRows w rows = (.ok (), w')) :
    w'.sink.received = w.sink.received ++ Text.encode (text rows) ∧
      w'.lines = w.lines + rows.length := by
  induction rows generalizing w with
  | nil =>
    cases h
    exact ⟨(List.append_nil _).symm, rfl⟩
  | cons row rows ih =>
    unfold Sinks.writeRows at h
    rcases hrow : w.write row with ⟨result, v⟩
    rw [hrow] at h
    cases result with
    | error e => cases h
    | ok u =>
      obtain ⟨hreceived, hlines⟩ := ih h
      obtain ⟨-, hcount, part, hpart, hfirst⟩ | ⟨hnot, -⟩ := w.wrote_write row hrow
      · rw [List.flatten_nil, List.prefix_nil] at hpart
        rw [hpart, List.append_nil, List.flatten_singleton] at hfirst
        replace hcount : v.lines = w.lines + 1 := hcount
        replace hfirst : v.sink.received = w.sink.received ++ Text.encode row.line := hfirst
        refine ⟨?_, ?_⟩
        · have htext : text (row :: rows) = row.line ++ text rows := by
            unfold text
            rw [List.map_cons, String.join_cons]
          rw [hreceived, hfirst, htext, Text.encode_append, List.append_assoc]
        · rw [hlines, hcount, List.length_cons]
          omega
      · cases hnot

/-- Ending a log passes on all that it has taken over. -/
theorem content_of_close {w w' : PerformanceSink} (h : w.close = (.ok (), w')) :
    w'.sink.content = w.sink.received := by
  unfold close at h
  rcases hclose : w.sink.close with ⟨done, sink⟩
  rw [hclose] at h
  cases done with
  | false => cases h
  | true =>
    cases h
    exact ByteSink.content_of_close hclose

/-- What a log that was written without error says. Its bytes are a text that goes to the device
when the log is closed, and its lines were counted. The table of this text consists of the fields of
the rows exactly if no name and no key holds a comma or a newline. Then each line has four fields,
and the text is that of no other sequence of such names and keys. -/
theorem log_reads_back {sink : ByteSink} {rows : List PerformanceRow} {w : PerformanceSink}
    (hempty : sink.received = []) (hwrite : Sinks.writeRows (.start sink) rows = (.ok (), w)) :
    w.sink.received = Text.encode (text rows) ∧
      (∀ w', w.close = (.ok (), w') → w'.sink.content = Text.encode (text rows)) ∧
      w.lines = rows.length ∧
      (Text.table (text rows).toList = rows.map fields ↔ ∀ row ∈ rows, row.IsPlain) ∧
      ((∀ row ∈ rows, row.IsPlain) →
        (Text.lines (text rows).toList).length = w.lines ∧
          (∀ line ∈ Text.lines (text rows).toList, (line.splitOn ',').length = 4) ∧
          ∀ rows', (∀ row ∈ rows', row.IsPlain) →
            (rows.map fun row => (row.name, row.key)) ≠ (rows'.map fun row => (row.name, row.key)) →
            text rows ≠ text rows') := by
  obtain ⟨hreceived, hlines⟩ := received_of_writeRows hwrite
  replace hreceived : w.sink.received = Text.encode (text rows) := by
    rw [hreceived]
    show sink.received ++ _ = _
    rw [hempty, List.nil_append]
  replace hlines : w.lines = rows.length := by
    rw [hlines]
    exact Nat.zero_add _
  refine ⟨hreceived, fun w' hclose => ?_, hlines, table_text_iff rows, fun hplain => ?_⟩
  · exact (content_of_close hclose).trans hreceived
  · have htable := (table_text_iff rows).2 hplain
    refine ⟨?_, fun line hline => ?_, fun rows' hplain' hne htext => ?_⟩
    · have hlength := congrArg List.length htable
      rw [Text.table, List.length_map, List.length_map] at hlength
      rw [hlength, hlines]
    · have hmem : line.splitOn ',' ∈ rows.map fields := htable ▸ List.mem_map_of_mem hline
      obtain ⟨row, -, hrow⟩ := List.mem_map.1 hmem
      rw [← hrow]
      rfl
    · -- Both sequences can be told from the one table.
      apply hne
      have hfields : rows.map fields = rows'.map fields := by
        rw [← htable, htext]
        exact (table_text_iff rows').2 hplain'
      exact map_eq_of_fields_eq hfields

namespace Sample

/-- A row with baselines that are zero. -/
def row (name key : String) : PerformanceRow :=
  ⟨name, key, ⟨0, 0⟩⟩

end Sample

/-- The log of two modules is read back. -/
theorem log_reads_back_of_two_modules :
    ∃ w, Sinks.writeRows (.start .plain) [Sample.row "lib/a" "main", Sample.row "lib/b" "f"] =
        (.ok (), w) ∧
      w.sink.received = Text.encode "lib/a,main,0.0,0.0\nlib/b,f,0.0,0.0\n" ∧ w.lines = 2 ∧
      Text.table "lib/a,main,0.0,0.0\nlib/b,f,0.0,0.0\n".toList =
        [["lib/a", "main", "0.0", "0.0"].map String.toList,
          ["lib/b", "f", "0.0", "0.0"].map String.toList] := by
  have hplain : ∀ row ∈ [Sample.row "lib/a" "main", Sample.row "lib/b" "f"], row.IsPlain := by
    unfold PerformanceRow.IsPlain
    decide +kernel
  have htext : text [Sample.row "lib/a" "main", Sample.row "lib/b" "f"] =
      "lib/a,main,0.0,0.0\nlib/b,f,0.0,0.0\n" := by
    decide +kernel
  have hfields : [Sample.row "lib/a" "main", Sample.row "lib/b" "f"].map fields =
      [["lib/a", "main", "0.0", "0.0"].map String.toList,
        ["lib/b", "f", "0.0", "0.0"].map String.toList] := by
    decide +kernel
  obtain ⟨hreceived, -, hlines, hiff, -⟩ :=
    @log_reads_back .plain [Sample.row "lib/a" "main", Sample.row "lib/b" "f"] _ rfl rfl
  rw [htext] at hreceived hiff
  exact ⟨_, rfl, hreceived, hlines, (hiff.2 hplain).trans hfields⟩

/-- A comma in a name makes a line of five fields, which is also that of another name and key. -/
theorem comma_moves_field :
    ∃ w, Sinks.writeRows (.start .plain) [Sample.row "a,b" "c"] = (.ok (), w) ∧
      w.sink.received = Text.encode (text [Sample.row "a,b" "c"]) ∧
      (Text.table (text [Sample.row "a,b" "c"]).toList).map List.length = [5] ∧
      text [Sample.row "a,b" "c"] = text [Sample.row "a" "b,c"] := by
  refine ⟨_, rfl, ?_, ?_, ?_⟩ <;> decide +kernel

end PerformanceSink

end TraceGen
