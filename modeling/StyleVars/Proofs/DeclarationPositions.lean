import StyleVars.Proofs.Addresses
import StyleVars.Proofs.StatementSpans
import Mathlib.Data.List.DropRight

/-!
# Positions of declarations

The line and the column of a position are told by the text in front of it: by its line feeds and by
what follows the last one of them (`Position.ofOffset_eq`). A declaration starts where its statement
does, and from there on the text goes on with its name, a colon and its expression
(`Declaration.StandsIn`), so that the positions of the declarations of a text go up.
-/

namespace StyleVars

/-! ## Lines and columns -/

/-- The line that a text ends in: what follows its last line feed, if it has any. -/
def Text.lastLine (t : Text) : Text := t.rtakeWhile fun c => c ≠ '\n'

theorem Text.lastLine_concat (t : Text) (c : CodePoint) :
    lastLine (t ++ [c]) = if c = '\n' then [] else lastLine t ++ [c] := by
  rw [lastLine, List.rtakeWhile_concat]
  by_cases hc : c = '\n' <;> simp [hc, lastLine]

namespace Position

theorem after_eq_foldl (p : Position) (count : Nat) (t : Text) :
    p.after count t = (t.take count).foldl next p := by
  induction t generalizing p count with
  | nil => simp only [after, List.take_nil, List.foldl_nil]
  | cons c rest ih =>
    cases count with
    | zero => rfl
    | succ count => exact ih (p.next c) count

theorem foldl_next (t : Text) :
    t.foldl next start =
      ⟨1 + t.count (.char '\n'), 1 + (Text.lastLine t).length, t.length⟩ := by
  induction t using List.reverseRecOn with
  | nil => rfl
  | append_singleton t c ih =>
    rw [List.foldl_append, ih, Text.lastLine_concat, List.count_append, List.length_append]
    by_cases hc : c = '\n'
    · simp [next, hc, Nat.add_assoc]
    · have hcount : List.count (.char '\n') [c] = 0 :=
        List.count_eq_zero.mpr (by simpa using Ne.symm hc)
      simp [next, hc, hcount, Nat.add_assoc]

/-- The line of an offset is told by the line feeds in front of it, and its column by what follows
the last one of them. -/
theorem ofOffset_eq {text : Text} {cursor : Nat} (h : cursor ≤ text.length) :
    ofOffset text cursor =
      ⟨1 + (text.take cursor).count (.char '\n'), 1 + (Text.lastLine (text.take cursor)).length,
        cursor⟩ := by
  rw [ofOffset, after_eq_foldl, foldl_next, List.length_take, Nat.min_eq_left h]

end Position

/-! ## What a declaration takes from its statement -/

/-- A declaration is its name, a colon behind some white space, and a value. -/
theorem eq_append_of_declared? {t name value : Text} (h : declared? t = some (name, value)) :
    ∃ gap, t = name ++ (gap ++ CodePoint.char ':' :: value) ∧ ∀ c ∈ gap, isBlank c := by
  unfold declared? at h
  split at h
  · rename_i rest
    simp only at h
    split_ifs at h with hstart
    split at h
    · rename_i colon hcolon
      simp only [Option.some.injEq, Prod.mk.injEq] at h
      obtain ⟨rfl, rfl⟩ := h
      refine ⟨(rest.dropWhile isNameChar).takeWhile isBlank, ?_,
        List.all_eq_true.mp List.all_takeWhile⟩
      rw [← hcolon, List.takeWhile_append_dropWhile, List.cons_append,
        List.takeWhile_append_dropWhile]
    · exact nomatch h
  · exact nomatch h

/-- An expression stands in the value behind some white space. -/
theorem eq_append_of_readFlags (value : Text) :
    ∃ lead behind, value = lead ++ ((readFlags value).1 ++ behind) ∧ ∀ c ∈ lead, isBlank c := by
  obtain ⟨lead, gap, hvalue, hlead, -⟩ := Text.exists_strip value
  obtain ⟨dropped, hdropped, -⟩ :=
    readFlags_spec value (c := ';') (by decide) (by decide) (by decide)
  refine ⟨lead, dropped ++ gap, ?_, hlead⟩
  rw [← List.append_assoc (readFlags value).1, ← hdropped]
  exact hvalue

/-! ## Declarations in their places -/

/-- The place of a declaration in a text. From its position on, the text goes on with its name, a
colon and its expression, with nothing but white space between them. -/
structure Declaration.StandsIn (text : Text) (d : Declaration) : Prop where
  dollar : text[d.position.cursor]? = some (.char '$')
  line_eq : d.position.line = 1 + (text.take d.position.cursor).count (.char '\n')
  column_eq : d.position.column = 1 + (Text.lastLine (text.take d.position.cursor)).length
  written : ∃ gap lead behind, (∀ c ∈ gap, isBlank c) ∧ (∀ c ∈ lead, isBlank c) ∧
    text.drop d.position.cursor =
      d.name ++ (gap ++ CodePoint.char ':' :: (lead ++ (d.expression ++ behind)))

section Declarations

variable {text : Text} {s : Statement} {d : Declaration}

/-- A declaration is at the start of its statement. -/
theorem Statement.StandsIn.position_eq (h : s.StandsIn text) (hd : s.declaration? text = some d) :
    d.position = ⟨1 + (text.take s.start).count (.char '\n'),
      1 + (Text.lastLine (text.take s.start)).length, s.start⟩ := by
  obtain ⟨-, -, -, hposition⟩ := Statement.declaration?_spec hd
  exact hposition.trans
    (Position.ofOffset_eq ((Nat.le_of_lt h.start_lt_stop).trans h.stop_le))

theorem Statement.StandsIn.declaration (h : s.StandsIn text) (hd : s.declaration? text = some d) :
    d.StandsIn text := by
  obtain ⟨value, hdeclared, hflags, -⟩ := Statement.declaration?_spec hd
  obtain ⟨gap, htext, hgap⟩ := eq_append_of_declared? hdeclared
  obtain ⟨lead, dropped, hvalue, hlead⟩ := eq_append_of_readFlags value
  obtain ⟨behind, hdrop⟩ := h.drop_start
  rw [hflags] at hvalue
  have hwritten : text.drop s.start =
      d.name ++ (gap ++ CodePoint.char ':' :: (lead ++ (d.expression ++ (dropped ++ behind)))) := by
    rw [hdrop, htext, hvalue]
    simp only [List.append_assoc, List.cons_append]
  have hposition := h.position_eq hd
  refine ⟨?_, ?_, ?_, ?_⟩ <;> rw [hposition]
  · obtain ⟨name, hname, -⟩ := declared?_name hdeclared
    rw [← List.head?_drop, hwritten, hname]
    rfl
  · exact ⟨gap, lead, dropped ++ behind, hgap, hlead, hwritten⟩

end Declarations

/-- The declarations of every text stand where they are said to, the next one always further on. -/
theorem standsIn_declarations (text : Text) :
    (∀ d ∈ declarations text, d.StandsIn text) ∧
      (declarations text).Pairwise fun d e => d.position.cursor < e.position.cursor := by
  constructor
  · intro d hd
    obtain ⟨s, hs, hdeclaration⟩ := List.mem_filterMap.mp hd
    exact (standsIn_of_mem_statements hs).declaration hdeclaration
  · -- a statement starts before it stops, and so before the next one starts
    have hstarts : (statements text).Pairwise fun s t =>
        s.StandsIn text ∧ t.StandsIn text ∧ s.start < t.start :=
      (pairwise_statements text).imp_of_mem fun hs ht hle =>
        ⟨standsIn_of_mem_statements hs, standsIn_of_mem_statements ht,
          (standsIn_of_mem_statements hs).start_lt_stop.trans_le hle⟩
    refine hstarts.filterMap _ fun s t ⟨hs, ht, hlt⟩ d hd e he => ?_
    rw [hs.position_eq hd, ht.position_eq he]
    exact hlt

/-- A comment, a string, parentheses and an interpolation hold what would end a declaration. Of the
declarations in the block, one is for the whole style sheet. -/
def scatteredDeclarations : Text :=
  ("$a : 1 !DEFAULT;/* $b: 2;\n */ .c \x7b $d:\n  (e; '\x7d') !global; $f: 3 \x7d\n" ++
    "// :\n\n\t$g: #\x7bh\x7d").toText

theorem standsIn_scatteredDeclarations :
    ((declarations scatteredDeclarations).map fun d =>
        (d.name, d.expression, d.position.line, d.position.column, d.position.cursor)) =
      [("$a".toText, "1".toText, 1, 1, 0), ("$d".toText, "(e; '\x7d')".toText, 2, 10, 35),
        ("$g".toText, "#\x7bh\x7d".toText, 6, 2, 74)] ∧
    (declarations scatteredDeclarations).Pairwise
      (fun d e => d.position.cursor < e.position.cursor) ∧
    ∀ d ∈ declarations scatteredDeclarations, d.StandsIn scatteredDeclarations := by
  obtain ⟨hstands, happart⟩ := standsIn_declarations scatteredDeclarations
  exact ⟨by decide +kernel, happart, hstands⟩

end StyleVars
