import StyleVars.Proofs.WrittenStatements

/-!
# Style sheets as trees

A style sheet is a tree of clauses and blocks (`Sheet`). However it is written, with white space and
comments between its clauses and with or without a semicolon behind the last one of a block
(`Sheet.Written`), the reader finds its declarations and its imports. Only between a header that
ends with a number sign and the brace behind it there has to be white space.
-/

namespace StyleVars

namespace Scanner

/-! ## What the reader finds -/

/-- The reader comes from `s` to `s'` over a text that is followed by `next`, and the statements
closed within the text are read as `readings`. -/
structure Finds (s : Scanner) (next : Option CodePoint) (t : Text) (s' : Scanner)
    (readings : List Reading) : Prop where
  advance : s.advance next t = s'
  closedIn : (s.closedIn next t).map Statement.reading = readings

theorem Reads.finds {s s' : Scanner} {next : Option CodePoint} {t : Text}
    (h : s.Reads next t s') : s.Finds next t s' [] :=
  ⟨h.advance, by rw [h.closedIn, List.map_nil]⟩

namespace Finds

variable {s s' s'' : Scanner} {next : Option CodePoint} {a b : Text} {qs rs : List Reading}

theorem append (ha : s.Finds (b.head?.or next) a s' qs) (hb : s'.Finds next b s'' rs) :
    s.Finds next (a ++ b) s'' (qs ++ rs) := by
  constructor
  · rw [advance_append, ha.advance, hb.advance]
  · rw [closedIn_append, ha.advance, List.map_append, ha.closedIn, hb.closedIn]

theorem cons {c : CodePoint} {found : List Statement}
    (hc : s.step c (b.head?.or next) = (s', found)) (hb : s'.Finds next b s'' rs) :
    s.Finds next (c :: b) s'' (found.map Statement.reading ++ rs) := by
  constructor
  · rw [Scanner.advance, hc, hb.advance]
  · rw [Scanner.closedIn, hc, List.map_append, hb.closedIn]

end Finds

/-- The open statement, when it has any text. -/
def held (s : Scanner) : List Reading :=
  if s.heldText = [] then [] else [⟨s.heldText, s.blocks.length, s.blocks.all id⟩]

theorem map_emit (s : Scanner) (stop : Nat) : (s.emit stop).map Statement.reading = s.held := by
  unfold emit held heldText
  cases s.pending with
  | none => rfl
  | some p =>
    simp only
    split_ifs <;> rfl

theorem heldText_opened (s : Scanner) : s.opened.heldText = s.heldText := by
  cases hp : s.pending with
  | none => simp [heldText, hp, Text.strip, Text.trimEnds]
  | some p => rw [opened_eq_self (by simp [hp])]

theorem held_opened (s : Scanner) : s.opened.held = s.held := by
  rw [held, heldText_opened]
  rfl

/-- The reader is in code outside of parentheses, inside of the given blocks, and `text` is what it
holds of the open statement. -/
structure Holds (s : Scanner) (blocks : List Bool) (text : Text) : Prop where
  mode : ∃ b, s.mode = .code b
  parens : s.parens = 0
  blocks : s.blocks = blocks
  text : s.heldText = text

namespace Holds

variable {s : Scanner} {blocks : List Bool} {text : Text}

theorem between (offset : Nat) (blocks : List Bool) :
    (Scanner.between offset blocks).Holds blocks [] :=
  ⟨⟨false, rfl⟩, rfl, rfl, rfl⟩

/-- A semicolon closes what is held. -/
theorem semicolon (h : s.Holds blocks text) (next : Option CodePoint) :
    s.step ';' next = (.between (s.offset + 1) blocks, s.opened.emit (s.offset + 1)) := by
  obtain ⟨b, hb⟩ := h.mode
  rw [step_of_visible hb (by decide) (by decide)]
  simp [readCode, closed, Scanner.between, h.parens, h.blocks]

/-- What is held before an opening brace is the header of the block. -/
theorem opens (h : s.Holds blocks text) (next : Option CodePoint) :
    s.step '\x7b' next = (.between (s.offset + 1) (alwaysRun text :: blocks), []) := by
  obtain ⟨b, hb⟩ := h.mode
  rw [step_of_visible hb (by decide) (by decide)]
  simp [readCode, closed, Scanner.between, h.parens, h.blocks, heldText_opened, h.text]

/-- A closing brace closes what is held and the block. -/
theorem closes {header : Bool} (h : s.Holds (header :: blocks) text) (next : Option CodePoint) :
    s.step '\x7d' next = (.between (s.offset + 1) blocks, s.opened.emit s.offset) := by
  obtain ⟨b, hb⟩ := h.mode
  rw [step_of_visible hb (by decide) (by decide)]
  simp [readCode, closed, Scanner.between, h.parens, h.blocks]

end Holds

/-- A visible character that opens no comment opens a statement where none is open. -/
theorem step_eq_step_opened {s : Scanner} {b : Bool} {c : CodePoint} {next : Option CodePoint}
    (hmode : s.mode = .code b) (hblank : isBlank c = false)
    (hnext : c = '/' → next ≠ some (.char '/') ∧ next ≠ some (.char '*')) :
    s.step c next = s.opened.step c next := by
  have hopened : s.opened.opened = s.opened := opened_eq_self (by simp)
  have hmode' : s.opened.mode = .code b := hmode
  have hcomment : ¬(c = '/' ∧ next = some (.char '/') ∧ b = false) ∧
      ¬(c = '/' ∧ next = some (.char '*')) :=
    ⟨fun h => (hnext h.1).1 h.2.1, fun h => (hnext h.1).2 h.2⟩
  simp only [step, hmode, hmode', hcomment, hblank, hopened, if_false, Bool.false_eq_true]

/-- Code that starts with a visible character is held as a statement. -/
theorem reads_statement {next : Option CodePoint} {t : Text} (h : Code false next t)
    (hhead : ∀ c ∈ t.head?, isBlank c = false) (offset : Nat) (blocks : List Bool) :
    ∃ s, (between offset blocks).Reads next t s ∧ s.Holds blocks (Text.strip t) := by
  cases t with
  | nil => exact ⟨_, .nil _ _, .between offset blocks⟩
  | cons c rest =>
    obtain ⟨b, hread⟩ := reads_code h (s := (between offset blocks).opened) ⟨false, rfl⟩ (by simp)
      nofun
    have hslash : c = '/' →
        rest.head?.or next ≠ some (.char '/') ∧ rest.head?.or next ≠ some (.char '*') := by
      rintro rfl
      cases h with
      | char hc hnext h =>
        simpa [opensWith] using hnext
      | quoted hquote hbody h =>
        obtain hquote | hquote := hquote <;> exact absurd hquote (by decide)
    have hstep : (between offset blocks).step c (rest.head?.or next) =
        (between offset blocks).opened.step c (rest.head?.or next) :=
      step_eq_step_opened rfl (hhead c rfl) hslash
    refine ⟨(between offset blocks).opened.took (c :: rest) (.code b), ⟨?_, ?_⟩, ⟨b, rfl⟩, rfl, rfl,
      ?_⟩
    · rw [← hread.advance, Scanner.advance, Scanner.advance, hstep]
    · rw [← hread.closedIn, Scanner.closedIn, Scanner.closedIn, hstep]
    · simp [heldText, between]

end Scanner

theorem map_import? (found : List Statement) :
    (found.filterMap Statement.import?).map ImportRule.targets =
      (found.map Statement.reading).filterMap Reading.targets? := by
  rw [List.map_filterMap, List.filterMap_map]
  exact List.filterMap_congr fun s _ => s.map_import?

/-! ## Trees -/

/-- A style sheet: its clauses and its blocks, each with a header and a style sheet of its own. -/
inductive Sheet
  | nil
  | clause (c : Clause) (rest : Sheet)
  | block (header : Text) (inner rest : Sheet)
  deriving DecidableEq

namespace Sheet

/-- The clauses are proper, and so are the headers: properly nested code without white space around
it. -/
def IsProper : Sheet → Prop
  | nil => True
  | clause c rest => c.IsProper ∧ rest.IsProper
  | block header inner rest =>
    Code false none header ∧ Text.strip header = header ∧ inner.IsProper ∧ rest.IsProper

/-- What the style sheet declares inside of the given blocks. -/
def declared (blocks : List Bool) : Sheet → List (Text × Text × Flags)
  | nil => []
  | clause c rest => (c.declared blocks).toList ++ rest.declared blocks
  | block header inner rest => inner.declared (alwaysRun header :: blocks) ++ rest.declared blocks

/-- The targets of the imports that the style sheet makes inside of the given blocks. -/
def imported (blocks : List Bool) : Sheet → List (List ImportTarget)
  | nil => []
  | clause c rest => (c.imported blocks).toList ++ rest.imported blocks
  | block header inner rest => inner.imported (alwaysRun header :: blocks) ++ rest.imported blocks

/-- The style sheet as it is written. `brace` says which white space may stand between a header and
its brace, and `last` whether the text ends here, so that a line comment may. -/
inductive Written (brace : Text → Text → Prop) : Bool → Sheet → Text → Prop
  | done {last : Bool} {gap : Text} (hgap : Gap gap) : Written brace last .nil gap
  | comment {gap body : Text} (hgap : Gap gap) (hbody : CodePoint.char '\n' ∉ body) :
    Written brace true .nil (gap ++ .char '/' :: .char '/' :: body)
  | unclosed {last : Bool} {c : Clause} {gap t : Text} (hgap : Gap gap) (hc : c.Written t) :
    Written brace last (.clause c .nil) (gap ++ t)
  | clause {last : Bool} {c : Clause} {rest : Sheet} {gap t u : Text} (hgap : Gap gap)
    (hc : c.Written t) (hrest : Written brace last rest u) :
    Written brace last (.clause c rest) (gap ++ (t ++ .char ';' :: u))
  | block {last : Bool} {header : Text} {inner rest : Sheet} {gap space t u : Text}
    (hgap : Gap gap) (hspace : ∀ c ∈ space, isBlank c) (hbrace : brace header space)
    (hinner : Written brace false inner t) (hrest : Written brace last rest u) :
    Written brace last (.block header inner rest)
      (gap ++ (header ++ space ++ .char '\x7b' :: (t ++ .char '\x7d' :: u)))

/-- There is white space behind a header that ends with a number sign. -/
def Apart (header space : Text) : Prop := header.getLast? = some (.char '#') → space ≠ []

/-- The statements are those of the style sheet in the given blocks. -/
structure ReadsAs (sheet : Sheet) (blocks : List Bool) (readings : List Reading) : Prop where
  declared : readings.filterMap Reading.declared? = sheet.declared blocks
  imported : readings.filterMap Reading.targets? = sheet.imported blocks

namespace ReadsAs

variable {blocks : List Bool} {rest inner : Sheet} {qs rs : List Reading}

theorem nil (blocks : List Bool) : nil.ReadsAs blocks [] := ⟨rfl, rfl⟩

theorem clause {c : Clause} {text : Text} (hc : c.ReadsAs blocks text)
    (hrest : rest.ReadsAs blocks rs) :
    (clause c rest).ReadsAs blocks (⟨text, blocks.length, blocks.all id⟩ :: rs) := by
  constructor
  · rw [List.filterMap_cons, hc.declared, hrest.declared, Sheet.declared]
    cases c.declared blocks <;> rfl
  · rw [List.filterMap_cons, hc.imported, hrest.imported, Sheet.imported]
    cases c.imported blocks <;> rfl

theorem block {header : Text} (hinner : inner.ReadsAs (alwaysRun header :: blocks) qs)
    (hrest : rest.ReadsAs blocks rs) : (block header inner rest).ReadsAs blocks (qs ++ rs) := by
  constructor
  · rw [List.filterMap_append, hinner.declared, hrest.declared, Sheet.declared]
  · rw [List.filterMap_append, hinner.imported, hrest.imported, Sheet.imported]

end ReadsAs

/-- A clause behind a gap is held to the character that closes it. -/
theorem reads_clause {c : Clause} {gap t : Text} (hgap : Gap gap) (hc : c.Written t)
    (hproper : c.IsProper) (next : Option CodePoint) (hnext : ∀ d ∈ next, d = ';' ∨ d = '\x7d')
    (offset : Nat) (blocks : List Bool) :
    ∃ s, (Scanner.between offset blocks).Reads next (gap ++ t) s ∧
      s.Holds blocks (Text.strip t) := by
  have hcode : Code false next t := by
    refine (hc.code hproper).of_next fun c _ => ?_
    cases next with
    | none => simp [opensWith]
    | some d => obtain rfl | rfl := hnext d rfl <;> simp [opensWith]
  obtain ⟨d, rest, rfl, hd⟩ := hc.head hproper
  obtain ⟨s, hread, hholds⟩ := Scanner.reads_statement hcode (by simpa using hd)
    (offset + gap.length) blocks
  exact ⟨s, (Scanner.reads_gap hgap offset blocks _).append hread, hholds⟩

/-- Behind a gap a header is held to the brace that opens the block. -/
theorem reads_header {header gap space : Text} (hgap : Gap gap) (hcode : Code false none header)
    (hstrip : Text.strip header = header) (hspace : ∀ c ∈ space, isBlank c)
    (hapart : Apart header space) (offset : Nat) (blocks : List Bool) :
    ∃ s, (Scanner.between offset blocks).Reads (some (.char '\x7b')) (gap ++ (header ++ space)) s ∧
      s.Holds blocks header := by
  cases header with
  | nil =>
    have hgap' : Gap (gap ++ space) := hgap.append (.of_blank hspace)
    exact ⟨_, Scanner.reads_gap hgap' offset blocks _, .between _ _⟩
  | cons d rest =>
    have hlast : ∀ c ∈ (d :: rest).getLast?,
        opensWith c (space.head?.or (some (.char '\x7b'))) = false := by
      intro c hc
      cases space with
      | nil =>
        have hsign : c ≠ '#' := fun heq => absurd (hapart (heq ▸ hc)) (by simp)
        simp [opensWith, hsign]
      | cons b space =>
        exact opensWith_of_isQuiet c (isQuiet_of_isBlank (hspace b List.mem_cons_self))
    have hcode' : Code false (some (.char '\x7b')) (d :: rest ++ space) :=
      .append (hcode.of_next hlast) (.of_blank hspace)
    obtain ⟨s, hread, hholds⟩ := Scanner.reads_statement hcode'
      (by simpa using Text.head?_of_strip_eq_self hstrip) (offset + gap.length) blocks
    rw [Text.strip_append_of_blank hspace, hstrip] at hholds
    exact ⟨s, (Scanner.reads_gap hgap offset blocks _).append hread, hholds⟩

/-- A written clause that is held is a statement. -/
theorem held_of_written {c : Clause} {t : Text} (hc : c.Written t) (hproper : c.IsProper)
    {s : Scanner} {blocks : List Bool} (h : s.Holds blocks (Text.strip t)) :
    s.held = [⟨Text.strip t, blocks.length, blocks.all id⟩] := by
  obtain ⟨d, rest, rfl, hd⟩ := hc.head hproper
  rw [Scanner.held, h.text, h.blocks, if_neg (Text.strip_cons_ne_nil hd rest)]

/-- A line comment at the end of a text. -/
theorem reads_lastComment {gap body : Text} (hgap : Gap gap) (hbody : CodePoint.char '\n' ∉ body)
    (offset : Nat) (blocks : List Bool) :
    ∃ s, (Scanner.between offset blocks).Reads none (gap ++ .char '/' :: .char '/' :: body) s ∧
      s.held = [] := by
  let s := (Scanner.between (offset + gap.length) blocks).took (.char '/' :: .char '/' :: body)
    .lineComment
  refine ⟨s, (Scanner.reads_gap hgap offset blocks _).append ?_, rfl⟩
  refine .took_cons (m := .lineComment) ?_ (.took_cons (m := .lineComment) ?_ ?_)
  · simp [Scanner.step, Scanner.between, Scanner.pass_eq_took]
  · simp [Scanner.step, Scanner.pass_eq_took]
  · exact Scanner.reads_lineComment rfl hbody none

/-- The reader finds what the style sheet is. -/
theorem Written.found {brace : Text → Text → Prop}
    (hbrace : ∀ header space, brace header space → Apart header space) {last : Bool} {sheet : Sheet}
    {t : Text} (h : sheet.Written brace last t) (hproper : sheet.IsProper)
    (next : Option CodePoint) (hnext : next = if last then none else some (.char '\x7d'))
    (offset : Nat) (blocks : List Bool) :
    ∃ s readings, (Scanner.between offset blocks).Finds next t s readings ∧
      sheet.ReadsAs blocks (readings ++ s.held) ∧ (next ≠ none → ∃ text, s.Holds blocks text) := by
  induction h generalizing next offset blocks with
  | @done last gap hgap =>
    exact ⟨_, [], (Scanner.reads_gap hgap offset blocks next).finds, .nil blocks,
      fun _ => ⟨[], .between _ _⟩⟩
  | @comment gap body hgap hbody =>
    obtain rfl : next = none := hnext
    obtain ⟨s, hread, hheld⟩ := reads_lastComment hgap hbody offset blocks
    refine ⟨s, [], hread.finds, ?_, fun hne => absurd rfl hne⟩
    rw [hheld]
    exact .nil blocks
  | @unclosed last c gap t hgap hc =>
    obtain ⟨s, hread, hholds⟩ := reads_clause hgap hc hproper.1 next
      (by rw [hnext]; cases last <;> simp) offset blocks
    refine ⟨s, [], hread.finds, ?_, fun _ => ⟨_, hholds⟩⟩
    rw [held_of_written hc hproper.1 hholds]
    exact .clause (hc.readsAs hproper.1 blocks) (.nil blocks)
  | @clause last c rest gap t u hgap hc hrest ih =>
    obtain ⟨s, hread, hholds⟩ := reads_clause hgap hc hproper.1 (some (.char ';')) (by simp) offset
      blocks
    obtain ⟨s', readings, hfinds, hreads, hholds'⟩ :=
      ih hproper.2 next hnext (s.offset + 1) blocks
    have hall := hread.finds.append (.cons (hholds.semicolon (u.head?.or next)) hfinds)
    rw [List.append_assoc, Scanner.map_emit, Scanner.held_opened,
      held_of_written hc hproper.1 hholds] at hall
    exact ⟨s', _, hall, .clause (hc.readsAs hproper.1 blocks) hreads, hholds'⟩
  | @block last header inner rest gap space t u hgap hspace hbrace' hinner hrest ihinner ih =>
    obtain ⟨hcode, hstrip, hproper', hrest'⟩ := hproper
    obtain ⟨s, hread, hholds⟩ := reads_header hgap hcode hstrip hspace (hbrace _ _ hbrace') offset
      blocks
    obtain ⟨e, found, hfinds, hreads, hend⟩ := ihinner hproper' (some (.char '\x7d')) rfl
      (s.offset + 1) (alwaysRun header :: blocks)
    obtain ⟨text, hholds'⟩ := hend (by simp)
    obtain ⟨s', readings, hfinds', hreads', hholds''⟩ := ih hrest' next hnext (e.offset + 1)
      blocks
    have hclose := Scanner.Finds.cons (hholds'.closes (u.head?.or next)) hfinds'
    have hbody := hfinds.append (b := .char '\x7d' :: u) hclose
    have hall := hread.finds.append (.cons (hholds.opens _) hbody)
    rw [List.append_assoc, Scanner.map_emit, Scanner.held_opened] at hall
    refine ⟨s', _, hall, ?_, hholds''⟩
    have hblock := ReadsAs.block hreads hreads'
    simpa using hblock

/-- The statements of a written style sheet are those of the tree. -/
theorem Written.readsAs {sheet : Sheet} {text : Text} (h : sheet.Written Apart true text)
    (hproper : sheet.IsProper) : sheet.ReadsAs [] ((statements text).map Statement.reading) := by
  obtain ⟨s, readings, hfinds, hreads, -⟩ :=
    h.found (fun _ _ hapart => hapart) hproper none rfl 0 []
  have hstart : Scanner.start = .between 0 [] := rfl
  rw [statements, Scanner.scan_eq, hstart, List.map_append, hfinds.advance, hfinds.closedIn,
    Scanner.map_emit]
  exact hreads

/-- The style sheet with every clause and every block on a line of its own. -/
def print : Sheet → Text
  | nil => [.char '\n']
  | clause c rest => .char '\n' :: (c.print ++ .char ';' :: rest.print)
  | block header inner rest =>
    .char '\n' :: (header ++ .char ' ' :: .char '\x7b' ::
      (inner.print ++ .char '\x7d' :: rest.print))

/-- Every proper style sheet can be written. -/
theorem written_print {sheet : Sheet} (h : sheet.IsProper) (last : Bool) :
    sheet.Written Apart last sheet.print := by
  have hline : Gap [.char '\n'] := .blank (by decide) .nil
  have hspace : ∀ c ∈ [CodePoint.char ' '], isBlank c := by decide
  induction sheet generalizing last with
  | nil => exact .done hline
  | clause c rest ih => exact .clause hline (Clause.written_print h.1) (ih h.2 last)
  | block header inner rest ihinner ih =>
    obtain ⟨-, -, hinner, hrest⟩ := h
    have hapart : Apart header [.char ' '] := fun _ => List.cons_ne_nil _ _
    have hblock := Written.block hline hspace hapart (ihinner hinner false) (ih hrest last)
    simpa [print] using hblock

end Sheet

/-- Parsing undoes printing: however a style sheet is written, its declarations and its imports are
found in order, except for those that are not seen outside of their block. -/
theorem parse_written {sheet : Sheet} {text : Text} (hproper : sheet.IsProper)
    (h : sheet.Written Sheet.Apart true text) :
    (declarations text).map (fun d => (d.name, d.expression, d.flags)) = sheet.declared [] ∧
      (imports text).map ImportRule.targets = sheet.imported [] := by
  have hreads := h.readsAs hproper
  constructor
  · refine (map_declaration? id text (statements text)).trans ?_
    rw [← hreads.declared]
    exact List.filterMap_congr fun r _ => Option.map_id'
  · rw [imports, map_import?, hreads.imported]

/-- A style sheet with a comment in front, flags and keywords in mixed case, a string and a call
with the characters that end statements, and a block whose last statement has no semicolon. -/
def mixedSheet : Sheet :=
  .clause (.declaration "$a".toText "1".toText ⟨true, false⟩)
    (.clause (.imports [⟨'"', "b".toText⟩, ⟨'\x27', "c.css".toText⟩])
      (.block "@media print".toText
        (.clause (.other "color: red".toText)
          (.clause (.declaration "$d".toText "f(\";\x7d\")".toText ⟨false, true⟩) .nil)) .nil))

def mixedText : Text :=
  ("// ;\n$a :1!Default;/* \x7d */@IMPORT\"b\" , 'c.css';" ++
    "@media print\x7bcolor: red;$d: f(\";\x7d\") !GLOBAL\x7d//").toText

theorem mixedSheet_isProper : mixedSheet.IsProper := by
  have hcall : Code false none "f(\";\x7d\")".toText := by
    have hbody : QuotedBody '"' ";\x7d".toText := .char (by decide) (.char (by decide) .nil)
    have hstring : Code true (some (.char ')')) "\";\x7d\"".toText :=
      .quoted (.inl rfl) hbody .nil
    exact .char (by decide) (by decide) (.parens hstring .nil)
  have hcolor : ∀ word rest : Text, "color: red".toText = word ++ rest → ¬IsImportKeyword word := by
    intro word rest heq hword
    obtain ⟨c, more, hc, -, rfl⟩ := List.forall₂_cons_left_iff.mp hword
    rw [← (List.cons.inj heq).1] at hc
    exact absurd hc (by decide)
  refine ⟨⟨⟨'a', [], rfl, by decide, by simp⟩, .of_quiet (by decide), by decide, by decide⟩,
    ⟨by simp, by decide⟩, .of_quiet (by decide), by decide, ?_, trivial⟩
  refine ⟨⟨by decide, .of_quiet (by decide), by decide, by decide, hcolor⟩, ?_, trivial⟩
  exact ⟨⟨'d', [], rfl, by decide, by simp⟩, hcall, by decide, by decide⟩

theorem mixedSheet_written : mixedSheet.Written Sheet.Apart true mixedText := by
  have hspace : ∀ c ∈ " ".toText, isBlank c := by decide
  have hnone : ∀ c ∈ ([] : Text), isBlank c := by simp
  have hcomment : Gap "// ;\n".toText := @Gap.line " ;".toText [] (by decide) .nil
  have hcomment' : Gap "/* \x7d */".toText := @Gap.block " \x7d ".toText [] (by decide) .nil
  have hdefault : FlagsText ⟨true, false⟩ "!Default".toText :=
    @FlagsText.default _ [] [] "!Default".toText .none hnone rfl
  have hglobal : FlagsText ⟨false, true⟩ " !GLOBAL".toText :=
    @FlagsText.isGlobal _ [] " ".toText "!GLOBAL".toText .none hspace rfl
  have ha : (Clause.declaration "$a".toText "1".toText ⟨true, false⟩).Written
      "$a :1!Default".toText :=
    .declaration hdefault hspace hnone hnone
  have hword : IsImportKeyword "@IMPORT".toText := by decide
  have hpaths : TargetsText [⟨'"', "b".toText⟩, ⟨'\x27', "c.css".toText⟩]
      "\"b\" , 'c.css'".toText := .cons hnone hspace (.single hspace)
  have himports : (Clause.imports [⟨'"', "b".toText⟩, ⟨'\x27', "c.css".toText⟩]).Written
      "@IMPORT\"b\" , 'c.css'".toText :=
    .imports hword hpaths hnone
  have hcolor : (Clause.other "color: red".toText).Written "color: red".toText := .other hnone
  have hd : (Clause.declaration "$d".toText "f(\";\x7d\")".toText ⟨false, true⟩).Written
      "$d: f(\";\x7d\") !GLOBAL".toText :=
    .declaration hglobal hnone hspace hnone
  have hwritten : mixedSheet.Written Sheet.Apart true _ :=
    .clause hcomment ha (.clause hcomment' himports (.block .nil hnone nofun
      (.clause .nil hcolor (.unclosed .nil hd)) (.comment .nil List.not_mem_nil)))
  refine Eq.mp (congrArg (mixedSheet.Written Sheet.Apart true) ?_) hwritten
  decide +kernel

theorem parse_mixedText :
    mixedSheet.IsProper ∧ mixedSheet.Written Sheet.Apart true mixedText ∧
      (declarations mixedText).map (fun d => (d.name, d.expression, d.flags)) =
        [("$a".toText, "1".toText, ⟨true, false⟩),
          ("$d".toText, "f(\";\x7d\")".toText, ⟨false, true⟩)] ∧
      (imports mixedText).map ImportRule.targets =
        [[⟨"\"b\"".toText, some "b".toText⟩, ⟨"'c.css'".toText, none⟩]] := by
  obtain ⟨hdeclared, himported⟩ := parse_written mixedSheet_isProper mixedSheet_written
  refine ⟨mixedSheet_isProper, mixedSheet_written, ?_, ?_⟩
  · rw [hdeclared]
    decide
  · rw [himported]
    decide

/-- A block whose header ends with a number sign. -/
def signSheet : Sheet :=
  .block "a#".toText (.clause (.declaration "$b".toText "1".toText ⟨false, true⟩) .nil) .nil

/-- The number sign and the brace behind it open an interpolation, and the block is none. -/
theorem signSheet_misread :
    signSheet.IsProper ∧
      signSheet.Written (fun _ _ => True) true "a#\x7b$b: 1 !global\x7d".toText ∧
      signSheet.declared [] = [("$b".toText, "1".toText, ⟨false, true⟩)] ∧
      declarations "a#\x7b$b: 1 !global\x7d".toText = [] := by
  have hblank : ∀ c ∈ " ".toText, isBlank c := by decide
  have hnone : ∀ c ∈ ([] : Text), isBlank c := by simp
  have hglobal : FlagsText ⟨false, true⟩ " !global".toText :=
    @FlagsText.isGlobal _ [] " ".toText "!global".toText .none hblank rfl
  have hb : (Clause.declaration "$b".toText "1".toText ⟨false, true⟩).Written
      "$b: 1 !global".toText :=
    .declaration hglobal hnone hblank hnone
  refine ⟨⟨.char (by decide) (by decide) (.char (by decide) (by decide) .nil), by decide, ?_,
    trivial⟩, .block .nil hnone trivial (.unclosed .nil hb) (.done .nil), by decide, by decide⟩
  exact ⟨⟨⟨'b', [], rfl, by decide, by simp⟩, .of_quiet (by decide), by decide, by decide⟩, trivial⟩

end StyleVars
