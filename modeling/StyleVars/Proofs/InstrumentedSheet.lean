import StyleVars.Proofs.DeclarationTexts
import Mathlib.Data.List.Forall2

/-!
# Sheets with the calls of their hooks

The calls of the hooks are appended to the text of a sheet on lines of their own. They leave its
declarations and imports alone exactly when there are none or the last statement of the sheet is
closed (`undisturbed_iff`): a statement that only the end of the text closes goes on with the first
call instead.
-/

namespace StyleVars

/-- Neither a string nor a block comment is open. -/
def Mode.isOutside : Mode → Bool
  | .quoted .. | .blockComment _ => false
  | _ => true

/-- No block, parenthesis, string or block comment is open at the end of the text. -/
structure EndsOutside (source : Text) : Prop where
  blocks : (Scanner.start.advance none source).blocks = []
  parens : (Scanner.start.advance none source).parens = 0
  mode : (Scanner.start.advance none source).mode.isOutside

/-- The calls of the hooks leave the sheet as it is: its declarations come first and unchanged, each
of them has one call behind them all, which is a declaration of its own, and the imports are the
same. -/
def Undisturbed (file : SheetFile) : Prop :=
  ∃ added, declarations file.instrumented = declarations file.source ++ added ∧
    added.map (fun d => (d.name, d.expression)) =
      file.declarations.mapIdx (fun i d =>
        ("$sassvars-capture".toText, hookExpression file.index i d.name)) ∧
    imports file.instrumented = imports file.source

/-! ## Positions -/

theorem Position.after_append (p : Position) {count : Nat} {a : Text} (h : count ≤ a.length)
    (b : Text) : p.after count (a ++ b) = p.after count a := by
  induction a generalizing p count with
  | nil =>
    obtain rfl : count = 0 := Nat.le_zero.mp h
    cases b <;> rfl
  | cons c rest ih =>
    cases count with
    | zero => rfl
    | succ count => exact ih (p.next c) (Nat.le_of_succ_le_succ h)

/-- What is appended to a text does not move the declarations in it. -/
theorem filterMap_declaration?_append {source : Text} {found : List Statement}
    (h : ∀ s ∈ found, s.start ≤ source.length) (more : Text) :
    found.filterMap (Statement.declaration? (source ++ more)) =
      found.filterMap (Statement.declaration? source) := by
  apply List.filterMap_congr
  intro s hs
  simp only [Statement.declaration?, Position.ofOffset, Position.after_append _ (h s hs)]

/-! ## The appended lines -/

theorem forall₂_mapIdx {α β γ : Type} {R : β → γ → Prop} {xs : List α} {f : Nat → α → β}
    {g : Nat → α → γ} (h : ∀ i, ∀ x ∈ xs, R (f i x) (g i x)) :
    List.Forall₂ R (xs.mapIdx f) (xs.mapIdx g) := by
  induction xs generalizing f g with
  | nil => exact .nil
  | cons x xs ih =>
    rw [List.mapIdx_cons, List.mapIdx_cons]
    exact .cons (h 0 x (by simp)) (ih fun i y hy => h (i + 1) y (by simp [hy]))

/-- Texts that settle to one statement each do so line by line. -/
theorem Settles.lines {texts : List Text} {readings : List Reading}
    (h : List.Forall₂ (fun text reading => Settles text [reading]) texts readings) :
    Settles (texts.flatMap (· ++ [CodePoint.char '\n'])) readings := by
  induction h with
  | nil => exact .nil
  | @cons text reading texts readings htext hrest ih => exact (htext.append .newline).append ih

/-- What puts the calls of the hooks on lines of their own. -/
def lineEnd (source : Text) : Text :=
  if source.getLast? = some (.char '\n') then [] else [.char '\n']

/-- The lines with the calls of the hooks. -/
def SheetFile.hookLines (file : SheetFile) : Text :=
  file.hookCalls.flatMap (· ++ [CodePoint.char '\n'])

theorem SheetFile.instrumented_eq {file : SheetFile} (h : file.declarations ≠ []) :
    file.instrumented = file.source ++ (lineEnd file.source ++ file.hookLines) := by
  rw [SheetFile.instrumented, if_neg h, List.append_assoc]
  rfl

namespace Scanner

theorem isBlank_newline : isBlank '\n' := by decide

theorem step_newline_mode (s : Scanner) (next : Option CodePoint) :
    (s.step '\n' next).1.mode ≠ .lineComment := by
  unfold step
  cases hmode : s.mode with
  | code b => simp [isBlank_newline]
  | lineComment => simp
  | blockComment part => cases part <;> simp
  | quoted quote escaped within =>
    cases escaped <;> cases within <;> simp [afterString]
  | interpolation braces => simp

/-- Where the line ends outside of strings and block comments, the reader stands in code or in an
interpolation. -/
theorem reads_lineEnd {source : Text} (h : EndsOutside source) (next : Option CodePoint) :
    ∃ mode, ((∃ b, mode = .code b) ∨ ∃ braces, mode = .interpolation braces) ∧
      (start.advance none source).Reads next (lineEnd source)
        ((start.advance none source).took (lineEnd source) mode) := by
  -- a line feed at the end of the source has ended its last line comment
  have hcomment : source.getLast? = some (.char '\n') →
      (start.advance none source).mode ≠ .lineComment := by
    intro hlast
    obtain ⟨init, rfl⟩ := List.getLast?_eq_some_iff.mp hlast
    rw [advance_append]
    exact step_newline_mode _ _
  have houtside := h.mode
  generalize start.advance none source = e at hcomment houtside ⊢
  unfold lineEnd
  cases hmode : e.mode with
  | code b =>
    split_ifs
    · refine ⟨.code b, .inl ⟨b, rfl⟩, ?_⟩
      rw [← hmode, took_nil]
      exact .nil _ _
    · refine ⟨.code false, .inl ⟨false, rfl⟩, .single ?_⟩
      simp [step, hmode, isBlank_newline, pass_eq_took]
  | lineComment =>
    rw [if_neg fun hlast => hcomment hlast hmode]
    refine ⟨.code false, .inl ⟨false, rfl⟩, .single ?_⟩
    simp [step, hmode, pass_eq_took]
  | interpolation braces =>
    have hread := reads_interpolation (t := lineEnd source) hmode (by
      unfold lineEnd
      split_ifs <;> decide) next
    exact ⟨.interpolation braces, .inr ⟨braces, rfl⟩, hread⟩
  | blockComment part =>
    rw [hmode] at houtside
    exact absurd houtside Bool.false_ne_true
  | quoted quote escaped within =>
    rw [hmode] at houtside
    exact absurd houtside Bool.false_ne_true

/-- The statements of a source with lines behind it: those that are closed in the source, and those
of the lines as they are read where the source has come to its end. -/
theorem statements_append_lines {source lines : Text} {e : Scanner}
    (hlines : lines.head? = some (.char '$'))
    (he : (start.advance none source).Reads (some (.char '$')) (lineEnd source) e) :
    statements (source ++ (lineEnd source ++ lines)) =
      start.closedIn none source ++ e.scan lines := by
  have hnext : (lineEnd source ++ lines).head? ≠ some (.char '/') ∧
      (lineEnd source ++ lines).head? ≠ some (.char '*') ∧
      (lineEnd source ++ lines).head? ≠ some (.char '\x7b') := by
    unfold lineEnd
    split_ifs
    · rw [List.nil_append, hlines]
      decide
    · exact (by decide : some (CodePoint.char '\n') ≠ some (.char '/') ∧
        some (CodePoint.char '\n') ≠ some (.char '*') ∧
        some (CodePoint.char '\n') ≠ some (.char '\x7b'))
  obtain ⟨hadvance, hclosed⟩ := advance_of_next (s := start) hnext source
  rw [statements, scan_append, hadvance, hclosed, scan_append, hlines, he.advance, he.closedIn,
    List.nil_append]

theorem statements_eq_closedIn (source : Text) :
    statements source = start.closedIn none source ++
      (start.advance none source).emit (start.advance none source).offset :=
  scan_eq start source

end Scanner

/-! ## Sheets whose last statement is closed -/

section Closed

variable {source : Text}

theorem filterMap_mapIdx {α β γ : Type} {xs : List α} {f : Nat → α → β} {g : β → Option γ}
    {k : Nat → α → γ} (h : ∀ i x, g (f i x) = some (k i x)) :
    (xs.mapIdx f).filterMap g = xs.mapIdx k := by
  induction xs generalizing f k with
  | nil => rfl
  | cons x xs ih =>
    rw [List.mapIdx_cons, List.mapIdx_cons, List.filterMap_cons, h]
    simp only
    rw [ih fun i y => h (i + 1) y]

/-- The lines with the calls are read as the calls. -/
theorem settles_hookLines {file : SheetFile} (h : ∀ d ∈ file.declarations, IsVariable d.name) :
    Settles file.hookLines (file.declarations.mapIdx fun i d => hookReading file.index i d.name) :=
  Settles.lines (forall₂_mapIdx fun i d hd => settles_hookCall file.index i (h d hd))

theorem head?_hookLines {file : SheetFile} (h : file.declarations ≠ []) :
    file.hookLines.head? = some (.char '$') := by
  obtain ⟨d, rest, hd⟩ := List.exists_cons_of_ne_nil h
  rw [SheetFile.hookLines, SheetFile.hookCalls, hd, List.mapIdx_cons, List.flatMap_cons]
  rfl

theorem start_le_of_mem_closedIn {s : Statement} (h : s ∈ Scanner.start.closedIn none source) :
    s.start ≤ source.length := by
  have hmem : s ∈ Scanner.start.scan source := by
    rw [Scanner.scan_eq]
    exact List.mem_append_left _ h
  have hle := (Scanner.between_settled 0 []).start_le_of_mem_scan (Nat.le_refl 0) hmem
  rwa [Scanner.between, Nat.zero_add] at hle

/-- Statements that are read as calls of hooks import nothing. -/
theorem filterMap_import?_of_hookReadings {found : List Statement} {file : SheetFile}
    (h : found.map Statement.reading =
      file.declarations.mapIdx fun i d => hookReading file.index i d.name) :
    found.filterMap Statement.import? = [] := by
  apply List.filterMap_eq_nil_iff.mpr
  intro s hs
  have hmem : s.reading ∈ found.map Statement.reading := List.mem_map_of_mem hs
  rw [h] at hmem
  obtain ⟨i, hi, heq⟩ := List.mem_mapIdx.mp hmem
  exact import?_of_hookReading heq.symm

/-- Behind a closed statement the calls are statements of their own. -/
theorem undisturbed_of_closed (name : Text) (index : Nat) (h : EndsOutside source)
    (hpending : (Scanner.start.advance none source).pending = none)
    (hne : declarations source ≠ []) : Undisturbed (SheetFile.ofSource name index source) := by
  let file := SheetFile.ofSource name index source
  have hstart : Scanner.start.Settled := Scanner.between_settled 0 []
  obtain ⟨mode, hmode, hreads⟩ := Scanner.reads_lineEnd h (some (.char '$'))
  have hscan : statements file.instrumented = Scanner.start.closedIn none source ++
      ((Scanner.start.advance none source).took (lineEnd source) mode).scan file.hookLines := by
    rw [SheetFile.instrumented_eq hne]
    exact Scanner.statements_append_lines (head?_hookLines hne) hreads
  -- with nothing open the reader stands between two statements, where `Settles` applies
  have hbetween : (Scanner.start.advance none source).took (lineEnd source) mode =
      .between (source.length + (lineEnd source).length) [] := by
    have hsettled := (hstart.advance none source).advance (some (.char '$')) (lineEnd source)
    rw [hreads.advance] at hsettled
    have hcomment : mode.isComment = false := by
      obtain ⟨b, rfl⟩ | ⟨braces, rfl⟩ := hmode <;> rfl
    rw [hsettled.eq_between (by simp [hpending]) hcomment]
    have hoffset := hstart.advance_offset none source
    have hzero : Scanner.start.offset = 0 := rfl
    simp only [Scanner.took, hoffset, h.blocks, hzero, Nat.zero_add]
  rw [hbetween] at hscan
  generalize hfound : (Scanner.between (source.length + (lineEnd source).length) []).scan
    file.hookLines = found at hscan
  have hreadings : found.map Statement.reading =
      file.declarations.mapIdx fun i d => hookReading file.index i d.name := by
    have hlines : Settles file.hookLines _ := settles_hookLines fun d hd => declaration_name hd
    obtain ⟨hadvance, hclosed⟩ := hlines _ [] none rfl
    rw [← hfound, Scanner.scan_eq, hadvance]
    rw [List.length_nil, List.map_id'' Reading.deepen_zero] at hclosed
    rw [← hclosed]
    simp [Scanner.emit, Scanner.between]
  have hclosed : statements source = Scanner.start.closedIn none source := by
    rw [Scanner.statements_eq_closedIn]
    simp [Scanner.emit, hpending]
  have hsource : file.instrumented = source ++ (lineEnd source ++ file.hookLines) :=
    SheetFile.instrumented_eq hne
  refine ⟨found.filterMap (Statement.declaration? file.instrumented), ?_, ?_, ?_⟩
  · rw [declarations, hscan, List.filterMap_append, hsource, filterMap_declaration?_append
      (fun s hs => start_le_of_mem_closedIn hs), ← hclosed]
    rfl
  · refine (map_declaration? (fun parts => (parts.1, parts.2.1)) _ _).trans ?_
    rw [hreadings]
    apply filterMap_mapIdx
    intro i d
    rw [declared?_hookReading]
    rfl
  · rw [imports, hscan, List.filterMap_append, filterMap_import?_of_hookReadings hreadings,
      List.append_nil, ← hclosed]
    rfl

end Closed

/-! ## Sheets whose last statement is open -/

section Open

variable {source : Text}

/-- What has been read of the statement that is open at the end of a source starts with a visible
character, and with the end of the line it ends with a line feed. -/
theorem body_at_end {p : Pending}
    (hpending : (Scanner.start.advance none source).pending = some p) :
    (∃ c, p.body.reverse.head? = some c ∧ isBlank c = false) ∧
      (p.body.reverse ++ lineEnd source).getLast? = some (.char '\n') := by
  have hstart : Scanner.start.Settled := Scanner.between_settled 0 []
  have hvisible : Scanner.start.Visible := fun p hp => by simp [Scanner.start] at hp
  constructor
  · rw [List.head?_reverse]
    exact hvisible.advance hstart none source p hpending
  · unfold lineEnd
    split_ifs with hlast
    · obtain ⟨init, rfl⟩ := List.getLast?_eq_some_iff.mp hlast
      rw [Scanner.advance_append] at hpending
      rw [List.append_nil, List.getLast?_reverse]
      exact (hstart.advance _ init).head?_body hpending
    · rw [List.getLast?_append]
      rfl

/-- The statement that is open at the end of a source goes on with what follows on another line. -/
theorem heldText_took_lines {p : Pending} (mode : Mode)
    (hpending : (Scanner.start.advance none source).pending = some p) (w : Text) :
    ∃ gap w', gap ≠ [] ∧ (∀ c ∈ gap, isBlank c) ∧
      ((Scanner.start.advance none source).took (lineEnd source ++ CodePoint.char '$' :: w)
          mode).heldText =
        (Scanner.start.advance none source).heldText ++ (gap ++ CodePoint.char '$' :: w') ∧
      (Scanner.start.advance none source).heldText ≠ [] ∧
      ∀ c ∈ (Scanner.start.advance none source).heldText.getLast?, isBlank c = false := by
  obtain ⟨⟨c, hfirst, hc⟩, hlast⟩ := body_at_end hpending
  have hheld : (Scanner.start.advance none source).heldText = Text.strip p.body.reverse := by
    simp [Scanner.heldText, hpending]
  have htook : ((Scanner.start.advance none source).took
      (lineEnd source ++ CodePoint.char '$' :: w) mode).heldText =
        Text.strip (p.body.reverse ++ lineEnd source ++ CodePoint.char '$' :: w) := by
    simp [Scanner.heldText, hpending]
  -- what is stripped is the white space in front of the line break, and nothing in front of it
  generalize p.body.reverse = raw at hfirst hlast hheld htook
  obtain ⟨rest, rfl⟩ := List.head?_eq_some_iff.mp hfirst
  have hstrip : Text.strip (c :: rest ++ lineEnd source) = Text.strip (c :: rest) := by
    unfold lineEnd
    split_ifs
    · rw [List.append_nil]
    · exact Text.strip_append_of_blank (by decide) _
  have hhead : ∀ d ∈ (c :: rest ++ lineEnd source).head?, isBlank d = false := by simpa using hc
  obtain ⟨gap, hgap, hblank, hend⟩ := Text.strip_spec hhead
  have hw' := Text.strip_append_cons (c := '$') hhead (by decide) w
  rw [hstrip] at hgap hend
  refine ⟨gap, Text.stripRight w, ?_, hblank, ?_, ?_, ?_⟩
  · rintro rfl
    rw [List.append_nil] at hgap
    rw [hgap] at hlast
    exact CodePoint.ne_of_class Scanner.isBlank_newline (hend _ hlast) rfl
  · rw [htook, hw', hheld, ← List.append_assoc, ← hgap]
  · rw [hheld]
    exact Text.strip_cons_ne_nil hc rest
  · rw [hheld]
    exact hend

/-- Lines that settle are closed where they end. -/
theorem scan_of_settles {lines : Text} {readings : List Reading} (h : Settles lines readings)
    (offset : Nat) : ((Scanner.between offset []).scan lines).map Statement.reading = readings := by
  obtain ⟨hadvance, hclosed⟩ := h offset [] none rfl
  rw [List.length_nil, List.map_id'' Reading.deepen_zero] at hclosed
  rw [Scanner.scan_eq, hadvance, List.map_append, hclosed]
  exact List.append_nil readings

/-- In code, the first call goes on with the statement that is open and closes it. -/
theorem scan_hookLines_of_code {file : SheetFile} {e : Scanner} {b : Bool}
    (hvariable : ∀ d ∈ file.declarations, IsVariable d.name) (hne : file.declarations ≠ [])
    (hmode : e.mode = .code b) (hpending : e.pending ≠ none) (hparens : e.parens = 0)
    (hblocks : e.blocks = []) :
    ∃ w mode stop others, e.scan file.hookLines =
        (e.took (CodePoint.char '$' :: w) mode).emit stop ++ others ∧
      others.length + 1 = file.declarations.length := by
  obtain ⟨d, rest, hd⟩ := List.exists_cons_of_ne_nil hne
  have hlines : file.hookLines = (hookReading file.index 0 d.name).text ++ CodePoint.char ';' ::
      ([CodePoint.char '\n'] ++ (rest.mapIdx fun i d => hookCall file.index (i + 1) d.name).flatMap
        (· ++ [CodePoint.char '\n'])) := by
    rw [SheetFile.hookLines, SheetFile.hookCalls, hd, List.mapIdx_cons, List.flatMap_cons,
      hookCall_eq]
    simp
  -- behind the semicolon of the first call the other ones are statements of their own
  have hothers : Settles ([CodePoint.char '\n'] ++
      (rest.mapIdx fun i d => hookCall file.index (i + 1) d.name).flatMap
        (· ++ [CodePoint.char '\n']))
      ([] ++ rest.mapIdx fun i d => hookReading file.index (i + 1) d.name) :=
    Settles.newline.append (Settles.lines (forall₂_mapIdx fun i d' hd' =>
      settles_hookCall file.index (i + 1) (hvariable d' (by simp [hd, hd']))))
  generalize (rest.mapIdx fun i d => hookCall file.index (i + 1) d.name).flatMap
    (· ++ [CodePoint.char '\n']) = more at hlines hothers
  obtain ⟨m, hread⟩ := Kept.hookReading file.index 0 (hvariable d (by simp [hd])) e
    (some (.char ';')) ⟨b, hmode⟩ hpending
  obtain ⟨w, hw⟩ : ∃ w, (hookReading file.index 0 d.name).text = CodePoint.char '$' :: w :=
    ⟨_, rfl⟩
  rw [hw] at hlines hread
  -- the statement that is open keeps the first call and ends with its semicolon
  have hend : ∀ next, (e.took (CodePoint.char '$' :: w) (.code m)).step ';' next =
      (.between (e.offset + (w.length + 1) + 1) [],
        (e.took (CodePoint.char '$' :: w) (.code m)).emit (e.offset + (w.length + 1) + 1)) := by
    intro next
    rw [Scanner.step_of_visible rfl (by decide) (by decide),
      Scanner.opened_eq_self (by simpa using hpending)]
    simp [Scanner.readCode, hparens, Scanner.between, Scanner.closed, Scanner.took, hblocks]
  refine ⟨w, .code m, e.offset + (w.length + 1) + 1,
    (Scanner.between (e.offset + (w.length + 1) + 1) []).scan ([CodePoint.char '\n'] ++ more),
    ?_, ?_⟩
  · rw [hlines, Scanner.scan_append, List.head?_cons, hread.closedIn, hread.advance,
      List.nil_append, Scanner.scan, hend]
  · have hlength := congrArg List.length (scan_of_settles hothers (e.offset + (w.length + 1) + 1))
    rw [List.length_map, List.nil_append, List.length_mapIdx] at hlength
    rw [hlength, hd, List.length_cons]

/-- In an interpolation all calls go on with the statement that is open. -/
theorem scan_hookLines_of_interpolation {file : SheetFile} {e : Scanner} {braces : Nat}
    (hvariable : ∀ d ∈ file.declarations, IsVariable d.name) (hne : file.declarations ≠ [])
    (hmode : e.mode = .interpolation braces) :
    ∃ w mode stop, e.scan file.hookLines = (e.took (CodePoint.char '$' :: w) mode).emit stop := by
  -- only a quote or a brace would change how the interpolation goes on
  have hharmless : ∀ c ∈ file.hookLines, c ≠ '"' ∧ c ≠ '\x27' ∧ c ≠ '\x7b' ∧ c ≠ '\x7d' := by
    intro c hc
    obtain ⟨call, hcall, hc⟩ := List.mem_flatMap.mp hc
    obtain ⟨i, hi, rfl⟩ := List.mem_mapIdx.mp hcall
    obtain hc | hc := List.mem_append.mp hc
    · exact harmless_of_mem_hookCall (hvariable _ (List.getElem_mem hi)) hc
    · rw [List.mem_singleton.mp hc]
      decide
  obtain ⟨w, hw⟩ := List.head?_eq_some_iff.mp (head?_hookLines hne)
  have hread := Scanner.reads_interpolation hmode hharmless none
  rw [Scanner.scan_eq, hread.closedIn, hread.advance, List.nil_append, hw]
  exact ⟨w, _, _, rfl⟩

/-- Where a statement is open at the end of a source, it swallows a call at least. -/
theorem scan_hookLines_of_open (name : Text) (index : Nat) (h : EndsOutside source) {p : Pending}
    (hpending : (Scanner.start.advance none source).pending = some p)
    (hne : declarations source ≠ []) :
    ∃ w mode stop others,
      statements (SheetFile.ofSource name index source).instrumented =
        Scanner.start.closedIn none source ++
          (((Scanner.start.advance none source).took (lineEnd source ++ CodePoint.char '$' :: w)
            mode).emit stop ++ others) ∧
      others.length + 1 ≤ (declarations source).length := by
  let file := SheetFile.ofSource name index source
  obtain ⟨mode, hmode, hreads⟩ := Scanner.reads_lineEnd h (some (.char '$'))
  have hscan : statements file.instrumented = Scanner.start.closedIn none source ++
      ((Scanner.start.advance none source).took (lineEnd source) mode).scan file.hookLines := by
    rw [SheetFile.instrumented_eq hne]
    exact Scanner.statements_append_lines (head?_hookLines hne) hreads
  have hvariable : ∀ d ∈ file.declarations, IsVariable d.name := fun d hd => declaration_name hd
  have hne' : file.declarations ≠ [] := hne
  obtain ⟨b, rfl⟩ | ⟨braces, rfl⟩ := hmode
  · obtain ⟨w, mode', stop, others, hlines, hlength⟩ :=
      scan_hookLines_of_code hvariable hne' (e := (Scanner.start.advance none source).took
        (lineEnd source) (.code b)) rfl (by simp [hpending]) h.parens h.blocks
    refine ⟨w, mode', stop, others, ?_, Nat.le_of_eq hlength⟩
    rw [hscan, hlines, Scanner.took_took]
  · obtain ⟨w, mode', stop, hlines⟩ :=
      scan_hookLines_of_interpolation hvariable hne' (e := (Scanner.start.advance none source).took
        (lineEnd source) (.interpolation braces)) rfl
    refine ⟨w, mode', stop, [], ?_, List.length_pos_iff.mpr hne⟩
    rw [hscan, hlines, Scanner.took_took, List.append_nil]

/-- A statement outside of all blocks makes a declaration when its text declares something. -/
theorem declaration?_eq_none_iff {s : Statement} (hdepth : s.depth = 0) (text : Text) :
    s.declaration? text = none ↔ declared? s.text = none := by
  unfold Statement.declaration?
  rw [Option.bind_eq_none_iff]
  constructor
  · intro h
    apply Option.eq_none_iff_forall_not_mem.mpr
    intro parts hparts
    simpa [hdepth] using h parts hparts
  · intro h parts hparts
    rw [h] at hparts
    simp at hparts

/-- At most one statement is given when the open one is closed, and it has the text that is held. -/
theorem length_filterMap_emit_le (e : Scanner) (stop : Nat) (text : Text) :
    ((e.emit stop).filterMap (Statement.declaration? text)).length ≤ 1 := by
  refine (List.length_filterMap_le _ _).trans ?_
  obtain hnil | hone := e.emit_eq_nil_or stop
  · rw [hnil]
    exact Nat.zero_le 1
  · rw [hone]
    exact Nat.le_refl 1

theorem filterMap_emit_of_none {e : Scanner} (hblocks : e.blocks = [])
    (h : declared? e.heldText = none) (stop : Nat) (text : Text) :
    (e.emit stop).filterMap (Statement.declaration? text) = [] := by
  obtain hnil | hone := e.emit_eq_nil_or stop
  · rw [hnil]
    rfl
  · have hdeclaration : (⟨e.heldText, e.earliest, stop, e.blocks.length, e.blocks.all id⟩ :
        Statement).declaration? text = none :=
      (declaration?_eq_none_iff (by simp [hblocks]) text).mpr h
    rw [hone, List.filterMap_cons, hdeclaration]
    rfl

theorem filterMap_emit_of_some {e : Scanner} (hblocks : e.blocks = []) (hpending : e.pending ≠ none)
    (hheld : e.heldText ≠ []) (h : declared? e.heldText ≠ none) (stop : Nat) (text : Text) :
    ((e.emit stop).filterMap (Statement.declaration? text)).length = 1 := by
  obtain ⟨p, hp⟩ := Option.ne_none_iff_exists'.mp hpending
  have hone : e.emit stop = [⟨e.heldText, p.start, stop, e.blocks.length, e.blocks.all id⟩] := by
    simp [Scanner.emit, hp, hheld]
  have hdeclaration : (⟨e.heldText, p.start, stop, e.blocks.length, e.blocks.all id⟩ :
      Statement).declaration? text ≠ none :=
    mt (declaration?_eq_none_iff (by simp [hblocks]) text).mp h
  obtain ⟨d, hd⟩ := Option.ne_none_iff_exists'.mp hdeclaration
  rw [hone, List.filterMap_cons, hd]
  rfl

/-- A call that is swallowed is missing among the declarations. -/
theorem not_undisturbed_of_open {name : Text} {index : Nat} (h : EndsOutside source) {p : Pending}
    (hpending : (Scanner.start.advance none source).pending = some p)
    (hne : declarations source ≠ []) : ¬Undisturbed (SheetFile.ofSource name index source) := by
  rintro ⟨added, hdeclarations, hadded, -⟩
  obtain ⟨w, mode, stop, others, hscan, hothers⟩ :=
    scan_hookLines_of_open name index h hpending hne
  obtain ⟨gap, w', hgap, hblank, hmerged, hheld, hlast⟩ := heldText_took_lines mode hpending w
  have hblocks := h.blocks
  have hopen : (Scanner.start.advance none source).pending ≠ none := by simp [hpending]
  have hsource := Scanner.statements_eq_closedIn source
  generalize Scanner.start.advance none source = e
    at hscan hmerged hheld hlast hblocks hopen hsource
  -- the declarations are counted: there would have to be twice as many as in the source
  have hinjected : (declarations source).length + (declarations source).length =
      (declarations (SheetFile.ofSource name index source).instrumented).length := by
    have hcount := congrArg List.length hadded
    rw [List.length_map, List.length_mapIdx] at hcount
    rw [hdeclarations, List.length_append, hcount]
    rfl
  have hfirst : ((Scanner.start.closedIn none source).filterMap (Statement.declaration?
        (SheetFile.ofSource name index source).instrumented)).length =
      ((Scanner.start.closedIn none source).filterMap (Statement.declaration? source)).length := by
    obtain ⟨more, hmore⟩ : ∃ more, (SheetFile.ofSource name index source).instrumented =
      source ++ more := ⟨_, SheetFile.instrumented_eq hne⟩
    rw [hmore, filterMap_declaration?_append fun s hs => start_le_of_mem_closedIn hs]
  have hsourceCount : (declarations source).length =
      ((Scanner.start.closedIn none source).filterMap (Statement.declaration? source)).length +
        ((e.emit e.offset).filterMap (Statement.declaration? source)).length := by
    rw [declarations, hsource, List.filterMap_append, List.length_append]
  have hrest := List.length_filterMap_le (Statement.declaration?
    (SheetFile.ofSource name index source).instrumented) others
  rw [declarations.eq_def (SheetFile.ofSource name index source).instrumented, hscan,
    List.filterMap_append, List.filterMap_append, List.length_append, List.length_append, hfirst]
    at hinjected
  by_cases hdeclared : declared? e.heldText = none
  · -- the call is lost in a statement that declares nothing
    have hnone : declared? (e.took (lineEnd source ++ CodePoint.char '$' :: w) mode).heldText =
        none := by
      rw [hmerged]
      exact declared?_append_eq_none hheld hlast hgap hblank hdeclared
    have hblocks' : (e.took (lineEnd source ++ CodePoint.char '$' :: w) mode).blocks = [] := hblocks
    rw [filterMap_emit_of_none hblocks' hnone, List.length_nil] at hinjected
    omega
  · -- the call is lost in a declaration, which counts once as before
    have hone := filterMap_emit_of_some hblocks hopen hheld hdeclared e.offset source
    have hle := length_filterMap_emit_le (e.took (lineEnd source ++ CodePoint.char '$' :: w) mode)
      stop (SheetFile.ofSource name index source).instrumented
    omega

end Open

/-- Nothing is appended to a sheet without declarations. -/
theorem undisturbed_of_nil {source : Text} (h : declarations source = []) (name : Text)
    (index : Nat) : Undisturbed (SheetFile.ofSource name index source) := by
  have hsame : (SheetFile.ofSource name index source).instrumented = source := if_pos h
  refine ⟨[], ?_, ?_, ?_⟩
  · rw [hsame, List.append_nil]
    rfl
  · have hnil : (SheetFile.ofSource name index source).declarations = [] := h
    rw [hnil]
    rfl
  · rw [hsame]
    rfl

/-- A sheet that ends outside of blocks, parentheses, strings and block comments is left as it is
exactly when it has no declarations or its last statement is closed. -/
theorem undisturbed_iff {source : Text} (h : EndsOutside source) (name : Text) (index : Nat) :
    Undisturbed (SheetFile.ofSource name index source) ↔
      declarations source = [] ∨ (Scanner.start.advance none source).pending = none := by
  constructor
  · intro hundisturbed
    by_contra hnot
    obtain ⟨hne, hopen⟩ := not_or.mp hnot
    obtain ⟨p, hp⟩ := Option.ne_none_iff_exists'.mp hopen
    exact not_undisturbed_of_open h hp hne hundisturbed
  · intro h'
    by_cases hne : declarations source = []
    · exact undisturbed_of_nil hne name index
    · exact undisturbed_of_closed name index h (h'.resolve_left hne) hne

/-- A sheet that ends with a comment behind its last statement. -/
def closedSheet : Text := "$a: 1;\n// the end".toText

theorem undisturbed_closedSheet :
    EndsOutside closedSheet ∧
      (Undisturbed (SheetFile.ofSource "/main.scss".toText 0 closedSheet) ↔
        declarations closedSheet = [] ∨
          (Scanner.start.advance none closedSheet).pending = none) := by
  have hends : EndsOutside closedSheet :=
    ⟨by decide +kernel, by decide +kernel, by decide +kernel⟩
  exact ⟨hends, undisturbed_iff hends _ _⟩

/-- A sheet whose last statement is closed by the end of the text alone. -/
def openSheet : Text := "$a: 1;\n@import \"b\"".toText

/-- The import at the end of this sheet goes on with the call of the hook. -/
theorem openSheet_disturbed :
    EndsOutside openSheet ∧
      ¬Undisturbed (SheetFile.ofSource "/p/main.scss".toText 0 openSheet) := by
  have hends : EndsOutside openSheet := ⟨by decide +kernel, by decide +kernel, by decide +kernel⟩
  have hopen : (Scanner.start.advance none openSheet).pending ≠ none := by decide +kernel
  obtain ⟨p, hp⟩ := Option.ne_none_iff_exists'.mp hopen
  exact ⟨hends, not_undisturbed_of_open hends hp (by decide +kernel)⟩

end StyleVars
