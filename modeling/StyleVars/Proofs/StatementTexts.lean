import StyleVars.Proofs.ReaderNesting
import StyleVars.Proofs.StrippedTexts

/-!
# Texts of statements

Plain characters, quoted strings and texts in parentheses never end the statement they stand in
(`Kept`). A text of such parts that starts and ends with a visible character and is followed by a
semicolon is read as one statement (`Kept.settles`).
-/

namespace StyleVars

/-- The character means nothing by itself: it belongs to no quoted string, comment or interpolation,
and it neither ends a statement nor opens or closes a block or a parenthesis. -/
def isPlain (c : CodePoint) : Bool :=
  c ≠ '"' && c ≠ '\x27' && c ≠ '#' && c ≠ '(' && c ≠ ')' && c ≠ ';' && c ≠ '\x7b' && c ≠ '\x7d' &&
    c ≠ '/'

/-- A string in quotes without its own quote, backslashes and line feeds inside. -/
def IsQuoted (t : Text) : Prop :=
  ∃ (quote : CodePoint) (body : Text), (quote = '"' ∨ quote = '\x27') ∧
    t = quote :: (body ++ [quote]) ∧ ∀ c ∈ body, c ≠ quote ∧ c ≠ '\\' ∧ c ≠ '\n'

instance (t : Text) : Decidable (IsQuoted t) :=
  decidable_of_iff
    (∃ quote ∈ t.head?, (quote = '"' ∨ quote = '\x27') ∧
      t = quote :: (t.tail.dropLast ++ [quote]) ∧
      ∀ c ∈ t.tail.dropLast, c ≠ quote ∧ c ≠ '\\' ∧ c ≠ '\n') <| by
    constructor
    · rintro ⟨quote, -, hquote, ht, hbody⟩
      exact ⟨quote, t.tail.dropLast, hquote, ht, hbody⟩
    · rintro ⟨quote, body, hquote, rfl, hbody⟩
      exact ⟨quote, by simp, hquote, by simp, by simpa using hbody⟩

namespace Scanner

/-- The reader after a text that stays in the open statement. -/
def took (s : Scanner) (t : Text) (mode : Mode) : Scanner :=
  { s with
    offset := s.offset + t.length
    mode := mode
    pending := s.pending.map fun p => { p with body := t.reverse ++ p.body } }

@[simp]
theorem took_mode (s : Scanner) (t : Text) (mode : Mode) : (s.took t mode).mode = mode := rfl

@[simp]
theorem took_parens (s : Scanner) (t : Text) (mode : Mode) :
    (s.took t mode).parens = s.parens := rfl

@[simp]
theorem took_pending (s : Scanner) (t : Text) (mode : Mode) :
    (s.took t mode).pending = s.pending.map fun p => { p with body := t.reverse ++ p.body } := rfl

theorem took_nil (s : Scanner) : s.took [] s.mode = s := by
  cases s
  simp [took]

theorem took_took (s : Scanner) (a b : Text) (m n : Mode) :
    (s.took a m).took b n = s.took (a ++ b) n := by
  cases s
  simp [took, Nat.add_assoc, Function.comp_def]

theorem pass_eq_took (s : Scanner) (c : CodePoint) (mode : Mode) :
    s.pass c mode = s.took [c] mode := rfl

/-- A visible character of code that opens no comment. -/
theorem step_of_visible {s : Scanner} {b : Bool} {c : CodePoint} (hmode : s.mode = .code b)
    (hblank : isBlank c = false) (hslash : c ≠ '/') (next : Option CodePoint) :
    s.step c next = s.opened.readCode c next := by
  simp [step, hmode, hblank, hslash]

theorem step_of_plain {s : Scanner} {b : Bool} {c : CodePoint} (hmode : s.mode = .code b)
    (hpending : s.pending ≠ none) (hc : isPlain c) (next : Option CodePoint) :
    ∃ b', s.step c next = (s.took [c] (.code b'), []) := by
  simp only [isPlain, ne_eq, decide_not, Bool.and_eq_true, Bool.not_eq_eq_eq_not, Bool.not_true,
    decide_eq_false_iff_not] at hc
  by_cases hblank : isBlank c
  · exact ⟨false, by simp [step, hmode, hblank, hc, pass_eq_took]⟩
  · refine ⟨c = ':', ?_⟩
    rw [step_of_visible hmode (by simpa using hblank) hc.2, opened_eq_self hpending]
    simp [readCode, hc, pass_eq_took]

/-- The reader comes from `s` to `s'` over a text that is followed by `next`, and no statement is
closed within the text. -/
structure Reads (s : Scanner) (next : Option CodePoint) (t : Text) (s' : Scanner) : Prop where
  advance : s.advance next t = s'
  closedIn : s.closedIn next t = []

namespace Reads

theorem nil (s : Scanner) (next : Option CodePoint) : s.Reads next [] s := ⟨rfl, rfl⟩

theorem single {s s' : Scanner} {next : Option CodePoint} {c : CodePoint}
    (h : s.step c next = (s', [])) : s.Reads next [c] s' :=
  ⟨by simp [Scanner.advance, h], by simp [Scanner.closedIn, h]⟩

theorem append {s s' s'' : Scanner} {next : Option CodePoint} {a b : Text}
    (ha : s.Reads (b.head?.or next) a s') (hb : s'.Reads next b s'') :
    s.Reads next (a ++ b) s'' := by
  constructor
  · rw [advance_append, ha.advance, hb.advance]
  · rw [closedIn_append, ha.closedIn, ha.advance, hb.closedIn, List.append_nil]

/-- A visible character that opens no comment opens a statement where none is open. -/
theorem of_opened {s s' : Scanner} {b : Bool} {next : Option CodePoint} {c : CodePoint}
    {rest : Text} (hmode : s.mode = .code b) (hblank : isBlank c = false) (hslash : c ≠ '/')
    (h : s.opened.Reads next (c :: rest) s') : s.Reads next (c :: rest) s' := by
  have hstep : s.step c (rest.head?.or next) = s.opened.step c (rest.head?.or next) := by
    rw [step_of_visible hmode hblank hslash, step_of_visible (s := s.opened) hmode hblank hslash,
      opened_eq_self (s := s.opened) (by simp)]
  constructor
  · rw [← h.advance, Scanner.advance, Scanner.advance, hstep]
  · rw [← h.closedIn, Scanner.closedIn, Scanner.closedIn, hstep]

end Reads

/-- The inside of a quoted string, up to its closing quote. -/
theorem reads_quoted {s : Scanner} {quote : CodePoint} {body : Text}
    (hmode : s.mode = .quoted quote false none)
    (hbody : ∀ c ∈ body, c ≠ quote ∧ c ≠ '\\' ∧ c ≠ '\n') (next : Option CodePoint) :
    s.Reads next body (s.took body (.quoted quote false none)) := by
  induction body generalizing s with
  | nil =>
    rw [← hmode, took_nil]
    exact .nil s next
  | cons c rest ih =>
    obtain ⟨hquote, hbackslash, hline⟩ := hbody c (by simp)
    have hstep : s.step c (rest.head?.or next) = (s.took [c] (.quoted quote false none), []) := by
      simp [step, hmode, hquote, hbackslash, hline, pass_eq_took]
    have hrest := ih (s := s.took [c] (.quoted quote false none)) rfl
      fun d hd => hbody d (by simp [hd])
    rw [took_took] at hrest
    exact (Reads.single hstep).append hrest

/-- The inside of an interpolation, as long as there is neither a quote nor a brace. -/
theorem reads_interpolation {s : Scanner} {braces : Nat} {t : Text}
    (hmode : s.mode = .interpolation braces)
    (ht : ∀ c ∈ t, c ≠ '"' ∧ c ≠ '\x27' ∧ c ≠ '\x7b' ∧ c ≠ '\x7d') (next : Option CodePoint) :
    s.Reads next t (s.took t (.interpolation braces)) := by
  induction t generalizing s with
  | nil =>
    rw [← hmode, took_nil]
    exact .nil s next
  | cons c rest ih =>
    obtain ⟨hdouble, hsingle, hopen, hclose⟩ := ht c (by simp)
    have hstep : s.step c (rest.head?.or next) = (s.took [c] (.interpolation braces), []) := by
      simp [step, hmode, hdouble, hsingle, hopen, hclose, pass_eq_took]
    have hrest := ih (s := s.took [c] (.interpolation braces)) rfl
      fun d hd => ht d (by simp [hd])
    rw [took_took] at hrest
    exact (Reads.single hstep).append hrest

end Scanner

/-- In code the text stays in the open statement, whatever follows it. -/
def Kept (t : Text) : Prop :=
  ∀ (s : Scanner) (next : Option CodePoint), (∃ b, s.mode = .code b) → s.pending ≠ none →
    ∃ b, s.Reads next t (s.took t (.code b))

namespace Kept

theorem nil : Kept [] := by
  rintro s next ⟨b, hb⟩ -
  refine ⟨b, ?_⟩
  rw [← hb, Scanner.took_nil]
  exact .nil s next

theorem append {a b : Text} (ha : Kept a) (hb : Kept b) : Kept (a ++ b) := by
  intro s next hmode hpending
  obtain ⟨m, hread⟩ := ha s (b.head?.or next) hmode hpending
  have hpending' : (s.took a (.code m)).pending ≠ none := by simpa using hpending
  obtain ⟨n, hread'⟩ := hb (s.took a (.code m)) next ⟨m, rfl⟩ hpending'
  rw [Scanner.took_took] at hread'
  exact ⟨n, hread.append hread'⟩

theorem of_plain {t : Text} (h : ∀ c ∈ t, isPlain c) : Kept t := by
  induction t with
  | nil => exact nil
  | cons c rest ih =>
    have hc : Kept [c] := by
      rintro s next ⟨b, hb⟩ hpending
      obtain ⟨b', hstep⟩ := Scanner.step_of_plain hb hpending (h c (by simp)) next
      exact ⟨b', .single hstep⟩
    exact hc.append (ih fun d hd => h d (by simp [hd]))

theorem of_quoted {t : Text} (h : IsQuoted t) : Kept t := by
  obtain ⟨quote, body, hquote, rfl, hbody⟩ := h
  rintro s next ⟨b, hb⟩ hpending
  have hopen : s.step quote (body.head?.or (some quote)) =
      (s.took [quote] (.quoted quote false none), []) := by
    have hblank : isBlank quote = false := by obtain rfl | rfl := hquote <;> decide
    have hslash : quote ≠ '/' := by obtain rfl | rfl := hquote <;> decide
    rw [Scanner.step_of_visible hb hblank hslash, Scanner.opened_eq_self hpending]
    simp [Scanner.readCode, hquote, Scanner.pass_eq_took]
  have hinside := Scanner.reads_quoted (s := s.took [quote] (.quoted quote false none)) rfl hbody
    (some quote)
  rw [Scanner.took_took] at hinside
  have hclose : (s.took ([quote] ++ body) (.quoted quote false none)).step quote next =
      (s.took (quote :: (body ++ [quote])) (.code false), []) := by
    have hbackslash : quote ≠ '\\' := by obtain rfl | rfl := hquote <;> decide
    simp [Scanner.step, hbackslash, Scanner.afterString, Scanner.pass_eq_took, Scanner.took_took]
  refine ⟨false, ?_⟩
  have hread := ((Scanner.Reads.single hopen).append hinside).append (.single hclose)
  simpa using hread

theorem parenthesized {t : Text} (h : Kept t) : Kept ('(' :: (t ++ [.char ')'])) := by
  rintro s next ⟨b, hb⟩ hpending
  -- inside of the parentheses the reader differs in their number only
  let inside (u : Text) (mode : Mode) : Scanner :=
    ({ s with parens := s.parens + 1 } : Scanner).took u mode
  have hinside : ∀ u mode, (inside u mode).pending ≠ none := by
    intro u mode
    simpa [inside] using hpending
  have hopen : s.step '(' (t.head?.or (some (.char ')'))) = (inside ['('] (.code false), []) := by
    rw [Scanner.step_of_visible hb (by decide) (by decide), Scanner.opened_eq_self hpending]
    simp [Scanner.readCode, Scanner.pass_eq_took, inside]
  obtain ⟨m, hread⟩ := h (inside ['('] (.code false)) (some (.char ')')) ⟨false, rfl⟩ (hinside _ _)
  have hmiddle : (inside ['('] (.code false)).took t (.code m) = inside ('(' :: t) (.code m) :=
    Scanner.took_took _ _ _ _ _
  rw [hmiddle] at hread
  have hclose : (inside ('(' :: t) (.code m)).step ')' next =
      (s.took ('(' :: (t ++ [.char ')'])) (.code false), []) := by
    rw [Scanner.step_of_visible rfl (by decide) (by decide),
      Scanner.opened_eq_self (hinside _ _)]
    simp [Scanner.readCode, inside, Scanner.took, Scanner.pass, Function.comp_def, Nat.add_assoc]
  refine ⟨false, ?_⟩
  have h' := ((Scanner.Reads.single hopen).append hread).append (.single hclose)
  simpa using h'

/-- A text that is kept, from its first visible character on, and then ended by a semicolon is one
statement. -/
theorem settles {t : Text} {c : CodePoint} (h : Kept t) (hhead : t.head? = some c)
    (hblank : isBlank c = false) (hslash : c ≠ '/') (hstrip : Text.strip t = t) :
    Settles (t ++ [CodePoint.char ';']) [⟨t, 0, true⟩] := by
  intro offset blocks next hblocks
  obtain ⟨rest, rfl⟩ := List.head?_eq_some_iff.mp hhead
  -- the first visible character opens the statement, and no part of the text closes it
  obtain ⟨m, hread⟩ :=
    h (Scanner.between offset blocks).opened (some (.char ';')) ⟨false, rfl⟩ (by simp)
  have hread' := Scanner.Reads.of_opened (s := .between offset blocks) rfl hblank hslash hread
  have hheld : ((Scanner.between offset blocks).opened.took (c :: rest) (.code m)).heldText =
      c :: rest := by
    simpa [Scanner.heldText, Scanner.between] using hstrip
  have hend : ((Scanner.between offset blocks).opened.took (c :: rest) (.code m)).step ';' next =
      (.between (offset + (c :: rest ++ [CodePoint.char ';']).length) blocks,
        [⟨c :: rest, offset, offset + (c :: rest ++ [CodePoint.char ';']).length, blocks.length,
          true⟩]) := by
    rw [Scanner.step_of_visible rfl (by decide) (by decide),
      Scanner.opened_eq_self (by simp)]
    have hparens : ((Scanner.between offset blocks).opened.took (c :: rest) (.code m)).parens = 0 :=
      rfl
    simp only [Scanner.readCode, Scanner.emit, hheld, hparens]
    simp [Scanner.between, Scanner.closed, Scanner.took, hblocks, Nat.add_assoc]
  constructor
  · rw [Scanner.advance_append, List.head?_cons, Option.some_or, hread'.advance, Scanner.advance,
      List.head?_nil, Option.none_or, hend]
    rfl
  · rw [Scanner.closedIn_append, List.head?_cons, Option.some_or, hread'.advance,
      hread'.closedIn, Scanner.closedIn, List.head?_nil, Option.none_or, hend]
    simp [Scanner.closedIn, Statement.reading, Reading.deepen]

end Kept
end StyleVars
