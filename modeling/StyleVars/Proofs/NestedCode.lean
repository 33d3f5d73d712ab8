import StyleVars.Proofs.StatementTexts

/-!
# Nested code

Code in which quotes, parentheses and interpolations are properly nested stays in the statement it
stands in (`Scanner.reads_code`). What may follow a character is part of this: a slash before
another one would open a comment, and a number sign before a brace an interpolation. Behind a colon
two slashes open nothing, so that addresses may stand in code (`Scanner.reads_colonCode`). Between
two statements, white space and comments change nothing (`Scanner.reads_gap`).
-/

namespace StyleVars

/-! ## Strings and interpolations -/

/-- What stands between the quotes of a string, where only a backslash brings in a quote or a line
feed. -/
inductive QuotedBody (quote : CodePoint) : Text → Prop
  | nil : QuotedBody quote []
  | char {c : CodePoint} {rest : Text} (hc : c ≠ quote ∧ c ≠ '\\' ∧ c ≠ '\n')
    (h : QuotedBody quote rest) : QuotedBody quote (c :: rest)
  | escape {c : CodePoint} {rest : Text} (h : QuotedBody quote rest) :
    QuotedBody quote ('\\' :: c :: rest)

/-- What stands between the braces of an interpolation: its braces are balanced outside of strings.
-/
inductive InterpolationBody : Text → Prop
  | nil : InterpolationBody []
  | char {c : CodePoint} {rest : Text} (hc : c ≠ '"' ∧ c ≠ '\x27' ∧ c ≠ '\x7b' ∧ c ≠ '\x7d')
    (h : InterpolationBody rest) : InterpolationBody (c :: rest)
  | quoted {quote : CodePoint} {body rest : Text} (hquote : quote = '"' ∨ quote = '\x27')
    (hbody : QuotedBody quote body) (h : InterpolationBody rest) :
    InterpolationBody (quote :: (body ++ quote :: rest))
  | braces {inner rest : Text} (hinner : InterpolationBody inner) (h : InterpolationBody rest) :
    InterpolationBody ('\x7b' :: (inner ++ .char '\x7d' :: rest))

namespace Scanner

/-- Two pieces of a text that stay in the open statement, after each other. -/
theorem Reads.took_append {s : Scanner} {next : Option CodePoint} {a b : Text} {m n : Mode}
    (ha : s.Reads (b.head?.or next) a (s.took a m))
    (hb : (s.took a m).Reads next b ((s.took a m).took b n)) :
    s.Reads next (a ++ b) (s.took (a ++ b) n) := by
  rw [took_took] at hb
  exact ha.append hb

/-- One character that stays in the open statement, in front of others. -/
theorem Reads.took_cons {s : Scanner} {next : Option CodePoint} {c : CodePoint} {rest : Text}
    {m n : Mode} (hc : s.step c (rest.head?.or next) = (s.took [c] m, []))
    (hrest : (s.took [c] m).Reads next rest ((s.took [c] m).took rest n)) :
    s.Reads next (c :: rest) (s.took (c :: rest) n) :=
  Reads.took_append (a := [c]) (.single hc) hrest

/-- The inside of a string, up to its closing quote. -/
theorem reads_quotedBody {quote : CodePoint} {within : Option Nat} {body : Text}
    (h : QuotedBody quote body) {s : Scanner} (hmode : s.mode = .quoted quote false within)
    (next : Option CodePoint) : s.Reads next body (s.took body (.quoted quote false within)) := by
  induction h generalizing s with
  | nil =>
    rw [← hmode, took_nil]
    exact .nil s next
  | @char c rest hc h ih =>
    refine Reads.took_cons (m := .quoted quote false within) ?_ (ih rfl)
    simp [step, hmode, hc, pass_eq_took]
  | @escape c rest h ih =>
    have hfirst : ∀ n, s.step '\\' n = (s.took [.char '\\'] (.quoted quote true within), []) := by
      intro n
      simp [step, hmode, pass_eq_took]
    refine Reads.took_cons (hfirst _) ?_
    refine Reads.took_cons (m := .quoted quote false within) ?_ (ih rfl)
    simp [step, pass_eq_took]

/-- A whole string, wherever its quote opens one. -/
theorem reads_string {quote : CodePoint} {body : Text} (hquote : quote = '"' ∨ quote = '\x27')
    (hbody : QuotedBody quote body) {s : Scanner} {within : Option Nat}
    (hopen : ∀ n, s.step quote n = (s.took [quote] (.quoted quote false within), []))
    (next : Option CodePoint) :
    s.Reads next (quote :: (body ++ [quote]))
      (s.took (quote :: (body ++ [quote])) (afterString within)) := by
  refine Reads.took_cons (hopen _) (Reads.took_append (reads_quotedBody hbody rfl _) (.single ?_))
  have hbackslash : quote ≠ '\\' := by obtain rfl | rfl := hquote <;> decide
  simp [step, hbackslash, pass_eq_took]

/-- The inside of an interpolation, up to its closing brace. -/
theorem reads_interpolationBody {body : Text} (h : InterpolationBody body) {s : Scanner}
    {braces : Nat} (hmode : s.mode = .interpolation (braces + 1)) (next : Option CodePoint) :
    s.Reads next body (s.took body (.interpolation (braces + 1))) := by
  induction h generalizing s braces next with
  | nil =>
    rw [← hmode, took_nil]
    exact .nil s next
  | @char c rest hc h ih =>
    refine Reads.took_cons (m := .interpolation (braces + 1)) ?_ (ih rfl _)
    simp [step, hmode, hc, pass_eq_took]
  | @quoted quote body rest hquote hbody h ih =>
    have hbraces : quote ≠ '\x7b' ∧ quote ≠ '\x7d' := by
      obtain rfl | rfl := hquote <;> exact ⟨by decide, by decide⟩
    have hopen : ∀ n, s.step quote n =
        (s.took [quote] (.quoted quote false (some (braces + 1))), []) := by
      intro n
      simp [step, hmode, hquote, hbraces, pass_eq_took]
    rw [List.append_cons, ← List.cons_append]
    exact .took_append (reads_string hquote hbody hopen _) (ih rfl _)
  | @braces inner rest hinner h ihinner ih =>
    refine Reads.took_cons (m := .interpolation (braces + 2)) ?_ ?_
    · simp [step, hmode, pass_eq_took]
    · refine Reads.took_append (ihinner rfl _) ?_
      refine Reads.took_cons (m := .interpolation (braces + 1)) ?_ (ih rfl _)
      simp [step, pass_eq_took]

end Scanner

/-! ## Code -/

/-- The character stands for itself: it is no quote and no parenthesis, and outside of parentheses
it neither ends a statement nor opens or closes a block. -/
def isLoose (inside : Bool) (c : CodePoint) : Bool :=
  c ≠ '"' && c ≠ '\x27' && c ≠ '(' && c ≠ ')' &&
    (inside || c ≠ ';' && c ≠ '\x7b' && c ≠ '\x7d')

/-- Together with the next character the character opens a comment or an interpolation. -/
def opensWith (c : CodePoint) (next : Option CodePoint) : Bool :=
  c = '/' && (next = some (.char '/') || next = some (.char '*')) ||
    c = '#' && next = some (.char '\x7b')

theorem Text.getLast?_of_append {p : CodePoint → Prop} {a t : Text}
    (h : ∀ c ∈ (a ++ t).getLast?, p c) : ∀ c ∈ t.getLast?, p c := by
  intro c hc
  refine h c ?_
  rw [List.getLast?_append, Option.mem_def.mp hc]
  rfl

/-- Code whose quotes, parentheses and interpolations are properly nested, with `next` behind it;
`inside` of parentheses semicolons and braces mean nothing. -/
inductive Code : Bool → Option CodePoint → Text → Prop
  | nil {inside : Bool} {next : Option CodePoint} : Code inside next []
  | char {inside : Bool} {next : Option CodePoint} {c : CodePoint} {rest : Text}
    (hc : isLoose inside c) (hnext : opensWith c (rest.head?.or next) = false)
    (h : Code inside next rest) : Code inside next (c :: rest)
  | quoted {inside : Bool} {next : Option CodePoint} {quote : CodePoint} {body rest : Text}
    (hquote : quote = '"' ∨ quote = '\x27') (hbody : QuotedBody quote body)
    (h : Code inside next rest) : Code inside next (quote :: (body ++ quote :: rest))
  | parens {inside : Bool} {next : Option CodePoint} {inner rest : Text}
    (hinner : Code true (some (.char ')')) inner) (h : Code inside next rest) :
    Code inside next ('(' :: (inner ++ .char ')' :: rest))
  | interpolation {inside : Bool} {next : Option CodePoint} {inner rest : Text}
    (hinner : InterpolationBody inner) (h : Code inside next rest) :
    Code inside next ('#' :: '\x7b' :: (inner ++ .char '\x7d' :: rest))

namespace Code

variable {inside : Bool} {next : Option CodePoint} {a b t : Text}

theorem append (ha : Code inside (b.head?.or next) a) (hb : Code inside next b) :
    Code inside next (a ++ b) := by
  generalize hbetween : b.head?.or next = between at ha
  induction ha with
  | nil => exact hb
  | @char inside between c rest hc hnext h ih =>
    rw [List.cons_append]
    refine .char hc ?_ (ih hb hbetween)
    rwa [List.head?_append, Option.or_assoc, hbetween]
  | @quoted inside between quote body rest hquote hbody h ih =>
    rw [List.cons_append, List.append_assoc]
    exact .quoted hquote hbody (ih hb hbetween)
  | @parens inside between inner rest hinner h ihinner ih =>
    rw [List.cons_append, List.append_assoc]
    exact .parens hinner (ih hb hbetween)
  | @interpolation inside between inner rest hinner h ih =>
    rw [List.cons_append, List.cons_append, List.append_assoc]
    exact .interpolation hinner (ih hb hbetween)

/-- What follows matters only to the last character. -/
theorem of_next (h : Code inside none t) (hlast : ∀ c ∈ t.getLast?, opensWith c next = false) :
    Code inside next t := by
  generalize hnone : (none : Option CodePoint) = before at h
  induction h with
  | nil => exact .nil
  | @char inside before c rest hc hbefore h ih =>
    subst hnone
    cases rest with
    | nil => exact .char hc (hlast c rfl) .nil
    | cons d rest => exact .char hc hbefore (ih hlast rfl)
  | @quoted inside before quote body rest hquote hbody h ih =>
    rw [List.append_cons, ← List.cons_append] at hlast
    exact .quoted hquote hbody (ih (Text.getLast?_of_append hlast) hnone)
  | @parens inside before inner rest hinner h ihinner ih =>
    rw [List.append_cons, ← List.cons_append] at hlast
    exact .parens hinner (ih (Text.getLast?_of_append hlast) hnone)
  | @interpolation inside before inner rest hinner h ih =>
    rw [List.append_cons, ← List.cons_append, ← List.cons_append] at hlast
    exact .interpolation hinner (ih (Text.getLast?_of_append hlast) hnone)

/-- Characters that mean nothing in code. -/
theorem of_loose (h : ∀ c ∈ t, isLoose inside c ∧ c ≠ '/' ∧ c ≠ '#') : Code inside next t := by
  induction t with
  | nil => exact .nil
  | cons c rest ih =>
    obtain ⟨hloose, hslash, hsign⟩ := h c List.mem_cons_self
    exact .char hloose (by simp [opensWith, hslash, hsign])
      (ih fun d hd => h d (List.mem_cons_of_mem _ hd))

end Code

/-- As `opensWith`, where two slashes behind a colon belong to an address and open no comment. -/
def opensBehind (afterColon : Bool) (c : CodePoint) (next : Option CodePoint) : Bool :=
  c = '/' && (!afterColon && next = some (.char '/') || next = some (.char '*')) ||
    c = '#' && next = some (.char '\x7b')

theorem opensBehind_false (c : CodePoint) (next : Option CodePoint) :
    opensBehind false c next = opensWith c next := by
  simp [opensBehind, opensWith]

/-- A colon before it makes a character open less. -/
theorem opensBehind_mono {afterColon : Bool} {c : CodePoint} {next : Option CodePoint}
    (h : opensBehind false c next = false) : opensBehind afterColon c next = false := by
  simp only [opensBehind, Bool.not_false, Bool.true_and, Bool.or_eq_false_iff,
    Bool.and_eq_false_iff, decide_eq_false_iff_not] at h ⊢
  exact ⟨h.1.imp_right fun hnext => ⟨.inr hnext.1, hnext.2⟩, h.2⟩

/-- Properly nested code in which addresses may stand: two slashes may follow a colon.
`afterColon` says that the text itself stands behind a colon. -/
inductive ColonCode : Bool → Bool → Option CodePoint → Text → Prop
  | nil {inside afterColon : Bool} {next : Option CodePoint} : ColonCode inside afterColon next []
  | char {inside afterColon : Bool} {next : Option CodePoint} {c : CodePoint} {rest : Text}
    (hc : isLoose inside c) (hnext : opensBehind afterColon c (rest.head?.or next) = false)
    (h : ColonCode inside (c = ':') next rest) : ColonCode inside afterColon next (c :: rest)
  | quoted {inside afterColon : Bool} {next : Option CodePoint} {quote : CodePoint}
    {body rest : Text} (hquote : quote = '"' ∨ quote = '\x27') (hbody : QuotedBody quote body)
    (h : ColonCode inside false next rest) :
    ColonCode inside afterColon next (quote :: (body ++ quote :: rest))
  | parens {inside afterColon : Bool} {next : Option CodePoint} {inner rest : Text}
    (hinner : ColonCode true false (some (.char ')')) inner)
    (h : ColonCode inside false next rest) :
    ColonCode inside afterColon next ('(' :: (inner ++ .char ')' :: rest))
  | interpolation {inside afterColon : Bool} {next : Option CodePoint} {inner rest : Text}
    (hinner : InterpolationBody inner) (h : ColonCode inside false next rest) :
    ColonCode inside afterColon next ('#' :: '\x7b' :: (inner ++ .char '\x7d' :: rest))

namespace ColonCode

variable {inside afterColon : Bool} {next : Option CodePoint} {a b t : Text}

theorem mono (h : ColonCode inside false next t) : ColonCode inside afterColon next t := by
  cases h with
  | nil => exact .nil
  | char hc hnext h => exact .char hc (opensBehind_mono hnext) h
  | quoted hquote hbody h => exact .quoted hquote hbody h
  | parens hinner h => exact .parens hinner h
  | interpolation hinner h => exact .interpolation hinner h

theorem of_code (h : Code inside next t) : ColonCode inside afterColon next t := by
  suffices hfalse : ColonCode inside false next t from hfalse.mono
  induction h with
  | nil => exact .nil
  | char hc hnext h ih => exact .char hc (by rwa [opensBehind_false]) ih.mono
  | quoted hquote hbody h ih => exact .quoted hquote hbody ih
  | parens hinner h ihinner ih => exact .parens ihinner ih
  | interpolation hinner h ih => exact .interpolation hinner ih

theorem append (ha : ColonCode inside afterColon (b.head?.or next) a)
    (hb : ColonCode inside false next b) : ColonCode inside afterColon next (a ++ b) := by
  generalize hbetween : b.head?.or next = between at ha
  induction ha with
  | nil => exact hb.mono
  | @char inside afterColon between c rest hc hnext h ih =>
    rw [List.cons_append]
    refine .char hc ?_ (ih hb hbetween)
    rwa [List.head?_append, Option.or_assoc, hbetween]
  | @quoted inside afterColon between quote body rest hquote hbody h ih =>
    rw [List.cons_append, List.append_assoc]
    exact .quoted hquote hbody (ih hb hbetween)
  | @parens inside afterColon between inner rest hinner h ihinner ih =>
    rw [List.cons_append, List.append_assoc]
    exact .parens hinner (ih hb hbetween)
  | @interpolation inside afterColon between inner rest hinner h ih =>
    rw [List.cons_append, List.cons_append, List.append_assoc]
    exact .interpolation hinner (ih hb hbetween)

/-- What follows matters only to the last character. -/
theorem of_next (h : ColonCode inside afterColon none t)
    (hlast : ∀ c ∈ t.getLast?, opensWith c next = false) : ColonCode inside afterColon next t := by
  generalize hnone : (none : Option CodePoint) = before at h
  induction h with
  | nil => exact .nil
  | @char inside afterColon before c rest hc hbefore h ih =>
    subst hnone
    cases rest with
    | nil => exact .char hc (opensBehind_mono (by rw [opensBehind_false]; exact hlast c rfl)) .nil
    | cons d rest => exact .char hc hbefore (ih hlast rfl)
  | @quoted inside afterColon before quote body rest hquote hbody h ih =>
    rw [List.append_cons, ← List.cons_append] at hlast
    exact .quoted hquote hbody (ih (Text.getLast?_of_append hlast) hnone)
  | @parens inside afterColon before inner rest hinner h ihinner ih =>
    rw [List.append_cons, ← List.cons_append] at hlast
    exact .parens hinner (ih (Text.getLast?_of_append hlast) hnone)
  | @interpolation inside afterColon before inner rest hinner h ih =>
    rw [List.append_cons, ← List.cons_append, ← List.cons_append] at hlast
    exact .interpolation hinner (ih (Text.getLast?_of_append hlast) hnone)

end ColonCode

namespace Scanner

/-- A character of code that stands for itself and opens nothing. -/
theorem step_of_loose {s : Scanner} {b inside : Bool} {c : CodePoint} {next : Option CodePoint}
    (hmode : s.mode = .code b) (hpending : s.pending ≠ none) (hparens : inside → 0 < s.parens)
    (hc : isLoose inside c) (hnext : opensBehind b c next = false) :
    s.step c next = (s.took [c] (.code (c = ':')), []) := by
  simp only [isLoose, ne_eq, decide_not, Bool.and_eq_true, Bool.or_eq_true, Bool.not_eq_true',
    decide_eq_false_iff_not] at hc
  -- inside of parentheses the count is positive, outside the character is no closing one
  have hclose : ∀ d : CodePoint, d = ';' ∨ d = '\x7b' ∨ d = '\x7d' → ¬(s.parens = 0 ∧ c = d) := by
    rintro d hd ⟨hzero, rfl⟩
    rcases hc.2 with hinside | ⟨⟨hsemicolon, hopen⟩, hcloses⟩
    · exact absurd (hparens hinside) (by omega)
    · rcases hd with rfl | rfl | rfl <;> contradiction
  have hline : ¬(c = '/' ∧ next = some (.char '/') ∧ b = false) := by
    rintro ⟨rfl, rfl, rfl⟩
    simp [opensBehind] at hnext
  have hblock : ¬(c = '/' ∧ next = some (.char '*')) := by
    rintro ⟨rfl, rfl⟩
    simp [opensBehind] at hnext
  have hsign : ¬(c = '#' ∧ next = some (.char '\x7b')) := by
    rintro ⟨rfl, rfl⟩
    simp [opensBehind] at hnext
  by_cases hblank : isBlank c
  · have hcolon : c ≠ ':' := by
      rintro rfl
      exact absurd hblank (by decide)
    simp [step, hmode, hblank, hline, hblock, hcolon, pass_eq_took]
  · simp only [step, hmode, hline, hblock, hblank, if_false, Bool.false_eq_true]
    rw [opened_eq_self hpending]
    simp [readCode, hc.1, hsign, hclose, pass_eq_took]

/-- Inside of parentheses the reader differs in their number only. -/
theorem step_openParen {s : Scanner} {b : Bool} (hmode : s.mode = .code b)
    (hpending : s.pending ≠ none) (next : Option CodePoint) :
    s.step '(' next =
      (({ s with parens := s.parens + 1 } : Scanner).took ['('] (.code false), []) := by
  rw [step_of_visible hmode (by decide) (by decide), opened_eq_self hpending]
  simp [readCode, pass_eq_took]

/-- Code stays in the statement that is open, and so do the addresses in it. -/
theorem reads_colonCode {inside afterColon : Bool} {next : Option CodePoint} {t : Text}
    (h : ColonCode inside afterColon next t) {s : Scanner} (hmode : s.mode = .code afterColon)
    (hpending : s.pending ≠ none) (hparens : inside → 0 < s.parens) :
    ∃ b, s.Reads next t (s.took t (.code b)) := by
  induction h generalizing s with
  | @nil inside afterColon next =>
    refine ⟨afterColon, ?_⟩
    rw [← hmode, took_nil]
    exact .nil s _
  | @char inside afterColon next c rest hc hnext h ih =>
    have hstep := step_of_loose hmode hpending hparens hc hnext
    obtain ⟨b, hrest⟩ := ih (s := s.took [c] (.code (c = ':'))) rfl (by simpa using hpending)
      hparens
    exact ⟨b, .took_cons hstep hrest⟩
  | @quoted inside afterColon next quote body rest hquote hbody h ih =>
    have hblank : isBlank quote = false := by obtain rfl | rfl := hquote <;> decide
    have hslash : quote ≠ '/' := by obtain rfl | rfl := hquote <;> decide
    have hopen : ∀ n, s.step quote n = (s.took [quote] (.quoted quote false none), []) := by
      intro n
      rw [step_of_visible hmode hblank hslash, opened_eq_self hpending]
      simp [readCode, hquote, pass_eq_took]
    obtain ⟨b, hrest⟩ := ih (s := s.took (quote :: (body ++ [quote])) (.code false)) rfl
      (by simpa using hpending) hparens
    rw [List.append_cons, ← List.cons_append]
    exact ⟨b, .took_append (reads_string hquote hbody hopen _) hrest⟩
  | @parens inside afterColon next inner rest hinner h ihinner ih =>
    let deeper : Scanner := { s with parens := s.parens + 1 }
    have hopen : ∀ n, s.step '(' n = (deeper.took ['('] (.code false), []) :=
      step_openParen hmode hpending
    obtain ⟨m, hread⟩ := ihinner (s := deeper.took ['('] (.code false)) rfl
      (by simpa [deeper] using hpending) fun _ => Nat.succ_pos _
    rw [took_took] at hread
    have hclose : ∀ n, (deeper.took ([.char '('] ++ inner) (.code m)).step ')' n =
        (s.took ('(' :: (inner ++ [.char ')'])) (.code false), []) := by
      intro n
      rw [step_of_visible rfl (by decide) (by decide),
        opened_eq_self (by simpa [deeper] using hpending)]
      simp [readCode, deeper, took, pass, Function.comp_def, Nat.add_assoc]
    obtain ⟨b, hrest⟩ := ih (s := s.took ('(' :: (inner ++ [.char ')'])) (.code false)) rfl
      (by simpa using hpending) hparens
    have hparen := ((Reads.single (hopen _)).append hread).append
      (.single (hclose (rest.head?.or next)))
    rw [List.append_cons, ← List.cons_append]
    refine ⟨b, .took_append ?_ hrest⟩
    simpa using hparen
  | @interpolation inside afterColon next inner rest hinner h ih =>
    have hopen : s.step '#' (some (.char '\x7b')) = (s.took ['#'] (.interpolation 0), []) := by
      rw [step_of_visible hmode (by decide) (by decide), opened_eq_self hpending]
      simp [readCode, pass_eq_took]
    obtain ⟨b, hrest⟩ := ih
      (s := ((s.took ['#', '\x7b'] (.interpolation 1)).took inner (.interpolation 1)).took
        [.char '\x7d'] (.code false)) rfl (by simpa using hpending) hparens
    refine ⟨b, .took_cons hopen (.took_cons (m := .interpolation 1) ?_ ?_)⟩
    · simp [step, pass_eq_took]
    · rw [took_took]
      refine .took_append (reads_interpolationBody hinner rfl _) ?_
      refine .took_cons (m := .code false) ?_ hrest
      simp [step, pass_eq_took]

/-- Code stays in the statement that is open. -/
theorem reads_code {inside : Bool} {next : Option CodePoint} {t : Text} (h : Code inside next t)
    {s : Scanner} (hmode : ∃ b, s.mode = .code b) (hpending : s.pending ≠ none)
    (hparens : inside → 0 < s.parens) : ∃ b, s.Reads next t (s.took t (.code b)) := by
  obtain ⟨b, hb⟩ := hmode
  exact reads_colonCode (.of_code h) hb hpending hparens

end Scanner

/-! ## Gaps -/

/-- White space and comments, as they stand between two statements. -/
inductive Gap : Text → Prop
  | nil : Gap []
  | blank {c : CodePoint} {rest : Text} (hc : isBlank c) (h : Gap rest) : Gap (c :: rest)
  | line {body rest : Text} (hbody : CodePoint.char '\n' ∉ body) (h : Gap rest) :
    Gap ('/' :: '/' :: (body ++ .char '\n' :: rest))
  | block {body rest : Text} (hbody : ¬[CodePoint.char '*', .char '/'] <:+: body) (h : Gap rest) :
    Gap ('/' :: '*' :: (body ++ .char '*' :: .char '/' :: rest))

/-- A block comment with the given text in it. -/
def blockComment (body : Text) : Text := '/' :: '*' :: (body ++ [.char '*', .char '/'])

theorem Gap.of_blank {t : Text} (h : ∀ c ∈ t, isBlank c) : Gap t := by
  induction t with
  | nil => exact .nil
  | cons c rest ih =>
    exact .blank (h c List.mem_cons_self) (ih fun d hd => h d (List.mem_cons_of_mem _ hd))

theorem Gap.append {a b : Text} (ha : Gap a) (hb : Gap b) : Gap (a ++ b) := by
  induction ha with
  | nil => exact hb
  | blank hc h ih => exact .blank hc ih
  | line hbody h ih => simpa using Gap.line hbody ih
  | block hbody h ih => simpa using Gap.block hbody ih

namespace Scanner

/-- The inside of a line comment, up to its line feed. -/
theorem reads_lineComment {s : Scanner} {body : Text} (hmode : s.mode = .lineComment)
    (hbody : CodePoint.char '\n' ∉ body) (next : Option CodePoint) :
    s.Reads next body (s.took body .lineComment) := by
  induction body generalizing s with
  | nil =>
    rw [← hmode, took_nil]
    exact .nil s next
  | cons c rest ih =>
    have hc : c ≠ '\n' := fun heq => hbody (heq ▸ List.mem_cons_self)
    refine Reads.took_cons (m := .lineComment) ?_
      (ih rfl fun hmem => hbody (List.mem_cons_of_mem _ hmem))
    simp [step, hmode, hc, pass_eq_took]

/-- The inside of a block comment with its end. A star is the end when a slash follows. -/
theorem reads_blockComment {s : Scanner} {part : CommentPart} {body : Text}
    (hmode : s.mode = .blockComment part) (hpart : part ≠ .opening)
    (hstar : part = .star → body.head? ≠ some (.char '/'))
    (hbody : ¬[CodePoint.char '*', .char '/'] <:+: body) (next : Option CodePoint) :
    s.Reads next (body ++ [.char '*', .char '/'])
      (s.took (body ++ [.char '*', .char '/']) (.code false)) := by
  induction body generalizing s part with
  | nil =>
    refine Reads.took_cons (m := .blockComment .star) ?_ (.single ?_)
    · cases part <;> simp [step, hmode, pass_eq_took] at hpart ⊢
    · simp [step, pass_eq_took]
  | cons c rest ih =>
    have hrest : ¬[CodePoint.char '*', .char '/'] <:+: rest :=
      fun hclose => hbody (hclose.trans (List.suffix_cons c rest).isInfix)
    have hstep : ∀ n, s.step c n =
        (s.took [c] (.blockComment (if c = '*' then .star else .inside)), []) := by
      intro n
      cases part with
      | opening => exact absurd rfl hpart
      | inside => simp [step, hmode, pass_eq_took]
      | star =>
        have hslash : c ≠ '/' := fun hc => hstar rfl (by rw [hc]; rfl)
        simp [step, hmode, hslash, pass_eq_took]
    refine Reads.took_cons (hstep _) (ih rfl (by split_ifs <;> simp) ?_ hrest)
    intro hc hhead
    obtain ⟨after, rfl⟩ := List.head?_eq_some_iff.mp hhead
    split_ifs at hc with hc'
    exact hbody ⟨[], after, by rw [hc']; rfl⟩

/-- A block comment belongs to the statement that is open, if one is. -/
theorem reads_comment {s : Scanner} {b : Bool} {body : Text} (hmode : s.mode = .code b)
    (hbody : ¬[CodePoint.char '*', .char '/'] <:+: body) (next : Option CodePoint) :
    s.Reads next (blockComment body) (s.took (blockComment body) (.code false)) := by
  refine Reads.took_cons (m := .blockComment .opening) ?_
    (Reads.took_cons (m := .blockComment .inside) ?_ ?_)
  · simp [step, hmode, pass_eq_took]
  · simp [step, pass_eq_took]
  · exact reads_blockComment rfl (by simp) (by simp) hbody next

theorem took_between (offset : Nat) (blocks : List Bool) (t : Text) :
    (between offset blocks).took t (.code false) = between (offset + t.length) blocks := rfl

/-- A gap leaves the reader between two statements. -/
theorem reads_gap {t : Text} (h : Gap t) (offset : Nat) (blocks : List Bool)
    (next : Option CodePoint) :
    (between offset blocks).Reads next t (between (offset + t.length) blocks) := by
  rw [← took_between]
  generalize hs : between offset blocks = s
  have hcode : s.mode = .code false := by rw [← hs]; rfl
  clear hs
  induction h generalizing s with
  | nil =>
    rw [← hcode, took_nil]
    exact .nil s next
  | @blank c rest hc h ih =>
    have hslash : c ≠ '/' := by
      rintro rfl
      exact absurd hc (by decide)
    refine Reads.took_cons (m := .code false) ?_ (ih _ rfl)
    simp [step, hcode, hc, hslash, pass_eq_took]
  | @line body rest hbody h ih =>
    refine Reads.took_cons (m := .lineComment) ?_ (Reads.took_cons (m := .lineComment) ?_ ?_)
    · simp [step, hcode, pass_eq_took]
    · simp [step, pass_eq_took]
    · refine Reads.took_append (reads_lineComment rfl hbody _) ?_
      refine Reads.took_cons (m := .code false) ?_ (ih _ rfl)
      simp [step, pass_eq_took]
  | @block body rest hbody h ih =>
    have hcut : CodePoint.char '/' :: .char '*' :: (body ++ CodePoint.char '*' :: .char '/' ::
        rest) = blockComment body ++ rest := by
      simp [blockComment]
    rw [hcut]
    exact .took_append (reads_comment hcode hbody _) (ih _ rfl)

end Scanner
end StyleVars
