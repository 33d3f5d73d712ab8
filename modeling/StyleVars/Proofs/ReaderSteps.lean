import StyleVars.Sheet.Statement
import Mathlib.Tactic.SplitIfs

/-!
# The reader of a style sheet, step by step

`CodeStep` says once what a character of code can do; everything else about the reader follows from
it. Between two statements the reader depends neither on what it has read before nor on the
character that comes next, so texts that end there can be read one after the other
(`Scanner.advance_next`, `Scanner.scan_append`).
-/

namespace StyleVars

/-- The next character belongs to a comment. -/
def Mode.isComment : Mode → Bool
  | .lineComment | .blockComment _ => true
  | _ => false

/-- A statement without its place in the text: its text, how many blocks are open around it, and
whether each of them is always run. -/
structure Reading where
  text : Text
  depth : Nat
  unconditional : Bool
  deriving DecidableEq

/-- A statement without its place in the text. -/
def Statement.reading (s : Statement) : Reading := ⟨s.text, s.depth, s.unconditional⟩

namespace Scanner

/-- The reader between two statements. -/
def between (offset : Nat) (blocks : List Bool) : Scanner := ⟨offset, .code false, none, 0, blocks⟩

/-- Where no statement is open, no parenthesis is, and the reader stands in code that does not
follow a colon or in a comment. -/
structure Settled (s : Scanner) : Prop where
  parens : s.pending = none → s.parens = 0
  mode : s.pending = none → s.mode = .code false ∨ s.mode.isComment

/-! ## One character -/

/-- What reading a character can do: the reader passes over it, it belongs to a statement, or it
ends a statement, opens a block or closes one. -/
inductive Step (s : Scanner) (c : CodePoint) : Scanner × List Statement → Prop
  | passed (mode : Mode) (hmode : s.pending = none → mode = .code false ∨ mode.isComment) :
    Step s c (s.pass c mode, [])
  | kept (mode : Mode) (parens : Nat) (hcode : ∃ b, s.mode = .code b) (hblank : isBlank c = false) :
    Step s c (({ s.opened with parens := parens } : Scanner).pass c mode, [])
  | ended (hc : c = ';') (hcode : ∃ b, s.mode = .code b) (hparens : s.parens = 0) :
    Step s c (s.opened.closed, s.opened.emit (s.offset + 1))
  | entered (hc : c = '\x7b') (hcode : ∃ b, s.mode = .code b) (hparens : s.parens = 0) :
    Step s c
      (({ s.opened with blocks := alwaysRun s.opened.heldText :: s.blocks } : Scanner).closed, [])
  | left (hc : c = '\x7d') (hcode : ∃ b, s.mode = .code b) (hparens : s.parens = 0) :
    Step s c
      (({ s.opened with blocks := s.blocks.tail } : Scanner).closed, s.opened.emit s.offset)

/-- Outside of code a character only moves the reader on, whatever comes next. A comment is followed
by more of it or by code. -/
theorem step_of_not_code {s : Scanner} (hmode : ∀ b, s.mode ≠ .code b) (c : CodePoint) :
    ∃ mode, (s.mode.isComment → mode = .code false ∨ mode.isComment) ∧
      ∀ next, s.step c next = (s.pass c mode, []) := by
  unfold step
  cases hm : s.mode with
  | code b => exact absurd hm (hmode b)
  | lineComment =>
    refine ⟨_, fun _ => ?_, fun _ => rfl⟩
    by_cases hc : c = '\n' <;> simp [hc, Mode.isComment]
  | blockComment part =>
    refine ⟨_, fun _ => ?_, fun _ => rfl⟩
    cases part <;> by_cases hc : c = '*' <;> by_cases hc' : c = '/' <;>
      simp [hc, hc', Mode.isComment]
  | quoted quote escaped within => exact ⟨_, fun h => by simp [Mode.isComment] at h, fun _ => rfl⟩
  | interpolation braces => exact ⟨_, fun h => by simp [Mode.isComment] at h, fun _ => rfl⟩

theorem step_of_code {s : Scanner} {b : Bool} (hmode : s.mode = .code b) (c : CodePoint)
    (next : Option CodePoint) : Step s c (s.step c next) := by
  unfold step
  rw [hmode]
  simp only
  split_ifs with h1 h2 h3
  · exact .passed _ fun _ => .inr rfl
  · exact .passed _ fun _ => .inr rfl
  · exact .passed _ fun _ => .inl rfl
  · unfold readCode
    split_ifs with h4 h5 h6 h7 h8 h9 h10
    · exact .kept _ _ ⟨b, hmode⟩ (by simpa using h3)
    · exact .kept _ _ ⟨b, hmode⟩ (by simpa using h3)
    · exact .kept _ _ ⟨b, hmode⟩ (by simpa using h3)
    · exact .kept _ _ ⟨b, hmode⟩ (by simpa using h3)
    · exact .ended h8.2 ⟨b, hmode⟩ h8.1
    · exact .entered h9.2 ⟨b, hmode⟩ h9.1
    · exact .left h10.2 ⟨b, hmode⟩ h10.1
    · exact .kept _ _ ⟨b, hmode⟩ (by simpa using h3)

theorem Settled.step_cases {s : Scanner} (h : s.Settled) (c : CodePoint)
    (next : Option CodePoint) : Step s c (s.step c next) := by
  by_cases hcode : ∃ b, s.mode = .code b
  · obtain ⟨b, hb⟩ := hcode
    exact step_of_code hb c next
  · have hcode' : ∀ b, s.mode ≠ .code b := fun b hb => hcode ⟨b, hb⟩
    obtain ⟨mode, hcomment, hstep⟩ := step_of_not_code hcode' c
    rw [hstep]
    exact .passed mode fun hp => hcomment ((h.mode hp).resolve_left (hcode' false))

@[simp]
theorem pass_offset (s : Scanner) (c : CodePoint) (mode : Mode) :
    (s.pass c mode).offset = s.offset + 1 := rfl

@[simp]
theorem pass_mode (s : Scanner) (c : CodePoint) (mode : Mode) : (s.pass c mode).mode = mode := rfl

@[simp]
theorem pass_parens (s : Scanner) (c : CodePoint) (mode : Mode) :
    (s.pass c mode).parens = s.parens := rfl

@[simp]
theorem pass_blocks (s : Scanner) (c : CodePoint) (mode : Mode) :
    (s.pass c mode).blocks = s.blocks := rfl

@[simp]
theorem pass_pending (s : Scanner) (c : CodePoint) (mode : Mode) :
    (s.pass c mode).pending = s.pending.map fun p => { p with body := c :: p.body } := rfl

@[simp]
theorem opened_offset (s : Scanner) : s.opened.offset = s.offset := rfl

@[simp]
theorem opened_parens (s : Scanner) : s.opened.parens = s.parens := rfl

@[simp]
theorem opened_blocks (s : Scanner) : s.opened.blocks = s.blocks := rfl

@[simp]
theorem opened_pending (s : Scanner) :
    s.opened.pending = some (s.pending.getD ⟨s.offset, []⟩) := rfl

theorem opened_eq_self {s : Scanner} (h : s.pending ≠ none) : s.opened = s := by
  obtain ⟨p, hp⟩ := Option.ne_none_iff_exists'.mp h
  cases s
  simp_all [opened]

@[simp]
theorem closed_offset (s : Scanner) : s.closed.offset = s.offset + 1 := rfl

@[simp]
theorem closed_mode (s : Scanner) : s.closed.mode = .code false := rfl

@[simp]
theorem closed_pending (s : Scanner) : s.closed.pending = none := rfl

@[simp]
theorem closed_parens (s : Scanner) : s.closed.parens = s.parens := rfl

@[simp]
theorem closed_blocks (s : Scanner) : s.closed.blocks = s.blocks := rfl

/-! ## Between two statements -/

theorem between_settled (offset : Nat) (blocks : List Bool) : (between offset blocks).Settled :=
  ⟨fun _ => rfl, fun _ => .inl rfl⟩

/-- A settled reader in code without an open statement stands between two statements. -/
theorem Settled.eq_between {s : Scanner} (h : s.Settled) (hpending : s.pending = none)
    (hmode : s.mode.isComment = false) : s = between s.offset s.blocks := by
  obtain hcode | hcomment := h.mode hpending
  · have hparens := h.parens hpending
    cases s
    simp_all [between]
  · rw [hmode] at hcomment
    exact absurd hcomment Bool.false_ne_true

theorem Settled.step {s : Scanner} (h : s.Settled) (c : CodePoint) (next : Option CodePoint) :
    (s.step c next).1.Settled := by
  have hstep := h.step_cases c next
  generalize s.step c next = r at hstep ⊢
  cases hstep with
  | passed mode hmode =>
    exact ⟨fun hp => h.parens (by simpa using hp), fun hp => hmode (by simpa using hp)⟩
  | kept mode parens hcode hblank => exact ⟨fun hp => by simp at hp, fun hp => by simp at hp⟩
  | ended hc hcode hparens => exact ⟨fun _ => hparens, fun _ => .inl rfl⟩
  | entered hc hcode hparens => exact ⟨fun _ => hparens, fun _ => .inl rfl⟩
  | left hc hcode hparens => exact ⟨fun _ => hparens, fun _ => .inl rfl⟩

theorem Settled.step_offset {s : Scanner} (h : s.Settled) (c : CodePoint)
    (next : Option CodePoint) : (s.step c next).1.offset = s.offset + 1 := by
  have hstep := h.step_cases c next
  generalize s.step c next = r at hstep ⊢
  cases hstep <;> rfl

/-- A statement that was just opened has no text. -/
theorem emit_opened_of_none {s : Scanner} (h : s.pending = none) (stop : Nat) :
    s.opened.emit stop = [] := by
  simp [emit, heldText, h, Text.strip, Text.trimEnds]

/-- No statement is closed where none was open, nor where one stays open. -/
theorem Settled.found_eq_nil {s : Scanner} (h : s.Settled) (c : CodePoint)
    (next : Option CodePoint) (hpending : s.pending = none ∨ (s.step c next).1.pending ≠ none) :
    (s.step c next).2 = [] := by
  have hstep := h.step_cases c next
  generalize s.step c next = r at hstep hpending ⊢
  cases hstep with
  | passed | kept | entered => rfl
  | ended hc hcode hparens =>
    exact emit_opened_of_none (hpending.resolve_right fun hne => hne rfl) _
  | left hc hcode hparens =>
    exact emit_opened_of_none (hpending.resolve_right fun hne => hne rfl) _

/-- Only a semicolon or a brace can close the statement that is open. -/
theorem readCode_pending {s : Scanner} {c : CodePoint} (hpending : s.pending ≠ none)
    (hc : c ≠ ';' ∧ c ≠ '\x7b' ∧ c ≠ '\x7d') (next : Option CodePoint) :
    (s.readCode c next).1.pending ≠ none := by
  obtain ⟨h1, h2, h3⟩ := hc
  unfold readCode
  simp only [h1, h2, h3, and_false, if_false]
  split_ifs <;> simpa using hpending

/-- The character after one matters only to a slash or a number sign of code, and neither ends where
no statement and no comment is open. -/
theorem step_next {s : Scanner} {c : CodePoint} {next : Option CodePoint}
    (hpending : (s.step c next).1.pending = none)
    (hmode : (s.step c next).1.mode.isComment = false ∨ next = none) (next' : Option CodePoint) :
    s.step c next' = s.step c next := by
  by_cases hcode : ∃ b, s.mode = .code b
  · obtain ⟨b, hb⟩ := hcode
    have hopened : s.opened.pending ≠ none := by simp
    unfold step at hpending hmode ⊢
    rw [hb] at hpending hmode ⊢
    simp only at hpending hmode ⊢
    by_cases hslash : c = '/'
    · -- a comment would be open now, and so would a statement
      exfalso
      have hblank : isBlank c = false := by rw [hslash]; decide
      have hread := readCode_pending (c := c) hopened (by simp [hslash]) next
      split_ifs at hpending hmode with h1 h2 h3
      · obtain hmode | hmode := hmode <;> simp_all [Mode.isComment]
      · obtain hmode | hmode := hmode <;> simp_all [Mode.isComment]
      · simp [hblank] at h3
      · exact hread hpending
    · by_cases hsign : c = '#'
      · -- a statement would be open now
        exfalso
        have hblank : isBlank c = false := by rw [hsign]; decide
        simp only [hslash, hblank, false_and, if_false, Bool.false_eq_true] at hpending
        exact readCode_pending hopened (by simp [hsign]) next hpending
      · simp [hslash, hsign, readCode]
  · obtain ⟨mode, -, hstep⟩ := step_of_not_code (fun b hb => hcode ⟨b, hb⟩) c
    rw [hstep, hstep]

/-- Every character but a slash, a star and an opening brace is as good as none after another one.
-/
theorem step_of_next {s : Scanner} (c : CodePoint) {next : Option CodePoint}
    (h : next ≠ some (.char '/') ∧ next ≠ some (.char '*') ∧ next ≠ some (.char '\x7b')) :
    s.step c next = s.step c none := by
  obtain ⟨hslash, hstar, hbrace⟩ := h
  unfold step readCode
  cases s.mode <;> simp [hslash, hstar, hbrace]

/-- The open statement starts with a visible character. -/
def Visible (s : Scanner) : Prop :=
  ∀ p, s.pending = some p → ∃ c, p.body.getLast? = some c ∧ isBlank c = false

theorem Visible.pass {s : Scanner} (h : s.Visible) (c : CodePoint) (mode : Mode) :
    (s.pass c mode).Visible := by
  intro p hp
  obtain ⟨q, hq, rfl⟩ := Option.map_eq_some_iff.mp hp
  obtain ⟨first, hfirst, hblank⟩ := h q hq
  exact ⟨first, by simp [List.getLast?_cons, hfirst], hblank⟩

theorem Visible.step {s : Scanner} (hs : s.Settled) (h : s.Visible) (c : CodePoint)
    (next : Option CodePoint) : (s.step c next).1.Visible := by
  have hstep := hs.step_cases c next
  generalize s.step c next = r at hstep ⊢
  cases hstep with
  | passed mode hmode => exact h.pass c mode
  | kept mode parens hcode hblank =>
    by_cases hpending : s.pending = none
    · intro p hp
      simp only [pass_pending, opened_pending, hpending, Option.getD_none, Option.map_some,
        Option.some.injEq] at hp
      subst hp
      exact ⟨c, rfl, hblank⟩
    · rw [opened_eq_self hpending]
      have hparens : ({ s with parens := parens } : Scanner).Visible := h
      exact hparens.pass c mode
  | ended | entered | left =>
    intro p hp
    simp at hp

/-- The open statement has taken in the character that was read last. -/
theorem Settled.head?_body {s : Scanner} (h : s.Settled) {c : CodePoint} {next : Option CodePoint}
    {p : Pending} (hp : (s.step c next).1.pending = some p) : p.body.head? = some c := by
  have hpass : ∀ (u : Scanner) (mode : Mode), (u.pass c mode).pending = some p →
      p.body.head? = some c := by
    intro u mode hu
    obtain ⟨q, -, rfl⟩ := Option.map_eq_some_iff.mp hu
    rfl
  have hstep := h.step_cases c next
  generalize s.step c next = r at hstep hp
  cases hstep with
  | passed mode hmode => exact hpass s mode hp
  | kept mode parens hcode hblank => exact hpass _ mode hp
  | ended | entered | left => simp at hp

/-! ## A text -/

theorem Settled.advance {s : Scanner} (h : s.Settled) (next : Option CodePoint) (t : Text) :
    (s.advance next t).Settled := by
  induction t generalizing s with
  | nil => exact h
  | cons c rest ih => exact ih (h.step c _)

theorem Settled.advance_offset {s : Scanner} (h : s.Settled) (next : Option CodePoint) (t : Text) :
    (s.advance next t).offset = s.offset + t.length := by
  induction t generalizing s with
  | nil => rfl
  | cons c rest ih =>
    rw [Scanner.advance, ih (h.step c _), h.step_offset, List.length_cons]
    omega

theorem Visible.advance {s : Scanner} (hs : s.Settled) (h : s.Visible) (next : Option CodePoint)
    (t : Text) : (s.advance next t).Visible := by
  induction t generalizing s with
  | nil => exact h
  | cons c rest ih => exact ih (hs.step c _) (h.step hs c _)

theorem advance_append (s : Scanner) (next : Option CodePoint) (a b : Text) :
    s.advance next (a ++ b) = (s.advance (b.head?.or next) a).advance next b := by
  induction a generalizing s with
  | nil => rfl
  | cons c rest ih => simp only [List.cons_append, advance, ih, List.head?_append, Option.or_assoc]

theorem closedIn_append (s : Scanner) (next : Option CodePoint) (a b : Text) :
    s.closedIn next (a ++ b) =
      s.closedIn (b.head?.or next) a ++ (s.advance (b.head?.or next) a).closedIn next b := by
  induction a generalizing s with
  | nil => rfl
  | cons c rest ih =>
    simp only [List.cons_append, closedIn, advance, ih, List.head?_append, Option.or_assoc,
      List.append_assoc]

/-- The end of the text closes the statement that is still open. -/
theorem scan_eq (s : Scanner) (t : Text) :
    s.scan t = s.closedIn none t ++ (s.advance none t).emit (s.advance none t).offset := by
  induction t generalizing s with
  | nil => rfl
  | cons c rest ih =>
    simp only [scan, closedIn, advance, ih, Option.or_none, List.append_assoc]

theorem scan_append (s : Scanner) (a b : Text) :
    s.scan (a ++ b) = s.closedIn b.head? a ++ (s.advance b.head? a).scan b := by
  simp only [scan_eq, closedIn_append, advance_append, Option.or_none, List.append_assoc]

/-- Before every character but a slash, a star and an opening brace, a text is read as if nothing
followed it. -/
theorem advance_of_next {s : Scanner} {next : Option CodePoint}
    (h : next ≠ some (.char '/') ∧ next ≠ some (.char '*') ∧ next ≠ some (.char '\x7b'))
    (t : Text) : s.advance next t = s.advance none t ∧ s.closedIn next t = s.closedIn none t := by
  induction t generalizing s with
  | nil => exact ⟨rfl, rfl⟩
  | cons c rest ih =>
    have hstep : s.step c (rest.head?.or next) = s.step c (rest.head?.or none) := by
      cases rest with
      | nil => exact step_of_next c h
      | cons d rest => rfl
    obtain ⟨hadvance, hclosed⟩ := ih (s := (s.step c (rest.head?.or none)).1)
    simp only [advance, closedIn, hstep]
    exact ⟨hadvance, by rw [hclosed]⟩

/-- A text that ends where no statement and no comment is open is read alike whatever follows it. -/
theorem advance_next {s : Scanner} {next : Option CodePoint} {t : Text}
    (hpending : (s.advance next t).pending = none)
    (hmode : (s.advance next t).mode.isComment = false ∨ next = none) (next' : Option CodePoint) :
    s.advance next' t = s.advance next t ∧ s.closedIn next' t = s.closedIn next t := by
  induction t generalizing s with
  | nil => exact ⟨rfl, rfl⟩
  | cons c rest ih =>
    cases rest with
    | nil =>
      have hstep : s.step c next' = s.step c next := step_next hpending hmode next'
      simp only [advance, closedIn, List.head?_nil, Option.none_or, hstep, and_self]
    | cons d rest =>
      obtain ⟨hadvance, hclosed⟩ := ih hpending hmode
      refine ⟨hadvance, ?_⟩
      rw [closedIn, closedIn]
      simp only [List.head?_cons, Option.some_or] at hclosed ⊢
      rw [hclosed]

/-! ## Where statements start -/

/-- The first offset of the open statement, or that of the next character. -/
def earliest (s : Scanner) : Nat := (s.pending.map Pending.start).getD s.offset

theorem start_of_mem_emit {s : Scanner} {stop : Nat} {found : Statement}
    (h : found ∈ s.emit stop) : found.start = s.earliest := by
  unfold emit at h
  cases hp : s.pending with
  | none => simp [hp] at h
  | some p =>
    rw [hp] at h
    simp only at h
    split_ifs at h
    · simp at h
    · rw [List.mem_singleton.mp h, earliest, hp]
      rfl

/-- What is given when a statement is closed: at most one statement. -/
theorem emit_eq_nil_or (s : Scanner) (stop : Nat) :
    s.emit stop = [] ∨
      s.emit stop = [⟨s.heldText, s.earliest, stop, s.blocks.length, s.blocks.all id⟩] := by
  unfold emit
  cases hp : s.pending with
  | none => exact .inl rfl
  | some p =>
    simp only [earliest, hp]
    split_ifs
    · exact .inl rfl
    · exact .inr rfl

@[simp]
theorem opened_earliest (s : Scanner) : s.opened.earliest = s.earliest := by
  unfold earliest
  rw [opened_pending, opened_offset]
  cases s.pending <;> rfl

/-- A statement that is closed starts where the one that was open does. -/
theorem Settled.start_of_mem_found {s : Scanner} (h : s.Settled) {c : CodePoint}
    {next : Option CodePoint} {found : Statement} (hfound : found ∈ (s.step c next).2) :
    found.start = s.earliest := by
  have hstep := h.step_cases c next
  generalize s.step c next = r at hstep hfound
  cases hstep with
  | passed | kept | entered => simp at hfound
  | ended | left =>
    have hemit : found ∈ s.opened.emit _ := hfound
    rw [start_of_mem_emit hemit, opened_earliest]

theorem Settled.step_earliest {s : Scanner} (h : s.Settled) (hle : s.earliest ≤ s.offset)
    (c : CodePoint) (next : Option CodePoint) :
    s.earliest ≤ (s.step c next).1.earliest ∧
      (s.step c next).1.earliest ≤ (s.step c next).1.offset := by
  have hstep := h.step_cases c next
  generalize s.step c next = r at hstep ⊢
  cases hstep with
  | passed mode hmode =>
    cases hp : s.pending <;> simp [earliest, hp] at hle ⊢
    omega
  | kept mode parens hcode hblank =>
    cases hp : s.pending <;> simp [earliest, hp] at hle ⊢
    omega
  | ended hc hcode hparens => exact ⟨Nat.le_succ_of_le hle, Nat.le_refl _⟩
  | entered hc hcode hparens => exact ⟨Nat.le_succ_of_le hle, Nat.le_refl _⟩
  | left hc hcode hparens => exact ⟨Nat.le_succ_of_le hle, Nat.le_refl _⟩

/-- No statement that is still to be closed starts before the one that is open. -/
theorem Settled.start_of_mem_scan {s : Scanner} (h : s.Settled) (hle : s.earliest ≤ s.offset)
    {t : Text} {found : Statement} (hfound : found ∈ s.scan t) : s.earliest ≤ found.start := by
  induction t generalizing s with
  | nil => exact Nat.le_of_eq (start_of_mem_emit hfound).symm
  | cons c rest ih =>
    obtain ⟨hstep, hle'⟩ := h.step_earliest hle c rest.head?
    obtain hfound | hfound := List.mem_append.mp hfound
    · exact Nat.le_of_eq (h.start_of_mem_found hfound).symm
    · exact Nat.le_trans hstep (ih (h.step c _) hle' hfound)

/-- No statement starts behind the end of the text. -/
theorem Settled.start_le_of_mem_scan {s : Scanner} (h : s.Settled) (hle : s.earliest ≤ s.offset)
    {t : Text} {found : Statement} (hfound : found ∈ s.scan t) :
    found.start ≤ s.offset + t.length := by
  induction t generalizing s with
  | nil =>
    rw [start_of_mem_emit hfound]
    exact hle
  | cons c rest ih =>
    obtain ⟨-, hle'⟩ := h.step_earliest hle c rest.head?
    obtain hfound | hfound := List.mem_append.mp hfound
    · have hstart := h.start_of_mem_found hfound
      rw [hstart, List.length_cons]
      omega
    · have hrest := ih (h.step c _) hle' hfound
      rw [h.step_offset] at hrest
      rw [List.length_cons]
      omega

end Scanner
end StyleVars
