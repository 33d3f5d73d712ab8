import StyleVars.Proofs.SheetTree

/-!
# The first statement of a text

A statement on the first line of a text is read as if nothing stood behind its semicolon, and what
follows on the other lines is read as it is alone, only at later offsets (`statements_line_iff`).
Wherever else it is put between two statements, it is read in the same way (`scan_of_takesIn`).
Whether a text stays in the statement it is put into depends on nothing that stands in front of it
but the mode and the parentheses that are open there (`Scanner.TakesIn.congr`).
-/

namespace StyleVars

/-! ## Texts with more in front of them -/

/-- The statement in a text with `n` more characters in front. -/
def Statement.moved (n : Nat) (s : Statement) : Statement :=
  { s with start := s.start + n, stop := s.stop + n }

@[simp]
theorem Statement.moved_moved (m n : Nat) (s : Statement) :
    (s.moved m).moved n = s.moved (m + n) := by
  simp only [moved, Nat.add_assoc]

namespace Scanner

/-- The reader in a text with `n` more characters in front. -/
def moved (n : Nat) (s : Scanner) : Scanner :=
  { s with
    offset := s.offset + n
    pending := s.pending.map fun p => { p with start := p.start + n } }

theorem moved_pass (n : Nat) (s : Scanner) (c : CodePoint) (mode : Mode) :
    (s.moved n).pass c mode = (s.pass c mode).moved n := by
  cases s
  simp [moved, pass, Function.comp_def, Nat.add_right_comm]

theorem moved_opened (n : Nat) (s : Scanner) : (s.moved n).opened = s.opened.moved n := by
  obtain ⟨offset, mode, pending, parens, blocks⟩ := s
  cases pending <;> rfl

theorem moved_closed (n : Nat) (s : Scanner) : (s.moved n).closed = s.closed.moved n := by
  cases s
  simp [moved, closed, Nat.add_right_comm]

theorem heldText_moved (n : Nat) (s : Scanner) : (s.moved n).heldText = s.heldText := by
  obtain ⟨offset, mode, pending, parens, blocks⟩ := s
  cases pending <;> rfl

theorem moved_emit (n : Nat) (s : Scanner) (stop : Nat) :
    (s.moved n).emit (stop + n) = (s.emit stop).map (Statement.moved n) := by
  unfold emit
  rw [heldText_moved]
  obtain ⟨offset, mode, pending, parens, blocks⟩ := s
  cases pending with
  | none => rfl
  | some p =>
    simp only [moved, Option.map_some]
    split_ifs <;> rfl

theorem moved_readCode (n : Nat) (s : Scanner) (c : CodePoint) (next : Option CodePoint) :
    (s.moved n).readCode c next =
      ((s.readCode c next).1.moved n, (s.readCode c next).2.map (Statement.moved n)) := by
  have hparens : (s.moved n).parens = s.parens := rfl
  have hstop : (s.moved n).offset + 1 = s.offset + 1 + n := Nat.add_right_comm _ _ _
  unfold readCode
  rw [hparens, heldText_moved, hstop]
  split_ifs
  · exact Prod.ext (moved_pass n s c _) rfl
  · exact Prod.ext (moved_pass n s c _) rfl
  · exact Prod.ext (moved_pass n { s with parens := s.parens + 1 } c _) rfl
  · exact Prod.ext (moved_pass n { s with parens := s.parens - 1 } c _) rfl
  · exact Prod.ext (moved_closed n s) (moved_emit n s (s.offset + 1))
  · exact Prod.ext (moved_closed n { s with blocks := alwaysRun s.heldText :: s.blocks }) rfl
  · exact Prod.ext (moved_closed n { s with blocks := s.blocks.tail }) (moved_emit n s s.offset)
  · exact Prod.ext (moved_pass n s c _) rfl

/-- What stands in front of a text matters to no step of the reader. -/
theorem moved_step (n : Nat) (s : Scanner) (c : CodePoint) (next : Option CodePoint) :
    (s.moved n).step c next =
      ((s.step c next).1.moved n, (s.step c next).2.map (Statement.moved n)) := by
  have hmode : (s.moved n).mode = s.mode := rfl
  unfold step
  rw [hmode]
  cases s.mode with
  | code b =>
    simp only [moved_pass, moved_opened, moved_readCode]
    split_ifs <;> rfl
  | lineComment | blockComment | quoted | interpolation => simp only [moved_pass, List.map_nil]

theorem moved_advance (n : Nat) (s : Scanner) (next : Option CodePoint) (t : Text) :
    (s.moved n).advance next t = (s.advance next t).moved n := by
  induction t generalizing s with
  | nil => rfl
  | cons c rest ih => simp only [advance, moved_step, ih]

theorem moved_closedIn (n : Nat) (s : Scanner) (next : Option CodePoint) (t : Text) :
    (s.moved n).closedIn next t = (s.closedIn next t).map (Statement.moved n) := by
  induction t generalizing s with
  | nil => rfl
  | cons c rest ih => simp only [closedIn, moved_step, ih, List.map_append]

theorem moved_scan (n : Nat) (s : Scanner) (t : Text) :
    (s.moved n).scan t = (s.scan t).map (Statement.moved n) := by
  induction t generalizing s with
  | nil => exact moved_emit n s s.offset
  | cons c rest ih => simp only [scan, moved_step, ih, List.map_append]

end Scanner

/-- Behind other statements, a text has the statements that it has alone. -/
theorem scan_between (n : Nat) (t : Text) :
    (Scanner.between n []).scan t = (statements t).map (Statement.moved n) := by
  have hstart : Scanner.between n [] = Scanner.start.moved n := by
    simp [Scanner.between, Scanner.start, Scanner.moved]
  rw [hstart, Scanner.moved_scan]
  rfl

/-- A line feed in front of a text moves its statements on. -/
theorem scan_between_newline (n : Nat) (t : Text) :
    (Scanner.between n []).scan (CodePoint.char '\n' :: t) =
      (statements t).map (Statement.moved (n + 1)) := by
  have hstep : (Scanner.between n []).step '\n' t.head? = (.between (n + 1) [], []) := rfl
  rw [Scanner.scan, hstep]
  exact scan_between (n + 1) t

namespace Scanner

/-! ## Statements that stay open -/

theorem settled_of_open {s : Scanner} (h : s.pending ≠ none) : s.Settled :=
  ⟨fun hnone => absurd hnone h, fun hnone => absurd hnone h⟩

/-- The reader before a text, with other parentheses open and the text taken into the statement. -/
def tookWith (s : Scanner) (parens : Nat) (t : Text) (mode : Mode) : Scanner :=
  ({ s with parens := parens } : Scanner).took t mode

theorem tookWith_parens (s : Scanner) (t : Text) (mode : Mode) :
    s.tookWith s.parens t mode = s.took t mode := rfl

theorem tookWith_tookWith (s : Scanner) (k l : Nat) (a b : Text) (m n : Mode) :
    (s.tookWith k a m).tookWith l b n = s.tookWith l (a ++ b) n :=
  took_took { s with parens := l } a b m n

theorem pass_eq_tookWith {s : Scanner} {parens : Nat} (h : s.parens = parens) (c : CodePoint)
    (mode : Mode) :
    (s.pass c mode, ([] : List Statement)) = (s.tookWith parens [c] mode, []) := by
  rw [← h, tookWith_parens, pass_eq_took]

theorem readCode_of_open {s : Scanner} {c : CodePoint} {next : Option CodePoint}
    (hopen : (s.readCode c next).1.pending ≠ none) :
    ∃ (parens : Nat) (mode : Mode), ∀ u : Scanner, u.parens = s.parens →
      u.readCode c next = (u.tookWith parens [c] mode, []) := by
  unfold readCode at hopen ⊢
  split_ifs at hopen ⊢ with hquote hsign hparen hparen' hend hbrace hbrace'
  · exact ⟨_, _, fun u hu => pass_eq_tookWith hu c _⟩
  · exact ⟨_, _, fun u hu => pass_eq_tookWith hu c _⟩
  · exact ⟨s.parens + 1, .code false, fun u hu => by rw [hu]; rfl⟩
  · exact ⟨s.parens - 1, .code false, fun u hu => by rw [hu]; rfl⟩
  · exact absurd rfl hopen
  · exact absurd rfl hopen
  · exact absurd rfl hopen
  · refine ⟨s.parens, .code (c = ':'), fun u hu => ?_⟩
    rw [hu, if_neg hend, if_neg hbrace, if_neg hbrace']
    exact pass_eq_tookWith hu c _

/-- Outside of code, the mode alone decides what comes next. -/
theorem step_of_mode_eq {s u : Scanner} (hmode : u.mode = s.mode) (hcode : ∀ b, s.mode ≠ .code b)
    (c : CodePoint) (next : Option CodePoint) :
    u.step c next = (u.pass c (s.step c next).1.mode, []) := by
  unfold step
  rw [hmode]
  cases hs : s.mode with
  | code b => exact absurd hs (hcode b)
  | lineComment | blockComment | quoted | interpolation => rfl

/-- What the next character means to an open statement depends on: the mode and the number of open
parentheses. -/
abbrev OpenState := Mode × Nat

/-- Every statement that is open in the first state takes the character in and is left in the other
one. -/
def Keeps (a : OpenState) (c : CodePoint) (next : Option CodePoint) (b : OpenState) : Prop :=
  ∀ u : Scanner, u.mode = a.1 → u.parens = a.2 → u.pending ≠ none →
    u.step c next = (u.tookWith b.2 [c] b.1, [])

/-- A character that leaves a statement open becomes part of it, and of every other statement that
is open in the same mode inside of as many parentheses. -/
theorem step_of_open {s : Scanner} (hpending : s.pending ≠ none) {c : CodePoint}
    {next : Option CodePoint} (hopen : (s.step c next).1.pending ≠ none) :
    ∃ b, Keeps (s.mode, s.parens) c next b := by
  by_cases hcode : ∃ b, s.mode = .code b
  · obtain ⟨b, hb⟩ := hcode
    rw [hb]
    simp only [step, hb] at hopen
    split_ifs at hopen with hline hblock hblank
    · refine ⟨(.lineComment, s.parens), fun u hmode hu _ => ?_⟩
      simp only [step, hmode, if_pos hline]
      exact pass_eq_tookWith hu c _
    · refine ⟨(.blockComment .opening, s.parens), fun u hmode hu _ => ?_⟩
      simp only [step, hmode, if_neg hline, if_pos hblock]
      exact pass_eq_tookWith hu c _
    · refine ⟨(.code false, s.parens), fun u hmode hu _ => ?_⟩
      simp only [step, hmode, if_neg hline, if_neg hblock, if_pos hblank]
      exact pass_eq_tookWith hu c _
    · rw [opened_eq_self hpending] at hopen
      obtain ⟨parens, mode, hread⟩ := readCode_of_open hopen
      refine ⟨(mode, parens), fun u hmode hu hne => ?_⟩
      simp only [step, hmode, if_neg hline, if_neg hblock, if_neg hblank]
      rw [opened_eq_self hne, hread u hu]
  · refine ⟨((s.step c next).1.mode, s.parens), fun u hmode hu _ => ?_⟩
    rw [step_of_mode_eq hmode (fun b hb => hcode ⟨b, hb⟩)]
    exact pass_eq_tookWith hu c _

end Scanner

/-- A line feed ends what is read in this mode. -/
def Mode.endsAtLine : Mode → Bool
  | .lineComment => true
  | .quoted _ escaped _ => !escaped
  | _ => false

namespace Scanner

/-- The text, followed by `next`, stays in every statement that is open in the first state and
leaves it in the other one. If `safe` is set, no line feed of it ends a comment or a string. -/
inductive Stays (safe : Bool) : OpenState → Option CodePoint → Text → OpenState → Prop
  | nil {a : OpenState} {next : Option CodePoint} : Stays safe a next [] a
  | cons {a m b : OpenState} {next : Option CodePoint} {c : CodePoint} {rest : Text}
    (hc : Keeps a c (rest.head?.or next) m)
    (hline : safe → c = '\n' → a.1.endsAtLine = false) (h : Stays safe m next rest b) :
    Stays safe a next (c :: rest) b

/-- Where line feeds may end something. -/
theorem Stays.keep {a m b : OpenState} {next : Option CodePoint} {c : CodePoint} {rest : Text}
    (hc : Keeps a c (rest.head?.or next) m) (h : Stays false m next rest b) :
    Stays false a next (c :: rest) b :=
  .cons hc (fun hsafe => absurd hsafe Bool.false_ne_true) h

theorem Stays.reads {safe : Bool} {a b : OpenState} {next : Option CodePoint} {t : Text}
    (h : Stays safe a next t b) {u : Scanner} (hmode : u.mode = a.1) (hparens : u.parens = a.2)
    (hpending : u.pending ≠ none) : u.Reads next t (u.tookWith b.2 t b.1) := by
  induction h generalizing u with
  | nil =>
    rw [← hmode, ← hparens, tookWith_parens, took_nil]
    exact .nil u _
  | @cons a m b next c rest hc hline h ih =>
    have hread := ih (u := u.tookWith m.2 [c] m.1) rfl rfl (by simpa [tookWith] using hpending)
    rw [tookWith_tookWith] at hread
    exact (Reads.single (hc u hmode hparens hpending)).append hread

theorem earliest_of_some {s : Scanner} {p : Pending} (h : s.pending = some p) :
    s.earliest = p.start := by
  rw [earliest, h]
  rfl

/-- Behind a character after which no statement is open, the next one starts. -/
theorem Settled.earliest_of_closed {s : Scanner} (h : s.Settled) {c : CodePoint}
    {next : Option CodePoint} (hnone : (s.step c next).1.pending = none) :
    (s.step c next).1.earliest = s.offset + 1 := by
  rw [earliest, hnone, ← h.step_offset c next]
  rfl

theorem Settled.advance_earliest {s : Scanner} (h : s.Settled) (hle : s.earliest ≤ s.offset)
    (next : Option CodePoint) (t : Text) :
    s.earliest ≤ (s.advance next t).earliest ∧
      (s.advance next t).earliest ≤ (s.advance next t).offset := by
  induction t generalizing s with
  | nil => exact ⟨Nat.le_refl _, hle⟩
  | cons c rest ih =>
    obtain ⟨hstep, hle'⟩ := h.step_earliest hle c (rest.head?.or next)
    obtain ⟨hrest, hend⟩ := ih (h.step c _) hle'
    exact ⟨Nat.le_trans hstep hrest, hend⟩

/-- A statement that is closed later and has started already is open. -/
theorem Settled.pending_of_mem_scan {s : Scanner} (h : s.Settled) (hle : s.earliest ≤ s.offset)
    {t : Text} {found : Statement} (hfound : found ∈ s.scan t) (hlt : found.start < s.offset) :
    ∃ p, s.pending = some p ∧ p.start ≤ found.start := by
  have hstart := h.start_of_mem_scan hle hfound
  cases hp : s.pending with
  | none =>
    have hlater : s.earliest = s.offset := by rw [earliest, hp]; rfl
    omega
  | some p => exact ⟨p, rfl, earliest_of_some hp ▸ hstart⟩

/-- A text within which a statement is never closed becomes part of it, and of every other statement
that is open in the same mode inside of as many parentheses. -/
theorem Settled.stays_of_open {s : Scanner} (hs : s.Settled) {p : Pending}
    (hpending : s.pending = some p) (hle : p.start ≤ s.offset) {next : Option CodePoint} {t : Text}
    (hopen : (s.advance next t).pending.map Pending.start = some p.start) :
    ∃ b, Stays false (s.mode, s.parens) next t b := by
  induction t generalizing s p with
  | nil => exact ⟨_, .nil⟩
  | cons c rest ih =>
    have hs' : (s.step c (rest.head?.or next)).1.Settled := hs.step c _
    -- what is opened after the statement is closed starts later
    have hnext : (s.step c (rest.head?.or next)).1.pending ≠ none := by
      intro hnone
      have hlater := hs.earliest_of_closed hnone
      have hend := (hs'.advance_earliest (by rw [hlater, hs.step_offset]) next rest).1
      obtain ⟨q, hq, hstart⟩ := Option.map_eq_some_iff.mp hopen
      have hq' : (s.advance next (c :: rest)).earliest = q.start := earliest_of_some hq
      rw [Scanner.advance] at hq'
      omega
    obtain ⟨m, hstep⟩ := step_of_open (by simp [hpending]) hnext
    have hown := hstep s rfl rfl (by simp [hpending])
    rw [Scanner.advance, hown] at hopen
    rw [hown] at hs'
    obtain ⟨b, hrest⟩ := ih (p := { p with body := c :: p.body }) hs'
      (by simp [tookWith, hpending]) (Nat.le_succ_of_le hle) hopen
    exact ⟨b, .keep hstep hrest⟩

/-- The text, with a semicolon behind it, stays in the statement that is open, and at its end the
reader is in code inside of the same parentheses. -/
def TakesIn (s : Scanner) (t : Text) : Prop :=
  ∃ b, s.Reads (some (.char ';')) t (s.took t (.code b))

theorem Stays.takesIn {s : Scanner} {t : Text} {safe b : Bool}
    (h : Stays safe (s.mode, s.parens) (some (.char ';')) t (.code b, s.parens))
    (hpending : s.pending ≠ none) : s.TakesIn t :=
  ⟨b, tookWith_parens s t (.code b) ▸ h.reads rfl rfl hpending⟩

theorem TakesIn.stays {s : Scanner} {t : Text} (h : s.TakesIn t) (hpending : s.pending ≠ none)
    (hle : s.earliest ≤ s.offset) :
    ∃ b, Stays false (s.mode, s.parens) (some (.char ';')) t (.code b, s.parens) := by
  obtain ⟨b, hread⟩ := h
  obtain ⟨p, hp⟩ := Option.ne_none_iff_exists'.mp hpending
  rw [earliest_of_some hp] at hle
  have hopen : (s.advance (some (.char ';')) t).pending.map Pending.start = some p.start := by
    rw [hread.advance]
    simp [hp]
  obtain ⟨⟨mode, parens⟩, hstays⟩ := (settled_of_open hpending).stays_of_open hp hle hopen
  have hend : s.tookWith parens t mode = s.took t (.code b) :=
    (hstays.reads rfl rfl hpending).advance.symm.trans hread.advance
  obtain rfl : mode = .code b := congrArg Scanner.mode hend
  obtain rfl : parens = s.parens := congrArg Scanner.parens hend
  exact ⟨b, hstays⟩

/-- It depends on the mode and the open parentheses alone. -/
theorem TakesIn.congr {s u : Scanner} {t : Text} (h : s.TakesIn t) (hpending : s.pending ≠ none)
    (hle : s.earliest ≤ s.offset) (hmode : u.mode = s.mode) (hparens : u.parens = s.parens)
    (hu : u.pending ≠ none) : u.TakesIn t := by
  obtain ⟨b, hstays⟩ := h.stays hpending hle
  rw [← hmode, ← hparens] at hstays
  exact hstays.takesIn hu

theorem takesIn_append {s : Scanner} {a b : Text} {m : Mode}
    (ha : s.Reads (b.head?.or (some (.char ';'))) a (s.took a m)) :
    s.TakesIn (a ++ b) ↔ (s.took a m).TakesIn b := by
  constructor
  · rintro ⟨c, hread⟩
    have hadvance := hread.advance
    have hclosed := hread.closedIn
    rw [advance_append, ha.advance] at hadvance
    rw [closedIn_append, ha.advance, ha.closedIn, List.nil_append] at hclosed
    exact ⟨c, by rw [took_took]; exact ⟨hadvance, hclosed⟩⟩
  · rintro ⟨c, hread⟩
    exact ⟨c, .took_append ha hread⟩

/-! ## Where statements stop -/

theorem mem_scan_cons {s : Scanner} {c : CodePoint} {rest : Text} {found : Statement} :
    found ∈ s.scan (c :: rest) ↔
      found ∈ (s.step c rest.head?).2 ∨ found ∈ (s.step c rest.head?).1.scan rest :=
  List.mem_append

theorem of_mem_emit {s : Scanner} {stop : Nat} {found : Statement} (h : found ∈ s.emit stop) :
    found.text = s.heldText ∧ found.stop = stop := by
  obtain hnil | hsome := s.emit_eq_nil_or stop
  · rw [hnil] at h
    exact absurd h List.not_mem_nil
  · rw [hsome, List.mem_singleton] at h
    rw [h]
    exact ⟨rfl, rfl⟩

theorem emit_of_heldText {s : Scanner} (h : s.heldText ≠ []) (stop : Nat) :
    s.emit stop = [⟨s.heldText, s.earliest, stop, s.blocks.length, s.blocks.all id⟩] := by
  unfold emit
  cases hp : s.pending with
  | none => exact absurd (by simp [heldText, hp]) h
  | some p => simp only [if_neg h, earliest_of_some hp]

/-- A statement stops before or behind the character that closes it. -/
theorem Settled.stop_of_mem_found {s : Scanner} (h : s.Settled) {c : CodePoint}
    {next : Option CodePoint} {found : Statement} (hfound : found ∈ (s.step c next).2) :
    found.stop = s.offset + 1 ∧ c = ';' ∨ found.stop = s.offset ∧ c = '\x7d' := by
  have hstep := h.step_cases c next
  generalize s.step c next = r at hstep hfound
  cases hstep with
  | passed | kept | entered => simp at hfound
  | ended hc hcode hparens => exact .inl ⟨(of_mem_emit (s := s.opened) hfound).2, hc⟩
  | left hc hcode hparens => exact .inr ⟨(of_mem_emit (s := s.opened) hfound).2, hc⟩

theorem Settled.stop_le_of_mem_closedIn {s : Scanner} (h : s.Settled) {next : Option CodePoint}
    {t : Text} {found : Statement} (hfound : found ∈ s.closedIn next t) :
    found.stop ≤ s.offset + t.length := by
  induction t generalizing s with
  | nil => exact absurd hfound List.not_mem_nil
  | cons c rest ih =>
    rw [List.length_cons]
    obtain hfound | hfound := List.mem_append.mp hfound
    · obtain ⟨hstop, -⟩ | ⟨hstop, -⟩ := h.stop_of_mem_found hfound <;> omega
    · have hrest := ih (h.step c _) hfound
      rw [h.step_offset] at hrest
      omega

theorem Settled.text_of_mem_found {s : Scanner} (h : s.Settled) {c : CodePoint}
    {next : Option CodePoint} {found : Statement} (hfound : found ∈ (s.step c next).2) :
    found.text = s.heldText := by
  have hstep := h.step_cases c next
  generalize s.step c next = r at hstep hfound
  cases hstep with
  | passed | kept | entered => simp at hfound
  | ended | left =>
    have hemit : found ∈ s.opened.emit _ := hfound
    rw [(of_mem_emit hemit).1, heldText_opened]

theorem strip_heldText (s : Scanner) : Text.strip s.heldText = s.heldText := by
  unfold heldText
  split
  · exact Text.strip_strip _
  · rfl

/-- There is no white space around the text of a statement. -/
theorem Settled.strip_text {s : Scanner} (h : s.Settled) {t : Text} {found : Statement}
    (hfound : found ∈ s.scan t) : Text.strip found.text = found.text := by
  induction t generalizing s with
  | nil => rw [(of_mem_emit hfound).1, strip_heldText]
  | cons c rest ih =>
    obtain hfound | hfound := mem_scan_cons.mp hfound
    · rw [h.text_of_mem_found hfound, strip_heldText]
    · exact ih (h.step c _) hfound

/-- The text of a statement goes on from what was read of it. -/
theorem Settled.text_of_mem_scan {s : Scanner} (h : s.Settled) {p : Pending}
    (hpending : s.pending = some p) (hle : p.start ≤ s.offset) {t : Text} {found : Statement}
    (hfound : found ∈ s.scan t) (hstart : found.start = p.start) :
    ∃ w rest, t = w ++ rest ∧ found.text = Text.strip (p.body.reverse ++ w) := by
  induction t generalizing s p with
  | nil => exact ⟨[], [], rfl, by rw [(of_mem_emit hfound).1]; simp [heldText, hpending]⟩
  | cons c rest ih =>
    obtain hfound | hfound := mem_scan_cons.mp hfound
    · exact ⟨[], c :: rest, rfl, by rw [h.text_of_mem_found hfound]; simp [heldText, hpending]⟩
    · by_cases hnext : (s.step c rest.head?).1.pending = none
      · -- what is opened later starts later
        exfalso
        have hlater := h.earliest_of_closed hnext
        have hoffset := h.step_offset c rest.head?
        have hle' := (h.step c rest.head?).start_of_mem_scan (by omega) hfound
        omega
      · have hne : s.pending ≠ none := by simp [hpending]
        obtain ⟨m, hstep⟩ := step_of_open hne hnext
        have h' := h.step c rest.head?
        rw [hstep s rfl rfl hne] at h' hfound
        obtain ⟨w, rest', rfl, htext⟩ := ih (p := { p with body := c :: p.body }) h'
          (by simp [tookWith, hpending]) (Nat.le_succ_of_le hle) hfound hstart
        exact ⟨c :: w, rest', rfl, by simpa using htext⟩

end Scanner

/-! ## The first line -/

/-- The text starts with a visible character that opens no comment. -/
def StartsVisibly (t : Text) : Prop := ∃ c ∈ t.head?, isBlank c = false ∧ c ≠ '/'

section FirstLine

variable {line : Text}

/-- It opens a statement at its first character. -/
theorem StartsVisibly.advance_opened (h : StartsVisibly line) (offset : Nat) (blocks : List Bool)
    (next : Option CodePoint) :
    (Scanner.between offset blocks).opened.advance next line =
        (Scanner.between offset blocks).advance next line ∧
      (Scanner.between offset blocks).opened.closedIn next line =
        (Scanner.between offset blocks).closedIn next line := by
  obtain ⟨c, hc, hblank, hslash⟩ := h
  obtain ⟨rest, rfl⟩ := List.head?_eq_some_iff.mp hc
  have hstep : (Scanner.between offset blocks).step c (rest.head?.or next) =
      (Scanner.between offset blocks).opened.step c (rest.head?.or next) :=
    Scanner.step_eq_step_opened rfl hblank fun heq => absurd heq hslash
  simp only [Scanner.advance, Scanner.closedIn, hstep, and_self]

theorem StartsVisibly.reads_opened_iff (h : StartsVisibly line) {offset : Nat}
    {blocks : List Bool} (next : Option CodePoint) (s : Scanner) :
    (Scanner.between offset blocks).opened.Reads next line s ↔
      (Scanner.between offset blocks).Reads next line s := by
  obtain ⟨hadvance, hclosed⟩ := h.advance_opened offset blocks next
  constructor
  · exact fun hread => ⟨hadvance ▸ hread.advance, hclosed ▸ hread.closedIn⟩
  · exact fun hread => ⟨hadvance ▸ hread.advance, hclosed ▸ hread.closedIn⟩

theorem StartsVisibly.strip_ne_nil (h : StartsVisibly line) : Text.strip line ≠ [] := by
  obtain ⟨c, hc, hblank, -⟩ := h
  obtain ⟨rest, rfl⟩ := List.head?_eq_some_iff.mp hc
  exact Text.strip_cons_ne_nil hblank rest

/-- A statement that is taken in is the first one wherever it stands, and the reader is between two
statements again behind it. -/
theorem scan_of_takesIn (hhead : StartsVisibly line)
    (h : (Scanner.between 0 []).opened.TakesIn line) (offset : Nat) (blocks : List Bool)
    (t : Text) :
    (Scanner.between offset blocks).scan (line ++ CodePoint.char ';' :: t) =
      ⟨Text.strip line, offset, offset + (line.length + 1), blocks.length, blocks.all id⟩ ::
        (Scanner.between (offset + (line.length + 1)) blocks).scan t := by
  obtain ⟨b, hread⟩ := h.congr (u := (Scanner.between offset blocks).opened) (by simp)
    (Nat.le_refl 0) rfl rfl (by simp)
  have hread' := (hhead.reads_opened_iff _ _).mp hread
  generalize he : (Scanner.between offset blocks).opened.took line (.code b) = e at hread'
  have hheld : e.heldText = Text.strip line := by
    rw [← he]
    simp [Scanner.heldText, Scanner.between]
  have hholds : e.Holds blocks (Text.strip line) := by
    refine ⟨⟨b, ?_⟩, ?_, ?_, hheld⟩ <;> rw [← he] <;> rfl
  have hopen : e.opened = e := Scanner.opened_eq_self (by rw [← he]; simp)
  have hoffset : e.offset + 1 = offset + (line.length + 1) := by rw [← he]; rfl
  have hemit : e.emit (offset + (line.length + 1)) =
      [⟨Text.strip line, offset, offset + (line.length + 1), blocks.length, blocks.all id⟩] := by
    rw [Scanner.emit_of_heldText (by rw [hheld]; exact hhead.strip_ne_nil), hheld, ← he]
    rfl
  have hstep := hholds.semicolon t.head?
  rw [hopen, hoffset, hemit] at hstep
  rw [Scanner.scan_append, List.head?_cons, hread'.closedIn, hread'.advance, List.nil_append,
    Scanner.scan, hstep]
  rfl

/-- In front of a text, it is the first statement, and the text is read as it is alone. -/
theorem statements_of_takesIn (hhead : StartsVisibly line)
    (h : (Scanner.between 0 []).opened.TakesIn line) (t : Text) :
    statements (line ++ CodePoint.char ';' :: t) =
      ⟨Text.strip line, 0, line.length + 1, 0, true⟩ ::
        (statements t).map (Statement.moved (line.length + 1)) := by
  rw [← scan_between, ← Nat.zero_add (line.length + 1)]
  exact scan_of_takesIn hhead h 0 [] t

theorem statements_newline (t : Text) :
    statements (CodePoint.char '\n' :: t) = (statements t).map (Statement.moved 1) :=
  scan_between_newline 0 t

/-- The line stays in a statement that starts with it and stops behind it. -/
theorem StartsVisibly.exists_stays (hhead : StartsVisibly line) {offset : Nat}
    {blocks : List Bool} {t : Text} {found : Statement}
    (hfound : found ∈ ((Scanner.between offset blocks).advance (some (.char ';')) line).scan t)
    (hstart : found.start = offset) :
    ∃ b, Scanner.Stays false (.code false, 0) (some (.char ';')) line b := by
  have hsettled := Scanner.between_settled offset blocks
  obtain ⟨hlower, hupper⟩ := hsettled.advance_earliest (Nat.le_refl _) (some (.char ';')) line
  have hlater : found.start <
      ((Scanner.between offset blocks).advance (some (.char ';')) line).offset := by
    obtain ⟨c, hc, -⟩ := hhead
    obtain ⟨rest, rfl⟩ := List.head?_eq_some_iff.mp hc
    rw [hsettled.advance_offset, hstart]
    exact Nat.lt_add_of_pos_right (Nat.succ_pos _)
  obtain ⟨p, hp, hle⟩ := (hsettled.advance _ _).pending_of_mem_scan hupper hfound hlater
  -- the statement has been open from the first character on
  have hpstart : p.start = offset :=
    Nat.le_antisymm (hstart ▸ hle) (Scanner.earliest_of_some hp ▸ hlower)
  rw [← (hhead.advance_opened offset blocks _).1] at hp
  exact (Scanner.settled_of_open (s := (Scanner.between offset blocks).opened)
    (by simp)).stays_of_open rfl (Nat.le_refl offset) (by rw [hp, Option.map_some, hpstart]; rfl)

/-- A statement that starts with the line and stops behind it ends with the semicolon there, or the
semicolon belongs to it. -/
theorem StartsVisibly.takesIn_or_goes_on (hhead : StartsVisibly line) {offset : Nat}
    {blocks : List Bool} {t : Text} {found : Statement}
    (hfound : found ∈ (Scanner.between offset blocks).scan (line ++ CodePoint.char ';' :: t))
    (hstart : found.start = offset) (hstop : offset + line.length < found.stop) :
    (Scanner.between 0 []).opened.TakesIn line ∨
      ∃ w, found.text = Text.strip (line ++ CodePoint.char ';' :: w) := by
  have hsettled := Scanner.between_settled offset blocks
  rw [Scanner.scan_append, List.head?_cons] at hfound
  obtain hfound | hfound := List.mem_append.mp hfound
  · exact absurd (hsettled.stop_le_of_mem_closedIn hfound) (Nat.not_le_of_lt hstop)
  obtain ⟨⟨mode, parens⟩, hstays⟩ := hhead.exists_stays hfound hstart
  have hread := hstays.reads (u := (Scanner.between offset blocks).opened) rfl rfl (by simp)
  rw [((hhead.reads_opened_iff _ _).mp hread).advance] at hfound
  have he := Scanner.settled_of_open
    (s := (Scanner.between offset blocks).opened.tookWith parens line mode)
    (by simp [Scanner.tookWith])
  obtain hfound | hfound := Scanner.mem_scan_cons.mp hfound
  · -- only a semicolon of code outside of parentheses closes a statement
    have hstep := he.step_cases ';' t.head?
    generalize Scanner.step _ ';' t.head? = r at hstep hfound
    cases hstep with
    | passed | kept | entered => simp at hfound
    | left hc => exact absurd hc (by decide)
    | ended hc hcode hparens =>
      obtain ⟨b, hb⟩ := hcode
      obtain rfl : mode = .code b := hb
      obtain rfl : parens = 0 := hparens
      exact .inl ⟨b, hstays.reads rfl rfl (by simp)⟩
  · have hle : offset ≤ offset + line.length := Nat.le_add_right _ _
    have hlater := (he.step_earliest hle ';' t.head?).2
    obtain ⟨q, hq, -⟩ := (he.step ';' t.head?).pending_of_mem_scan hlater hfound (by
      rw [he.step_offset, hstart]
      exact Nat.lt_succ_of_le hle)
    obtain ⟨m, hnext⟩ :=
      Scanner.step_of_open (by simp [Scanner.tookWith]) (hq ▸ Option.some_ne_none q)
    rw [hnext _ rfl rfl (by simp [Scanner.tookWith])] at hfound
    obtain ⟨w, -, -, htext⟩ := Scanner.Settled.text_of_mem_scan
      (Scanner.settled_of_open (by simp [Scanner.tookWith]))
      (p := ⟨offset, .char ';' :: line.reverse⟩) (by simp [Scanner.tookWith, Scanner.between])
      (Nat.le_succ_of_le hle) hfound hstart
    exact .inr ⟨w, by simpa using htext⟩

/-- A line that is one statement up to its semicolon is taken in, and the other way round. -/
theorem statements_line_iff (hhead : StartsVisibly line) (hstrip : Text.strip line = line)
    (t : Text) :
    statements (line ++ CodePoint.char ';' :: .char '\n' :: t) =
        ⟨line, 0, line.length + 1, 0, true⟩ ::
          (statements t).map (Statement.moved (line.length + 2)) ↔
      (Scanner.between 0 []).opened.TakesIn line := by
  constructor
  · intro h
    have hfound : (⟨line, 0, line.length + 1, 0, true⟩ : Statement) ∈
        (Scanner.between 0 []).scan (line ++ CodePoint.char ';' :: .char '\n' :: t) :=
      List.mem_of_mem_head? (congrArg List.head? h)
    refine (hhead.takesIn_or_goes_on hfound rfl (by simp)).resolve_right ?_
    rintro ⟨w, hw⟩
    exact Text.strip_append_ne (by decide) line w (hw.symm.trans hstrip.symm)
  · intro h
    rw [statements_of_takesIn hhead h, hstrip, statements_newline, List.map_map]
    refine congrArg _ (List.map_congr_left fun s _ => ?_)
    simp only [Function.comp_apply, Statement.moved_moved]
    congr 1
    omega

/-- The text with a semicolon behind it is one statement. -/
def IsWhole (t : Text) : Prop :=
  statements (t ++ ";\n".toText) = [⟨t, 0, t.length + 1, 0, true⟩]

instance (t : Text) : Decidable (IsWhole t) := inferInstanceAs (Decidable (_ = _))

theorem IsWhole.strip_eq_self {t : Text} (h : IsWhole t) : Text.strip t = t := by
  have hfound : (⟨t, 0, t.length + 1, 0, true⟩ : Statement) ∈ statements (t ++ ";\n".toText) :=
    List.mem_of_mem_head? (congrArg List.head? h)
  exact (Scanner.between_settled 0 []).strip_text hfound

theorem isWhole_iff (hhead : StartsVisibly line) (hstrip : Text.strip line = line) :
    IsWhole line ↔ (Scanner.between 0 []).opened.TakesIn line :=
  statements_line_iff hhead hstrip []

/-- A declaration without its position. -/
def Declaration.content (d : Declaration) : Text × Text × Flags := (d.name, d.expression, d.flags)

theorem map_content_declarations (text : Text) :
    (declarations text).map Declaration.content =
      ((statements text).map Statement.reading).filterMap Reading.declared? := by
  refine (map_declaration? id text (statements text)).trans ?_
  exact List.filterMap_congr fun r _ => Option.map_id'

/-- What a statement that is taken in declares stands in front of what the rest declares. -/
theorem declarations_of_takesIn (hhead : StartsVisibly line)
    (h : (Scanner.between 0 []).opened.TakesIn line) (t : Text) :
    (declarations (line ++ CodePoint.char ';' :: t)).map Declaration.content =
      (Reading.mk (Text.strip line) 0 true).declared?.toList ++
        (declarations t).map Declaration.content := by
  rw [map_content_declarations, map_content_declarations, statements_of_takesIn hhead h,
    List.map_cons, List.map_map]
  have hmoved : Statement.reading ∘ Statement.moved (line.length + 1) = Statement.reading := rfl
  have hfirst : (Statement.mk (Text.strip line) 0 (line.length + 1) 0 true).reading =
      ⟨Text.strip line, 0, true⟩ := rfl
  rw [hmoved, hfirst, List.filterMap_cons]
  cases (Reading.mk (Text.strip line) 0 true).declared? <;> rfl

end FirstLine

/-! ## Declarations on later lines -/

/-- The place on one line further down, with `n` more characters in front. -/
def Position.lowered (n : Nat) (p : Position) : Position := ⟨p.line + 1, p.column, p.cursor + n⟩

/-- The declaration on one line further down, with `n` more characters in front. -/
def Declaration.lowered (n : Nat) (d : Declaration) : Declaration :=
  { d with position := d.position.lowered n }

namespace Position

theorem next_lowered (n : Nat) (p : Position) (c : CodePoint) :
    (p.lowered n).next c = (p.next c).lowered n := by
  unfold next lowered
  split_ifs <;> simp [Nat.add_right_comm]

theorem after_lowered (n : Nat) (p : Position) (count : Nat) (t : Text) :
    (p.lowered n).after count t = (p.after count t).lowered n := by
  induction t generalizing p count with
  | nil => simp only [after]
  | cons c rest ih =>
    cases count with
    | zero => rfl
    | succ count => rw [after, next_lowered, ih, after]

/-- On a line the column goes on with the offset. -/
theorem after_line {line : Text} (h : CodePoint.char '\n' ∉ line) (p : Position) (count : Nat)
    (t : Text) : p.after (line.length + count) (line ++ t) =
      Position.after ⟨p.line, p.column + line.length, p.cursor + line.length⟩ count t := by
  induction line generalizing p with
  | nil => rw [List.length_nil, Nat.zero_add]; rfl
  | cons c rest ih =>
    have hc : c ≠ '\n' := fun heq => h (heq ▸ List.mem_cons_self)
    rw [List.length_cons, Nat.add_right_comm, List.cons_append, after,
      ih fun hmem => h (List.mem_cons_of_mem _ hmem), next, if_neg hc]
    simp only [Nat.add_right_comm, Nat.add_assoc]

theorem ofOffset_line {line : Text} (h : CodePoint.char '\n' ∉ line) (cursor : Nat) (t : Text) :
    ofOffset (line ++ CodePoint.char '\n' :: t) (cursor + (line.length + 1)) =
      (ofOffset t cursor).lowered (line.length + 1) := by
  have hsum : cursor + (line.length + 1) = line.length + (cursor + 1) := by omega
  rw [ofOffset, hsum, after_line h, after, ofOffset, ← after_lowered]
  rfl

theorem ofOffset_zero (t : Text) : ofOffset t 0 = start := by
  cases t with
  | nil => simp only [ofOffset, after]
  | cons c rest => rfl

theorem after_cursor (p : Position) (count : Nat) (t : Text) :
    (p.after count t).cursor = p.cursor + min count t.length := by
  induction t generalizing p count with
  | nil => simp [after]
  | cons c rest ih =>
    cases count with
    | zero => simp [after]
    | succ count =>
      have hnext : (p.next c).cursor = p.cursor + 1 := by
        unfold next
        split_ifs <;> rfl
      rw [after, ih, hnext, List.length_cons, Nat.add_min_add_right]
      omega

theorem ofOffset_cursor (t : Text) (cursor : Nat) :
    (ofOffset t cursor).cursor = min cursor t.length := by
  rw [ofOffset, after_cursor]
  exact Nat.zero_add _

end Position

theorem Statement.declaration?_moved {line : Text} (h : CodePoint.char '\n' ∉ line) (t : Text)
    (s : Statement) :
    (s.moved (line.length + 1)).declaration? (line ++ CodePoint.char '\n' :: t) =
      (s.declaration? t).map (Declaration.lowered (line.length + 1)) := by
  have hposition := Position.ofOffset_line h s.start t
  rw [Statement.declaration?_eq, Statement.declaration?_eq, Option.map_map]
  have hstart : (s.moved (line.length + 1)).start = s.start + (line.length + 1) := rfl
  rw [hstart, hposition]
  rfl

/-- The declarations of a text whose first line is one statement. -/
theorem declarations_of_statements {line t : Text} {first : Statement}
    (hline : CodePoint.char '\n' ∉ line)
    (h : statements (line ++ CodePoint.char '\n' :: t) =
      first :: (statements t).map (Statement.moved (line.length + 1))) :
    declarations (line ++ CodePoint.char '\n' :: t) =
      (first.declaration? (line ++ CodePoint.char '\n' :: t)).toList ++
        (declarations t).map (Declaration.lowered (line.length + 1)) := by
  rw [declarations, h, List.filterMap_cons, List.filterMap_map, declarations, List.map_filterMap]
  have hrest : (statements t).filterMap
      (Statement.declaration? (line ++ CodePoint.char '\n' :: t) ∘
        Statement.moved (line.length + 1)) =
      (statements t).filterMap fun s =>
        (s.declaration? t).map (Declaration.lowered (line.length + 1)) :=
    List.filterMap_congr fun s _ => Statement.declaration?_moved hline t s
  rw [hrest]
  cases first.declaration? (line ++ CodePoint.char '\n' :: t) <;> rfl

end StyleVars
