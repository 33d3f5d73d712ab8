import StyleVars.Proofs.ReaderSteps

/-!
# Reading a text inside of blocks

A style sheet that is put into the blocks of another one is read there as it is alone, only deeper
(`Scanner.Within.advance`), provided that none of its braces closes a block that it did not open.
A text *settles* to some statements when it is read as just these wherever it is put between two
statements; texts that do can be put one after the other (`Settles.append`).
-/

namespace StyleVars

/-- The statement inside of `depth` blocks more, all of which are always run. -/
def Reading.deepen (depth : Nat) (r : Reading) : Reading := { r with depth := r.depth + depth }

@[simp]
theorem Reading.deepen_zero (r : Reading) : r.deepen 0 = r := rfl

@[simp]
theorem Reading.deepen_deepen (m n : Nat) (r : Reading) :
    (r.deepen m).deepen n = r.deepen (m + n) := by
  simp only [deepen, Nat.add_assoc]

namespace Scanner

/-- The character is a brace that closes a block when none is open. -/
def closesOuter (s : Scanner) (c : CodePoint) : Bool :=
  match s.mode with
  | .code _ => s.parens = 0 && c = '\x7d' && s.blocks.isEmpty
  | _ => false

/-- No brace of the text closes a block that was opened before it. -/
def keepsToOwn (s : Scanner) (next : Option CodePoint) : Text → Bool
  | [] => true
  | c :: rest => !s.closesOuter c && keepsToOwn (s.step c (rest.head?.or next)).1 next rest

theorem keepsToOwn_append (s : Scanner) (next : Option CodePoint) (a b : Text) :
    s.keepsToOwn next (a ++ b) =
      (s.keepsToOwn (b.head?.or next) a && (s.advance (b.head?.or next) a).keepsToOwn next b) := by
  induction a generalizing s with
  | nil => simp [keepsToOwn, advance]
  | cons c rest ih =>
    simp only [List.cons_append, keepsToOwn, advance, ih, List.head?_append, Option.or_assoc,
      Bool.and_assoc]

/-- The reader `t` reads inside of the blocks `outer` what `s` reads outside of them. -/
structure Within (outer : List Bool) (s t : Scanner) : Prop where
  mode : t.mode = s.mode
  body : t.pending.map Pending.body = s.pending.map Pending.body
  parens : t.parens = s.parens
  blocks : t.blocks = s.blocks ++ outer

namespace Within

variable {outer : List Bool} {s t : Scanner}

theorem between (m n : Nat) (blocks outer : List Bool) :
    Within outer (between m blocks) (between n (blocks ++ outer)) := ⟨rfl, rfl, rfl, rfl⟩

theorem pending_eq_none_iff (h : Within outer s t) : t.pending = none ↔ s.pending = none := by
  have hbody := h.body
  cases hs : s.pending <;> cases ht : t.pending <;> simp_all

theorem heldText (h : Within outer s t) : t.heldText = s.heldText := by
  have hbody := h.body
  unfold Scanner.heldText
  cases hs : s.pending <;> cases ht : t.pending <;> simp_all

theorem opened (h : Within outer s t) : Within outer s.opened t.opened := by
  refine ⟨h.mode, ?_, h.parens, h.blocks⟩
  have hbody := h.body
  cases hs : s.pending <;> cases ht : t.pending <;> simp_all

theorem pass (h : Within outer s t) (c : CodePoint) (mode : Mode) :
    Within outer (s.pass c mode) (t.pass c mode) := by
  refine ⟨rfl, ?_, h.parens, h.blocks⟩
  have hbody := h.body
  cases hs : s.pending <;> cases ht : t.pending <;> simp_all

theorem closed (h : Within outer s t) : Within outer s.closed t.closed :=
  ⟨rfl, rfl, h.parens, h.blocks⟩

theorem setParens (h : Within outer s t) (parens : Nat) :
    Within outer { s with parens := parens } { t with parens := parens } :=
  ⟨h.mode, h.body, rfl, h.blocks⟩

theorem emit (h : Within outer s t) (houter : outer.all id) (m n : Nat) :
    (t.emit n).map Statement.reading =
      ((s.emit m).map Statement.reading).map (Reading.deepen outer.length) := by
  have hheld := h.heldText
  have hbody := h.body
  unfold Scanner.emit
  rw [hheld, h.blocks]
  cases hs : s.pending with
  | none =>
    rw [h.pending_eq_none_iff.mpr hs]
    rfl
  | some p =>
    obtain ⟨q, hq⟩ : ∃ q, t.pending = some q := by
      rw [← Option.ne_none_iff_exists', Ne, h.pending_eq_none_iff, hs]
      simp
    rw [hq]
    simp only
    split_ifs
    · rfl
    · simp [Statement.reading, Reading.deepen, houter]

/-- The block that a brace closes is the same inside and outside, unless it is one of the outer. -/
theorem tail_blocks {s : Scanner} {c : CodePoint} {b : Bool} (hmode : s.mode = .code b)
    (hparens : s.parens = 0) (hc : c = '\x7d') (hown : s.closesOuter c = false)
    (outer : List Bool) : (s.blocks ++ outer).tail = s.blocks.tail ++ outer := by
  have hne : s.blocks ≠ [] := by
    intro hnil
    simp [closesOuter, hmode, hparens, hc, hnil] at hown
  exact List.tail_append_of_ne_nil hne

theorem readCode (h : Within outer s t) (houter : outer.all id) {c : CodePoint} {b : Bool}
    (hmode : s.mode = .code b) (hown : s.closesOuter c = false) (next : Option CodePoint) :
    Within outer (s.readCode c next).1 (t.readCode c next).1 ∧
      (t.readCode c next).2.map Statement.reading =
        ((s.readCode c next).2.map Statement.reading).map (Reading.deepen outer.length) := by
  unfold Scanner.readCode
  rw [h.parens]
  split_ifs with h1 h2 h3 h4 h5 h6 h7
  · exact ⟨h.pass c _, rfl⟩
  · exact ⟨h.pass c _, rfl⟩
  · exact ⟨(h.setParens _).pass c _, rfl⟩
  · exact ⟨(h.setParens _).pass c _, rfl⟩
  · exact ⟨h.closed, h.emit houter _ _⟩
  · refine ⟨⟨rfl, rfl, rfl, ?_⟩, rfl⟩
    simp only [closed_blocks, h.heldText, h.blocks, List.cons_append]
  · refine ⟨⟨rfl, rfl, rfl, ?_⟩, h.emit houter _ _⟩
    simp only [closed_blocks, h.blocks]
    exact tail_blocks hmode h7.1 h7.2 hown outer
  · exact ⟨h.pass c _, rfl⟩

theorem step (h : Within outer s t) (houter : outer.all id) {c : CodePoint}
    (hown : s.closesOuter c = false) (next : Option CodePoint) :
    Within outer (s.step c next).1 (t.step c next).1 ∧
      (t.step c next).2.map Statement.reading =
        ((s.step c next).2.map Statement.reading).map (Reading.deepen outer.length) := by
  unfold Scanner.step
  rw [h.mode]
  cases hmode : s.mode with
  | code b =>
    simp only
    split_ifs
    · exact ⟨h.pass c _, rfl⟩
    · exact ⟨h.pass c _, rfl⟩
    · exact ⟨h.pass c _, rfl⟩
    · exact h.opened.readCode houter hmode hown next
  | lineComment => exact ⟨h.pass c _, rfl⟩
  | blockComment part => exact ⟨h.pass c _, rfl⟩
  | quoted quote escaped within => exact ⟨h.pass c _, rfl⟩
  | interpolation braces => exact ⟨h.pass c _, rfl⟩

theorem advance (h : Within outer s t) (houter : outer.all id) {next : Option CodePoint}
    {text : Text} (hown : s.keepsToOwn next text) :
    Within outer (s.advance next text) (t.advance next text) ∧
      (t.closedIn next text).map Statement.reading =
        ((s.closedIn next text).map Statement.reading).map (Reading.deepen outer.length) := by
  induction text generalizing s t with
  | nil => exact ⟨h, rfl⟩
  | cons c rest ih =>
    simp only [keepsToOwn, Bool.and_eq_true, Bool.not_eq_true'] at hown
    obtain ⟨hstep, hfound⟩ := h.step houter hown.1 (rest.head?.or next)
    obtain ⟨hadvance, hclosed⟩ := ih hstep hown.2
    refine ⟨hadvance, ?_⟩
    simp only [closedIn, List.map_append, hfound, hclosed]

end Within
end Scanner

/-! ## Texts that settle -/

/-- Put between two statements in blocks that are always run, the text is read as the statements
`readings`, and what follows it stands between two statements again. -/
def Settles (text : Text) (readings : List Reading) : Prop :=
  ∀ (offset : Nat) (blocks : List Bool) (next : Option CodePoint), blocks.all id →
    (Scanner.between offset blocks).advance next text =
        Scanner.between (offset + text.length) blocks ∧
      ((Scanner.between offset blocks).closedIn next text).map Statement.reading =
        readings.map (Reading.deepen blocks.length)

namespace Settles

theorem nil : Settles [] [] := fun _ _ _ _ => ⟨rfl, rfl⟩

theorem append {a b : Text} {rs qs : List Reading} (ha : Settles a rs) (hb : Settles b qs) :
    Settles (a ++ b) (rs ++ qs) := by
  intro offset blocks next hblocks
  obtain ⟨hadvance, hclosed⟩ := ha offset blocks (b.head?.or next) hblocks
  obtain ⟨hadvance', hclosed'⟩ := hb (offset + a.length) blocks next hblocks
  constructor
  · rw [Scanner.advance_append, hadvance, hadvance', List.length_append, Nat.add_assoc]
  · rw [Scanner.closedIn_append, hadvance, List.map_append, hclosed, hclosed', List.map_append]

theorem newline : Settles ['\n'] [] := fun _ _ _ _ => ⟨rfl, rfl⟩

/-- Whether a text settles can be seen at its end, where nothing follows. -/
theorem of_within {text : Text} {readings : List Reading}
    (h : ∀ offset blocks, blocks.all id →
      Scanner.Within blocks (.between text.length [])
          ((Scanner.between offset blocks).advance none text) ∧
        ((Scanner.between offset blocks).closedIn none text).map Statement.reading =
          readings.map (Reading.deepen blocks.length)) :
    Settles text readings := by
  intro offset blocks next hblocks
  obtain ⟨hwithin, hclosed⟩ := h offset blocks hblocks
  have hsettled := Scanner.between_settled offset blocks
  have hpending : ((Scanner.between offset blocks).advance none text).pending = none :=
    hwithin.pending_eq_none_iff.mpr rfl
  have hmode : ((Scanner.between offset blocks).advance none text).mode.isComment = false := by
    rw [hwithin.mode]
    rfl
  have hend := (hsettled.advance none text).eq_between hpending hmode
  obtain ⟨hadvance, hsame⟩ := Scanner.advance_next hpending (.inl hmode) next
  refine ⟨?_, by rw [hsame, hclosed]⟩
  rw [hadvance, hend, hsettled.advance_offset, hwithin.blocks]
  rfl

end Settles
end StyleVars
