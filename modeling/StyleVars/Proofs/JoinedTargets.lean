import StyleVars.Proofs.RebuiltImports

/-!
# Targets behind each other

Between its targets an import has white space and commas. In place of these, a comma and a space are
written. Both calm the reader (`Scanner.keeps_calm`) unless a line feed among them ends a comment or
a string: then the targets are read as they were (`Cuts.stays_joined`), and an import stays one
statement (`Statement.isRewritable`). So a sheet of which no target is known keeps its declarations
and its imports when it is inlined, as long as each of its imports stays one statement
(`inlineImports_unknown_iff`). A comment behind a target, which ends with its line, may be in the
way of that (`trailingComment_swallows`).
-/

namespace StyleVars

/-! ## Calm modes -/

namespace Mode

/-- The mode behind a character that means nothing by itself. -/
def calm : Mode → Mode
  | .code _ => .code false
  | .lineComment => .lineComment
  | .blockComment _ => .blockComment .inside
  | .quoted quote _ within => .quoted quote false within
  | .interpolation braces => .interpolation braces

@[simp]
theorem calm_calm (m : Mode) : m.calm.calm = m.calm := by cases m <;> rfl

/-- A string in which the reader is has a quote of strings. -/
def HasQuote : Mode → Prop
  | .quoted quote _ _ => quote = '"' ∨ quote = '\x27'
  | _ => True

theorem hasQuote_calm {m : Mode} : m.calm.HasQuote ↔ m.HasQuote := by cases m <;> rfl

theorem exists_code_of_calm {m : Mode} {b : Bool} (h : m.calm = .code b) : ∃ b', m = .code b' := by
  cases m with
  | code b' => exact ⟨b', rfl⟩
  | lineComment | blockComment | quoted | interpolation => exact nomatch h

end Mode

namespace Scanner

theorem readCode_hasQuote (s : Scanner) (c : CodePoint) (next : Option CodePoint) :
    (s.readCode c next).1.mode.HasQuote := by
  unfold readCode
  split_ifs with hquote
  · exact hquote
  all_goals exact trivial

theorem step_hasQuote {s : Scanner} (h : s.mode.HasQuote) (c : CodePoint)
    (next : Option CodePoint) : (s.step c next).1.mode.HasQuote := by
  unfold step
  cases hmode : s.mode with
  | code b =>
    simp only
    split_ifs
    · exact trivial
    · exact trivial
    · exact trivial
    · exact readCode_hasQuote _ c next
  | lineComment =>
    simp only [pass_mode]
    split_ifs <;> exact trivial
  | blockComment part =>
    cases part <;> simp only [pass_mode]
    · exact trivial
    · exact trivial
    · split_ifs <;> exact trivial
  | quoted quote escaped within =>
    rw [hmode] at h
    simp only [pass_mode]
    split_ifs
    · exact h
    · exact h
    · cases within <;> exact trivial
    · exact h
  | interpolation braces =>
    simp only [pass_mode]
    split_ifs with h1 h2 h3 h4
    · exact trivial
    · exact trivial
    · exact trivial
    · exact h4
    · exact trivial

variable {safe : Bool} {a b m : OpenState} {c : CodePoint} {next : Option CodePoint} {t u : Text}

/-- Some statement that is open in the state. -/
def holding (a : OpenState) : Scanner := ⟨0, a.1, some ⟨0, []⟩, a.2, []⟩

theorem holding_pending (a : OpenState) : (holding a).pending ≠ none := Option.some_ne_none _

theorem Keeps.unique (h : Keeps a c next b) (h' : Keeps a c next m) : b = m := by
  have heq := (h (holding a) rfl rfl (holding_pending a)).symm.trans
    (h' (holding a) rfl rfl (holding_pending a))
  have hstate := (Prod.mk.inj heq).1
  exact Prod.ext (congrArg Scanner.mode hstate) (congrArg Scanner.parens hstate)

theorem Keeps.hasQuote (h : Keeps a c next b) (ha : a.1.HasQuote) : b.1.HasQuote := by
  have hstep := step_hasQuote (s := holding a) ha c next
  rw [h (holding a) rfl rfl (holding_pending a)] at hstep
  exact hstep

/-- The state behind a character that means nothing by itself. -/
def OpenState.calm (a : OpenState) : OpenState := (a.1.calm, a.2)

/-- White space and commas calm the reader, unless a line feed ends a comment or a string. -/
theorem keeps_calm (ha : a.1.HasQuote) (hc : isBlank c ∨ c = ',')
    (hline : c = '\n' → a.1.endsAtLine = false) : Keeps a c next a.calm := by
  have hne : ∀ d : CodePoint, isBlank d = false → d ≠ ',' → c ≠ d := by
    intro d hd hcomma
    rcases hc with hc | rfl
    · exact CodePoint.ne_of_class hc hd
    · exact hcomma.symm
  obtain ⟨mode, parens⟩ := a
  intro u hmode hparens hpending
  have hpass := pass_eq_tookWith hparens c mode.calm
  refine Eq.trans ?_ hpass
  unfold step
  rw [hmode]
  cases mode with
  | code afterColon =>
    simp only [hne '/' (by decide) (by decide), false_and, if_false]
    by_cases hblank : isBlank c
    · rw [if_pos hblank]
      rfl
    · obtain rfl := hc.resolve_left hblank
      rw [if_neg hblank, opened_eq_self hpending]
      simp [readCode, Mode.calm]
  | lineComment =>
    have hfeed : c ≠ '\n' := fun h => absurd (hline h) (by simp [Mode.endsAtLine])
    simp only [if_neg hfeed, Mode.calm]
  | blockComment part =>
    cases part <;> simp only [hne '*' (by decide) (by decide), hne '/' (by decide) (by decide),
      if_false, Mode.calm]
  | quoted quote escaped within =>
    have hquote : c ≠ quote := by
      rcases ha with h | h
      · exact h ▸ hne '"' (by decide) (by decide)
      · exact h ▸ hne '\x27' (by decide) (by decide)
    cases escaped with
    | true => simp only [if_true, Mode.calm]
    | false =>
      have hfeed : c ≠ '\n' := fun h => absurd (hline h) (by simp [Mode.endsAtLine])
      simp [hne '\\' (by decide) (by decide), hquote, hfeed, Mode.calm]
  | interpolation braces =>
    simp only [hne '\x7b' (by decide) (by decide), hne '\x7d' (by decide) (by decide),
      hne '"' (by decide) (by decide), hne '\x27' (by decide) (by decide), or_self, if_false,
      Mode.calm]

/-- The next character, if any, does not open a comment or an interpolation. -/
def IsIdle (next : Option CodePoint) : Prop :=
  next ≠ some (.char '/') ∧ next ≠ some (.char '*') ∧ next ≠ some (.char '\x7b')

theorem isIdle_semicolon : IsIdle (some (.char ';')) := by
  unfold IsIdle
  decide

theorem isIdle_comma : IsIdle (some (.char ',')) := by
  unfold IsIdle
  decide

theorem IsIdle.head?_or_of_blank (h : IsIdle next) (ht : ∀ c ∈ t, isBlank c) :
    IsIdle (t.head?.or next) := by
  cases t with
  | nil => exact h
  | cons c t =>
    have hne : ∀ d : CodePoint, isBlank d = false → some c ≠ some d := fun d hd heq =>
      CodePoint.ne_of_class (ht c List.mem_cons_self) hd (Option.some.inj heq)
    exact ⟨hne '/' (by decide), hne '*' (by decide), hne '\x7b' (by decide)⟩

namespace Stays

theorem append (h : Stays safe a (u.head?.or next) t m) (h' : Stays safe m next u b) :
    Stays safe a next (t ++ u) b := by
  generalize hnext : u.head?.or next = next' at h
  induction h with
  | nil => exact h'
  | @cons a m b next' c rest hc hline h ih =>
    have hkeeps : Keeps a c ((rest ++ u).head?.or next) m := by
      rwa [List.head?_append, Option.or_assoc, hnext]
    exact .cons hkeeps hline (ih h' hnext)

theorem split (h : Stays safe a next (t ++ u) b) :
    ∃ m, Stays safe a (u.head?.or next) t m ∧ Stays safe m next u b := by
  induction t generalizing a with
  | nil => exact ⟨a, .nil, h⟩
  | cons c t ih =>
    rw [List.cons_append] at h
    cases h with
    | cons hc hline h =>
      obtain ⟨m, ht, hu⟩ := ih h
      rw [List.head?_append, Option.or_assoc] at hc
      exact ⟨m, .cons hc hline ht, hu⟩

theorem hasQuote (h : Stays safe a next t b) (ha : a.1.HasQuote) : b.1.HasQuote := by
  induction h with
  | nil => exact ha
  | cons hc hline h ih => exact ih (hc.hasQuote ha)

theorem weaken (h : Stays safe a next t b) : Stays false a next t b := by
  induction h with
  | nil => exact .nil
  | cons hc hline h ih => exact .keep hc ih

theorem unique {safe' : Bool} (h : Stays safe a next t b) (h' : Stays safe' a next t m) :
    b = m := by
  induction h with
  | nil =>
    cases h' with
    | nil => rfl
  | cons hc hline h ih =>
    cases h' with
    | cons hc' hline' h' =>
      obtain rfl := hc.unique hc'
      exact ih h'

/-- What is read before one such character is read before any other. -/
theorem of_next {next' : Option CodePoint} (h : Stays safe a next t b) (hnext : IsIdle next)
    (hnext' : IsIdle next') : Stays safe a next' t b := by
  induction h with
  | nil => exact .nil
  | @cons a m b next c rest hc hline h ih =>
    refine .cons ?_ hline (ih hnext)
    cases rest with
    | cons d rest => exact hc
    | nil =>
      intro u hmode hparens hpending
      rw [List.head?_nil, Option.none_or, step_of_next c hnext', ← step_of_next c hnext]
      exact hc u hmode hparens hpending

/-- White space calms the reader if there is any. -/
theorem of_blank (h : Stays true a next t b) (ht : ∀ c ∈ t, isBlank c) (ha : a.1.HasQuote) :
    b = a ∨ b = a.calm := by
  induction h with
  | nil => exact .inl rfl
  | @cons a m b next c rest hc hline h ih =>
    rw [List.forall_mem_cons] at ht
    obtain rfl := hc.unique (keeps_calm ha (.inl ht.1) (hline rfl))
    refine .inr ?_
    rcases ih ht.2 (Mode.hasQuote_calm.mpr ha) with h | h
    · exact h
    · rw [h, OpenState.calm, OpenState.calm, Mode.calm_calm]

/-- What stands between two targets calms the reader. -/
theorem of_separator (ha : a.1.HasQuote) (ht : ∀ c ∈ t, c = ' ' ∨ c = ',') (hne : t ≠ []) :
    Stays false a next t a.calm := by
  induction t generalizing a with
  | nil => exact absurd rfl hne
  | cons c t ih =>
    rw [List.forall_mem_cons] at ht
    have hc : Keeps a c (t.head?.or next) a.calm := by
      refine keeps_calm ha (ht.1.imp (fun h => ?_) id) (fun h => ?_)
      · rw [h]
        decide
      · rcases ht.1 with rfl | rfl <;> exact absurd h (by decide)
    cases t with
    | nil => exact .keep hc .nil
    | cons d t =>
      have hrest := ih (a := a.calm) (Mode.hasQuote_calm.mpr ha) ht.2 (by simp)
      rw [OpenState.calm, OpenState.calm, Mode.calm_calm] at hrest
      exact .keep hc hrest

end Stays
end Scanner

/-! ## Targets between separators -/

open Scanner

/-- The targets, separated by a comma and a space, behind a lead. -/
def leadTargets (lead : Text) (raws : List Text) : Text :=
  if raws = [] then [] else lead ++ Text.join ", ".toText raws

theorem leadTargets_cons (lead raw : Text) (raws : List Text) :
    leadTargets lead (raw :: raws) = lead ++ (raw ++ leadTargets ", ".toText raws) := by
  cases raws with
  | nil => simp [leadTargets, Text.join]
  | cons raw' raws => simp [leadTargets, Text.join]

theorem isIdle_leadTargets (raws : List Text) :
    IsIdle ((leadTargets ", ".toText raws).head?.or (some (.char ';'))) := by
  unfold leadTargets
  split_ifs
  · exact isIdle_semicolon
  · exact isIdle_comma

theorem OpenState.calm_calm (a : OpenState) : a.calm.calm = a.calm := by
  rw [OpenState.calm, OpenState.calm, Mode.calm_calm]

/-- A stripped piece is read as it is between white space, up to the calm behind it. -/
theorem stays_strip {a b : OpenState} {next : Option CodePoint} {p : Text}
    (h : Stays true a next p b) (ha : a.1.HasQuote) (hcalm : a.calm = a) (hnext : IsIdle next) :
    ∃ m, Stays true a next (Text.strip p) m ∧ (b = m ∨ b = m.calm) := by
  obtain ⟨before, after, hp, hbefore, hafter⟩ := Text.exists_strip p
  rw [hp] at h
  obtain ⟨m, hm, hrest⟩ := h.split
  have hsame : m = a := (hm.of_blank hbefore ha).elim id fun heq => heq.trans hcalm
  rw [hsame] at hrest
  obtain ⟨m', hm', hend⟩ := hrest.split
  exact ⟨m', hm'.of_next (hnext.head?_or_of_blank hafter) hnext,
    hend.of_blank hafter (hm'.hasQuote ha)⟩

/-- A piece is read alike behind a separator, which calms the reader as what stands in front of the
piece did. A piece without a target is left out. -/
theorem stays_piece {a b r : OpenState} {next : Option CodePoint} {p lead : Text}
    (h : Stays true a next p b) (hr : r.1.HasQuote) (hcalm : r.calm = a) (hnext : IsIdle next)
    (hlead : ∀ c ∈ lead, c = ' ' ∨ c = ',') (hne : lead ≠ []) :
    ∃ (r' : OpenState) (lead' : Text), r'.1.HasQuote ∧ (b = r' ∨ b = r'.calm) ∧
      (∀ c ∈ lead', c = ' ' ∨ c = ',') ∧ lead' ≠ [] ∧
      ∀ ps e, Stays false r' (some (.char ';')) (leadTargets lead' (strippedPieces ps)) e →
        Stays false r (some (.char ';')) (leadTargets lead (strippedPieces (p :: ps))) e := by
  have ha : a.1.HasQuote := hcalm ▸ Mode.hasQuote_calm.mpr hr
  have hcalm' : a.calm = a := by rw [← hcalm, OpenState.calm_calm]
  obtain ⟨m, hm, hb⟩ := stays_strip h ha hcalm' hnext
  by_cases hempty : Text.strip p = []
  · rw [hempty] at hm
    cases hm with
    | nil =>
      rw [hcalm', or_self] at hb
      refine ⟨r, lead, hr, .inr (hb.trans hcalm.symm), hlead, hne, fun ps e he => ?_⟩
      rwa [strippedPieces_cons, if_pos hempty]
  · refine ⟨m, ", ".toText, hm.hasQuote ha, hb, by decide, by decide, fun ps e he => ?_⟩
    rw [strippedPieces_cons, if_neg hempty, leadTargets_cons]
    refine .append (.of_separator hr hlead hne) (.append ?_ he)
    rw [hcalm]
    exact (hm.of_next hnext (isIdle_leadTargets _)).weaken

/-- Targets that have been read as parts of a statement are read as such behind each other. -/
theorem Cuts.stays_joined {t : Text} {ps : List Text} (h : Cuts t ps) (lead : Text)
    {a r : OpenState} {b : Bool} (hread : Stays true a (some (.char ';')) t (.code b, 0))
    (hr : r.1.HasQuote) (hcalm : r.calm = a) (hlead : ∀ c ∈ lead, c = ' ' ∨ c = ',')
    (hne : lead ≠ []) :
    ∃ b', Stays false r (some (.char ';')) (leadTargets lead (strippedPieces ps))
      (.code b', 0) := by
  induction h generalizing a r lead with
  | @last t _ _ =>
    obtain ⟨⟨mode, parens⟩, lead', -, hend, -, -, hjoin⟩ :=
      stays_piece hread hr hcalm isIdle_semicolon hlead hne
    have hcode : ∃ b', mode = .code b' := by
      rcases hend with hend | hend
      · exact ⟨b, (congrArg Prod.fst hend).symm⟩
      · exact Mode.exists_code_of_calm (congrArg Prod.fst hend).symm
    obtain rfl : 0 = parens := by rcases hend with hend | hend <;> exact congrArg Prod.snd hend
    obtain ⟨b', rfl⟩ := hcode
    exact ⟨b', hjoin [] _ .nil⟩
  | @cons p t ps hp h ih =>
    obtain ⟨m, hm, hcomma⟩ := hread.split
    cases hcomma with
    | @cons _ m' _ _ _ _ hc hline ht =>
      obtain ⟨r', lead', hr', hend, hlead', hne', hjoin⟩ :=
        stays_piece hm hr hcalm isIdle_comma hlead hne
      have hm' : m.1.HasQuote :=
        hm.hasQuote (hcalm ▸ Mode.hasQuote_calm.mpr hr)
      have hcalm' : r'.calm = m' := by
        rw [hc.unique (keeps_calm hm' (.inr rfl) (fun h => absurd h (by decide)))]
        rcases hend with rfl | rfl
        · rfl
        · exact (OpenState.calm_calm r').symm
      obtain ⟨b', hb'⟩ := ih _ ht hr' hcalm' hlead' hne'
      exact ⟨b', hjoin ps _ hb'⟩

/-! ## Imports that stay one statement -/

/-- No line feed of the text ends a comment or a string. -/
def Scanner.linesEndNothing (s : Scanner) : Text → Bool
  | [] => true
  | c :: rest =>
    !(c = '\n' && s.mode.endsAtLine) && linesEndNothing (s.step c rest.head?).1 rest

theorem Scanner.Stays.safe_of_lines {a b : OpenState} {next : Option CodePoint} {t : Text}
    (h : Stays false a next t b) {u : Scanner} (hmode : u.mode = a.1) (hparens : u.parens = a.2)
    (hpending : u.pending ≠ none) (hlines : u.linesEndNothing t) : Stays true a next t b := by
  induction h generalizing u with
  | nil => exact .nil
  | @cons a m b next c rest hc hline h ih =>
    simp only [linesEndNothing, Bool.and_eq_true, Bool.not_eq_true', Bool.and_eq_false_imp,
      decide_eq_true_eq, hmode] at hlines
    refine .cons hc (fun _ => hlines.1) ?_
    cases rest with
    | nil =>
      cases h with
      | nil => exact .nil
    | cons d rest =>
      have hstep := hc u hmode hparens hpending
      rw [List.head?_cons, Option.some_or] at hstep
      rw [List.head?_cons, hstep] at hlines
      exact ih rfl rfl (by simpa [tookWith] using hpending) hlines.2

theorem Scanner.linesEndNothing_opened {s : Scanner} {b : Bool} (hmode : s.mode = .code b)
    {t : Text} (h : StartsVisibly t) : s.opened.linesEndNothing t = s.linesEndNothing t := by
  obtain ⟨c, hc, hblank, hslash⟩ := h
  obtain ⟨rest, rfl⟩ := List.head?_eq_some_iff.mp hc
  have hstep : s.step c rest.head? = s.opened.step c rest.head? :=
    step_eq_step_opened hmode hblank fun heq => absurd heq hslash
  rw [linesEndNothing, linesEndNothing, hstep]
  rfl

theorem Scanner.keeps_solid {c : CodePoint} (hc : isSolid c) (hcolon : c ≠ ':') (parens : Nat)
    (next : Option CodePoint) : Keeps (.code false, parens) c next (.code false, parens) := by
  intro u hmode hparens hpending
  rw [← pass_eq_tookWith hparens]
  simp only [isSolid, isQuiet, isPlain, Bool.and_eq_true, decide_eq_true_eq, Bool.not_eq_true',
    ne_eq] at hc
  rw [step_of_visible hmode hc.2 hc.1.1.2, opened_eq_self hpending]
  simp [readCode, hc, hcolon]

theorem IsImportKeyword.stays {word : Text} (h : IsImportKeyword word) (parens : Nat)
    (next : Option CodePoint) :
    Scanner.Stays true (.code false, parens) next word (.code false, parens) := by
  have hsolid := h.isSolid
  have hcolon : ∀ letter ∈ "@import".toText, matchesLetter letter ':' = false := by decide
  unfold IsImportKeyword at h
  generalize "@import".toText = keyword at h hcolon
  induction h with
  | nil => exact .nil
  | @cons letter c letters word hletter h ih =>
    rw [List.forall_mem_cons] at hsolid hcolon
    have hne : c ≠ ':' := by
      rintro rfl
      exact absurd (hletter.symm.trans hcolon.1) Bool.noConfusion
    exact .cons (Scanner.keeps_solid hsolid.1 hne parens _) (fun _ _ => rfl)
      (ih hsolid.2 hcolon.2)

theorem IsImportKeyword.startsVisibly {word : Text} (h : IsImportKeyword word) (w : Text) :
    StartsVisibly (word ++ w) := by
  obtain ⟨c, more, rfl, -⟩ := h.exists_cons
  have hsolid := h.isSolid c List.mem_cons_self
  exact ⟨c, rfl, visible_of_isSolid h.isSolid c List.mem_cons_self,
    CodePoint.ne_of_class hsolid (by decide)⟩

/-- An import that is one statement stays one when it is written again, unless a line feed in it
ends a comment or a string. -/
theorem Statement.isRewritable {s : Statement} {rule : ImportRule} (himport : s.import? = some rule)
    (hwhole : IsWhole s.text) (hlines : Scanner.start.linesEndNothing s.text) :
    rule.IsRewritable := by
  obtain ⟨rest, hafter, hne, htargets⟩ := s.import?_targets himport
  obtain ⟨word, hword, htext⟩ := exists_keyword_of_afterImport? hafter
  have hstarts : StartsVisibly s.text := htext ▸ hword.startsVisibly rest
  obtain ⟨b, hstays⟩ := ((isWhole_iff hstarts hwhole.strip_eq_self).mp hwhole).stays (by simp)
    (Nat.le_refl 0)
  have hsafe := hstays.safe_of_lines (u := (Scanner.between 0 []).opened) rfl rfl (by simp)
    ((Scanner.linesEndNothing_opened rfl hstarts).trans hlines)
  rw [htext] at hsafe
  obtain ⟨m, hm, hrest⟩ := hsafe.split
  have hcode : m = (.code false, 0) := hm.unique (hword.stays 0 _)
  rw [hcode] at hrest
  -- behind the keyword and a space, the targets are read as behind the keyword
  obtain ⟨ps, hps⟩ := exists_cuts rest
  obtain ⟨b', hjoined⟩ := hps.stays_joined [.char ' '] (r := (.code false, 0)) hrest trivial rfl
    (by simp) (by simp)
  have hkeyword : IsImportKeyword "@import".toText := by decide
  have hwritten : (leftImport rule.targets).text =
      "@import".toText ++ leadTargets [.char ' '] (strippedPieces ps) := by
    rw [hps.splitTargets] at hne htargets
    rw [leftImport, htargets, AreTargets.map_raw_ofRaw, leadTargets, if_neg hne]
    simp [String.toText]
  rw [(s.areTargets himport).isRewritable_iff, hwritten]
  exact ((hkeyword.stays 0 _).weaken.append hjoined).takesIn (by simp)

/-! ## Unknown targets -/

section Unknown

variable {place : Place} {known : KnownSources} {includePaths : List Text} {entry : Text}

/-- Targets that mean no known file are left one after the other. -/
theorem outcome_replaceTargets_left {inline : Text → Recorded Text} {targets : List ImportTarget}
    (h : ∀ target ∈ targets, targetFile place known includePaths entry target = .ok none)
    (r : Replacement) :
    (targets.foldlM (replaceTarget place known includePaths inline entry) r).outcome =
      .ok { r with left := r.left ++ targets.map ImportTarget.raw } := by
  induction targets generalizing r with
  | nil => simp [Recorded.outcome_pure]
  | cons target targets ih =>
    rw [List.forall_mem_cons] at h
    rw [List.foldlM_cons, Recorded.outcome_bind, replaceTarget_left h.1]
    refine (ih h.2 _).trans ?_
    simp

/-- A source none of whose targets is known is inlined with its imports written again. -/
theorem outcome_inlineImports_left {source : Text} (hsource : Keyed.get? entry known = some source)
    (h : ∀ rule ∈ imports source, ∀ target ∈ rule.targets,
      targetFile place known includePaths entry target = .ok none) :
    (inlineImports place known includePaths entry).outcome = .ok (rebuiltText source) := by
  rw [inlineImports, inlineWithin_of_notMem List.not_mem_nil hsource]
  refine outcome_spliceFrom (fun rule hrule => ?_) 0
  have htext : (Replacement.mk [] (rule.targets.map ImportTarget.raw)).text = rule.rebuilt := by
    rw [Replacement.text, Replacement.flush,
      if_neg (areTargets_of_mem_imports hrule).map_raw_ne_nil]
    rfl
  rw [Recorded.outcome_bind, outcome_replaceTargets_left (h rule hrule), List.nil_append, ← htext]
  rfl

theorem eq_of_map_targets {α : Type} {f : ImportTarget → α} {x : α} {n : Nat}
    {rules : List ImportRule}
    (h : (rules.flatMap ImportRule.targets).map f = List.replicate n x) :
    ∀ rule ∈ rules, ∀ target ∈ rule.targets, f target = x := by
  intro rule hrule target htarget
  refine List.eq_of_mem_replicate (n := n) ?_
  rw [← h]
  exact List.mem_map_of_mem (List.mem_flatMap.mpr ⟨rule, hrule, htarget⟩)

/-- When no target of the entry is known, its imports are written again, and they are found in the
places where they are written exactly when each of them is one statement by itself. Then the text
declares and imports what the source does. An import that is one statement in the source stays one
unless a line feed in it ends a comment or a string. -/
theorem inlineImports_unknown_iff {source : Text} (hsource : Keyed.get? entry known = some source)
    (hunknown : ∀ rule ∈ imports source, ∀ target ∈ rule.targets,
      targetFile place known includePaths entry target = .ok none) :
    ∃ text, (inlineImports place known includePaths entry).outcome = .ok text ∧
      (imports text = placedFrom 0 0 (imports source) ↔
        ∀ rule ∈ imports source, rule.IsRewritable) ∧
      ((∀ rule ∈ imports source, rule.IsRewritable) →
        (declarations text).map Declaration.content =
            (declarations source).map Declaration.content ∧
          (imports text).map ImportRule.targets = (imports source).map ImportRule.targets) ∧
      ∀ s ∈ statements source, ∀ rule, s.import? = some rule → IsWhole s.text →
        Scanner.start.linesEndNothing s.text → rule.IsRewritable := by
  have hrebuilt := rebuilt_rebuiltText source
  refine ⟨rebuiltText source, outcome_inlineImports_left hsource hunknown, hrebuilt.imports,
    fun hrules => ⟨?_, ?_⟩, fun s _ rule himport => s.isRewritable himport⟩
  · rw [map_content_declarations, map_content_declarations,
      ← filterMap_declared?_expanded (statements source)]
    exact congrArg _ (hrebuilt.readings hrules)
  · have himports : imports (rebuiltText source) = placedFrom 0 0 (imports source) :=
      hrebuilt.imports.mpr hrules
    rw [himports, map_targets_placedFrom]

end Unknown

/-- An import over several lines, and one in a block that its brace closes. -/
def laidOutSheet : Text :=
  "@import \"a\",\n  url(b.css)\n  print;\n@media c \x7b @IMPORT \x27d\x27 \x7d\n$e: 1;\n".toText

theorem laidOutSheet_rewritten :
    Keyed.get? "/main.scss".toText [("/main.scss".toText, laidOutSheet)] = some laidOutSheet ∧
    (∀ rule ∈ imports laidOutSheet, ∀ target ∈ rule.targets,
      targetFile rootPlace [("/main.scss".toText, laidOutSheet)] []
        "/main.scss".toText target = .ok none) ∧
    (∀ s ∈ statements laidOutSheet, ∀ rule, s.import? = some rule →
      IsWhole s.text ∧ Scanner.start.linesEndNothing s.text) ∧
    (∀ rule ∈ imports laidOutSheet, rule.IsRewritable) ∧
    ∃ text, (inlineImports rootPlace [("/main.scss".toText, laidOutSheet)] []
        "/main.scss".toText).outcome = .ok text ∧
      imports text = placedFrom 0 0 (imports laidOutSheet) ∧
      (declarations text).map Declaration.content =
        (declarations laidOutSheet).map Declaration.content ∧
      (imports text).map ImportRule.targets =
        (imports laidOutSheet).map ImportRule.targets := by
  have hsource : Keyed.get? "/main.scss".toText [("/main.scss".toText, laidOutSheet)] =
      some laidOutSheet := rfl
  have hunknown : ∀ rule ∈ imports laidOutSheet, ∀ target ∈ rule.targets,
      targetFile rootPlace [("/main.scss".toText, laidOutSheet)] []
        "/main.scss".toText target = .ok none := eq_of_map_targets (n := 3) rfl
  have hlines : ∀ s ∈ statements laidOutSheet, ∀ rule, s.import? = some rule →
      IsWhole s.text ∧ Scanner.start.linesEndNothing s.text := by decide +kernel
  obtain ⟨text, htext, hplaces, hkept, hrewritable⟩ := inlineImports_unknown_iff hsource hunknown
  have hrules : ∀ rule ∈ imports laidOutSheet, rule.IsRewritable := by
    intro rule hrule
    obtain ⟨s, hs, himport⟩ := List.mem_filterMap.mp hrule
    obtain ⟨hwhole, hsafe⟩ := hlines s hs rule himport
    exact hrewritable s hs rule himport hwhole hsafe
  obtain ⟨hdeclarations, himports⟩ := hkept hrules
  exact ⟨hsource, hunknown, hlines, hrules, text, htext, hplaces.mpr hrules, hdeclarations,
    himports⟩

/-- An import with a comment behind its target, which ends with the line, and the call of a hook. -/
def trailingComment : Text :=
  (SheetFile.ofSource "/main.scss".toText 0
    "@import \"a\" // b\n;\n$c: 1;\n".toText).instrumented

/-- The target takes the comment along, but not the line feed, and the semicolon behind it becomes
part of the comment. The declaration is lost, and the import has another target. -/
theorem trailingComment_swallows :
    (∀ rule ∈ imports trailingComment, ∀ target ∈ rule.targets,
      targetFile rootPlace [("/main.scss".toText, trailingComment)] []
        "/main.scss".toText target = .ok none) ∧
    (declarations trailingComment).map Declaration.name =
      ["$c".toText, "$sassvars-capture".toText] ∧
    (imports trailingComment).map ImportRule.targets = [[.ofRaw "\"a\" // b".toText]] ∧
    ∃ text, (inlineImports rootPlace
        [("/main.scss".toText, trailingComment)] [] "/main.scss".toText).outcome = .ok text ∧
      (declarations text).map Declaration.name = ["$sassvars-capture".toText] ∧
      (imports text).map ImportRule.targets = [[.ofRaw "\"a\" // b;\n$c: 1".toText]] := by
  refine ⟨eq_of_map_targets (n := 1) rfl,
    by decide +kernel, by decide +kernel, _, rfl, by decide +kernel, by decide +kernel⟩

end StyleVars
