import StyleVars.Extract.Inline
import StyleVars.Proofs.StatementTexts

/-!
# Texts put in the place of imports

Every import of a source is replaced by a text that settles, and the reader of the result keeps up
with the reader of the source (`Scanner.Splices`): wherever the source stands between two
statements, the result does so in as many blocks more as it is read inside of. Replacing the imports
therefore replaces their statements and no others (`settles_splicedFrom`). The source is gone
through piece by piece, each import being a piece of its own (`Scanner.Pieces`).
-/

namespace StyleVars

/-- The source from an offset on with a text in the place of each of the imports. -/
def splicedFrom (source : Text) (text : ImportRule → Text) (cursor : Nat) : List ImportRule → Text
  | [] => source.drop cursor
  | rule :: rest =>
    (source.take rule.start).drop cursor ++ text rule ++ splicedFrom source text rule.stop rest

/-- A statement as it is read, or what an import is replaced by, in the blocks of the import. -/
def Statement.expanded (readings : ImportRule → List Reading) (s : Statement) : List Reading :=
  match s.import? with
  | none => [s.reading]
  | some rule => (readings rule).map (Reading.deepen s.depth)

theorem outcome_spliceFrom {source : Text} {replace : ImportRule → Recorded Text}
    {text : ImportRule → Text} {rules : List ImportRule}
    (h : ∀ rule ∈ rules, (replace rule).outcome = .ok (text rule)) (cursor : Nat) :
    (spliceFrom source replace cursor rules).outcome =
      .ok (splicedFrom source text cursor rules) := by
  induction rules generalizing cursor with
  | nil => rfl
  | cons rule rest ih =>
    have hmore := ih (fun rule' h' => h rule' (by simp [h'])) rule.stop
    simp only [spliceFrom, splicedFrom, Recorded.outcome_bind, h rule (by simp), Except.bind,
      hmore, Recorded.outcome_pure]

/-- What stands before the first import is left as it is. -/
theorem splicedFrom_skip {source u rest : Text} {cursor : Nat} (text : ImportRule → Text)
    {rules : List ImportRule} (hsource : source.drop cursor = u ++ rest)
    (hstart : ∀ rule ∈ rules, cursor + u.length ≤ rule.start) :
    splicedFrom source text cursor rules =
      u ++ splicedFrom source text (cursor + u.length) rules := by
  have hdrop : source.drop (cursor + u.length) = rest := by
    rw [← List.drop_drop, hsource, List.drop_left]
  cases rules with
  | nil => simp only [splicedFrom, hsource, hdrop]
  | cons rule rules =>
    have hle : cursor + u.length ≤ rule.start := hstart rule (by simp)
    have hcut : (source.take rule.start).drop cursor =
        u ++ (source.take rule.start).drop (cursor + u.length) := by
      rw [List.drop_take, List.drop_take, hsource, hdrop, List.take_append,
        List.take_of_length_le (by omega)]
      congr 2
      omega
    simp only [splicedFrom, hcut, List.append_assoc]

namespace Scanner

/-! ## Where statements start and end -/

/-- The import that a statement makes starts and stops where the statement does. -/
theorem import?_spec {s : Statement} {rule : ImportRule} (h : s.import? = some rule) :
    s.unconditional ∧ rule.start = s.start ∧ rule.stop = s.stop := by
  unfold Statement.import? at h
  split_ifs at h with hunconditional
  simp only [Option.bind_eq_some_iff] at h
  obtain ⟨rest, -, hsplit⟩ := h
  cases hraws : splitTargets rest with
  | nil => simp [hraws] at hsplit
  | cons raw raws =>
    rw [hraws] at hsplit
    simp only [Option.some.injEq] at hsplit
    subst hsplit
    exact ⟨hunconditional, rfl, rfl⟩

theorem Settled.start_of_mem_imports {s : Scanner} (h : s.Settled) (hpending : s.pending = none)
    {t : Text} {rule : ImportRule} (hrule : rule ∈ (s.scan t).filterMap Statement.import?) :
    s.offset ≤ rule.start := by
  obtain ⟨found, hfound, himport⟩ := List.mem_filterMap.mp hrule
  have hearliest : s.earliest = s.offset := by simp [earliest, hpending]
  rw [(import?_spec himport).2.1, ← hearliest]
  exact h.start_of_mem_scan (Nat.le_of_eq hearliest) hfound

/-- Between two statements at `b`, the text `u` opens a statement, which is still open at `s`. -/
structure Opens (b : Scanner) (next : Option CodePoint) (u : Text) (s : Scanner) : Prop where
  mode : b.mode = .code false
  reads : b.Reads next u s
  pending : s.pending.map Pending.start = some b.offset
  blocks : s.blocks = b.blocks

theorem Opens.ne_none {b s : Scanner} {next : Option CodePoint} {u : Text}
    (h : b.Opens next u s) : s.pending ≠ none := by
  intro hnone
  have hpending := h.pending
  rw [hnone] at hpending
  simp at hpending

/-- A character that does not close the open statement belongs to it. -/
theorem Settled.step_of_pending {s : Scanner} (h : s.Settled) (hpending : s.pending ≠ none)
    {c : CodePoint} {next : Option CodePoint} (hopen : (s.step c next).1.pending ≠ none) :
    (s.step c next).1.pending.map Pending.start = s.pending.map Pending.start ∧
      (s.step c next).1.blocks = s.blocks := by
  have hstep := h.step_cases c next
  generalize s.step c next = r at hstep hopen ⊢
  obtain ⟨p, hp⟩ := Option.ne_none_iff_exists'.mp hpending
  cases hstep with
  | passed mode hmode => simp [hp]
  | kept mode parens hcode hblank => simp [hp]
  | ended | entered | left => exact absurd rfl hopen

/-- A statement that is open is closed by some character, or it is open at the end. -/
theorem Opens.closed_or_open {b s : Scanner} {u rest : Text} (hs : s.Settled)
    (h : b.Opens rest.head? u s) :
    (∃ (v : Text) (d : CodePoint) (rest' : Text) (s' : Scanner), rest = v ++ d :: rest' ∧
        b.Opens (some d) (u ++ v) s' ∧ s'.Settled ∧ (s'.step d rest'.head?).1.pending = none) ∨
      ∃ s', b.Opens none (u ++ rest) s' ∧ s'.Settled := by
  -- the first character after which no statement is open is the one that closes it
  induction rest generalizing s u with
  | nil => exact .inr ⟨s, by simpa using h, hs⟩
  | cons d rest ih =>
    by_cases hclosed : (s.step d rest.head?).1.pending = none
    · exact .inl ⟨[], d, rest, s, rfl, by simpa using h, hs, hclosed⟩
    · obtain ⟨hstart, hblocks⟩ := hs.step_of_pending h.ne_none hclosed
      have hfound := hs.found_eq_nil d rest.head? (.inr hclosed)
      have hread : s.Reads rest.head? [d] (s.step d rest.head?).1 :=
        .single (Prod.ext rfl hfound)
      have hopens : b.Opens rest.head? (u ++ [d]) (s.step d rest.head?).1 :=
        ⟨h.mode, Reads.append (by simpa using h.reads) hread, hstart.trans h.pending,
          hblocks.trans h.blocks⟩
      rcases ih (hs.step d _) hopens with ⟨v, e, rest', s', rfl, hopens', hs', hclosed'⟩ | hopen
      · exact .inl ⟨d :: v, e, rest', s', rfl, by simpa using hopens', hs', hclosed'⟩
      · exact .inr (by simpa using hopen)

/-- A first character after which a statement is open has opened it. -/
theorem Settled.opens {b : Scanner} (h : b.Settled) (hpending : b.pending = none) {c : CodePoint}
    {next : Option CodePoint} (hopen : (b.step c next).1.pending ≠ none) :
    b.Opens next [c] (b.step c next).1 := by
  have hfound := h.found_eq_nil c next (.inr hopen)
  have hread : b.Reads next [c] (b.step c next).1 := .single (Prod.ext rfl hfound)
  have hstep := h.step_cases c next
  generalize b.step c next = r at hstep hopen hread ⊢
  cases hstep with
  | passed mode hmode => exact absurd (by simp [hpending]) hopen
  | kept mode parens hcode hblank =>
    refine ⟨(h.mode hpending).resolve_right ?_, hread, by simp [hpending], rfl⟩
    obtain ⟨b', hb'⟩ := hcode
    simp [hb', Mode.isComment]
  | ended | entered | left => exact absurd rfl hopen

/-! ## Two readers side by side -/

/-- The text `result`, read at `t` inside of the blocks `outer`, comes to an end as the text `rest`
does when it is read at `b`, and is read as `readings`. A comment goes on in both alike. -/
structure Splices (outer : List Bool) (b t : Scanner) (rest result : Text)
    (readings : List Reading) : Prop where
  advance : Within outer (b.advance none rest) (t.advance none result)
  closedIn : (t.closedIn none result).map Statement.reading =
    readings.map (Reading.deepen outer.length)
  head : b.mode.isComment → result.head? = rest.head?

namespace Splices

variable {outer : List Bool} {b b' t : Scanner} {rest result : Text} {readings : List Reading}

/-- A text after which no statement is open is read in both. -/
theorem pass {v : Text} (houter : outer.all id) (hne : v ≠ []) (ht : Within outer b t)
    (hown : b.keepsToOwn rest.head? v) (hb' : b.advance rest.head? v = b')
    (hpending : b'.pending = none)
    (h : ∀ t', Within outer b' t' → Splices outer b' t' rest result readings) :
    Splices outer b t (v ++ rest) (v ++ result)
      ((b.closedIn rest.head? v).map Statement.reading ++ readings) := by
  obtain ⟨hadvance, hclosed⟩ := ht.advance houter hown
  rw [hb'] at hadvance
  have hrest := h _ hadvance
  have hpending' : (t.advance rest.head? v).pending = none :=
    hadvance.pending_eq_none_iff.mpr hpending
  -- what follows differs, but only a comment would notice
  have hsame : t.advance result.head? v = t.advance rest.head? v ∧
      t.closedIn result.head? v = t.closedIn rest.head? v := by
    by_cases hcomment : b'.mode.isComment
    · rw [hrest.head hcomment]
      exact ⟨rfl, rfl⟩
    · refine Scanner.advance_next hpending' (.inl ?_) _
      rw [hadvance.mode]
      simpa using hcomment
  refine ⟨?_, ?_, fun _ => ?_⟩
  · rw [advance_append, advance_append, Option.or_none, Option.or_none, hb', hsame.1]
    exact hrest.advance
  · rw [closedIn_append, Option.or_none, hsame.1, hsame.2, List.map_append, hclosed,
      hrest.closedIn, List.map_append]
  · cases v with
    | nil => exact absurd rfl hne
    | cons c v => rfl

/-- A statement `v` of the source is replaced by a text that is read alike whatever follows it. -/
theorem replace {v text : Text} {t' : Scanner} {qs : List Reading} (hmode : b.mode = .code false)
    (hb' : b.advance rest.head? v = b')
    (htext : ∀ next, t.advance next text = t' ∧
      (t.closedIn next text).map Statement.reading = qs.map (Reading.deepen outer.length))
    (h : Splices outer b' t' rest result readings) :
    Splices outer b t (v ++ rest) (text ++ result) (qs ++ readings) := by
  obtain ⟨hadvance, hclosed⟩ := htext result.head?
  refine ⟨?_, ?_, fun hcomment => ?_⟩
  · rw [advance_append, advance_append, Option.or_none, Option.or_none, hb', hadvance]
    exact h.advance
  · rw [closedIn_append, Option.or_none, hadvance, List.map_append, hclosed, h.closedIn,
      List.map_append]
  · rw [hmode] at hcomment
    exact absurd hcomment (by simp [Mode.isComment])

end Splices

/-- Inside as outside, a reader between two statements is told by its offset and its blocks. -/
theorem Within.eq_between {outer : List Bool} {b t : Scanner} (h : Within outer b t)
    (hb : b.Settled) (hpending : b.pending = none) (hmode : b.mode = .code false) :
    t = Scanner.between t.offset (b.blocks ++ outer) := by
  have hparens := h.parens.trans (hb.parens hpending)
  have hnone := h.pending_eq_none_iff.mpr hpending
  have hcode := h.mode.trans hmode
  rw [← h.blocks]
  cases t
  simp_all [Scanner.between]

theorem between_step_brace (offset : Nat) (blocks : List Bool) (next : Option CodePoint) :
    (between offset blocks).step '\x7d' next = (between (offset + 1) blocks.tail, []) := by
  rw [step_of_visible rfl (by decide) (by decide)]
  rfl

/-- What closing the open statement does: it gives the statement, and goes on in the same blocks
behind a semicolon or in one less behind a brace, or it opens a block. -/
inductive Closes (s : Scanner) (d : CodePoint) : Scanner × List Statement → Prop
  | ended : Closes s d (between (s.offset + 1) s.blocks, s.emit (s.offset + 1))
  | left (hd : d = '\x7d') (hown : s.closesOuter d = false → s.blocks ≠ []) :
    Closes s d (between (s.offset + 1) s.blocks.tail, s.emit s.offset)
  | entered (always : Bool) :
    Closes s d (between (s.offset + 1) (always :: s.blocks), [])

theorem Settled.closes {s : Scanner} (h : s.Settled) (hpending : s.pending ≠ none) {d : CodePoint}
    {next : Option CodePoint} (hclosed : (s.step d next).1.pending = none) :
    Closes s d (s.step d next) := by
  have hstep := h.step_cases d next
  generalize s.step d next = r at hstep hclosed ⊢
  have hopened := opened_eq_self hpending
  cases hstep with
  | passed mode hmode => exact absurd (by simpa using hclosed) hpending
  | kept mode parens hcode hblank => simp at hclosed
  | ended hd hcode hparens =>
    have hend : s.opened.closed = between (s.offset + 1) s.blocks := by
      simp [Scanner.closed, between, hparens, opened]
    rw [hend, hopened]
    exact .ended
  | entered hd hcode hparens =>
    have hend : ({ s.opened with blocks := alwaysRun s.opened.heldText :: s.blocks }
        : Scanner).closed = between (s.offset + 1) (alwaysRun s.opened.heldText :: s.blocks) := by
      simp [Scanner.closed, between, hparens, opened]
    rw [hend]
    exact .entered _
  | left hd hcode hparens =>
    have hend : ({ s.opened with blocks := s.blocks.tail } : Scanner).closed =
        between (s.offset + 1) s.blocks.tail := by
      simp [Scanner.closed, between, hparens, opened]
    rw [hend, hopened]
    refine .left hd fun hown hnil => ?_
    obtain ⟨b, hb⟩ := hcode
    simp [closesOuter, hb, hparens, hd, hnil] at hown

/-! ## The whole source -/

/-- Statements without imports are read as they are. -/
theorem flatMap_expanded_of_no_import {found : List Statement}
    (h : found.filterMap Statement.import? = []) (readings : ImportRule → List Reading) :
    found.flatMap (Statement.expanded readings) = found.map Statement.reading := by
  rw [List.filterMap_eq_nil_iff] at h
  induction found with
  | nil => rfl
  | cons s found ih =>
    have hs : s.expanded readings = [s.reading] := by
      simp [Statement.expanded, h s (by simp)]
    rw [List.flatMap_cons, hs, ih fun s' hs' => h s' (by simp [hs'])]
    rfl

variable {source : Text} {text : ImportRule → Text} {readings : ImportRule → List Reading}
  {outer : List Bool}

/-- What replaces an import whose statement was open at `s` is read inside of the blocks around
it. -/
theorem Within.insert {b t : Scanner} (ht : Within outer b t) (hb : b.Settled)
    (hpending : b.pending = none) (hmode : b.mode = .code false) (houter : outer.all id)
    (hblocks : b.blocks.all id) {inserted : Text} {qs : List Reading}
    (h : Settles inserted qs) (next : Option CodePoint) :
    t.advance next inserted =
        Scanner.between (t.offset + inserted.length) (b.blocks ++ outer) ∧
      (t.closedIn next inserted).map Statement.reading =
        (qs.map (Reading.deepen b.blocks.length)).map (Reading.deepen outer.length) := by
  obtain ⟨hadvance, hclosed⟩ := h t.offset (b.blocks ++ outer) next (by simp_all)
  rw [← ht.eq_between hb hpending hmode] at hadvance hclosed
  refine ⟨hadvance, ?_⟩
  rw [hclosed, List.map_map, List.length_append]
  congr 1
  funext q
  exact (Reading.deepen_deepen _ _ q).symm

/-- The same with the brace behind it that closes the last of these blocks. -/
theorem Within.insert_brace {b t : Scanner} (ht : Within outer b t) (hb : b.Settled)
    (hpending : b.pending = none) (hmode : b.mode = .code false) (houter : outer.all id)
    (hblocks : b.blocks.all id) (hne : b.blocks ≠ []) {inserted : Text} {qs : List Reading}
    (h : Settles inserted qs) (next : Option CodePoint) :
    t.advance next (inserted ++ [.char '\x7d']) =
        Scanner.between (t.offset + inserted.length + 1) (b.blocks.tail ++ outer) ∧
      (t.closedIn next (inserted ++ [.char '\x7d'])).map Statement.reading =
        (qs.map (Reading.deepen b.blocks.length)).map (Reading.deepen outer.length) := by
  obtain ⟨hadvance, hclosed⟩ :=
    ht.insert hb hpending hmode houter hblocks h (some (.char '\x7d'))
  rw [advance_append, closedIn_append, List.head?_cons, Option.some_or, hadvance, List.map_append,
    hclosed]
  simp only [Scanner.advance, Scanner.closedIn, between_step_brace, List.append_nil]
  refine ⟨?_, by simp⟩
  rw [List.tail_append_of_ne_nil hne]

/-- Wherever the rest of the source is read inside of the blocks `outer`, replacing the imports in
it replaces their statements. -/
def SplicesFrom (source : Text) (text : ImportRule → Text) (readings : ImportRule → List Reading)
    (outer : List Bool) (b : Scanner) (rest : Text) : Prop :=
  ∀ t, Within outer b t → Splices outer b t rest
    (splicedFrom source text b.offset ((b.scan rest).filterMap Statement.import?))
    ((b.scan rest).flatMap (Statement.expanded readings))

/-- A piece of the source without imports after which no statement is open. -/
theorem SplicesFrom.pass (houter : outer.all id) {b b' : Scanner} {v rest : Text} (hne : v ≠ [])
    (hb : b.Settled) (hsource : source.drop b.offset = v ++ rest)
    (hown : b.keepsToOwn rest.head? v) (hb' : b.advance rest.head? v = b')
    (hpending : b'.pending = none)
    (hfound : (b.closedIn rest.head? v).filterMap Statement.import? = [])
    (h : SplicesFrom source text readings outer b' rest) :
    SplicesFrom source text readings outer b (v ++ rest) := by
  intro t ht
  have hoffset : b.offset + v.length = b'.offset := by rw [← hb', hb.advance_offset]
  have hsettled : b'.Settled := hb' ▸ hb.advance _ _
  rw [scan_append, hb', List.filterMap_append, List.flatMap_append, hfound,
    flatMap_expanded_of_no_import hfound, List.nil_append, splicedFrom_skip text hsource, hoffset]
  · exact Splices.pass houter hne ht hown hb' hpending h
  · intro rule hrule
    rw [hoffset]
    exact hsettled.start_of_mem_imports hpending hrule

/-- The statement that is given when the one that was opened at `b` is closed. -/
theorem Opens.emit_spec {b s : Scanner} {next : Option CodePoint} {u : Text} (h : b.Opens next u s)
    {stop : Nat} {found : Statement} (hfound : s.emit stop = [found]) :
    found.start = b.offset ∧ found.stop = stop ∧ found.depth = b.blocks.length ∧
      found.unconditional = b.blocks.all id := by
  have hearliest : s.earliest = b.offset := by
    unfold earliest
    rw [h.pending]
    rfl
  obtain hnil | hone := s.emit_eq_nil_or stop
  · rw [hnil] at hfound
    exact absurd hfound (by simp)
  · rw [hone, List.cons.injEq] at hfound
    rw [← hfound.1]
    exact ⟨hearliest, rfl, by rw [h.blocks], by rw [h.blocks]⟩

theorem exists_import_of_emit {s : Scanner} {stop : Nat}
    (h : (s.emit stop).filterMap Statement.import? ≠ []) :
    ∃ found rule, s.emit stop = [found] ∧ found.import? = some rule := by
  obtain ⟨rule, hrule⟩ := List.exists_mem_of_ne_nil _ h
  obtain ⟨found, hfound, himport⟩ := List.mem_filterMap.mp hrule
  obtain hnil | hone := s.emit_eq_nil_or stop
  · rw [hnil] at hfound
    exact absurd hfound List.not_mem_nil
  · rw [hone, List.mem_singleton] at hfound
    exact ⟨found, rule, hfound ▸ hone, himport⟩

/-- What closes a statement gives one at most. -/
theorem Settled.exists_import_of_close {s : Scanner} (h : s.Settled) (hpending : s.pending ≠ none)
    {d : CodePoint} {next : Option CodePoint} (hclosed : (s.step d next).1.pending = none)
    (hfound : (s.step d next).2.filterMap Statement.import? ≠ []) :
    ∃ found rule, (s.step d next).2 = [found] ∧ found.import? = some rule := by
  have hcloses := h.closes hpending hclosed
  generalize s.step d next = r at hcloses hfound ⊢
  cases hcloses with
  | ended => exact exists_import_of_emit hfound
  | left hd hne => exact exists_import_of_emit hfound
  | entered always => exact absurd rfl hfound

/-- The reader behind a statement that was opened at `b` and is closed by the character `d`. -/
theorem Opens.advance_close {b s : Scanner} {d : CodePoint} {u : Text} (h : b.Opens (some d) u s)
    (next : Option CodePoint) :
    b.advance next (u ++ [d]) = (s.step d next).1 ∧
      b.closedIn next (u ++ [d]) = (s.step d next).2 := by
  constructor
  · rw [advance_append, List.head?_cons, Option.some_or, h.reads.advance]
    simp [Scanner.advance]
  · rw [closedIn_append, List.head?_cons, Option.some_or, h.reads.closedIn, h.reads.advance]
    simp [Scanner.closedIn]

/-- In the source, that character and the rest stand behind such a statement. -/
theorem Opens.drop_close {b s : Scanner} {d : CodePoint} {u rest : Text}
    (h : b.Opens (some d) u s) (hb : b.Settled)
    (hsource : source.drop b.offset = u ++ d :: rest) : source.drop s.offset = [d] ++ rest := by
  rw [← h.reads.advance, hb.advance_offset, ← List.drop_drop, hsource, List.drop_left]
  rfl

theorem Opens.drop_behind {b s : Scanner} {d : CodePoint} {u rest : Text}
    (h : b.Opens (some d) u s) (hb : b.Settled) (hs : s.Settled)
    (hsource : source.drop b.offset = u ++ d :: rest) (next : Option CodePoint) :
    source.drop (s.step d next).1.offset = rest := by
  rw [hs.step_offset, ← List.length_singleton, ← List.drop_drop, h.drop_close hb hsource,
    List.drop_left]

/-- Imports are found behind the character that closes a statement. -/
theorem Settled.start_behind_close {s : Scanner} {d : CodePoint} {rest : Text} (hs : s.Settled)
    (hclosed : (s.step d rest.head?).1.pending = none) :
    ∀ rule ∈ ((s.step d rest.head?).1.scan rest).filterMap Statement.import?,
      s.offset + [d].length ≤ rule.start := by
  intro rule hrule
  rw [List.length_singleton, ← hs.step_offset d rest.head?]
  exact (hs.step d _).start_of_mem_imports hclosed hrule

/-- A text behind `b` that is cut behind its imports and at some places without an open statement,
the last statement possibly left open. -/
inductive Pieces : Scanner → Text → Prop
  | done {b : Scanner} (hpending : b.pending = none) : Pieces b []
  | pass {b b' : Scanner} {v rest : Text} (hne : v ≠ []) (hb' : b.advance rest.head? v = b')
    (hpending : b'.pending = none)
    (hfound : (b.closedIn rest.head? v).filterMap Statement.import? = [])
    (h : Pieces b' rest) : Pieces b (v ++ rest)
  | closed {b s : Scanner} {u rest : Text} {d : CodePoint} {found : Statement} {rule : ImportRule}
    (hpending : b.pending = none) (hopens : b.Opens (some d) u s) (hs : s.Settled)
    (hclosed : (s.step d rest.head?).1.pending = none) (hfound : (s.step d rest.head?).2 = [found])
    (himport : found.import? = some rule) (h : Pieces (s.step d rest.head?).1 rest) :
    Pieces b (u ++ d :: rest)
  | unclosed {b s : Scanner} {v : Text} (hpending : b.pending = none) (hopens : b.Opens none v s) :
    Pieces b v

/-- Every text can be cut so. -/
theorem Settled.pieces {b : Scanner} (hb : b.Settled) (hpending : b.pending = none) (rest : Text) :
    b.Pieces rest := by
  induction hn : rest.length using Nat.strongRecOn generalizing b rest with
  | ind n ih =>
  subst hn
  cases rest with
  | nil => exact .done hpending
  | cons c rest =>
    by_cases hopen : (b.step c rest.head?).1.pending = none
    · -- the character belongs to no statement
      have hfound : b.closedIn rest.head? [c] = [] := by
        simp [Scanner.closedIn, hb.found_eq_nil c rest.head? (.inl hpending)]
      have hrest := ih _ (Nat.lt_succ_self _) (hb.step c _) hopen rest rfl
      exact .pass (List.cons_ne_nil c []) (by simp [Scanner.advance]) hopen
        (congrArg (List.filterMap Statement.import?) hfound) hrest
    · -- it opens a statement
      rcases (hb.opens hpending hopen).closed_or_open (hb.step c _) with
        ⟨v, d, rest', s, rfl, hopens, hs, hclosed⟩ | ⟨s, hopens, -⟩
      · obtain ⟨hb', hgiven⟩ := hopens.advance_close rest'.head?
        have hcut : c :: (v ++ d :: rest') = ([c] ++ v ++ [d]) ++ rest' := by simp
        have hlength : rest'.length < (c :: (v ++ d :: rest')).length := by
          simp only [List.length_cons, List.length_append]
          omega
        have hrest := ih _ hlength (hs.step d _) hclosed rest' rfl
        by_cases hfound : (s.step d rest'.head?).2.filterMap Statement.import? = []
        · rw [hcut]
          exact .pass (by simp) hb' hclosed (by rw [hgiven, hfound]) hrest
        · obtain ⟨found, rule, hone, himport⟩ :=
            hs.exists_import_of_close hopens.ne_none hclosed hfound
          exact .closed hpending hopens hs hclosed hone himport hrest
      · exact .unclosed hpending hopens

/-- An import that was opened at `b` and is closed by the character `d`. -/
theorem SplicesFrom.replace (houter : outer.all id) {b s : Scanner} {u rest : Text} {d : CodePoint}
    {found : Statement} {rule : ImportRule} (hb : b.Settled) (hpending : b.pending = none)
    (hsource : source.drop b.offset = u ++ d :: rest) (hopens : b.Opens (some d) u s)
    (hs : s.Settled) (hown : s.closesOuter d = false)
    (hclosed : (s.step d rest.head?).1.pending = none) (hfound : (s.step d rest.head?).2 = [found])
    (himport : found.import? = some rule) (htext : Settles (text rule) (readings rule))
    (h : SplicesFrom source text readings outer (s.step d rest.head?).1 rest) :
    SplicesFrom source text readings outer b (u ++ d :: rest) := by
  intro t ht
  obtain ⟨hadvance, hgiven⟩ := hopens.advance_close rest.head?
  obtain ⟨hunconditional, hstart, hstop⟩ := import?_spec himport
  have hexpanded : found.expanded readings = (readings rule).map (Reading.deepen found.depth) := by
    simp [Statement.expanded, himport]
  have hrules := hs.start_behind_close hclosed
  have hdrop := hopens.drop_close hb hsource
  have hcut : u ++ d :: rest = (u ++ [d]) ++ rest := by simp
  rw [hcut, scan_append, hadvance, hgiven, hfound, List.singleton_append, List.filterMap_cons,
    himport, List.flatMap_cons, hexpanded]
  simp only [splicedFrom]
  -- an import is closed by a semicolon or by the brace that closes the block it stands in
  have hcloses := hs.closes hopens.ne_none hclosed
  generalize s.step d rest.head? = r at hadvance hfound hcloses h hrules ⊢
  cases hcloses with
  | entered always => simp at hfound
  | ended =>
    obtain ⟨hfirst, hlast, hdepth, halways⟩ := hopens.emit_spec hfound
    have hblocks : b.blocks.all id := halways ▸ hunconditional
    rw [hstart, hfirst, hstop, hlast, hdepth, List.drop_take_self, List.nil_append]
    refine Splices.replace hopens.mode hadvance
      (ht.insert hb hpending hopens.mode houter hblocks htext) (h _ ?_)
    rw [hopens.blocks]
    exact .between _ _ _ _
  | left hd hne =>
    obtain ⟨hfirst, hlast, hdepth, halways⟩ := hopens.emit_spec hfound
    have hblocks : b.blocks.all id := halways ▸ hunconditional
    rw [hstart, hfirst, hstop, hlast, hdepth, List.drop_take_self, List.nil_append,
      splicedFrom_skip text hdrop hrules, ← List.append_assoc]
    -- the brace stays, so that the text is read together with it
    have hread := ht.insert_brace hb hpending hopens.mode houter hblocks
      (hopens.blocks ▸ hne hown) htext
    rw [← hd] at hread
    refine Splices.replace hopens.mode hadvance hread (h _ ?_)
    rw [hopens.blocks]
    exact .between _ _ _ _

theorem Settled.splices (houter : outer.all id) {b : Scanner} {rest : Text} (hb : b.Settled)
    (hpending : b.pending = none) (hsource : source.drop b.offset = rest)
    (hown : b.keepsToOwn none rest) (hend : (b.advance none rest).pending = none)
    (htext : ∀ rule ∈ (b.scan rest).filterMap Statement.import?,
      Settles (text rule) (readings rule)) :
    SplicesFrom source text readings outer b rest := by
  have hpieces := hb.pieces hpending rest
  clear hpending
  induction hpieces with
  | @done b hpending =>
    intro t ht
    have hscan : b.scan [] = [] := by simp [scan, emit, hpending]
    rw [hscan]
    simp only [List.filterMap_nil, splicedFrom, hsource, List.flatMap_nil]
    exact ⟨ht, rfl, fun _ => rfl⟩
  | @pass b b' v rest hne hb' hpending hfound h ih =>
    subst hb'
    rw [keepsToOwn_append, Option.or_none, Bool.and_eq_true] at hown
    rw [advance_append, Option.or_none] at hend
    rw [scan_append, List.filterMap_append] at htext
    refine SplicesFrom.pass houter hne hb hsource hown.1 rfl hpending hfound ?_
    refine ih (hb.advance _ _) ?_ hown.2 hend fun rule hrule =>
      htext rule (List.mem_append_right _ hrule)
    rw [hb.advance_offset, ← List.drop_drop, hsource, List.drop_left]
  | @closed b s u rest d found rule hpending hopens hs hclosed hfound himport h ih =>
    obtain ⟨hb', hgiven⟩ := hopens.advance_close rest.head?
    have hlast := hown
    rw [keepsToOwn_append, List.head?_cons, Option.some_or, hopens.reads.advance,
      Bool.and_eq_true] at hlast
    rw [List.append_cons, keepsToOwn_append, Option.or_none, hb', Bool.and_eq_true] at hown
    rw [List.append_cons, advance_append, Option.or_none, hb'] at hend
    rw [List.append_cons, scan_append, List.filterMap_append, hgiven, hb', hfound] at htext
    -- a brace that closes the import closes a block of the same source
    have hown' : s.closesOuter d = false := by
      simp only [keepsToOwn, Bool.and_eq_true, Bool.not_eq_true'] at hlast
      exact hlast.2.1
    refine SplicesFrom.replace houter hb hpending hsource hopens hs hown' hclosed hfound himport
      (htext rule (List.mem_append_left _ (by simp [himport]))) ?_
    exact ih (hs.step d _) (hopens.drop_behind hb hs hsource _) hown.2 hend
      fun rule hrule => htext rule (List.mem_append_right _ hrule)
  | unclosed _ hopens =>
    -- no statement is open at the end
    rw [hopens.reads.advance] at hend
    exact absurd hend hopens.ne_none

end Scanner

/-- At the end of the source no statement, block or comment is open, and no brace of it closes a
block that it did not open. -/
structure SelfContained (source : Text) : Prop where
  pending : (Scanner.start.advance none source).pending = none
  blocks : (Scanner.start.advance none source).blocks = []
  comment : (Scanner.start.advance none source).mode.isComment = false
  own : Scanner.start.keepsToOwn none source

instance (source : Text) : Decidable (SelfContained source) :=
  decidable_of_iff
    ((Scanner.start.advance none source).pending = none ∧
      (Scanner.start.advance none source).blocks = [] ∧
      (Scanner.start.advance none source).mode.isComment = false ∧
      Scanner.start.keepsToOwn none source)
    ⟨fun ⟨h1, h2, h3, h4⟩ => ⟨h1, h2, h3, h4⟩, fun ⟨h1, h2, h3, h4⟩ => ⟨h1, h2, h3, h4⟩⟩

/-- With texts that settle in the place of its imports, a source settles to its own statements and
to those of the texts. -/
theorem settles_splicedFrom {source : Text} {text : ImportRule → Text}
    {readings : ImportRule → List Reading} (h : SelfContained source)
    (htext : ∀ rule ∈ imports source, Settles (text rule) (readings rule)) :
    Settles (splicedFrom source text 0 (imports source))
      ((statements source).flatMap (Statement.expanded readings)) := by
  apply Settles.of_within
  intro offset blocks hblocks
  have hstart : Scanner.start.Settled := Scanner.between_settled 0 []
  have hfrom : Scanner.SplicesFrom source text readings blocks .start source :=
    hstart.splices hblocks rfl rfl h.own h.pending htext
  have hsplices := hfrom (.between offset blocks) (.between 0 offset [] blocks)
  have hend := (hstart.advance none source).eq_between h.pending h.comment
  have hwithin := hsplices.advance
  rw [hend, h.blocks] at hwithin
  exact ⟨⟨hwithin.mode, hwithin.body, hwithin.parens, hwithin.blocks⟩, hsplices.closedIn⟩

end StyleVars
