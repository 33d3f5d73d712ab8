import StyleVars.Proofs.FirstStatements
import StyleVars.Proofs.ImportTree
import StyleVars.Proofs.TargetPieces

/-!
# Imports written again

An import none of whose targets is known is not copied but written again from its targets. Read in
the place of the import, the new statement is found there exactly when it is one statement by itself
(`Scanner.Rebuilt`), and then all the others are found as they were.
-/

namespace StyleVars

/-! ## An import written again -/

/-- The targets are those of an import. -/
def AreTargets (targets : List ImportTarget) : Prop :=
  ∃ t, splitTargets t ≠ [] ∧ targets = (splitTargets t).map ImportTarget.ofRaw

/-- The import that is written for the targets of another one. -/
def ImportRule.rebuilt (rule : ImportRule) : Text := (leftImport rule.targets).text ++ [.char ';']

/-- The targets of an import are those behind its keyword. -/
theorem Statement.import?_targets {s : Statement} {rule : ImportRule} (h : s.import? = some rule) :
    ∃ rest, afterImport? s.text = some rest ∧ splitTargets rest ≠ [] ∧
      rule.targets = (splitTargets rest).map ImportTarget.ofRaw := by
  unfold Statement.import? at h
  split_ifs at h
  obtain ⟨rest, hafter, hsplit⟩ := Option.bind_eq_some_iff.mp h
  refine ⟨rest, hafter, ?_⟩
  cases hraws : splitTargets rest with
  | nil => simp [hraws] at hsplit
  | cons raw raws =>
    rw [hraws, Option.some.injEq] at hsplit
    exact ⟨by simp, by rw [← hsplit]⟩

theorem Statement.areTargets {s : Statement} {rule : ImportRule} (h : s.import? = some rule) :
    AreTargets rule.targets := by
  obtain ⟨rest, -, htargets⟩ := s.import?_targets h
  exact ⟨rest, htargets⟩

theorem areTargets_of_mem_imports {source : Text} {rule : ImportRule} (h : rule ∈ imports source) :
    AreTargets rule.targets := by
  obtain ⟨s, -, himport⟩ := List.mem_filterMap.mp h
  exact s.areTargets himport

theorem leftImport_starts (targets : List ImportTarget) :
    StartsVisibly (leftImport targets).text :=
  ⟨'@', rfl, by decide, by decide⟩

/-- Whatever stands behind it, the text behind the keyword starts with the targets. -/
theorem afterImport?_leftImport (targets : List ImportTarget) (w : Text) :
    afterImport? ((leftImport targets).text ++ w) =
      some (CodePoint.char ' ' :: Text.join ", ".toText (targets.map ImportTarget.raw) ++ w) := by
  have hword : IsImportKeyword "@import".toText := by decide
  have htext : (leftImport targets).text ++ w = "@import".toText ++
      (CodePoint.char ' ' :: Text.join ", ".toText (targets.map ImportTarget.raw) ++ w) := by
    simp [leftImport, String.toText]
  rw [htext]
  exact afterImport?_append hword (by rw [List.cons_append, List.head?_cons]; decide)

theorem leftImport_visible (targets : List ImportTarget) :
    ∀ c ∈ (leftImport targets).text.head?, isBlank c = false := by
  obtain ⟨c, hc, hblank, -⟩ := leftImport_starts targets
  exact fun d hd => Option.mem_unique hc hd ▸ hblank

namespace AreTargets

variable {targets : List ImportTarget}

theorem map_raw_ofRaw (raws : List Text) :
    (raws.map ImportTarget.ofRaw).map ImportTarget.raw = raws := by
  rw [List.map_map]
  exact List.map_id _

theorem ofRaw_map_raw (h : AreTargets targets) :
    (targets.map ImportTarget.raw).map ImportTarget.ofRaw = targets := by
  obtain ⟨t, -, rfl⟩ := h
  rw [map_raw_ofRaw]

theorem map_raw_ne_nil (h : AreTargets targets) : targets.map ImportTarget.raw ≠ [] := by
  obtain ⟨t, hne, rfl⟩ := h
  rwa [map_raw_ofRaw]

theorem splitTargets_join (h : AreTargets targets) :
    splitTargets (CodePoint.char ' ' :: Text.join ", ".toText (targets.map ImportTarget.raw)) =
      targets.map ImportTarget.raw := by
  obtain ⟨t, hne, rfl⟩ := h
  rw [map_raw_ofRaw]
  exact splitTargets_joined hne

theorem strip_leftImport (h : AreTargets targets) :
    Text.strip (leftImport targets).text = (leftImport targets).text := by
  have hends : ∀ raw ∈ targets.map ImportTarget.raw,
      ∃ c, raw.getLast? = some c ∧ isBlank c = false := by
    obtain ⟨t, -, rfl⟩ := h
    rw [map_raw_ofRaw]
    exact fun raw hraw => getLast?_of_mem_splitTargets hraw
  obtain ⟨c, hlast, hblank⟩ := getLast?_join ", ".toText h.map_raw_ne_nil hends
  refine Text.strip_eq_self (leftImport_visible targets) ?_
  simp only [leftImport, List.getLast?_append, hlast, Option.some_or]
  exact fun d hd => Option.some.inj hd ▸ hblank

/-- It is an import of the same targets. -/
theorem import?_leftImport (h : AreTargets targets) (start stop depth : Nat) :
    (Statement.mk (leftImport targets).text start stop depth true).import? =
      some ⟨targets, start, stop⟩ := by
  have hafter := afterImport?_leftImport targets []
  rw [List.append_nil, List.append_nil] at hafter
  have htargets := h.ofRaw_map_raw
  simp only [Statement.import?, hafter, h.splitTargets_join, Option.bind_some, if_true]
  rcases hraws : targets.map ImportTarget.raw with _ | ⟨raw, raws⟩
  · exact absurd hraws h.map_raw_ne_nil
  · rw [hraws] at htargets
    simp only [htargets]

/-- With its semicolon and more in it, it has other targets. -/
theorem targets_ne (h : AreTargets targets) {s : Statement} {w : Text} {rule : ImportRule}
    (htext : s.text = Text.strip ((leftImport targets).text ++ CodePoint.char ';' :: w))
    (himport : s.import? = some rule) : rule.targets ≠ targets := by
  rw [Text.strip_append_cons (leftImport_visible targets) (by decide)] at htext
  obtain ⟨rest, hafter, -, htargets⟩ := s.import?_targets himport
  rw [htext, afterImport?_leftImport, Option.some.injEq] at hafter
  have hraws : rule.targets.map ImportTarget.raw = splitTargets rest := by
    rw [htargets, map_raw_ofRaw]
  rw [← hafter] at hraws
  rintro rfl
  exact splitTargets_append_semicolon _ _ (hraws.symm.trans h.splitTargets_join.symm)

end AreTargets

/-! ## Readers at different offsets -/

/-- The targets of imports depend on the readings of their statements alone. -/
theorem map_targets_import? (found : List Statement) :
    (found.filterMap Statement.import?).map ImportRule.targets =
      (found.map Statement.reading).filterMap Reading.targets? := by
  rw [List.map_filterMap, List.filterMap_map]
  exact List.filterMap_congr fun s _ => s.map_import?

theorem filterMap_import?_eq_nil {found others : List Statement}
    (h : others.map Statement.reading = found.map Statement.reading)
    (hnone : found.filterMap Statement.import? = []) :
    others.filterMap Statement.import? = [] := by
  rw [← List.map_eq_nil_iff (f := ImportRule.targets), map_targets_import?, h,
    ← map_targets_import?, hnone, List.map_nil]

namespace Scanner

/-- The readers differ in the number of characters they have read before. -/
def Aligned (b t : Scanner) : Prop := ∃ s m n, b = moved m s ∧ t = moved n s

namespace Aligned

variable {b t : Scanner}

theorem between (m n : Nat) (blocks : List Bool) :
    Aligned (between m blocks) (between n blocks) :=
  ⟨.between 0 blocks, m, n, by simp [Scanner.between, moved], by simp [Scanner.between, moved]⟩

theorem mode (h : Aligned b t) : t.mode = b.mode := by
  obtain ⟨s, m, n, rfl, rfl⟩ := h
  rfl

theorem blocks (h : Aligned b t) : t.blocks = b.blocks := by
  obtain ⟨s, m, n, rfl, rfl⟩ := h
  rfl

theorem pending (h : Aligned b t) : t.pending = none ↔ b.pending = none := by
  obtain ⟨s, m, n, rfl, rfl⟩ := h
  simp [moved]

theorem settled (h : Aligned b t) (hb : b.Settled) : t.Settled := by
  have hpending := h.pending
  obtain ⟨s, m, n, rfl, rfl⟩ := h
  exact ⟨fun hnone => hb.parens (hpending.mp hnone), fun hnone => hb.mode (hpending.mp hnone)⟩

theorem advance (h : Aligned b t) (next : Option CodePoint) (v : Text) :
    Aligned (b.advance next v) (t.advance next v) := by
  obtain ⟨s, m, n, rfl, rfl⟩ := h
  exact ⟨s.advance next v, m, n, moved_advance m s next v, moved_advance n s next v⟩

theorem closedIn (h : Aligned b t) (next : Option CodePoint) (v : Text) :
    (t.closedIn next v).map Statement.reading = (b.closedIn next v).map Statement.reading := by
  obtain ⟨s, m, n, rfl, rfl⟩ := h
  rw [moved_closedIn, moved_closedIn, List.map_map, List.map_map]
  rfl

theorem scan (h : Aligned b t) (v : Text) :
    (t.scan v).map Statement.reading = (b.scan v).map Statement.reading := by
  obtain ⟨s, m, n, rfl, rfl⟩ := h
  rw [moved_scan, moved_scan, List.map_map, List.map_map]
  rfl

/-- Between two statements, a reader is told by its offset and its blocks. -/
theorem eq_between (h : Aligned b t) (hb : b.Settled) (hpending : b.pending = none)
    (hmode : b.mode = .code false) : t = .between t.offset b.blocks := by
  rw [← h.blocks]
  refine (h.settled hb).eq_between (h.pending.mpr hpending) ?_
  rw [h.mode, hmode]
  rfl

end Aligned

end Scanner

/-! ## Imports where they are written again -/

/-- The imports at the places where they are written again. What stands at `cursor` in the source
stands at `offset` now. -/
def placedFrom (offset cursor : Nat) : List ImportRule → List ImportRule
  | [] => []
  | rule :: rest =>
    let start := offset + (rule.start - cursor)
    let stop := start + rule.rebuilt.length
    ⟨rule.targets, start, stop⟩ :: placedFrom stop rule.stop rest

theorem map_targets_placedFrom (offset cursor : Nat) (rules : List ImportRule) :
    (placedFrom offset cursor rules).map ImportRule.targets = rules.map ImportRule.targets := by
  induction rules generalizing offset cursor with
  | nil => rfl
  | cons rule rest ih => simp only [placedFrom, List.map_cons, ih]

/-- Where there are no imports, source and result go on alike. -/
theorem placedFrom_skip (offset : Nat) {cursor n : Nat} {rules : List ImportRule}
    (h : ∀ rule ∈ rules, cursor + n ≤ rule.start) :
    placedFrom (offset + n) (cursor + n) rules = placedFrom offset cursor rules := by
  cases rules with
  | nil => rfl
  | cons rule rest =>
    have hle := h rule List.mem_cons_self
    have hstart : offset + n + (rule.start - (cursor + n)) = offset + (rule.start - cursor) := by
      omega
    simp only [placedFrom, hstart]

/-- The import is one statement when it is written again. -/
def ImportRule.IsRewritable (rule : ImportRule) : Prop := IsWhole (leftImport rule.targets).text

instance (rule : ImportRule) : Decidable rule.IsRewritable :=
  inferInstanceAs (Decidable (IsWhole _))

theorem ImportRule.length_rebuilt (rule : ImportRule) :
    rule.rebuilt.length = (leftImport rule.targets).text.length + 1 :=
  List.length_append

theorem ImportRule.rebuilt_append (rule : ImportRule) (text : Text) :
    rule.rebuilt ++ text = (leftImport rule.targets).text ++ CodePoint.char ';' :: text := by
  rw [rebuilt, List.append_assoc]
  rfl

namespace AreTargets

variable {rule : ImportRule} {n : Nat} {blocks : List Bool} {text : Text}

theorem isRewritable_iff (h : AreTargets rule.targets) :
    rule.IsRewritable ↔ (Scanner.between 0 []).opened.TakesIn (leftImport rule.targets).text :=
  isWhole_iff (leftImport_starts rule.targets) h.strip_leftImport

theorem scan_rebuilt (h : AreTargets rule.targets) (hrule : rule.IsRewritable)
    (hall : blocks.all id) :
    (Scanner.between n blocks).scan (rule.rebuilt ++ text) =
      ⟨(leftImport rule.targets).text, n, n + rule.rebuilt.length, blocks.length, true⟩ ::
        (Scanner.between (n + rule.rebuilt.length) blocks).scan text := by
  rw [rule.rebuilt_append, rule.length_rebuilt,
    scan_of_takesIn (leftImport_starts rule.targets) (h.isRewritable_iff.mp hrule),
    h.strip_leftImport, hall]

/-- An import that is found in its place is one statement: with more in it, it would have other
targets. -/
theorem isRewritable_of_mem (h : AreTargets rule.targets)
    (hfound : ⟨rule.targets, n, n + rule.rebuilt.length⟩ ∈
      ((Scanner.between n blocks).scan (rule.rebuilt ++ text)).filterMap Statement.import?) :
    rule.IsRewritable := by
  obtain ⟨s, hs, himport⟩ := List.mem_filterMap.mp hfound
  obtain ⟨-, hstart, hstop⟩ := Scanner.import?_spec himport
  rw [rule.rebuilt_append] at hs
  have hlater : n + (leftImport rule.targets).text.length < s.stop := by
    rw [← hstop, rule.length_rebuilt]
    exact Nat.lt_succ_self _
  refine h.isRewritable_iff.mpr
    (((leftImport_starts rule.targets).takesIn_or_goes_on hs hstart.symm hlater).resolve_right ?_)
  rintro ⟨w, hw⟩
  exact h.targets_ne hw himport rfl

end AreTargets

namespace Scanner

/-- The text, read at `t`, gives the statements `found` of a source from `cursor` on with their
imports written again, provided that these can be; otherwise they are not found in their places. -/
structure Rebuilt (t : Scanner) (cursor : Nat) (text : Text) (found : List Statement) : Prop where
  readings : (∀ rule ∈ found.filterMap Statement.import?, rule.IsRewritable) →
    (t.scan text).map Statement.reading =
      found.flatMap (Statement.expanded fun rule => [leftImport rule.targets])
  imports : (t.scan text).filterMap Statement.import? =
      placedFrom t.offset cursor (found.filterMap Statement.import?) ↔
    ∀ rule ∈ found.filterMap Statement.import?, rule.IsRewritable

namespace Rebuilt

variable {t : Scanner} {cursor : Nat} {text v : Text} {before found : List Statement}

/-- Statements without imports are copied. -/
theorem copy (hread : (t.scan text).map Statement.reading = found.map Statement.reading)
    (hnone : found.filterMap Statement.import? = []) : Rebuilt t cursor text found := by
  refine ⟨fun _ => ?_, ?_⟩
  · rw [hread, flatMap_expanded_of_no_import hnone]
  · rw [filterMap_import?_eq_nil hread hnone, hnone]
    simp [placedFrom]

/-- So are those in front of others. -/
theorem append_left
    (hread : (t.closedIn text.head? v).map Statement.reading = before.map Statement.reading)
    (hnone : before.filterMap Statement.import? = []) (ht : t.Settled)
    (hstart : ∀ rule ∈ found.filterMap Statement.import?, cursor + v.length ≤ rule.start)
    (h : Rebuilt (t.advance text.head? v) (cursor + v.length) text found) :
    Rebuilt t cursor (v ++ text) (before ++ found) := by
  have hrules : (before ++ found).filterMap Statement.import? =
      found.filterMap Statement.import? := by
    rw [List.filterMap_append, hnone, List.nil_append]
  constructor
  · rw [hrules]
    intro hwhole
    rw [scan_append, List.map_append, hread, h.readings hwhole, List.flatMap_append,
      flatMap_expanded_of_no_import hnone]
  · rw [hrules, scan_append, List.filterMap_append, filterMap_import?_eq_nil hread hnone,
      List.nil_append, ← placedFrom_skip t.offset hstart, ← ht.advance_offset text.head? v]
    exact h.imports

/-- An import is written again. -/
theorem cons_import {n : Nat} {blocks : List Bool} {s : Statement} {rule : ImportRule}
    (himport : s.import? = some rule) (hdepth : s.depth = blocks.length)
    (hblocks : s.unconditional = blocks.all id)
    (h : Rebuilt (between (n + rule.rebuilt.length) blocks) s.stop text found) :
    Rebuilt (between n blocks) s.start (rule.rebuilt ++ text) (s :: found) := by
  obtain ⟨hunconditional, hstart, hstop⟩ := import?_spec himport
  have hall : blocks.all id := hblocks ▸ hunconditional
  have htargets := s.areTargets himport
  have hrules : (s :: found).filterMap Statement.import? =
      rule :: found.filterMap Statement.import? := by rw [List.filterMap_cons, himport]
  have hplaced : placedFrom (between n blocks).offset s.start
      (rule :: found.filterMap Statement.import?) =
        ⟨rule.targets, n, n + rule.rebuilt.length⟩ ::
          placedFrom (n + rule.rebuilt.length) s.stop (found.filterMap Statement.import?) := by
    rw [placedFrom, hstart, hstop, Nat.sub_self, Nat.add_zero]
    rfl
  have himports : rule.IsRewritable →
      ((between n blocks).scan (rule.rebuilt ++ text)).filterMap Statement.import? =
        ⟨rule.targets, n, n + rule.rebuilt.length⟩ ::
          ((between (n + rule.rebuilt.length) blocks).scan text).filterMap Statement.import? := by
    intro hrule
    rw [htargets.scan_rebuilt hrule hall, List.filterMap_cons, htargets.import?_leftImport]
  constructor
  · rw [hrules, List.forall_mem_cons]
    rintro ⟨hrule, hrest⟩
    rw [htargets.scan_rebuilt hrule hall, List.map_cons, h.readings hrest, List.flatMap_cons,
      Statement.expanded, himport]
    simp [Statement.reading, Reading.deepen, leftImport, hdepth]
  · rw [hrules, List.forall_mem_cons, hplaced]
    constructor
    · intro hfound
      have hrule : rule.IsRewritable :=
        htargets.isRewritable_of_mem (hfound ▸ List.mem_cons_self)
      rw [himports hrule] at hfound
      exact ⟨hrule, h.imports.mp (List.cons.inj hfound).2⟩
    · rintro ⟨hrule, hrest⟩
      rw [himports hrule, h.imports.mpr hrest]
      rfl

end Rebuilt

/-! ## The whole source -/

/-- From `b` on, where the rest of the source is still to be read, its imports are written again.
A comment goes on in both alike. -/
def RebuildsFrom (source : Text) (b : Scanner) (rest : Text) : Prop :=
  ∀ t, Aligned b t →
    Rebuilt t b.offset
        (splicedFrom source ImportRule.rebuilt b.offset
          ((b.scan rest).filterMap Statement.import?)) (b.scan rest) ∧
      (b.mode.isComment →
        (splicedFrom source ImportRule.rebuilt b.offset
          ((b.scan rest).filterMap Statement.import?)).head? = rest.head?)

namespace RebuildsFrom

variable {source u v rest : Text} {b b' s : Scanner} {d : CodePoint}

/-- A piece of the source without imports after which no statement is open. -/
theorem pass (hne : v ≠ []) (hb : b.Settled) (hsource : source.drop b.offset = v ++ rest)
    (hb' : b.advance rest.head? v = b') (hpending : b'.pending = none)
    (hfound : (b.closedIn rest.head? v).filterMap Statement.import? = [])
    (h : RebuildsFrom source b' rest) : RebuildsFrom source b (v ++ rest) := by
  intro t ht
  have hoffset : b.offset + v.length = b'.offset := by rw [← hb', hb.advance_offset]
  have hsettled : b'.Settled := hb' ▸ hb.advance _ _
  have hstart : ∀ rule ∈ (b'.scan rest).filterMap Statement.import?,
      b.offset + v.length ≤ rule.start := by
    intro rule hrule
    rw [hoffset]
    exact hsettled.start_of_mem_imports hpending hrule
  have hadvance := ht.advance rest.head? v
  rw [hb'] at hadvance
  obtain ⟨hrebuilt, hhead⟩ := h _ hadvance
  rw [scan_append, hb', List.filterMap_append, hfound, List.nil_append,
    splicedFrom_skip _ hsource hstart, hoffset]
  generalize splicedFrom source ImportRule.rebuilt b'.offset
    ((b'.scan rest).filterMap Statement.import?) = result at hrebuilt hhead ⊢
  -- what follows differs, but only a comment would notice
  have hsame : t.advance result.head? v = t.advance rest.head? v ∧
      t.closedIn result.head? v = t.closedIn rest.head? v := by
    by_cases hcomment : b'.mode.isComment
    · rw [hhead hcomment]
      exact ⟨rfl, rfl⟩
    · refine advance_next (hadvance.pending.mpr hpending) (.inl ?_) _
      rw [hadvance.mode]
      simpa using hcomment
  constructor
  · refine .append_left ?_ hfound (ht.settled hb) hstart ?_
    · rw [hsame.2]
      exact ht.closedIn _ _
    · rw [hsame.1, hoffset]
      exact hrebuilt
  · intro _
    cases v with
    | nil => exact absurd rfl hne
    | cons c v => rfl

/-- An import that was opened at `b` and is closed by the character `d`. -/
theorem replace (hb : b.Settled) (hpending : b.pending = none)
    (hsource : source.drop b.offset = u ++ d :: rest) (hopens : b.Opens (some d) u s)
    (hs : s.Settled) (hclosed : (s.step d rest.head?).1.pending = none) {found : Statement}
    {rule : ImportRule} (hfound : (s.step d rest.head?).2 = [found])
    (himport : found.import? = some rule)
    (h : RebuildsFrom source (s.step d rest.head?).1 rest) :
    RebuildsFrom source b (u ++ d :: rest) := by
  intro t ht
  obtain ⟨hadvance, hgiven⟩ := hopens.advance_close rest.head?
  obtain ⟨-, hstart, hstop⟩ := import?_spec himport
  have hrules := hs.start_behind_close hclosed
  have hdrop := hopens.drop_close hb hsource
  have hcut : u ++ d :: rest = (u ++ [d]) ++ rest := by simp
  rw [hcut, scan_append, hadvance, hgiven, hfound, List.singleton_append, List.filterMap_cons,
    himport]
  simp only [splicedFrom]
  refine ⟨?_, fun hcomment => absurd hcomment (by rw [hopens.mode]; simp [Mode.isComment])⟩
  -- an import is closed by a semicolon or by the brace that closes the block it stands in
  have hcloses := hs.closes hopens.ne_none hclosed
  generalize s.step d rest.head? = r at hfound hcloses h hrules ⊢
  cases hcloses with
  | entered always => simp at hfound
  | ended =>
    obtain ⟨hfirst, hlast, hdepth, halways⟩ := hopens.emit_spec hfound
    rw [hstart, hstop, hfirst, List.drop_take_self, List.nil_append, ← hfirst,
      ht.eq_between hb hpending hopens.mode]
    refine .cons_import himport hdepth halways ?_
    rw [hlast, ← hopens.blocks]
    exact (h _ (.between _ _ _)).1
  | left hd hne =>
    obtain ⟨hfirst, hlast, hdepth, halways⟩ := hopens.emit_spec hfound
    rw [hstart, hstop, hfirst, List.drop_take_self, List.nil_append, ← hfirst,
      ht.eq_between hb hpending hopens.mode]
    refine .cons_import himport hdepth halways ?_
    rw [hlast, splicedFrom_skip _ hdrop hrules, hd, ← hopens.blocks]
    -- the brace stays
    refine .append_left (congrArg _ ?_) (List.filterMap_nil) (between_settled _ _) hrules ?_
    · simp [Scanner.closedIn, between_step_brace]
    · simp only [Scanner.advance, between_step_brace]
      exact (h _ (.between _ _ _)).1

/-- A statement that was opened at `b` and is open at the end. -/
theorem of_open (hb : b.Settled) (hpending : b.pending = none)
    (hsource : source.drop b.offset = v) (hopens : b.Opens none v s) :
    RebuildsFrom source b v := by
  intro t ht
  have hoffset : b.offset + v.length = s.offset := by
    rw [← hopens.reads.advance, hb.advance_offset]
  have hscan : b.scan v = s.emit s.offset := by
    rw [scan_eq, hopens.reads.closedIn, hopens.reads.advance, List.nil_append]
  refine ⟨?_, fun hcomment => absurd hcomment (by rw [hopens.mode]; simp [Mode.isComment])⟩
  by_cases hnone : (b.scan v).filterMap Statement.import? = []
  · rw [hnone, splicedFrom, hsource]
    exact .copy (ht.scan v) hnone
  · rw [hscan] at hnone ⊢
    obtain ⟨found, rule, hfound, himport⟩ := exists_import_of_emit hnone
    obtain ⟨hfirst, hlast, hdepth, halways⟩ := hopens.emit_spec hfound
    obtain ⟨-, hstart, hstop⟩ := import?_spec himport
    have hend : source.drop s.offset = [] := by
      rw [← hoffset, ← List.drop_drop, hsource, List.drop_length]
    rw [hfound, List.filterMap_cons, himport, List.filterMap_nil]
    simp only [splicedFrom]
    rw [hstart, hstop, hfirst, List.drop_take_self, List.nil_append, hlast, hend, ← hfirst,
      ht.eq_between hb hpending hopens.mode]
    exact .cons_import himport hdepth halways (.copy rfl rfl)

end RebuildsFrom

theorem Settled.rebuildsFrom {source : Text} {b : Scanner} {rest : Text} (hb : b.Settled)
    (hpending : b.pending = none) (hsource : source.drop b.offset = rest) :
    RebuildsFrom source b rest := by
  have hpieces := hb.pieces hpending rest
  clear hpending
  induction hpieces with
  | @done b hpending =>
    intro t ht
    have hscan : b.scan [] = [] := by simp [scan, emit, hpending]
    rw [hscan, List.filterMap_nil, splicedFrom, hsource]
    have hread := ht.scan []
    rw [hscan] at hread
    exact ⟨.copy hread rfl, fun _ => rfl⟩
  | @pass b b' v rest hne hb' hpending hfound h ih =>
    refine RebuildsFrom.pass hne hb hsource hb' hpending hfound ?_
    subst hb'
    refine ih (hb.advance _ _) ?_
    rw [hb.advance_offset, ← List.drop_drop, hsource, List.drop_left]
  | @closed b s u rest d found rule hpending hopens hs hclosed hfound himport h ih =>
    exact RebuildsFrom.replace hb hpending hsource hopens hs hclosed hfound himport
      (ih (hs.step d _) (hopens.drop_behind hb hs hsource _))
  | unclosed hpending hopens => exact RebuildsFrom.of_open hb hpending hsource hopens

end Scanner

/-- A source with its imports written again. -/
def rebuiltText (source : Text) : Text :=
  splicedFrom source ImportRule.rebuilt 0 (imports source)

theorem rebuilt_rebuiltText (source : Text) :
    Scanner.start.Rebuilt 0 (rebuiltText source) (statements source) :=
  ((Scanner.between_settled 0 []).rebuildsFrom rfl rfl _ (.between 0 0 [])).1

theorem declared?_eq_none_of_import? {s : Statement} {rule : ImportRule}
    (h : s.import? = some rule) : s.reading.declared? = none := by
  obtain ⟨rest, hafter, -⟩ := s.import?_targets h
  obtain ⟨word, hword, htext⟩ := exists_keyword_of_afterImport? hafter
  obtain ⟨c, more, rfl, hc⟩ := hword.exists_cons
  have hnone : declared? s.text = none := by
    refine declared?_of_head ?_
    rw [htext]
    simpa using hc
  rw [Reading.declared?, Statement.reading, hnone, Option.bind_none]

/-- Neither an import nor what it is written as declares anything. -/
theorem filterMap_declared?_expanded (found : List Statement) :
    (found.flatMap (Statement.expanded fun rule => [leftImport rule.targets])).filterMap
        Reading.declared? =
      (found.map Statement.reading).filterMap Reading.declared? := by
  induction found with
  | nil => rfl
  | cons s found ih =>
    rw [List.flatMap_cons, List.filterMap_append, ih, List.map_cons]
    unfold Statement.expanded
    cases himport : s.import? with
    | none => exact (List.filterMap_append (l := [s.reading])).symm
    | some rule =>
      have hleft : (Reading.deepen s.depth (leftImport rule.targets)).declared? = none := by
        have hnone : declared? (leftImport rule.targets).text = none := declared?_of_head (by
          simp [leftImport, String.toText])
        rw [Reading.declared?, Reading.deepen, hnone, Option.bind_none]
      rw [List.filterMap_cons, declared?_eq_none_of_import? himport]
      simp [hleft]

end StyleVars
