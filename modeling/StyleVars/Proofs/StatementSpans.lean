import StyleVars.Proofs.FirstStatements
import StyleVars.Proofs.SplicedText

/-!
# Where statements stand in a text

The reader that has come to an offset of a text holds of the open statement just what stands between
its first character and the offset (`Scanner.held_inText`). Every statement is therefore a part of
the text, from a visible character on (`Statement.StandsIn`), and each one stops before the next one
starts (`pairwise_statements`). The text that is cut at its imports is made up of its pieces again
(`outcome_spliceFrom_extract`).
-/

namespace StyleVars

/-! ## Parts of a text -/

namespace Text

variable {text : Text} {start stop : Nat}

theorem extract_succ {c : CodePoint} (hc : text[stop]? = some c) (hle : start ≤ stop) :
    text.extract start (stop + 1) = text.extract start stop ++ [c] := by
  rw [List.extract_eq_take_drop, List.extract_eq_take_drop, Nat.sub_add_comm hle,
    List.take_add_one, List.getElem?_drop, Nat.add_sub_cancel' hle, hc, Option.toList_some]

theorem extract_single {c : CodePoint} (hc : text[start]? = some c) :
    text.extract start (start + 1) = [c] := by
  rw [extract_succ hc (Nat.le_refl start), List.extract_eq_take_drop, Nat.sub_self]
  rfl

theorem extract_append_drop (text : Text) (hle : start ≤ stop) :
    text.extract start stop ++ text.drop stop = text.drop start := by
  rw [List.extract_eq_take_drop]
  conv_lhs => rw [← Nat.add_sub_cancel' hle, ← List.drop_drop, Nat.add_sub_cancel_left]
  exact List.take_append_drop _ _

theorem extract_append_extract (text : Text) {middle : Nat} (hle : start ≤ middle)
    (hle' : middle ≤ stop) :
    text.extract start middle ++ text.extract middle stop = text.extract start stop := by
  have hlength : stop - start = (middle - start) + (stop - middle) := by omega
  rw [@List.extract_eq_take_drop _ text start stop, hlength, List.take_add, List.drop_drop,
    Nat.add_sub_cancel' hle]

end Text

namespace Scanner

/-! ## The reader at an offset -/

/-- The reader in front of the character at an offset of a text. -/
def inText (text : Text) (offset : Nat) : Scanner :=
  start.advance text[offset]? (text.take offset)

variable {text : Text} {n : Nat}

theorem inText_zero (text : Text) : inText text 0 = start := rfl

theorem inText_succ {c : CodePoint} (hc : text[n]? = some c) :
    inText text (n + 1) = ((inText text n).step c text[n + 1]?).1 := by
  rw [inText, List.take_add_one, hc, Option.toList_some, advance_append, inText, hc]
  rfl

theorem settled_inText (text : Text) (n : Nat) : (inText text n).Settled :=
  (between_settled 0 []).advance _ _

theorem offset_inText (hn : n ≤ text.length) : (inText text n).offset = n := by
  have hoffset := (between_settled 0 []).advance_offset text[n]? (text.take n)
  rw [List.length_take, Nat.min_eq_left hn] at hoffset
  exact hoffset.trans (Nat.zero_add n)

theorem earliest_inText_le (text : Text) (n : Nat) :
    (inText text n).earliest ≤ (inText text n).offset :=
  ((between_settled 0 []).advance_earliest (Nat.le_refl 0) _ _).2

/-- The statements from an offset on: those closed by the character there, and those from the next
offset on. -/
theorem scan_inText {c : CodePoint} (hc : text[n]? = some c) :
    (inText text n).scan (text.drop n) =
      ((inText text n).step c text[n + 1]?).2 ++
        (inText text (n + 1)).scan (text.drop (n + 1)) := by
  obtain ⟨hn, hget⟩ := List.getElem?_eq_some_iff.mp hc
  rw [List.drop_eq_getElem_cons hn, hget, inText_succ hc, scan, List.head?_drop]

/-! ## What the reader holds -/

/-- A semicolon at the offset closes a statement: it is code outside of parentheses. -/
def ClosesAt (text : Text) (offset : Nat) : Prop :=
  text[offset]? = some (.char ';') ∧ (inText text offset).parens = 0 ∧
    ∃ afterColon, (inText text offset).mode = .code afterColon

instance (text : Text) (offset : Nat) : Decidable (ClosesAt text offset) :=
  inferInstanceAs (Decidable (_ ∧ _))

/-- Behind such a semicolon no statement is open. -/
theorem ClosesAt.pending (h : ClosesAt text n) : (inText text (n + 1)).pending = none := by
  obtain ⟨hc, hparens, b, hmode⟩ := h
  have hopened : (inText text n).opened.parens = 0 := hparens
  rw [inText_succ hc, step_of_visible hmode (by decide) (by decide), readCode, if_neg (by decide),
    if_neg (by simp), if_neg (by decide), if_neg (by decide), if_pos ⟨hopened, rfl⟩]
  rfl

/-- The reader holds what stands between the first character of the open statement, which is
visible, and the offset it has come to. -/
theorem held_inText (hn : n ≤ text.length) {p : Pending} (hp : (inText text n).pending = some p) :
    p.start < n ∧ p.body.reverse = text.extract p.start n ∧
      (∃ c, text[p.start]? = some c ∧ isBlank c = false) ∧ ¬ClosesAt text (n - 1) := by
  induction n generalizing p with
  | zero => rw [inText_zero] at hp; exact nomatch hp
  | succ n ih =>
    have hc : text[n]? = some text[n] := List.getElem?_eq_getElem hn
    have hopen : ¬ClosesAt text n := fun hclose => by
      rw [hclose.pending] at hp
      exact nomatch hp
    have hoffset : (inText text n).offset = n := offset_inText (Nat.le_of_succ_le hn)
    have hstep := (settled_inText text n).step_cases text[n] text[n + 1]?
    rw [inText_succ hc] at hp
    generalize (inText text n).step text[n] text[n + 1]? = r at hstep hp
    -- a character that is taken into the statement `q` stands at the end of it
    have htaken : ∀ q, (inText text n).pending = some q →
        q.start < n + 1 ∧ (text[n] :: q.body).reverse = text.extract q.start (n + 1) ∧
          (∃ c, text[q.start]? = some c ∧ isBlank c = false) ∧ ¬ClosesAt text n := by
      intro q hq
      obtain ⟨hlt, hbody, hvisible, -⟩ := ih (Nat.le_of_succ_le hn) hq
      refine ⟨Nat.lt_succ_of_lt hlt, ?_, hvisible, hopen⟩
      rw [List.reverse_cons, hbody, Text.extract_succ hc (Nat.le_of_lt hlt)]
    cases hstep with
    | passed mode hmode =>
      obtain ⟨q, hq, rfl⟩ := Option.map_eq_some_iff.mp hp
      exact htaken q hq
    | kept mode parens hcode hblank =>
      obtain rfl := Option.some.inj hp
      cases hq : (inText text n).pending with
      | some q => exact htaken q hq
      | none =>
        rw [Option.getD_none, hoffset]
        exact ⟨Nat.lt_succ_self n, (Text.extract_single hc).symm, ⟨_, hc, hblank⟩, hopen⟩
    | ended | entered | left => exact nomatch hp

end Scanner

/-! ## Statements in their places -/

/-- The place of a statement in a text. The statement starts with a visible character, and its text
is what stands there without the white space at the end and without the semicolon that closes it, if
one does; otherwise a brace or the end of the text closes it. -/
structure Statement.StandsIn (text : Text) (s : Statement) : Prop where
  start_lt_stop : s.start < s.stop
  stop_le : s.stop ≤ text.length
  visible : ∃ c, text[s.start]? = some c ∧ isBlank c = false
  text_ne_nil : s.text ≠ []
  text_eq : s.text = Text.strip (text.extract s.start
    (if Scanner.ClosesAt text (s.stop - 1) then s.stop - 1 else s.stop))
  closed : Scanner.ClosesAt text (s.stop - 1) ∨ text[s.stop]? = some (.char '\x7d') ∨
    s.stop = text.length

namespace Scanner

variable {text : Text} {n : Nat} {found : Statement}

theorem exists_of_mem_emit {s : Scanner} {stop : Nat} (h : found ∈ s.emit stop) :
    ∃ p, s.pending = some p ∧ found.start = p.start ∧ found.stop = stop ∧
      found.text = Text.strip p.body.reverse ∧ found.text ≠ [] := by
  have htext := of_mem_emit h
  cases hp : s.pending with
  | none => simp [emit, hp] at h
  | some p =>
    have hstart : found.start = p.start := (start_of_mem_emit h).trans (earliest_of_some hp)
    have hheld : s.heldText = Text.strip p.body.reverse := by rw [heldText, hp]
    refine ⟨p, rfl, hstart, htext.2, htext.1.trans hheld, fun hnil => ?_⟩
    rw [htext.1] at hnil
    simp [emit, hp, hnil] at h

/-- A statement that is given at an offset stands in the text. -/
theorem standsIn_of_mem_emit (hn : n ≤ text.length) {stop : Nat}
    (hfound : found ∈ (inText text n).emit stop)
    (hstop : stop = n + 1 ∧ ClosesAt text n ∨
      stop = n ∧ (text[n]? = some (.char '\x7d') ∨ n = text.length)) : found.StandsIn text := by
  obtain ⟨p, hp, hstart, rfl, htext, hne⟩ := exists_of_mem_emit hfound
  obtain ⟨hlt, hbody, hvisible, hopen⟩ := held_inText hn hp
  rw [← hstart] at hlt hbody hvisible
  rw [hbody] at htext
  rcases hstop with ⟨hstop, hclose⟩ | ⟨hstop, hend⟩
  · have hlast : found.stop - 1 = n := by omega
    have hle : n < text.length := (List.getElem?_eq_some_iff.mp hclose.1).1
    refine ⟨by omega, by omega, hvisible, hne, ?_, .inl (hlast ▸ hclose)⟩
    rw [hlast, if_pos hclose]
    exact htext
  · refine ⟨by omega, by omega, hvisible, hne, ?_, .inr (hstop ▸ hend)⟩
    rw [hstop, if_neg hopen]
    exact htext

/-- What is given at one place is one statement at most. -/
theorem pairwise_emit (s : Scanner) (stop : Nat) (R : Statement → Statement → Prop) :
    (s.emit stop).Pairwise R := by
  rcases s.emit_eq_nil_or stop with h | h <;> rw [h]
  · exact .nil
  · exact List.pairwise_singleton R _

/-- A statement that a character closes stands in the text, and stops at the character or behind
it. -/
theorem step_inText {c : CodePoint} (hc : text[n]? = some c) :
    (((inText text n).step c text[n + 1]?).2.Pairwise fun s t => s.stop ≤ t.start) ∧
      ∀ found ∈ ((inText text n).step c text[n + 1]?).2,
        found.StandsIn text ∧ found.stop ≤ n + 1 := by
  have hn : n ≤ text.length := Nat.le_of_lt (List.getElem?_eq_some_iff.mp hc).1
  have hoffset := offset_inText hn
  -- what was just opened has no text
  have hgiven : ∀ stop, ∀ found ∈ (inText text n).opened.emit stop,
      found ∈ (inText text n).emit stop := by
    intro stop found hfound
    by_cases hpending : (inText text n).pending = none
    · rw [emit_opened_of_none hpending] at hfound
      exact absurd hfound List.not_mem_nil
    · rwa [opened_eq_self hpending] at hfound
  have hstep := (settled_inText text n).step_cases c text[n + 1]?
  generalize (inText text n).step c text[n + 1]? = r at hstep ⊢
  cases hstep with
  | passed | kept | entered => exact ⟨.nil, nofun⟩
  | ended hsemicolon hcode hparens =>
    refine ⟨pairwise_emit (inText text n).opened _ _, fun found hfound => ?_⟩
    have hemit := hgiven _ found hfound
    rw [hoffset] at hemit
    have hclose : ClosesAt text n := ⟨hsemicolon ▸ hc, hparens, hcode⟩
    exact ⟨standsIn_of_mem_emit hn hemit (.inl ⟨rfl, hclose⟩),
      Nat.le_of_eq (of_mem_emit hemit).2⟩
  | left hbrace hcode hparens =>
    refine ⟨pairwise_emit (inText text n).opened _ _, fun found hfound => ?_⟩
    have hemit := hgiven _ found hfound
    rw [hoffset] at hemit
    exact ⟨standsIn_of_mem_emit hn hemit (.inr ⟨rfl, .inl (hbrace ▸ hc)⟩),
      Nat.le_succ_of_le (Nat.le_of_eq (of_mem_emit hemit).2)⟩

/-- From an offset on, the statements stand in the text one behind the other. -/
theorem standsIn_scan (hn : n ≤ text.length) :
    (∀ found ∈ (inText text n).scan (text.drop n), found.StandsIn text) ∧
      ((inText text n).scan (text.drop n)).Pairwise fun s t => s.stop ≤ t.start := by
  induction hk : text.length - n generalizing n with
  | zero =>
    obtain rfl : n = text.length := by omega
    rw [List.drop_length, scan, offset_inText hn]
    exact ⟨fun found hfound => standsIn_of_mem_emit hn hfound (.inr ⟨rfl, .inr rfl⟩),
      pairwise_emit _ _ _⟩
  | succ k ih =>
    have hlt : n < text.length := by omega
    have hc : text[n]? = some text[n] := List.getElem?_eq_getElem hlt
    obtain ⟨hgiven, hfound⟩ := step_inText hc
    obtain ⟨hrest, hapart⟩ := ih hlt (by omega)
    rw [scan_inText hc]
    refine ⟨fun found hmem => ?_, List.pairwise_append.mpr ⟨hgiven, hapart, ?_⟩⟩
    · rcases List.mem_append.mp hmem with hmem | hmem
      · exact (hfound found hmem).1
      · exact hrest found hmem
    · -- where a statement is closed, the next one is still to be opened
      intro s hs t ht
      have hnone : (inText text (n + 1)).pending = none := by
        rw [inText_succ hc]
        by_contra hopen
        rw [(settled_inText text n).found_eq_nil _ _ (.inr hopen)] at hs
        exact List.not_mem_nil hs
      have hearliest : (inText text (n + 1)).earliest = n + 1 := by
        rw [earliest, hnone]
        exact offset_inText hlt
      have hstart := (settled_inText text (n + 1)).start_of_mem_scan (earliest_inText_le text _) ht
      have hstop := (hfound s hs).2
      omega

end Scanner

section Spans

variable {text : Text}

theorem standsIn_of_mem_statements {s : Statement} (h : s ∈ statements text) : s.StandsIn text :=
  (Scanner.standsIn_scan (Nat.zero_le text.length)).1 s h

/-- Each statement stops before the next one starts. -/
theorem pairwise_statements (text : Text) :
    (statements text).Pairwise fun s t => s.stop ≤ t.start :=
  (Scanner.standsIn_scan (Nat.zero_le text.length)).2

/-- From the start of a statement on, the text goes on with that of the statement. -/
theorem Statement.StandsIn.drop_start {s : Statement} (h : s.StandsIn text) :
    ∃ behind, text.drop s.start = s.text ++ behind := by
  have hextract : ∀ stop, s.text = Text.strip (text.extract s.start stop) →
      ∃ behind, text.drop s.start = s.text ++ behind := by
    intro stop htext
    obtain ⟨c, hc, hblank⟩ := h.visible
    have hhead : ∀ d ∈ (text.extract s.start stop).head?, isBlank d = false := by
      intro d hd
      rw [List.head?_take, List.head?_drop, hc] at hd
      split_ifs at hd
      · exact nomatch hd
      · exact Option.some.inj hd ▸ hblank
    obtain ⟨gap, hgap, -⟩ := Text.strip_spec hhead
    refine ⟨gap ++ (text.drop s.start).drop (stop - s.start), ?_⟩
    rw [htext, ← List.append_assoc, ← hgap, List.take_append_drop]
  exact hextract _ h.text_eq

/-! ## Texts cut at their imports -/

/-- Pieces that stand one behind the other make up the text that they are cut from. -/
theorem splicedFrom_extract {rules : List ImportRule} {cursor : Nat}
    (hspan : ∀ rule ∈ rules, cursor ≤ rule.start ∧ rule.start ≤ rule.stop)
    (happart : rules.Pairwise fun r q => r.stop ≤ q.start) :
    splicedFrom text (fun rule => text.extract rule.start rule.stop) cursor rules =
      text.drop cursor := by
  induction rules generalizing cursor with
  | nil => rfl
  | cons rule rest ih =>
    obtain ⟨hfirst, hrest⟩ := List.pairwise_cons.mp happart
    obtain ⟨hcursor, hstop⟩ := hspan rule List.mem_cons_self
    have hmore := ih
      (fun r hr => ⟨hfirst r hr, (hspan r (List.mem_cons_of_mem _ hr)).2⟩) hrest
    rw [splicedFrom, hmore, List.append_assoc, text.extract_append_drop hstop, List.drop_take]
    exact text.extract_append_drop hcursor

theorem imports_apart (text : Text) :
    (∀ rule ∈ imports text, rule.start < rule.stop) ∧
      (imports text).Pairwise fun r q => r.stop ≤ q.start := by
  constructor
  · intro rule hrule
    obtain ⟨s, hs, himport⟩ := List.mem_filterMap.mp hrule
    obtain ⟨-, hstart, hstop⟩ := Scanner.import?_spec himport
    rw [hstart, hstop]
    exact (standsIn_of_mem_statements hs).start_lt_stop
  · refine (pairwise_statements text).filterMap _ fun s t hst r hr q hq => ?_
    rw [(Scanner.import?_spec hr).2.2, (Scanner.import?_spec hq).2.1]
    exact hst

/-- Put back into the places of the imports, what stands there gives the text again. -/
theorem outcome_spliceFrom_extract (text : Text) :
    (spliceFrom text (fun rule => pure (text.extract rule.start rule.stop)) 0
      (imports text)).outcome = .ok text := by
  obtain ⟨hspan, hapart⟩ := imports_apart text
  have hcut : splicedFrom text (fun rule => text.extract rule.start rule.stop) 0 (imports text) =
      text.drop 0 :=
    splicedFrom_extract
      (fun rule hrule => ⟨Nat.zero_le rule.start, Nat.le_of_lt (hspan rule hrule)⟩) hapart
  rw [outcome_spliceFrom fun rule _ => Recorded.outcome_pure (text.extract rule.start rule.stop),
    hcut]
  rfl

end Spans
end StyleVars
