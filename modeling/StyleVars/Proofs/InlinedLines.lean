import StyleVars.Proofs.ImportTree
import StyleVars.Proofs.InstrumentedSheet
import StyleVars.Proofs.PathTexts

/-!
# Lines in inlined texts

What stands behind the last import of a file is in the text of every file that it is inlined into
(`drop_infix_inlineWithin`). The calls of the hooks of a file stand there, each on a line of its
own, unless an import reaches into them (`SheetFile.CallsApart`).
-/

namespace StyleVars

/-! ## Lines -/

/-- A line of a text with a line break on both sides of it. -/
def HasLine (line text : Text) : Prop :=
  CodePoint.char '\n' :: (line ++ [CodePoint.char '\n']) <:+: text

theorem HasLine.mem_splitOn {line text : Text} (h : HasLine line text)
    (hline : CodePoint.char '\n' ∉ line) : line ∈ Text.splitOn '\n' text := by
  obtain ⟨a, b, rfl⟩ := h
  rw [List.append_assoc, List.cons_append, List.append_assoc, Text.splitOn_append_sep,
    List.singleton_append, Text.splitOn_append_sep, Text.splitOn_of_notMem hline]
  simp

/-- Each of the lines behind a line break stands between two of them. -/
theorem hasLine_flatMap {lines : List Text} {line : Text} (h : line ∈ lines) :
    HasLine line (CodePoint.char '\n' :: lines.flatMap (· ++ [CodePoint.char '\n'])) := by
  induction lines with
  | nil => exact nomatch h
  | cons first rest ih =>
    rw [List.flatMap_cons]
    rcases List.mem_cons.mp h with rfl | hmem
    · exact ⟨[], rest.flatMap (· ++ [CodePoint.char '\n']), by simp⟩
    · refine (ih hmem).trans ⟨CodePoint.char '\n' :: first, [], ?_⟩
      simp

/-! ## Texts that are inlined -/

theorem infix_join {sep piece : Text} {pieces : List Text} (h : piece ∈ pieces) :
    piece <:+: Text.join sep pieces := by
  induction pieces with
  | nil => exact nomatch h
  | cons first rest ih =>
    cases rest with
    | nil =>
      rw [List.mem_singleton.mp h]
      exact List.infix_rfl
    | cons second rest =>
      rw [Text.join]
      · rcases List.mem_cons.mp h with rfl | hmem
        · exact List.append_assoc _ _ _ ▸ List.infix_append_left
        · exact (ih hmem).trans List.infix_append_right
      · simp

/-- The texts that replace the imports of a source stand in the result, and so does what is behind
the imports. -/
theorem infix_spliceFrom {source : Text} {replace : ImportRule → Recorded Text} {cursor : Nat}
    {rules : List ImportRule} {text : Text}
    (h : (spliceFrom source replace cursor rules).outcome = .ok text) :
    (∀ rule ∈ rules, ∃ t, (replace rule).outcome = .ok t ∧ t <:+: text) ∧
      ∀ n, cursor ≤ n → (∀ rule ∈ rules, rule.stop ≤ n) → source.drop n <:+: text := by
  induction rules generalizing cursor text with
  | nil =>
    obtain rfl := Except.ok.inj h
    refine ⟨by simp, fun n hn _ => ?_⟩
    obtain ⟨k, rfl⟩ := Nat.exists_eq_add_of_le hn
    rw [← List.drop_drop]
    exact (List.drop_suffix k _).isInfix
  | cons rule rest ih =>
    rw [spliceFrom, Recorded.bind_eq_ok] at h
    obtain ⟨t, ht, h⟩ := h
    rw [Recorded.bind_eq_ok] at h
    obtain ⟨more, hmore, h⟩ := h
    obtain rfl := Except.ok.inj h
    obtain ⟨hrules, hbehind⟩ := ih hmore
    constructor
    · intro rule' hrule
      rcases List.mem_cons.mp hrule with rfl | hmem
      · exact ⟨t, ht, List.infix_append _ _ _⟩
      · obtain ⟨t', ht', hinfix⟩ := hrules rule' hmem
        exact ⟨t', ht', hinfix.trans List.infix_append_right⟩
    · -- what stands behind all imports stands behind those that are left
      intro n _ hstops
      have hrest := hbehind n (hstops rule List.mem_cons_self) fun rule' hrule =>
        hstops rule' (List.mem_cons_of_mem _ hrule)
      exact hrest.trans List.infix_append_right

section Inlined

variable {place : Place} {known : KnownSources} {includePaths : List Text}

theorem mem_blocks_flush {r : Replacement} {block : Text} (h : block ∈ r.blocks) :
    block ∈ r.flush.blocks := by
  unfold Replacement.flush
  split_ifs
  · exact h
  · exact List.mem_append_left _ h

/-- The texts of the files that the targets mean are among those that replace the import. -/
theorem mem_blocks_replaceTargets {inline : Text → Recorded Text} {file : Text}
    {targets : List ImportTarget} {r r' : Replacement}
    (h : (targets.foldlM (replaceTarget place known includePaths inline file) r).outcome = .ok r') :
    (∀ block ∈ r.blocks, block ∈ r'.blocks) ∧
      ∀ target ∈ targets, ∀ other, targetFile? place known includePaths file target = some other →
        ∃ text, (inline other).outcome = .ok text ∧ text ∈ r'.blocks := by
  induction targets generalizing r with
  | nil =>
    obtain rfl := Except.ok.inj h
    exact ⟨fun block hblock => hblock, by simp⟩
  | cons target targets ih =>
    rw [List.foldlM_cons, Recorded.bind_eq_ok] at h
    obtain ⟨r₁, hr₁, h⟩ := h
    obtain ⟨hkept, htargets⟩ := ih h
    rw [replaceTarget, Recorded.bind_eq_ok] at hr₁
    obtain ⟨found, hfound, hr₁⟩ := hr₁
    -- the lookup has not failed, so that the target means what it has found
    have hfile : targetFile? place known includePaths file target = found := by
      rw [Recorded.outcome_lift] at hfound
      rw [targetFile?, hfound]
    cases found with
    | none =>
      obtain ⟨-, -, hr₁⟩ := Recorded.bind_eq_ok.mp hr₁
      obtain rfl := Except.ok.inj hr₁
      refine ⟨hkept, fun target' htarget other hother => ?_⟩
      rcases List.mem_cons.mp htarget with rfl | hmem
      · cases hfile.symm.trans hother
      · exact htargets target' hmem other hother
    | some other =>
      obtain ⟨-, -, hr₁⟩ := Recorded.bind_eq_ok.mp hr₁
      obtain ⟨text, htext, hr₁⟩ := Recorded.bind_eq_ok.mp hr₁
      obtain rfl := Except.ok.inj hr₁
      refine ⟨fun block hblock => hkept _ (List.mem_append_left _ (mem_blocks_flush hblock)), ?_⟩
      intro target' htarget other' hother
      rcases List.mem_cons.mp htarget with rfl | hmem
      · obtain rfl : other = other' := Option.some.inj (hfile.symm.trans hother)
        exact ⟨text, htext, hkept text (List.mem_append_right _ List.mem_cons_self)⟩
      · exact htargets target' hmem other' hother

/-- What stands behind the last import of a file stands in the text of every file above it. -/
theorem drop_infix_inlineWithin {depth : Nat} {chain : List Text} {file other source text : Text}
    (h : (inlineWithin place known includePaths depth chain file).outcome = .ok text)
    (hpath : Relation.ReflTransGen (Inlines place known includePaths) file other)
    (hsource : Keyed.get? other known = some source) {n : Nat}
    (hstops : ∀ rule ∈ imports source, rule.stop ≤ n) : source.drop n <:+: text := by
  induction depth generalizing chain file text with
  | zero => exact nomatch h
  | succ depth ih =>
    by_cases hnew : file ∈ chain
    · rw [inlineWithin_of_mem hnew] at h
      cases h
    · rcases hfile : Keyed.get? file known with _ | fileSource
      · rw [inlineWithin_of_unknown hnew hfile] at h
        cases h
      · rw [inlineWithin_of_notMem hnew hfile] at h
        obtain ⟨hrules, hbehind⟩ := infix_spliceFrom h
        -- either the file itself is meant, or one of the files whose texts are put into it
        rcases Relation.ReflTransGen.cases_head hpath with rfl | ⟨mid, hedge, hrest⟩
        · obtain rfl := Option.some.inj (hsource.symm.trans hfile)
          exact hbehind n (Nat.zero_le n) hstops
        · obtain ⟨source', hsource', rule, hrule, target, htarget, hother⟩ := hedge
          obtain rfl := Option.some.inj (hfile.symm.trans hsource')
          obtain ⟨t, ht, hinfix⟩ := hrules rule hrule
          obtain ⟨r, hr, hreplaced⟩ := Recorded.bind_eq_ok.mp ht
          obtain rfl := Except.ok.inj hreplaced
          obtain ⟨inner, hinner, hmem⟩ := (mem_blocks_replaceTargets hr).2 target htarget mid hother
          exact ((ih hinner hrest).trans (infix_join (mem_blocks_flush hmem))).trans hinfix

end Inlined

/-! ## The calls of the hooks -/

/-- Every import in the instrumented text of the file ends before the line break in front of the
calls of its hooks. -/
def SheetFile.CallsApart (file : SheetFile) : Prop :=
  ∀ rule ∈ imports file.instrumented, rule.stop < (file.source ++ lineEnd file.source).length

instance (file : SheetFile) : Decidable file.CallsApart :=
  inferInstanceAs (Decidable (∀ rule ∈ imports file.instrumented,
    rule.stop < (file.source ++ lineEnd file.source).length))

/-- The calls of the hooks stand behind a line break, each on a line of its own. -/
theorem SheetFile.hasLine_drop {file : SheetFile} {call : Text} (h : call ∈ file.hookCalls) :
    ∃ n, n + 1 = (file.source ++ lineEnd file.source).length ∧
      HasLine call (file.instrumented.drop n) := by
  have hne : file.declarations ≠ [] := by
    rintro hnil
    simp [SheetFile.hookCalls, hnil] at h
  obtain ⟨init, hinit⟩ : ∃ init, file.source ++ lineEnd file.source =
      init ++ [CodePoint.char '\n'] := by
    unfold lineEnd
    split_ifs with hlast
    · obtain ⟨init, hinit⟩ := List.getLast?_eq_some_iff.mp hlast
      exact ⟨init, by rw [List.append_nil, hinit]⟩
    · exact ⟨file.source, rfl⟩
  refine ⟨init.length, by rw [hinit, List.length_append, List.length_singleton], ?_⟩
  rw [SheetFile.instrumented_eq hne, ← List.append_assoc, hinit, List.append_assoc, List.drop_left]
  exact hasLine_flatMap h

end StyleVars
