import StyleVars.Proofs.InlinedLines
import Mathlib.Data.List.Chain

/-!
# Cycles of imports

Inlining follows the edges `Inlines` from the entry. It fails exactly when they lead to a file that
imports itself through others, and then it names a chain of imports that comes back to one of its
files (`inlineImports_cyclic_iff`). A file that is only reached several times is no cycle.
-/

namespace StyleVars

/-! ## Failures -/

/-- Every failure of the computation is one of the given kind. -/
def Recorded.FailsOnly {α : Type} (P : Failure → Prop) (x : Recorded α) : Prop :=
  ∀ e, x.outcome = .error e → P e

section Failures

variable {α β : Type} {P : Failure → Prop}

theorem Recorded.FailsOnly.of_ok {x : Recorded α} {a : α} (h : x.outcome = .ok a) :
    x.FailsOnly P := by
  intro e he
  exact nomatch h.symm.trans he

theorem Recorded.FailsOnly.bind {x : Recorded α} {f : α → Recorded β} (hx : x.FailsOnly P)
    (hf : ∀ a, x.outcome = .ok a → (f a).FailsOnly P) : (x >>= f).FailsOnly P := by
  intro e he
  rw [Recorded.outcome_bind] at he
  rcases houtcome : x.outcome with e' | a
  · rw [houtcome] at he
    obtain rfl : e' = e := Except.error.inj he
    exact hx e' houtcome
  · rw [houtcome] at he
    exact hf a houtcome e he

theorem Recorded.FailsOnly.foldlM {f : β → α → Recorded β} {xs : List α}
    (h : ∀ x ∈ xs, ∀ b, (f b x).FailsOnly P) (b : β) : (xs.foldlM f b).FailsOnly P := by
  induction xs generalizing b with
  | nil => exact .of_ok rfl
  | cons x xs ih =>
    rw [List.foldlM_cons]
    exact (h x List.mem_cons_self b).bind fun b' _ =>
      ih (fun y hy => h y (List.mem_cons_of_mem _ hy)) b'

theorem Recorded.FailsOnly.spliceFrom {source : Text} {replace : ImportRule → Recorded Text}
    {rules : List ImportRule} (h : ∀ rule ∈ rules, (replace rule).FailsOnly P) (cursor : Nat) :
    (StyleVars.spliceFrom source replace cursor rules).FailsOnly P := by
  induction rules generalizing cursor with
  | nil => exact .of_ok rfl
  | cons rule rules ih =>
    have hrest := ih (fun rule' hrule => h rule' (List.mem_cons_of_mem _ hrule)) rule.stop
    exact (h rule List.mem_cons_self).bind fun _ _ => hrest.bind fun _ _ => .of_ok rfl

end Failures

/-! ## Chains of imports -/

section Chains

variable (place : Place) (known : KnownSources) (includePaths : List Text)

/-- A chain of imports that comes back: it starts at the entry, each file imports the next one, the
files before the last one are different, and the last one is one of them. -/
structure ComesBack (entry : Text) (chain : List Text) : Prop where
  start : chain.head? = some entry
  edges : chain.IsChain (Inlines place known includePaths)
  nodup : chain.dropLast.Nodup
  again : ∃ file ∈ chain.getLast?, file ∈ chain.dropLast

/-- The edges lead from the entry to a file that imports itself through others. -/
def ReachesCycle (entry : Text) : Prop :=
  ∃ file, Relation.ReflTransGen (Inlines place known includePaths) entry file ∧
    Relation.TransGen (Inlines place known includePaths) file file

/-- Different known files that lead from the entry to `file`, each of them importing the next. -/
structure Trail (entry : Text) (chain : List Text) (file : Text) : Prop where
  nodup : chain.Nodup
  subset : chain ⊆ Keyed.keys known
  start : (chain ++ [file]).head? = some entry
  edges : (chain ++ [file]).IsChain (Inlines place known includePaths)

end Chains

section Inlining

variable {place : Place} {known : KnownSources} {includePaths : List Text} {entry : Text}

theorem Trail.nil (entry : Text) : Trail place known includePaths entry [] entry :=
  ⟨List.nodup_nil, List.nil_subset _, rfl, List.isChain_singleton entry⟩

theorem Trail.append {chain : List Text} {file other : Text}
    (h : Trail place known includePaths entry chain file) (hfile : file ∈ Keyed.keys known)
    (hnew : file ∉ chain) (hedge : Inlines place known includePaths file other) :
    Trail place known includePaths entry (chain ++ [file]) other where
  nodup := List.nodup_append.mpr ⟨h.nodup, by simp, by
    intro above habove last hlast heq
    rw [heq, List.mem_singleton.mp hlast] at habove
    exact hnew habove⟩
  subset := List.append_subset.mpr ⟨h.subset, by simpa using hfile⟩
  start := by
    rw [List.head?_append_of_ne_nil _ (by simp)]
    exact h.start
  edges := by
    rw [List.append_assoc, List.singleton_append, List.isChain_append_cons_cons]
    exact ⟨h.edges, hedge, List.isChain_singleton other⟩

/-- A trail whose file stands on it already comes back. -/
theorem Trail.comesBack {chain : List Text} {file : Text}
    (h : Trail place known includePaths entry chain file) (hagain : file ∈ chain) :
    ComesBack place known includePaths entry (chain ++ [file]) := by
  refine ⟨h.start, h.edges, ?_, file, ?_, ?_⟩
  · rw [List.dropLast_concat]
    exact h.nodup
  · simp
  · rw [List.dropLast_concat]
    exact hagain

theorem ComesBack.reachesCycle {chain : List Text}
    (h : ComesBack place known includePaths entry chain) :
    ReachesCycle place known includePaths entry := by
  obtain ⟨file, hlast, hmem⟩ := h.again
  -- the chain goes through the file, over one file more at least and to the file again
  obtain ⟨init, rfl⟩ := List.getLast?_eq_some_iff.mp hlast
  rw [List.dropLast_concat] at hmem
  obtain ⟨before, after, rfl⟩ := List.append_of_mem hmem
  have hedges := h.edges
  rw [List.append_assoc, List.cons_append, List.isChain_split] at hedges
  obtain ⟨hreach, hcycle⟩ := hedges
  refine ⟨file, ?_, ?_⟩
  · have hpath := List.relationReflTransGen_of_exists_isChain _ hreach (by simp)
    have hhead : (before ++ [file]).head (by simp) = entry := by
      have hstart := h.start
      rw [← Option.some.injEq, ← List.head?_eq_some_head, ← hstart]
      cases before <;> rfl
    rwa [hhead, List.getLast_concat] at hpath
  · obtain ⟨next, rest, hrest⟩ := List.exists_cons_of_ne_nil
      (show after ++ [file] ≠ [] by simp)
    rw [hrest, List.isChain_cons_cons] at hcycle
    have hpath := List.relationReflTransGen_of_exists_isChain _ hcycle.2 (by simp)
    have hend : (next :: rest).getLast (by simp) = file := by
      simp only [← hrest, List.getLast_concat]
    rw [List.head_cons, hend] at hpath
    exact .head' hcycle.1 hpath

/-! ## Inlining that fails -/

/-- Looking for a file does not fail, so that a target is replaced unless the file that it means is
not. -/
theorem replaceTarget_failsOnly (hnames : [] ∉ Keyed.keys known) {P : Failure → Prop}
    {inline : Text → Recorded Text} {file : Text} {target : ImportTarget}
    (h : ∀ other, targetFile? place known includePaths file target = some other →
      (inline other).FailsOnly P) (r : Replacement) :
    (replaceTarget place known includePaths inline file r target).FailsOnly P := by
  have hfound : targetFile place known includePaths file target =
      .ok (targetFile? place known includePaths file target) :=
    (targetFile_spec hnames file target).1
  rcases hmeant : targetFile? place known includePaths file target with _ | other
  · exact .of_ok (replaceTarget_left (hfound.trans (congrArg _ hmeant)))
  · rw [replaceTarget, hfound, hmeant]
    refine Recorded.FailsOnly.bind (.of_ok rfl) fun found hother => ?_
    obtain rfl : some other = found := Except.ok.inj hother
    exact .bind (.of_ok rfl) fun _ _ => (h other hmeant).bind fun _ _ => .of_ok rfl

/-- Along a trail inlining only fails with a chain that comes back. -/
theorem inlineWithin_failsOnly (hnames : [] ∉ Keyed.keys known) {depth : Nat} {chain : List Text}
    {file : Text} (h : Trail place known includePaths entry chain file)
    (hfile : file ∈ Keyed.keys known) (hdepth : known.length < depth + chain.length) :
    (inlineWithin place known includePaths depth chain file).FailsOnly fun e =>
      ∃ chain', e = .cyclicImport chain' ∧ ComesBack place known includePaths entry chain' := by
  induction depth generalizing chain file with
  | zero =>
    -- a trail of different known files cannot be longer than the list of them
    have hlength := h.nodup.length_le_of_subset h.subset
    rw [Keyed.keys, List.length_map] at hlength
    omega
  | succ depth ih =>
    by_cases hmem : file ∈ chain
    · rw [inlineWithin_of_mem hmem]
      intro e he
      exact ⟨chain ++ [file], (Except.error.inj he).symm, h.comesBack hmem⟩
    · obtain ⟨source, hsource⟩ := Keyed.exists_of_mem_keys hfile
      rw [inlineWithin_of_notMem hmem hsource]
      refine .spliceFrom (fun rule hrule => ?_) 0
      refine .bind (.foldlM (fun target htarget r => ?_) _) fun _ _ => .of_ok rfl
      refine replaceTarget_failsOnly hnames (fun other hother => ?_) r
      have hedge : Inlines place known includePaths file other :=
        ⟨source, hsource, rule, hrule, target, htarget, hother⟩
      refine ih (h.append hfile hmem hedge) (hedge.mem_keys hnames) ?_
      rw [List.length_append, List.length_singleton]
      omega

/-! ## Inlining that succeeds -/

/-- A file that is inlined does not stand in the chain, and the files that it imports are inlined
below it. -/
theorem inlineWithin_below {depth : Nat} {chain : List Text} {file text : Text}
    (h : (inlineWithin place known includePaths depth chain file).outcome = .ok text) :
    file ∉ chain ∧ ∀ other, Inlines place known includePaths file other →
      ∃ depth' text', (inlineWithin place known includePaths depth' (chain ++ [file])
        other).outcome = .ok text' := by
  cases depth with
  | zero => exact nomatch h
  | succ depth =>
    by_cases hmem : file ∈ chain
    · rw [inlineWithin_of_mem hmem] at h
      cases h
    · refine ⟨hmem, ?_⟩
      rintro other ⟨source, hsource, rule, hrule, target, htarget, hother⟩
      rw [inlineWithin_of_notMem hmem hsource] at h
      obtain ⟨t, ht, -⟩ := (infix_spliceFrom h).1 rule hrule
      obtain ⟨r, hr, -⟩ := Recorded.bind_eq_ok.mp ht
      obtain ⟨inner, hinner, -⟩ := (mem_blocks_replaceTargets hr).2 target htarget other hother
      exact ⟨depth, inner, hinner⟩

/-- Every file that the edges lead to is inlined, below all of the files on the way. -/
theorem inlineWithin_of_path {depth : Nat} {chain : List Text} {file other text : Text}
    (h : (inlineWithin place known includePaths depth chain file).outcome = .ok text)
    (hpath : Relation.TransGen (Inlines place known includePaths) file other) :
    ∃ depth' chain' text', file ∈ chain' ∧
      (inlineWithin place known includePaths depth' chain' other).outcome = .ok text' := by
  induction hpath with
  | single hedge =>
    obtain ⟨depth', text', htext⟩ := (inlineWithin_below h).2 _ hedge
    exact ⟨depth', chain ++ [file], text', by simp, htext⟩
  | tail _ hedge ih =>
    obtain ⟨depth', chain', text', hmem, htext⟩ := ih
    obtain ⟨depth'', text'', htext'⟩ := (inlineWithin_below htext).2 _ hedge
    exact ⟨depth'', _, text'', List.mem_append_left _ hmem, htext'⟩

theorem not_reachesCycle_of_ok {depth : Nat} {text : Text}
    (h : (inlineWithin place known includePaths depth [] entry).outcome = .ok text) :
    ¬ReachesCycle place known includePaths entry := by
  rintro ⟨file, hreach, hcycle⟩
  -- the file would be inlined below itself
  obtain ⟨depth', chain, text', htext⟩ : ∃ depth' chain text',
      (inlineWithin place known includePaths depth' chain file).outcome = .ok text' := by
    rcases Relation.reflTransGen_iff_eq_or_transGen.mp hreach with rfl | hpath
    · exact ⟨depth, [], text, h⟩
    · obtain ⟨depth', chain, text', -, htext⟩ := inlineWithin_of_path h hpath
      exact ⟨depth', chain, text', htext⟩
  obtain ⟨depth'', chain', text'', hmem, hagain⟩ := inlineWithin_of_path htext hcycle
  exact (inlineWithin_below hagain).1 hmem

/-- Inlining ends: with a text, or else with a chain of imports that comes back. It ends with a
chain exactly when the edges lead from the entry to a cycle. -/
theorem inlineImports_cyclic_iff (hnames : [] ∉ Keyed.keys known)
    (hentry : entry ∈ Keyed.keys known) :
    ((∃ chain, (inlineImports place known includePaths entry).outcome =
        .error (.cyclicImport chain)) ↔ ReachesCycle place known includePaths entry) ∧
      (∀ chain, (inlineImports place known includePaths entry).outcome =
        .error (.cyclicImport chain) → ComesBack place known includePaths entry chain) ∧
      (¬ReachesCycle place known includePaths entry →
        ∃ text, (inlineImports place known includePaths entry).outcome = .ok text) := by
  have htrail : Trail place known includePaths entry [] entry := .nil entry
  have hfails := inlineWithin_failsOnly hnames htrail hentry (Nat.lt_succ_self known.length)
  have hchain : ∀ chain, (inlineImports place known includePaths entry).outcome =
      .error (.cyclicImport chain) → ComesBack place known includePaths entry chain := by
    intro chain hchain
    obtain ⟨chain', heq, hback⟩ := hfails _ hchain
    rwa [Failure.cyclicImport.inj heq]
  rcases houtcome : (inlineImports place known includePaths entry).outcome with e | text
  · obtain ⟨chain, rfl, hback⟩ := hfails e houtcome
    refine ⟨⟨fun _ => hback.reachesCycle, fun _ => ⟨chain, rfl⟩⟩, ?_, ?_⟩
    · exact fun chain' heq => hchain chain' (houtcome.trans heq)
    · exact fun hnot => absurd hback.reachesCycle hnot
  · have hnot := not_reachesCycle_of_ok houtcome
    refine ⟨⟨?_, fun hcycle => absurd hcycle hnot⟩, ?_, fun _ => ⟨text, rfl⟩⟩
    · rintro ⟨chain, heq⟩
      exact nomatch heq
    · exact fun chain heq => nomatch heq

end Inlining

/-- The entry imports a file twice, and that file imports another one that imports it again. -/
def cyclicSources : KnownSources :=
  [("/main.scss".toText, "@import \"a\", 'other';\n@import \"a\";\n".toText),
    ("/a.scss".toText, "p \x7b @import 'lib/b' \x7d\n".toText),
    ("/lib/_b.scss".toText, "@import \"../a\";\n".toText)]

theorem cyclicSources_comesBack :
    [] ∉ Keyed.keys cyclicSources ∧ "/main.scss".toText ∈ Keyed.keys cyclicSources ∧
      ∃ chain, (inlineImports rootPlace cyclicSources []
          "/main.scss".toText).outcome = .error (.cyclicImport chain) ∧
        ComesBack rootPlace cyclicSources [] "/main.scss".toText chain := by
  have hnames : [] ∉ Keyed.keys cyclicSources := by decide +kernel
  have hentry : "/main.scss".toText ∈ Keyed.keys cyclicSources := by decide +kernel
  obtain ⟨hiff, hchain, hends⟩ :=
    @inlineImports_cyclic_iff rootPlace cyclicSources [] _ hnames hentry
  -- without a cycle there would be a text
  have hcycle : ReachesCycle rootPlace cyclicSources []
      "/main.scss".toText := by
    by_contra hnot
    obtain ⟨text, htext⟩ := hends hnot
    have hfailed : (inlineImports rootPlace cyclicSources []
        "/main.scss".toText).outcome.isOk = false := by decide +kernel
    rw [htext] at hfailed
    exact nomatch hfailed
  obtain ⟨chain, houtcome⟩ := hiff.mpr hcycle
  exact ⟨hnames, hentry, chain, houtcome, hchain chain houtcome⟩

/-- A file that is imported along two paths is no cycle. -/
example : (inlineImports rootPlace
    [("/main.scss".toText, "@import \"a\", \"b\";".toText),
      ("/a.scss".toText, "@import \"b\";".toText), ("/b.scss".toText, "$b: 1;".toText)] []
    "/main.scss".toText).outcome.isOk := by
  decide +kernel

end StyleVars
