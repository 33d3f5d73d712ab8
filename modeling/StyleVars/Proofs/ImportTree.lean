import StyleVars.Proofs.KeyedLists
import StyleVars.Proofs.SplicedText
import Mathlib.Data.List.Forall2
import Mathlib.Logic.Relation

/-!
# The import tree

The known files import each other along the edges `Inlines`. When these have no cycle, the files
below an entry form a tree, whose statements are those of the entry with every import replaced by
the statements of the files that it means (`Expands`). Inlining the imports and reading the result
gives these statements (`inlineImports_expands`).
-/

namespace StyleVars

/-! ## What an import is replaced by -/

/-- The known file that a target means in the file `file`, if any. -/
def targetFile? (place : Place) (known : KnownSources) (includePaths : List Text) (file : Text)
    (target : ImportTarget) : Option Text :=
  match targetFile place known includePaths file target with
  | .ok found => found
  | .error _ => none

/-- The import that is written for targets that are left in place. -/
def leftImport (targets : List ImportTarget) : Reading :=
  ⟨"@import ".toText ++ Text.join ", ".toText (targets.map ImportTarget.raw), 0, true⟩

/-- The statements that the targets of an import are replaced by: those of each file that is meant,
and one import for each run of targets that mean none. -/
def targetReadings (resolve : ImportTarget → Option Text) (content : Text → List Reading) :
    List ImportTarget → List Reading
  | [] => []
  | target :: rest =>
    match resolve target with
    | some file => content file ++ targetReadings resolve content rest
    | none =>
      leftImport (target :: rest.takeWhile fun t => (resolve t).isNone) ::
        targetReadings resolve content (rest.dropWhile fun t => (resolve t).isNone)
  termination_by targets => targets.length
  decreasing_by
    · simp
    · exact Nat.lt_succ_of_le (List.dropWhile_sublist _).length_le

section Tree

variable (place : Place) (known : KnownSources) (includePaths : List Text)

/-- The file imports the other one, which is put in the place of the import. -/
def Inlines (file other : Text) : Prop :=
  ∃ source, Keyed.get? file known = some source ∧ ∃ rule ∈ imports source,
    ∃ target ∈ rule.targets, targetFile? place known includePaths file target = some other

/-- The statements of a file and of the files below it in the import tree: its own statements in
order, each import replaced by those of the files that its targets mean. -/
inductive Expands : Text → List Reading → Prop
  | file {file source : Text} (content : Text → List Reading)
    (hsource : Keyed.get? file known = some source)
    (hcontent : ∀ other, Inlines place known includePaths file other →
      Expands other (content other)) :
    Expands file ((statements source).flatMap (Statement.expanded fun rule =>
      targetReadings (targetFile? place known includePaths file) content rule.targets))

end Tree

/-! ### Runs of targets -/

section Runs

variable {resolve : ImportTarget → Option Text} {content : Text → List Reading}

theorem targetReadings_left {run : List ImportTarget} (hne : run ≠ [])
    (hrun : ∀ t ∈ run, resolve t = none) {rest : List ImportTarget}
    (hrest : ∀ t ∈ rest.head?, resolve t ≠ none) :
    targetReadings resolve content (run ++ rest) =
      leftImport run :: targetReadings resolve content rest := by
  have hnone : ∀ t ∈ run, (resolve t).isNone := fun t ht => by simp [hrun t ht]
  have htake : rest.takeWhile (fun t => (resolve t).isNone) = [] := by
    cases rest with
    | nil => rfl
    | cons t rest => exact List.takeWhile_cons_of_neg (by simpa using hrest t (by simp))
  have hdrop : rest.dropWhile (fun t => (resolve t).isNone) = rest := by
    cases rest with
    | nil => rfl
    | cons t rest => exact List.dropWhile_cons_of_neg (by simpa using hrest t (by simp))
  cases run with
  | nil => exact absurd rfl hne
  | cons t run =>
    have htail : ∀ t' ∈ run, (resolve t').isNone := fun t' ht' => hnone t' (by simp [ht'])
    rw [List.cons_append, targetReadings, hrun t (by simp)]
    simp only
    rw [List.takeWhile_append_of_pos htail, List.dropWhile_append_of_pos htail, htake, hdrop,
      List.append_nil]

/-- The import that is written for a run of targets that are left in place, if there are any. -/
def runReadings (run : List ImportTarget) : List (List Reading) :=
  if run = [] then [] else [[leftImport run]]

theorem targetReadings_run {run : List ImportTarget} (hrun : ∀ t ∈ run, resolve t = none)
    {rest : List ImportTarget} (hrest : ∀ t ∈ rest.head?, resolve t ≠ none) :
    targetReadings resolve content (run ++ rest) =
      (runReadings run).flatten ++ targetReadings resolve content rest := by
  unfold runReadings
  split_ifs with hne
  · rw [hne]
    rfl
  · exact targetReadings_left hne hrun hrest

theorem targetReadings_found {target : ImportTarget} {file : Text}
    (h : resolve target = some file) (rest : List ImportTarget) :
    targetReadings resolve content (target :: rest) =
      content file ++ targetReadings resolve content rest := by
  rw [targetReadings, h]

/-- Only the statements of the files that the targets mean matter. -/
theorem targetReadings_congr {content' : Text → List Reading} {targets : List ImportTarget}
    (h : ∀ target ∈ targets, ∀ file, resolve target = some file → content file = content' file) :
    targetReadings resolve content targets = targetReadings resolve content' targets := by
  induction targets using targetReadings.induct resolve with
  | case1 => rw [targetReadings, targetReadings]
  | case2 target rest file hfile ih =>
    rw [targetReadings_found hfile, targetReadings_found hfile, h target (by simp) file hfile,
      ih fun t ht => h t (by simp [ht])]
  | case3 target rest hnone ih =>
    have hrest := ih fun t ht => h t (List.mem_cons_of_mem _ ((List.dropWhile_sublist _).mem ht))
    rw [targetReadings, targetReadings, hnone]
    simp only [hrest]

end Runs

/-! ### Texts for targets -/

/-- Texts that settle do so one on each line. -/
theorem Settles.join {texts : List Text} {readings : List (List Reading)}
    (h : List.Forall₂ Settles texts readings) :
    Settles (Text.join ['\n'] texts) readings.flatten := by
  induction h with
  | nil => exact .nil
  | @cons text qs texts readings htext hrest ih =>
    cases hrest with
    | nil => simpa [Text.join] using htext
    | cons htext' hrest' =>
      rw [List.flatten_cons]
      simpa [Text.join] using (htext.append .newline).append ih

/-- Quoted targets are kept, and so are the commas between them. -/
theorem Kept.join {raws : List Text} (h : ∀ raw ∈ raws, IsQuoted raw) :
    Kept (Text.join ", ".toText raws) := by
  have hcomma : Kept ", ".toText := .of_plain (by decide)
  induction raws with
  | nil => exact .nil
  | cons raw raws ih =>
    have hraw := Kept.of_quoted (h raw (by simp))
    have hraws := ih fun r hr => h r (by simp [hr])
    cases raws with
    | nil => exact hraw
    | cons raw' raws => exact (hraw.append hcomma).append hraws

/-- Texts that end with visible characters do so together. -/
theorem getLast?_join (sep : Text) {texts : List Text} (hne : texts ≠ [])
    (h : ∀ t ∈ texts, ∃ c, t.getLast? = some c ∧ isBlank c = false) :
    ∃ c, (Text.join sep texts).getLast? = some c ∧ isBlank c = false := by
  induction texts with
  | nil => exact absurd rfl hne
  | cons t texts ih =>
    cases texts with
    | nil => exact h t (by simp)
    | cons t' texts =>
      obtain ⟨c, hlast, hblank⟩ := ih (by simp) fun u hu => h u (by simp [hu])
      refine ⟨c, ?_, hblank⟩
      rw [Text.join, List.getLast?_append, hlast]
      · rfl
      · simp

theorem IsQuoted.getLast? {t : Text} (h : IsQuoted t) :
    ∃ c, t.getLast? = some c ∧ isBlank c = false := by
  obtain ⟨quote, body, hquote, rfl, -⟩ := h
  refine ⟨quote, by rw [← List.cons_append, List.getLast?_append]; simp, ?_⟩
  obtain rfl | rfl := hquote <;> decide

/-- The import for quoted targets that are left in place settles to itself. -/
theorem settles_leftImport {run : List ImportTarget} (hne : run ≠ [])
    (h : ∀ target ∈ run, IsQuoted target.raw) :
    Settles ((leftImport run).text ++ [CodePoint.char ';']) [leftImport run] := by
  have hraws : ∀ raw ∈ run.map ImportTarget.raw, IsQuoted raw := by
    intro raw hraw
    obtain ⟨target, htarget, rfl⟩ := List.mem_map.mp hraw
    exact h target htarget
  have hkeyword : Kept "@import ".toText := .of_plain (by decide)
  have hkept : Kept (leftImport run).text := hkeyword.append (.join hraws)
  obtain ⟨quote, hlast, hblank⟩ :=
    getLast?_join ", ".toText (by simpa using hne) fun raw hraw => (hraws raw hraw).getLast?
  have hend : (leftImport run).text.getLast? = some quote := by
    simp only [leftImport, List.getLast?_append, hlast, Option.some_or]
  have hstart : (leftImport run).text.head? = some (.char '@') := rfl
  refine hkept.settles hstart (by decide) (by decide) (Text.strip_eq_self ?_ ?_)
  · rw [hstart]
    decide
  · rw [hend]
    intro c hc
    obtain rfl : quote = c := by simpa using hc
    exact hblank

/-- The texts so far settle, and the targets `run` have been left in place since the last of
them. -/
structure Replacement.Holds (r : Replacement) (run : List ImportTarget)
    (readings : List (List Reading)) : Prop where
  blocks : List.Forall₂ Settles r.blocks readings
  left : r.left = run.map ImportTarget.raw
  quoted : ∀ target ∈ run, IsQuoted target.raw

namespace Replacement.Holds

variable {r : Replacement} {run : List ImportTarget} {readings : List (List Reading)}

theorem start : Holds ⟨[], []⟩ [] [] := ⟨.nil, rfl, by simp⟩

theorem append {text : Text} {qs : List Reading} (h : r.Holds [] readings)
    (htext : Settles text qs) :
    Holds { r with blocks := r.blocks ++ [text] } [] (readings ++ [qs]) :=
  ⟨List.rel_append h.blocks (.cons htext .nil), h.left, h.quoted⟩

theorem flush (h : r.Holds run readings) : r.flush.Holds [] (readings ++ runReadings run) := by
  unfold Replacement.flush runReadings
  by_cases hrun : run = []
  · have hleft : r.left = [] := by simp [h.left, hrun]
    simp only [hrun, hleft, if_true, List.append_nil]
    exact ⟨h.blocks, hleft, by simp⟩
  · have hleft : r.left ≠ [] := by simpa [h.left] using hrun
    simp only [hrun, hleft, if_false]
    refine ⟨List.rel_append h.blocks (.cons ?_ .nil), rfl, by simp⟩
    have htext : (leftImport run).text = "@import ".toText ++ Text.join ", ".toText r.left := by
      rw [h.left]
      rfl
    rw [← htext]
    exact settles_leftImport hrun h.quoted

theorem text (h : r.Holds run readings) :
    Settles r.text (readings.flatten ++ (runReadings run).flatten) := by
  rw [← List.flatten_append]
  exact Settles.join h.flush.blocks

end Replacement.Holds

section Replacing

variable {place : Place} {known : KnownSources} {includePaths : List Text}

/-! ### The file that a target means -/

theorem findSpelling_cons_self (place : Place) (file wanted base : Text) (rest : List Text) :
    findSpelling place file wanted base (file :: rest) =
      findSpelling place file wanted base rest :=
  if_pos rfl

theorem findSpelling_cons_of_ne {file importer : Text} (h : file ≠ importer) (place : Place)
    (wanted base : Text) (rest : List Text) :
    findSpelling place importer wanted base (file :: rest) =
      fileSpellings place file base >>= fun spellings =>
        if wanted ∈ spellings then .ok (some file)
        else findSpelling place importer wanted base rest :=
  if_neg h

theorem findSpelling_spec (place : Place) {files : List Text} (h : [] ∉ files)
    (importer wanted base : Text) :
    ∃ found, findSpelling place importer wanted base files = .ok found ∧
      ∀ file ∈ found, file ∈ files := by
  induction files with
  | nil => exact ⟨none, rfl, by simp⟩
  | cons file rest ih =>
    obtain ⟨found, hfound, hmem⟩ := ih (by simp_all)
    have hmem' : ∀ other ∈ found, other ∈ file :: rest :=
      fun other hother => List.mem_cons_of_mem _ (hmem other hother)
    have hfile : file ≠ [] := by
      rintro rfl
      simp at h
    obtain ⟨spellings, hspellings⟩ :
        ∃ spellings, fileSpellings place file base = .ok spellings := by
      unfold fileSpellings
      rw [if_neg hfile]
      dsimp only
      split <;> exact ⟨_, rfl⟩
    by_cases himporter : file = importer
    · rw [himporter, findSpelling_cons_self]
      exact ⟨found, hfound, by rwa [himporter] at hmem'⟩
    · rw [findSpelling_cons_of_ne himporter, hspellings]
      by_cases hwanted : wanted ∈ spellings
      · exact ⟨some file, if_pos hwanted, by simp⟩
      · exact ⟨found, (if_neg hwanted).trans hfound, hmem'⟩

theorem findTarget_spec (place : Place) {files : List Text} (h : [] ∉ files)
    (importer wanted : Text) (bases : List Text) :
    ∃ found, findTarget place files importer wanted bases = .ok found ∧
      ∀ file ∈ found, file ∈ files := by
  induction bases with
  | nil => exact ⟨none, rfl, by simp⟩
  | cons base rest ih =>
    obtain ⟨found, hfound, hmem⟩ := findSpelling_spec place h importer wanted base
    simp only [findTarget, hfound]
    cases found with
    | some file => exact ⟨some file, rfl, hmem⟩
    | none => exact ih

/-- When every known file has a name, looking for the file that a target means does not fail, and
the file is a known one. -/
theorem targetFile_spec (hnames : [] ∉ Keyed.keys known) (file : Text) (target : ImportTarget) :
    targetFile place known includePaths file target =
        .ok (targetFile? place known includePaths file target) ∧
      ∀ other ∈ targetFile? place known includePaths file target, other ∈ Keyed.keys known := by
  have hspec : ∃ found, targetFile place known includePaths file target = .ok found ∧
      ∀ other ∈ found, other ∈ Keyed.keys known := by
    unfold targetFile
    split
    · exact findTarget_spec place hnames _ _ _
    · exact ⟨none, rfl, by simp⟩
  obtain ⟨found, hfound, hmem⟩ := hspec
  unfold targetFile?
  rw [hfound]
  exact ⟨rfl, hmem⟩

section Target

variable {inline : Text → Recorded Text} {file : Text} {target : ImportTarget} {r : Replacement}

theorem replaceTarget_left (h : targetFile place known includePaths file target = .ok none) :
    (replaceTarget place known includePaths inline file r target).outcome =
      .ok { r with left := r.left ++ [target.raw] } := by
  rw [replaceTarget, h]
  rfl

theorem replaceTarget_found (hnames : [] ∉ Keyed.keys known) {other text : Text}
    (h : targetFile? place known includePaths file target = some other)
    (htext : (inline other).outcome = .ok text) :
    (replaceTarget place known includePaths inline file r target).outcome =
      .ok { r.flush with blocks := r.flush.blocks ++ [text] } := by
  rw [replaceTarget, (targetFile_spec hnames file target).1, h]
  simp only [Recorded.outcome_bind, Recorded.outcome_lift, Except.bind, htext]
  rfl

end Target

/-- The targets of an import are replaced by a text that settles to their statements, when every
file that they mean is. -/
theorem replaceTargets_spec (hnames : [] ∉ Keyed.keys known) {inline : Text → Recorded Text}
    {content : Text → List Reading} {file : Text} {targets run : List ImportTarget}
    {r : Replacement} {readings : List (List Reading)} (hr : r.Holds run readings)
    (hrun : ∀ t ∈ run, targetFile? place known includePaths file t = none)
    (hquoted : ∀ t ∈ targets, IsQuoted t.raw)
    (hinline : ∀ t ∈ targets, ∀ other, targetFile? place known includePaths file t = some other →
      ∃ text, (inline other).outcome = .ok text ∧ Settles text (content other)) :
    ∃ r', (targets.foldlM (replaceTarget place known includePaths inline file) r).outcome =
        .ok r' ∧
      Settles r'.text (readings.flatten ++
        targetReadings (targetFile? place known includePaths file) content (run ++ targets)) := by
  -- `run` collects the targets left in place until a known file or the end closes the import
  induction targets generalizing run r readings with
  | nil =>
    refine ⟨r, rfl, ?_⟩
    rw [targetReadings_run hrun (by simp), targetReadings, List.append_nil]
    exact hr.text
  | cons target targets ih =>
    have hquoted' : ∀ t ∈ targets, IsQuoted t.raw := fun t ht => hquoted t (by simp [ht])
    have hinline' := fun t (ht : t ∈ targets) => hinline t (by simp [ht])
    cases hfile : targetFile? place known includePaths file target with
    | none =>
      have hr' : Replacement.Holds { r with left := r.left ++ [target.raw] } (run ++ [target])
          readings := by
        refine ⟨hr.blocks, by simp [hr.left], ?_⟩
        intro t ht
        obtain ht | ht := List.mem_append.mp ht
        · exact hr.quoted t ht
        · rw [List.mem_singleton.mp ht]
          exact hquoted target (by simp)
      have hrun' : ∀ t ∈ run ++ [target], targetFile? place known includePaths file t = none := by
        intro t ht
        obtain ht | ht := List.mem_append.mp ht
        · exact hrun t ht
        · rw [List.mem_singleton.mp ht, hfile]
      obtain ⟨r', hr', hsettles⟩ := ih hr' hrun' hquoted' hinline'
      refine ⟨r', ?_, by simpa using hsettles⟩
      have hleft := (targetFile_spec hnames file target).1.trans (congrArg _ hfile)
      rw [List.foldlM_cons, Recorded.outcome_bind, replaceTarget_left hleft]
      exact hr'
    | some other =>
      obtain ⟨text, htext, hcontent⟩ := hinline target (by simp) other hfile
      obtain ⟨r', hr', hsettles⟩ :=
        ih (hr.flush.append hcontent) (by simp) hquoted' hinline'
      refine ⟨r', ?_, ?_⟩
      · rw [List.foldlM_cons, Recorded.outcome_bind, replaceTarget_found hnames hfile htext]
        exact hr'
      · rw [targetReadings_run hrun (by simp [hfile]), targetReadings_found hfile]
        simpa using hsettles

/-! ## The whole tree -/

/-- Known sources that can be inlined: every file has a name, every source ends where it stands
between two statements outside of all blocks and imports only quoted paths, and no file is imported
by itself through others. -/
structure Inlinable (place : Place) (known : KnownSources) (includePaths : List Text) : Prop where
  named : [] ∉ Keyed.keys known
  selfContained : ∀ file source, Keyed.get? file known = some source → SelfContained source
  quoted : ∀ file source, Keyed.get? file known = some source →
    ∀ rule ∈ imports source, ∀ target ∈ rule.targets, IsQuoted target.raw
  acyclic : ∀ file, ¬Relation.TransGen (Inlines place known includePaths) file file

/-- The import tree below a file has one expansion. -/
theorem Expands.unique {file : Text} {readings readings' : List Reading}
    (h : Expands place known includePaths file readings)
    (h' : Expands place known includePaths file readings') : readings = readings' := by
  induction h generalizing readings' with
  | @file file source content hsource hcontent ih =>
    cases h' with
    | @file _ source' content' hsource' hcontent' =>
      obtain rfl : source = source' := Option.some.inj (hsource.symm.trans hsource')
      apply List.flatMap_congr
      intro s hs
      unfold Statement.expanded
      cases himport : s.import? with
      | none => rfl
      | some rule =>
        have hrule : rule ∈ imports source := List.mem_filterMap.mpr ⟨s, hs, himport⟩
        have hcongr : targetReadings (targetFile? place known includePaths file) content
              rule.targets =
            targetReadings (targetFile? place known includePaths file) content' rule.targets := by
          apply targetReadings_congr
          intro target htarget other hother
          have hedge : Inlines place known includePaths file other :=
            ⟨source, hsource, rule, hrule, target, htarget, hother⟩
          exact ih other hedge (hcontent' other hedge)
        simp only [hcongr]

theorem Inlines.mem_keys (h : [] ∉ Keyed.keys known) {file other : Text}
    (hedge : Inlines place known includePaths file other) : other ∈ Keyed.keys known := by
  obtain ⟨source, -, rule, -, target, -, hother⟩ := hedge
  exact (targetFile_spec h file target).2 other hother

/-- Different known files, each of which imports `file` through others. -/
structure ImportChain (place : Place) (known : KnownSources) (includePaths : List Text)
    (chain : List Text) (file : Text) : Prop where
  nodup : chain.Nodup
  subset : chain ⊆ Keyed.keys known
  above : ∀ other ∈ chain, Relation.TransGen (Inlines place known includePaths) other file

theorem ImportChain.nil (file : Text) : ImportChain place known includePaths [] file :=
  ⟨List.nodup_nil, List.nil_subset _, by simp⟩

theorem ImportChain.append {chain : List Text} {file other : Text}
    (h : ImportChain place known includePaths chain file) (hfile : file ∈ Keyed.keys known)
    (hnew : file ∉ chain) (hedge : Inlines place known includePaths file other) :
    ImportChain place known includePaths (chain ++ [file]) other := by
  refine ⟨?_, ?_, ?_⟩
  · refine List.nodup_append.mpr ⟨h.nodup, by simp, ?_⟩
    intro above habove last hlast heq
    rw [heq, List.mem_singleton.mp hlast] at habove
    exact hnew habove
  · exact List.append_subset.mpr ⟨h.subset, by simpa using hfile⟩
  · intro above habove
    obtain habove | habove := List.mem_append.mp habove
    · exact (h.above above habove).tail hedge
    · rw [List.mem_singleton.mp habove]
      exact .single hedge

section Within

variable {depth : Nat} {chain : List Text} {file : Text}

theorem inlineWithin_of_mem (h : file ∈ chain) :
    inlineWithin place known includePaths (depth + 1) chain file =
      throw (.cyclicImport (chain ++ [file])) :=
  if_pos h

theorem inlineWithin_of_unknown (hnew : file ∉ chain) (hnone : Keyed.get? file known = none) :
    inlineWithin place known includePaths (depth + 1) chain file = throw (.unknownFile file) :=
  (if_neg hnew).trans (by rw [hnone])

theorem inlineWithin_of_notMem (hnew : file ∉ chain) {source : Text}
    (hsource : Keyed.get? file known = some source) :
    inlineWithin place known includePaths (depth + 1) chain file =
      spliceFrom source (fun statement => do
        let r ← statement.targets.foldlM (replaceTarget place known includePaths
          (inlineWithin place known includePaths depth (chain ++ [file])) file) ⟨[], []⟩
        return r.text) 0 (imports source) :=
  (if_neg hnew).trans (by rw [hsource])

end Within

/-- Below a chain of files there are as many files left as `depth` allows, so that inlining comes to
an end. -/
theorem Inlinable.outcome_inlineWithin (h : Inlinable place known includePaths) {depth : Nat}
    {chain : List Text} {file : Text} (hfile : file ∈ Keyed.keys known)
    (hchain : ImportChain place known includePaths chain file)
    (hdepth : known.length < depth + chain.length) :
    ∃ text readings, (inlineWithin place known includePaths depth chain file).outcome = .ok text ∧
      Expands place known includePaths file readings ∧ Settles text readings := by
  induction depth generalizing chain file with
  | zero =>
    -- a chain of different known files cannot be longer than the list of them
    have hlength := hchain.nodup.length_le_of_subset hchain.subset
    simp only [Keyed.keys, List.length_map] at hlength
    omega
  | succ depth ih =>
    have hnew : file ∉ chain := fun hmem => h.acyclic file (hchain.above file hmem)
    obtain ⟨source, hsource⟩ := Keyed.exists_of_mem_keys hfile
    have hbelow : ∀ other, ∃ readings, Inlines place known includePaths file other →
        ∃ text, (inlineWithin place known includePaths depth (chain ++ [file]) other).outcome =
            .ok text ∧
          Expands place known includePaths other readings ∧ Settles text readings := by
      intro other
      by_cases hedge : Inlines place known includePaths file other
      · have hlength : known.length < depth + (chain ++ [file]).length := by
          rw [List.length_append, List.length_singleton]
          omega
        obtain ⟨text, readings, hother⟩ :=
          ih (hedge.mem_keys h.named) (hchain.append hfile hnew hedge) hlength
        exact ⟨readings, fun _ => ⟨text, hother⟩⟩
      · exact ⟨[], fun hedge' => absurd hedge' hedge⟩
    -- `Expands.file` asks for one expansion of each file below, chosen once for all imports
    choose content hcontent using hbelow
    have hmeant : ∀ rule ∈ imports source, ∀ target ∈ rule.targets, ∀ other,
        targetFile? place known includePaths file target = some other →
        ∃ text, (inlineWithin place known includePaths depth (chain ++ [file]) other).outcome =
            .ok text ∧
          Settles text (content other) := by
      intro rule hrule target htarget other hother
      obtain ⟨text, htext, -, hsettles⟩ :=
        hcontent other ⟨source, hsource, rule, hrule, target, htarget, hother⟩
      exact ⟨text, htext, hsettles⟩
    -- the text is total in the rule, as `splicedFrom` wants it; elsewhere it does not matter
    have hreplaced : ∀ rule, ∃ text, rule ∈ imports source →
        (do
          let r ← rule.targets.foldlM (replaceTarget place known includePaths
            (inlineWithin place known includePaths depth (chain ++ [file])) file) ⟨[], []⟩
          return r.text : Recorded Text).outcome = .ok text ∧
        Settles text (targetReadings (targetFile? place known includePaths file) content
          rule.targets) := by
      intro rule
      by_cases hrule : rule ∈ imports source
      · obtain ⟨r, hr, hsettles⟩ := replaceTargets_spec h.named .start (by simp)
          (h.quoted file source hsource rule hrule) (hmeant rule hrule)
        refine ⟨r.text, fun _ => ⟨?_, hsettles⟩⟩
        rw [Recorded.outcome_bind, hr]
        rfl
      · exact ⟨[], fun hrule' => absurd hrule' hrule⟩
    choose text htext using hreplaced
    refine ⟨splicedFrom source text 0 (imports source), _, ?_,
      .file content hsource fun other hedge => (hcontent other hedge).choose_spec.2.1,
      settles_splicedFrom (h.selfContained file source hsource) fun rule hrule =>
        (htext rule hrule).2⟩
    rw [inlineWithin_of_notMem hnew hsource]
    exact outcome_spliceFrom (fun rule hrule => (htext rule hrule).1) 0

/-- The statements of a file whose imports have been inlined are those of its import tree. -/
theorem inlineImports_expands (h : Inlinable place known includePaths) {entry : Text}
    (hentry : entry ∈ Keyed.keys known) :
    ∃ text, (inlineImports place known includePaths entry).outcome = .ok text ∧
      ∀ readings, Expands place known includePaths entry readings ↔
        readings = (statements text).map Statement.reading := by
  obtain ⟨text, readings, htext, hexpands, hsettles⟩ :=
    h.outcome_inlineWithin hentry (.nil entry) (Nat.lt_succ_self known.length)
  have hread : (statements text).map Statement.reading = readings := by
    obtain ⟨hadvance, hclosed⟩ := hsettles 0 [] none rfl
    have hend : Scanner.start.advance none text = .between (0 + text.length) [] := hadvance
    have hlast : (Scanner.between (0 + text.length) []).emit
        (Scanner.between (0 + text.length) []).offset = [] := rfl
    rw [statements, Scanner.scan_eq, hend, hlast, List.append_nil]
    exact hclosed.trans (List.map_id'' Reading.deepen_zero readings)
  refine ⟨text, htext, fun readings' => ⟨fun h' => ?_, fun h' => ?_⟩⟩
  · rw [hread]
    exact h'.unique hexpands
  · rw [h', hread]
    exact hexpands

end Replacing

/-- Files whose imports lead to files of lower rank are not imported by themselves. -/
theorem Inlinable.of_rank {place : Place} {known : KnownSources} {includePaths : List Text}
    (rank : Text → Nat) (hnames : [] ∉ Keyed.keys known)
    (h : ∀ entry ∈ known, SelfContained entry.2 ∧ ∀ rule ∈ imports entry.2,
      ∀ target ∈ rule.targets, IsQuoted target.raw ∧
        ∀ other ∈ targetFile? place known includePaths entry.1 target,
          rank other < rank entry.1) : Inlinable place known includePaths := by
  have hlower : ∀ file other, Relation.TransGen (Inlines place known includePaths) file other →
      rank other < rank file := by
    intro file other hpath
    have hedge : ∀ file other, Inlines place known includePaths file other →
        rank other < rank file := by
      rintro file other ⟨source, hsource, rule, hrule, target, htarget, hother⟩
      exact ((h _ (Keyed.mem_of_get? hsource)).2 rule hrule target htarget).2 other hother
    induction hpath with
    | single hlast => exact hedge _ _ hlast
    | tail _ hlast ih => exact Nat.lt_trans (hedge _ _ hlast) ih
  exact ⟨hnames, fun file source hsource => (h _ (Keyed.mem_of_get? hsource)).1,
    fun file source hsource rule hrule target htarget =>
      ((h _ (Keyed.mem_of_get? hsource)).2 rule hrule target htarget).1,
    fun file hcycle => Nat.lt_irrefl _ (hlower file file hcycle)⟩

/-- The place of the samples. -/
def rootPlace : Place := .alone ⟨.slash, []⟩ ⟨.slash, []⟩

/-- Three files, the first of which imports the second together with a file that is not known, and
the second of which imports the third in a block. -/
def sampleSources : KnownSources :=
  [("/main.scss".toText, "@import \"ab\", 'other';\n$m: 1;\n".toText),
    ("/ab.scss".toText, "p \x7b color: red; @import 'c' \x7d\n".toText),
    ("/c.scss".toText, "// nothing else\n$c: 2;\n".toText)]

theorem inlineImports_sample :
    Inlinable rootPlace sampleSources [] ∧
    "/main.scss".toText ∈ Keyed.keys sampleSources ∧
    ∃ text, (inlineImports rootPlace sampleSources []
        "/main.scss".toText).outcome = .ok text ∧
      ∀ readings, Expands rootPlace sampleSources [] "/main.scss".toText
        readings ↔ readings = (statements text).map Statement.reading := by
  have hsources : Inlinable rootPlace sampleSources [] :=
    .of_rank List.length (by decide +kernel) (by decide +kernel)
  have hentry : "/main.scss".toText ∈ Keyed.keys sampleSources := by decide +kernel
  exact ⟨hsources, hentry, inlineImports_expands hsources hentry⟩

example : ((inlineImports rootPlace sampleSources []
      "/main.scss".toText).outcome.map fun text =>
        (statements text).map Statement.reading).toOption =
    some [⟨"color: red".toText, 1, true⟩, ⟨"$c: 2".toText, 1, true⟩,
      ⟨"@import 'other'".toText, 0, true⟩, ⟨"$m: 1".toText, 0, true⟩] := by
  decide +kernel

end StyleVars
