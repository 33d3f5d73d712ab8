import StyleVars.Path.Lookup
import StyleVars.Path.Spelling
import StyleVars.Proofs.PathTexts
import StyleVars.Proofs.StatementTexts
import Mathlib.Data.List.Basic

/-!
# Spellings of relative paths

A relative path that goes up before it goes down is spelled as itself, without the ending of a sheet
and without the underscore of a partial at the start of its last part (`spelling_writtenPath`).
-/

namespace StyleVars

open StyleVars.Path

/-! ## Endings -/

theorem dropEnd?_append (t suf : Text) : Text.dropEnd? suf (t ++ suf) = some t := by
  have hsuffix : suf.isSuffixOf (t ++ suf) :=
    List.isSuffixOf_iff_suffix.mpr (List.suffix_append t suf)
  rw [Text.dropEnd?, if_pos hsuffix, List.length_append, Nat.add_sub_cancel, List.take_left]

theorem dropEnd?_eq_none {t suf : Text} (h : ¬suf <:+ t) : Text.dropEnd? suf t = none :=
  if_neg fun hsuffix => h (List.isSuffixOf_iff_suffix.mp hsuffix)

/-- A text that ends with the ending of a sheet ends with no other one. -/
theorem not_suffix_of_mem {other ending : Text} (hother : other ∈ sheetExtensions)
    (hending : ending ∈ sheetExtensions) (hne : other ≠ ending) (t : Text) :
    ¬other <:+ t ++ ending := by
  have hapart : ∀ a ∈ sheetExtensions, ∀ b ∈ sheetExtensions, a ≠ b → ¬a <:+ b := by decide
  intro hsuffix
  obtain h | h := List.suffix_or_suffix_of_suffix hsuffix (List.suffix_append t ending)
  · exact hapart other hother ending hending hne h
  · exact hapart ending hending other hother hne.symm h

/-- The ending of a sheet is stripped. -/
theorem stripExtension_append {ending : Text} (h : ending ∈ sheetExtensions) (t : Text) :
    stripExtension (t ++ ending) = t := by
  have hfound : sheetExtensions.findSome? (fun e => Text.dropEnd? e (t ++ ending)) = some t := by
    obtain ⟨before, after, hsplit, hnot⟩ := List.eq_append_cons_of_mem h
    refine List.findSome?_eq_some_iff.mpr
      ⟨before, ending, after, hsplit, dropEnd?_append t ending, fun other hother => ?_⟩
    have hmem : other ∈ sheetExtensions := hsplit ▸ List.mem_append_left _ hother
    have hne : other ≠ ending := fun heq => hnot (heq ▸ hother)
    exact dropEnd?_eq_none (not_suffix_of_mem hmem h hne t)
  rw [stripExtension, hfound, Option.getD_some]

/-- Nothing is stripped where there is no ending. -/
theorem stripExtension_eq_self_iff {t : Text} :
    stripExtension t = t ↔ ∀ ending ∈ sheetExtensions, ¬ending <:+ t := by
  constructor
  · rintro h ending hending ⟨u, rfl⟩
    rw [stripExtension_append hending] at h
    have hlength := congrArg List.length h
    rw [List.length_append] at hlength
    have hpos : ∀ e ∈ sheetExtensions, 0 < e.length := by decide
    have hlong := hpos ending hending
    omega
  · intro h
    have hnone : sheetExtensions.findSome? (fun e => Text.dropEnd? e t) = none :=
      List.findSome?_eq_none_iff.mpr fun e he => dropEnd?_eq_none (h e he)
    rw [stripExtension, hnone, Option.getD_none]

theorem stripExtension_cases (t : Text) :
    (∃ ending ∈ sheetExtensions, stripExtension t ++ ending = t) ∨ stripExtension t = t := by
  by_cases hends : ∃ ending ∈ sheetExtensions, ending <:+ t
  · obtain ⟨ending, hending, stem, rfl⟩ := hends
    exact .inl ⟨ending, hending, by rw [stripExtension_append hending]⟩
  · simp only [not_exists, not_and] at hends
    exact .inr (stripExtension_eq_self_iff.mpr hends)

theorem stripExtension_prefix_self (t : Text) : stripExtension t <+: t := by
  obtain ⟨ending, -, h⟩ | h := stripExtension_cases t
  · exact ⟨ending, h⟩
  · exact ⟨[], by rw [List.append_nil, h]⟩

/-- What stands in front of a character that is in no ending has nothing to do with the ending. -/
theorem stripExtension_append_cons {c : CodePoint} (hc : ∀ ending ∈ sheetExtensions, c ∉ ending)
    (before rest : Text) :
    stripExtension (before ++ c :: rest) = before ++ c :: stripExtension rest := by
  obtain ⟨ending, hending, h⟩ | hself := stripExtension_cases rest
  · have hwhole : before ++ c :: rest = (before ++ c :: stripExtension rest) ++ ending := by
      rw [List.append_assoc, List.cons_append, h]
    rw [hwhole, stripExtension_append hending]
  · rw [hself, stripExtension_eq_self_iff]
    rw [stripExtension_eq_self_iff] at hself
    intro ending hending hsuffix
    obtain h | h := List.suffix_or_suffix_of_suffix hsuffix (List.suffix_append before (c :: rest))
    · obtain heq | h := List.suffix_cons_iff.mp h
      · exact hc ending hending (heq ▸ List.mem_cons_self)
      · exact hself ending hending h
    · exact hc ending hending (h.subset List.mem_cons_self)

theorem stripExtension_concat (parts : List Text) (last : Text) :
    stripExtension (parts.flatMap (· ++ [.char '/']) ++ last) =
      parts.flatMap (· ++ [.char '/']) ++ stripExtension last := by
  have hslash : ∀ ending ∈ sheetExtensions, CodePoint.char '/' ∉ ending := by decide
  rcases List.eq_nil_or_concat' parts with rfl | ⟨before, folder, rfl⟩
  · rfl
  · have h := stripExtension_append_cons hslash (before.flatMap (· ++ [.char '/']) ++ folder) last
    simpa using h

theorem splitLast_of_notMem {sep : CodePoint} {t : Text} (h : sep ∉ t) :
    Text.splitLast sep t = none := by
  induction t with
  | nil => rfl
  | cons c rest ih =>
    have hc : c ≠ sep := fun heq => h (heq ▸ List.mem_cons_self)
    rw [Text.splitLast, ih fun hmem => h (List.mem_cons_of_mem _ hmem)]
    exact if_neg hc

theorem splitLast_append {sep : CodePoint} {b : Text} (h : sep ∉ b) (a : Text) :
    Text.splitLast sep (a ++ sep :: b) = some (a, b) := by
  induction a with
  | nil =>
    rw [List.nil_append, Text.splitLast, splitLast_of_notMem h]
    exact if_pos rfl
  | cons c a ih => rw [List.cons_append, Text.splitLast, ih]

theorem eq_of_splitLast {sep : CodePoint} {t a b : Text} (h : Text.splitLast sep t = some (a, b)) :
    t = a ++ sep :: b := by
  induction t generalizing a with
  | nil => simp [Text.splitLast] at h
  | cons c rest ih =>
    rw [Text.splitLast] at h
    split at h
    · rename_i a' b' hrest
      simp only [Option.some.injEq, Prod.mk.injEq] at h
      obtain ⟨rfl, rfl⟩ := h
      rw [ih hrest, List.cons_append]
    · split_ifs at h with hc
      simp only [Option.some.injEq, Prod.mk.injEq] at h
      obtain ⟨rfl, rfl⟩ := h
      rw [hc, List.nil_append]

theorem extension_suffix (name : Text) : extension name <:+ name := by
  unfold extension
  split
  · rename_i stem ending hsplit
    split_ifs
    · exact List.nil_suffix
    · exact ⟨stem, (eq_of_splitLast hsplit).symm⟩
  · exact List.nil_suffix

/-- The extension of a name with an ending is the ending. -/
theorem extension_append {name : Text} (hname : name ≠ []) {rest : Text} (hrest : rest ≠ [])
    (hdot : CodePoint.char '.' ∉ rest) :
    extension (name ++ .char '.' :: rest) = .char '.' :: rest := by
  rw [extension, splitLast_append hdot]
  exact if_neg (by simp [hname, hrest])

/-! ## Texts of relative paths -/

/-- References to the current directory do not count. -/
theorem ofText_flatten {t : Text} (h : rootOf t = .relative) (count : Nat) :
    rootOf ((List.replicate count [CodePoint.char '.', .char '/']).flatten ++ t) = .relative ∧
      ofText ((List.replicate count [CodePoint.char '.', .char '/']).flatten ++ t) = ofText t := by
  have hstep : ∀ {u : Text}, rootOf u = .relative →
      ofText (.char '.' :: .char '/' :: u) = ofText u := by
    intro u hu
    have hsplit : Text.splitOn '/' (.char '.' :: .char '/' :: u) =
        [.char '.'] :: Text.splitOn '/' u :=
      Text.splitOn_append_sep '/' [.char '.'] u
    rw [ofText, ofText, hsplit, hu]
    rfl
  induction count with
  | zero => exact ⟨h, rfl⟩
  | succ count ih =>
    rw [List.replicate_succ, List.flatten_cons, List.append_assoc]
    exact ⟨rfl, (hstep ih.1).trans ih.2⟩

theorem join_concat (parts : List Text) (last : Text) :
    Text.join ['/'] (parts ++ [last]) = parts.flatMap (· ++ [.char '/']) ++ last := by
  induction parts with
  | nil => rfl
  | cons first rest ih =>
    have hne : rest ++ [last] ≠ [] := by simp
    obtain ⟨second, others, hrest⟩ := List.exists_cons_of_ne_nil hne
    rw [List.cons_append, hrest, Text.join, ← hrest, ih]
    · simp
    · simp

/-- A path as it is written: references to the current directory, folders, and what follows the last
slash. -/
def writtenPath (currents : Nat) (folders : List Text) (last : Text) : Text :=
  (List.replicate currents [CodePoint.char '.', .char '/']).flatten ++
    (folders.flatMap (· ++ [.char '/']) ++ last)

theorem toText_concat (parts : List Text) (last : Text) :
    (⟨.relative, parts ++ [last]⟩ : Path).toText = writtenPath 0 parts last := by
  rw [toText, if_neg (by simp), join_concat]
  rfl

section Written

variable {folders : List Text} {last : Text}

theorem splitOn_concat (hfolders : ∀ folder ∈ folders, IsPart folder)
    (hlast : CodePoint.char '/' ∉ last) :
    Text.splitOn '/' (folders.flatMap (· ++ [.char '/']) ++ last) = folders ++ [last] := by
  rw [← join_concat]
  refine Text.splitOn_join (by simp) fun piece hpiece => ?_
  obtain hpiece | hpiece := List.mem_append.mp hpiece
  · exact (hfolders piece hpiece).2
  · exact List.mem_singleton.mp hpiece ▸ hlast

theorem splitOn_toText (hfolders : ∀ folder ∈ folders, IsPart folder)
    (hlast : CodePoint.char '/' ∉ last) :
    Text.splitOn '/' (⟨.relative, folders ++ [last]⟩ : Path).toText = folders ++ [last] := by
  rw [toText_concat]
  exact splitOn_concat hfolders hlast

/-- What stands before the first slash is a folder. -/
theorem mem_of_concat_eq (hfolders : ∀ folder ∈ folders, IsPart folder)
    (hlast : CodePoint.char '/' ∉ last) {piece rest : Text} (hpiece : CodePoint.char '/' ∉ piece)
    (h : folders.flatMap (· ++ [.char '/']) ++ last = piece ++ .char '/' :: rest) :
    piece ∈ folders := by
  have hsplit := splitOn_concat hfolders hlast
  rw [h, Text.splitOn_append_sep, Text.splitOn_of_notMem hpiece, List.singleton_append] at hsplit
  cases folders with
  | nil => exact absurd (List.cons.inj hsplit).2 (Text.splitOn_ne_nil _ _)
  | cons first others => exact (List.cons.inj hsplit).1 ▸ List.mem_cons_self

/-- Folders and what follows them are read part by part. -/
theorem ofText_concat (hfolders : ∀ folder ∈ folders, IsPart folder)
    (hlast : CodePoint.char '/' ∉ last) :
    ofText (folders.flatMap (· ++ [.char '/']) ++ last) =
      ⟨.relative, folders ++ [last].filter isPart⟩ := by
  have hhead : (folders.flatMap (· ++ [CodePoint.char '/']) ++ last).head? ≠ some (.char '/') := by
    intro heq
    obtain ⟨rest, hrest⟩ := List.head?_eq_some_iff.mp heq
    exact (hfolders [] (mem_of_concat_eq hfolders hlast List.not_mem_nil hrest)).ne_nil rfl
  have hroot := rootOf_append .relative hhead
  rw [Root.text, List.nil_append] at hroot
  rw [ofText, hroot, splitOn_concat hfolders hlast, List.filter_append,
    List.filter_eq_self.mpr fun folder hfolder => (hfolders folder hfolder).1]

/-- A relative path does not start with a reference to the current directory. -/
theorem dropCurrent_concat (hfolders : ∀ folder ∈ folders, IsPart folder)
    (hlast : CodePoint.char '/' ∉ last) :
    dropCurrent (folders.flatMap (· ++ [.char '/']) ++ last) =
      folders.flatMap (· ++ [.char '/']) ++ last := by
  unfold dropCurrent
  split
  · rename_i rest heq
    have hdot := hfolders [.char '.'] (mem_of_concat_eq hfolders hlast (by decide) heq)
    exact absurd hdot.1 (by decide)
  · rfl

end Written

theorem dropCurrent_flatten (count : Nat) (t : Text) :
    dropCurrent ((List.replicate count [CodePoint.char '.', .char '/']).flatten ++ t) =
      dropCurrent t := by
  induction count with
  | zero => rfl
  | succ count ih =>
    rw [List.replicate_succ, List.flatten_cons, List.append_assoc]
    exact ih

/-- The text has no white space at its ends. -/
def IsTrimmed (t : Text) : Prop :=
  (∀ c ∈ t.head?, isBlank c = false) ∧ ∀ c ∈ t.getLast?, isBlank c = false

instance : DecidablePred IsTrimmed := fun _ => inferInstanceAs (Decidable (_ ∧ _))

theorem isTrimmed_up : IsTrimmed up := by decide

theorem IsTrimmed.strip {t : Text} (h : IsTrimmed t) : Text.strip t = t :=
  Text.strip_eq_self h.1 h.2

theorem isTrimmed_iff {t : Text} : IsTrimmed t ↔ Text.strip t = t := by
  refine ⟨IsTrimmed.strip, fun h => ⟨Text.head?_of_strip_eq_self h, fun c hc => ?_⟩⟩
  have hne : Text.strip t ≠ [] := by
    rintro hnil
    rw [h] at hnil
    simp [hnil] at hc
  obtain ⟨d, hd, hvisible⟩ := Text.getLast?_strip hne
  rw [h, Option.mem_def.mp hc] at hd
  exact Option.some.inj hd ▸ hvisible

/-- White space at the ends of a path whose folders have none is that behind the last slash, and at
its start there is some only when no slash stands in front of it. -/
theorem strip_writtenPath {folders : List Text}
    (hfolders : ∀ folder ∈ folders, IsPart folder ∧ IsTrimmed folder) (currents : Nat)
    (last : Text) :
    ∃ before kept after, last = before ++ (kept ++ after) ∧
      Text.strip (writtenPath currents folders last) = writtenPath currents folders kept ∧
      (∀ c ∈ before, isBlank c) ∧ (∀ c ∈ after, isBlank c) ∧
      (before ≠ [] → currents = 0 ∧ folders = []) := by
  have hwritten : ∀ rest, writtenPath currents folders rest =
      (List.replicate currents [CodePoint.char '.'] ++ folders).flatMap (· ++ [.char '/']) ++
        rest := by
    intro rest
    simp [writtenPath, List.flatMap_def]
  have hpieces : ∀ piece ∈ List.replicate currents [CodePoint.char '.'] ++ folders,
      piece ≠ [] ∧ IsTrimmed piece := by
    intro piece hpiece
    obtain hpiece | hpiece := List.mem_append.mp hpiece
    · rw [(List.mem_replicate.mp hpiece).2]
      decide
    · exact ⟨(hfolders piece hpiece).1.ne_nil, (hfolders piece hpiece).2⟩
  rcases List.eq_nil_or_concat' (List.replicate currents [CodePoint.char '.'] ++ folders) with
    hnone | ⟨init, piece, hconcat⟩
  · obtain ⟨before, after, hlast, hbefore, hafter⟩ := Text.exists_strip last
    have hempty : ∀ rest, writtenPath currents folders rest = rest := by
      intro rest
      rw [hwritten, hnone]
      rfl
    refine ⟨before, Text.strip last, after, hlast, ?_, hbefore, hafter, fun _ => ?_⟩
    · rw [hempty, hempty]
    · simpa using hnone
  · obtain ⟨after, hlast, hafter, -⟩ := Text.stripRight_spec last
    have hslash : ∀ rest, writtenPath currents folders rest =
        (init.flatMap (· ++ [.char '/']) ++ piece) ++ .char '/' :: rest := by
      intro rest
      rw [hwritten, hconcat]
      simp
    have hhead : ∀ c ∈ (init.flatMap (· ++ [CodePoint.char '/']) ++ piece).head?,
        isBlank c = false := by
      rw [hconcat] at hpieces
      cases init with
      | nil => exact (hpieces piece (by simp)).2.1
      | cons first others =>
        obtain ⟨hne, hfirst, -⟩ := hpieces first (by simp)
        obtain ⟨c, more, rfl⟩ := List.exists_cons_of_ne_nil hne
        simpa using hfirst
    refine ⟨[], Text.stripRight last, after, hlast, ?_, nofun, hafter, fun h => absurd rfl h⟩
    rw [hslash, hslash, Text.strip_append_cons hhead (by decide : isBlank '/' = false)]

/-- The path has no white space at its ends when what follows its last slash has none. -/
theorem isTrimmed_writtenPath {folders : List Text}
    (hfolders : ∀ folder ∈ folders, IsPart folder ∧ IsTrimmed folder) (currents : Nat)
    {last : Text} (hlast : IsTrimmed last) : IsTrimmed (writtenPath currents folders last) := by
  obtain ⟨before, kept, after, rfl, hstrip, hbefore, hafter, -⟩ :=
    strip_writtenPath hfolders currents last
  have hnone : before = [] := by
    cases before with
    | nil => rfl
    | cons c rest =>
      exact absurd (hbefore c List.mem_cons_self) (by simp [hlast.1 c (by simp)])
  have hnone' : after = [] := by
    rcases List.eq_nil_or_concat' after with rfl | ⟨rest, c, rfl⟩
    · rfl
    · exact absurd (hafter c (by simp)) (by simp [hlast.2 c (by simp [← List.append_assoc])])
  rw [hnone, hnone', List.append_nil] at hstrip ⊢
  exact isTrimmed_iff.mpr hstrip

/-- The name without the underscore of a partial. -/
def dropMark : Text → Text
  | '_' :: rest => rest
  | t => t

theorem dropPartialMark_concat (parts : List Text) (last : Text) :
    dropPartialMark ⟨.relative, parts ++ [last]⟩ = ⟨.relative, parts ++ [dropMark last]⟩ := by
  have hname : (⟨.relative, parts ++ [last]⟩ : Path).name = last := by simp [Path.name]
  unfold dropPartialMark
  rw [hname]
  split
  · simp [parent, child, dropMark]
  · rename_i hnot
    have hlast : dropMark last = last := by
      unfold dropMark
      split
      · exact absurd rfl (hnot _)
      · rfl
    rw [hlast]

theorem dropMark_eq_iff {stem name : Text} (h : name.head? ≠ some (.char '_')) :
    dropMark stem = name ↔ stem = name ∨ stem = .char '_' :: name := by
  unfold dropMark
  split
  · rename_i rest
    constructor
    · rintro rfl
      exact .inr rfl
    · rintro (rfl | heq)
      · exact absurd rfl h
      · exact (List.cons.inj heq).2
  · rename_i hnot
    refine ⟨.inl, ?_⟩
    rintro (rfl | rfl)
    · rfl
    · exact absurd rfl (hnot name)

/-! ## Names with endings -/

theorem isName_append {core ending : Text} (h : IsName core)
    (hending : ending ∈ sheetExtensions ∨ ending = []) : IsName (core ++ ending) := by
  obtain hending | rfl := hending
  · have hslash : ∀ e ∈ sheetExtensions, CodePoint.char '/' ∉ e ∧ 3 < e.length := by decide
    obtain ⟨hnot, hlong⟩ := hslash ending hending
    have hlength : 3 < (core ++ ending).length := by
      rw [List.length_append]
      omega
    have hne : ∀ t : Text, t.length ≤ 3 → core ++ ending ≠ t := by
      rintro t ht rfl
      omega
    refine ⟨⟨?_, ?_⟩, hne up (by decide)⟩
    · simp only [isPart, ne_eq, Bool.and_eq_true, decide_eq_true_eq]
      exact ⟨hne [] (by decide), hne [.char '.'] (by decide)⟩
    · rw [List.mem_append, not_or]
      exact ⟨h.1.2, hnot⟩
  · rwa [List.append_nil]

theorem isName_mark {name : Text} (h : IsName name) : IsName (.char '_' :: name) := by
  refine ⟨⟨by simp [isPart, h.1.ne_nil], ?_⟩, fun heq => ?_⟩
  · rw [List.mem_cons, not_or]
    exact ⟨by decide, h.1.2⟩
  · exact absurd (List.cons.inj heq).1 (by decide)

theorem isTrimmed_append {stem ending : Text} (hne : stem ≠ []) (hstem : IsTrimmed stem)
    (hending : ending ∈ sheetExtensions ∨ ending = []) : IsTrimmed (stem ++ ending) := by
  obtain ⟨c, rest, rfl⟩ := List.exists_cons_of_ne_nil hne
  obtain hending | rfl := hending
  · have hends : ∀ e ∈ sheetExtensions, e ≠ [] ∧ IsTrimmed e := by decide
    obtain ⟨hnonempty, -, hlast⟩ := hends ending hending
    exact ⟨hstem.1, by rwa [List.getLast?_append_of_ne_nil _ hnonempty]⟩
  · rwa [List.append_nil]

theorem isName_of_dropMark {stem : Text} (h : IsName (dropMark stem)) : IsName stem := by
  unfold dropMark at h
  split at h
  · exact isName_mark h
  · exact h

/-- The parts of a path that goes up and then down to trimmed names. -/
theorem isTrimmed_of_mem_ups_append {names : List Text}
    (h : ∀ name ∈ names, IsName name ∧ IsTrimmed name) (count : Nat) :
    ∀ part ∈ List.replicate count up ++ names, IsPart part ∧ IsTrimmed part := by
  intro part hpart
  obtain hpart | hpart := List.mem_append.mp hpart
  · exact ⟨isPart_of_mem_ups hpart, (List.mem_replicate.mp hpart).2 ▸ isTrimmed_up⟩
  · exact ⟨(h part hpart).1.1, (h part hpart).2⟩

/-- How a path is spelled that is written with folders, whatever follows them. -/
theorem spelling_of_strip {t : Text} {currents : Nat} {folders : List Text} {last : Text}
    (hfolders : ∀ folder ∈ folders, IsPart folder) (hlast : CodePoint.char '/' ∉ last)
    (ht : Text.strip t = writtenPath currents folders last) :
    spelling t = dropPartialMark
      (⟨.relative, folders ++ [stripExtension last].filter isPart⟩ : Path).collapse := by
  have hstripped : CodePoint.char '/' ∉ stripExtension last :=
    fun h => hlast ((stripExtension_prefix_self last).subset h)
  rw [spelling, ht, writtenPath, dropCurrent_flatten, dropCurrent_concat hfolders hlast,
    stripExtension_concat, ofText_concat hfolders hstripped]

/-- A path is spelled without the ending of a sheet and without the underscore of a partial. -/
theorem spelling_writtenPath (count : Nat) {names : List Text} {core ending : Text}
    (hnames : ∀ name ∈ names, IsName name) (hcore : IsName core)
    (hending : ending ∈ sheetExtensions ∨ ending = [] ∧ stripExtension core = core) {t : Text}
    {currents : Nat}
    (ht : Text.strip t = writtenPath currents (List.replicate count up ++ names) (core ++ ending)) :
    spelling t = ⟨.relative, (List.replicate count up ++ names) ++ [dropMark core]⟩ := by
  have hfolders : ∀ folder ∈ List.replicate count up ++ names, IsPart folder := by
    intro folder hfolder
    obtain hfolder | hfolder := List.mem_append.mp hfolder
    · exact isPart_of_mem_ups hfolder
    · exact (hnames folder hfolder).1
  have hlast : IsName (core ++ ending) := isName_append hcore (hending.imp_right And.left)
  have hstem : stripExtension (core ++ ending) = core := by
    obtain hending | ⟨rfl, hself⟩ := hending
    · exact stripExtension_append hending core
    · rw [List.append_nil, hself]
  have hdown : ∀ name ∈ names ++ [core], name ≠ up := by
    intro name hname
    obtain hname | hname := List.mem_append.mp hname
    · exact (hnames name hname).2
    · exact List.mem_singleton.mp hname ▸ hcore.2
  rw [spelling_of_strip hfolders hlast.1.2 ht, hstem, List.filter_cons_of_pos hcore.1.1,
    List.filter_nil, List.append_assoc, collapse_relative hdown, ← List.append_assoc,
    dropPartialMark_concat]

theorem spelling_toText (count : Nat) {names : List Text} {core ending : Text}
    (hnames : ∀ name ∈ names, IsName name ∧ IsTrimmed name) (hcore : IsName core)
    (hending : ending ∈ sheetExtensions ∨ ending = [] ∧ stripExtension core = core)
    (htrimmed : IsTrimmed (core ++ ending)) :
    spelling (⟨.relative, (List.replicate count up ++ names) ++ [core ++ ending]⟩ : Path).toText =
      ⟨.relative, (List.replicate count up ++ names) ++ [dropMark core]⟩ := by
  rw [toText_concat]
  exact spelling_writtenPath count (fun name hname => (hnames name hname).1) hcore hending
    (isTrimmed_writtenPath (isTrimmed_of_mem_ups_append hnames count) 0 htrimmed).strip

theorem spelling_ups (count : Nat) :
    spelling (⟨.relative, List.replicate count up⟩ : Path).toText =
      ⟨.relative, List.replicate count up⟩ := by
  cases count with
  | zero => rfl
  | succ count =>
    have hnone : ∀ name ∈ ([] : List Text), IsName name ∧ IsTrimmed name := nofun
    have hparts := isTrimmed_of_mem_ups_append hnone count
    rw [List.append_nil] at hparts
    have hup : [stripExtension up].filter isPart = [up] := by decide
    have hcollapse := collapse_relative (fun name hname => (hnone name hname).1.2) (count + 1)
    rw [List.append_nil, List.replicate_succ'] at hcollapse
    rw [List.replicate_succ', toText_concat, spelling_of_strip (fun part h => (hparts part h).1)
      isPart_up.2 (isTrimmed_writtenPath hparts 0 isTrimmed_up).strip, hup, hcollapse,
      dropPartialMark_concat]
    rfl

/-! ## Absolute paths -/

theorem absolute_of_isAbsolute (place : Place) {p : Path} (h : p.isAbsolute) :
    place.absolute p = p.collapse := by
  rw [Place.absolute, join, if_pos h]

/-- The normal form of a path below a root. -/
theorem normalForm_of_isAbsolute (place : Place) {q : Path} (h : q.isAbsolute) :
    place.normalForm q = .ok q.collapse := by
  have hexpand : place.expandHome q = .ok q := by
    unfold Place.expandHome
    split
    · rename_i hroot _
      simp [isAbsolute, hroot] at h
    · rfl
  rw [Place.normalForm, hexpand, ← absolute_of_isAbsolute place h]
  rfl

/-- The text of a path below a root is read as one. -/
theorem isAbsolute_ofText_toText {p : Path} (h : p.isAbsolute) : (ofText p.toText).isAbsolute := by
  have hread : ∀ rest, (ofText (.char '/' :: rest)).isAbsolute := by
    intro rest
    rw [isAbsolute, ofText, rootOf.eq_def]
    split <;> simp_all
  obtain ⟨root, parts⟩ := p
  cases root with
  | relative => exact absurd h (by simp [isAbsolute])
  | slash => exact hread _
  | doubleSlash => exact hread _

theorem directoryText_append {c : CodePoint} {last : Text} (hc : c ≠ '/')
    (hlast : CodePoint.char '/' ∉ last) (before : Text) :
    directoryText (before ++ [c] ++ .char '/' :: last) = before ++ [c] := by
  rw [directoryText, splitLast_append hlast]
  simp [hc, Text.trimRight]

/-- The text before the last slash is that of the path without its last part. -/
theorem directoryText_toText {folders : List Text} {last : Text}
    (hfolders : ∀ folder ∈ folders, IsPart folder) (hlast : CodePoint.char '/' ∉ last) :
    directoryText (⟨.slash, folders ++ [last]⟩ : Path).toText =
      (⟨.slash, folders⟩ : Path).toText := by
  rcases List.eq_nil_or_concat' folders with rfl | ⟨inner, folder, rfl⟩
  · have hsplit : Text.splitLast '/' (.char '/' :: last) = some ([], last) :=
      splitLast_append hlast []
    have htext : (⟨.slash, [last]⟩ : Path).toText = .char '/' :: last := rfl
    rw [List.nil_append, htext, directoryText, hsplit]
    rfl
  · have hfolder : IsPart folder := hfolders folder (by simp)
    obtain hnil | ⟨start, c, rfl⟩ := List.eq_nil_or_concat' folder
    · exact absurd hnil hfolder.ne_nil
    have hc : c ≠ '/' := by
      rintro rfl
      exact hfolder.2 (by simp)
    have hinner : (⟨.slash, inner ++ [start ++ [c]]⟩ : Path).toText =
        .char '/' :: (inner.flatMap (· ++ [.char '/']) ++ start) ++ [c] := by
      simp [toText, Root.text, join_concat]
    have htext : (⟨.slash, inner ++ [start ++ [c]] ++ [last]⟩ : Path).toText =
        (⟨.slash, inner ++ [start ++ [c]]⟩ : Path).toText ++ .char '/' :: last := by
      rw [toText, toText, if_neg (by simp), if_neg (by simp), join_concat _ last, join_concat]
      simp
    rw [htext, hinner, directoryText_append hc hlast]

end StyleVars
