import StyleVars.Proofs.ImportLookups

/-!
# Spellings of known files

A file can be imported in many ways: as a partial or not, with an ending or without, behind any
number of references to the current directory, and the index of a folder also by the folder alone.
All of them are brought to a spelling of the file, with one exception: white space at the ends of a
path is dropped, also where it belongs to the name of the file (`writtenPath_spells_iff`).
-/

namespace StyleVars

open StyleVars.Path

/-! ## Names of a sheet -/

/-- What can stand before the stem of the name of a sheet: nothing, or the underscore of a partial.
-/
def partialMarks : List Text := [[], [.char '_']]

/-- What the names of a sheet have in common: not empty, without the underscore of a partial or a
dot at its start, and without the ending of a sheet. -/
structure IsStem (stem : Text) : Prop where
  ne_nil : stem ≠ []
  mark : stem.head? ≠ some (.char '_')
  dot : stem.head? ≠ some (.char '.')
  ending : ∀ ending ∈ sheetExtensions, ¬ending <:+ stem

/-- The names by which a sheet with the stem is usually imported. -/
def usualNames (stem : Text) : List Text :=
  partialMarks.flatMap fun mark => ([] :: sheetExtensions).map fun ending => mark ++ stem ++ ending

theorem mem_usualNames_iff {stem name : Text} :
    name ∈ usualNames stem ↔
      ∃ mark ∈ partialMarks, ∃ ending ∈ [] :: sheetExtensions, mark ++ stem ++ ending = name := by
  simp only [usualNames, List.mem_flatMap, List.mem_map]

theorem mem_partialMarks_iff {mark : Text} :
    mark ∈ partialMarks ↔ mark = [] ∨ mark = [.char '_'] := List.mem_pair

theorem dropMark_suffix (t : Text) : dropMark t <:+ t := by
  unfold dropMark
  split
  · exact List.suffix_cons _ _
  · exact List.suffix_refl t

section Stem

variable {mark stem ending : Text}

theorem IsStem.isName (h : IsStem stem) (hslash : CodePoint.char '/' ∉ stem) : IsName stem := by
  have hdot : ∀ t : Text, t.head? = some (.char '.') → stem ≠ t := by
    rintro t ht rfl
    exact h.dot ht
  refine ⟨⟨?_, hslash⟩, hdot up rfl⟩
  simp only [isPart, ne_eq, Bool.and_eq_true, decide_eq_true_eq]
  exact ⟨h.ne_nil, hdot _ rfl⟩

theorem isName_append_mark (hmark : mark ∈ partialMarks) (h : IsName stem) :
    IsName (mark ++ stem) := by
  obtain rfl | rfl := mem_partialMarks_iff.mp hmark
  · exact h
  · exact isName_mark h

theorem isTrimmed_append_mark (hmark : mark ∈ partialMarks) (hne : stem ≠ [])
    (h : IsTrimmed stem) : IsTrimmed (mark ++ stem) := by
  obtain rfl | rfl := mem_partialMarks_iff.mp hmark
  · exact h
  · have hvisible : isBlank '_' = false := by decide
    refine ⟨by simpa using hvisible, ?_⟩
    rw [List.getLast?_append_of_ne_nil _ hne]
    exact h.2

theorem eq_nil_or_mem_endings (hending : ending ∈ [] :: sheetExtensions) :
    ending ∈ sheetExtensions ∨ ending = [] := (List.mem_cons.mp hending).symm

theorem IsStem.dropMark_append (h : IsStem stem) (hmark : mark ∈ partialMarks) :
    dropMark (mark ++ stem) = stem := by
  rw [dropMark_eq_iff h.mark]
  obtain rfl | rfl := mem_partialMarks_iff.mp hmark
  · exact .inl rfl
  · exact .inr rfl

theorem IsStem.stripExtension_append_mark (h : IsStem stem) (hmark : mark ∈ partialMarks) :
    stripExtension (mark ++ stem) = mark ++ stem := by
  have hself : stripExtension stem = stem := stripExtension_eq_self_iff.mpr h.ending
  obtain rfl | rfl := mem_partialMarks_iff.mp hmark
  · exact hself
  · have hstrip := stripExtension_append_cons (c := '_') (by decide) [] stem
    rw [hself] at hstrip
    exact hstrip

/-- A usual name that ends with white space has no ending, and its stem ends so. -/
theorem IsStem.ends_blank (h : IsStem stem) (hending : ending ∈ [] :: sheetExtensions)
    {c : CodePoint} (hlast : (mark ++ stem ++ ending).getLast? = some c) (hc : isBlank c) :
    ending = [] ∧ stem.getLast? = some c := by
  obtain rfl | hending := List.mem_cons.mp hending
  · rw [List.append_nil, List.getLast?_append_of_ne_nil _ h.ne_nil] at hlast
    exact ⟨rfl, hlast⟩
  · have hends : ∀ e ∈ sheetExtensions, e ≠ [] ∧ IsTrimmed e := by decide
    obtain ⟨hne, -, htrimmed⟩ := hends ending hending
    rw [List.getLast?_append_of_ne_nil _ hne] at hlast
    exact absurd hc (by simp [htrimmed c hlast])

/-- A usual name that starts with white space has no mark. -/
theorem mark_eq_nil (hmark : mark ∈ partialMarks) {c : CodePoint} {rest more : Text}
    (hc : isBlank c) (hname : mark ++ rest = c :: more) : mark = [] := by
  obtain rfl | rfl := mem_partialMarks_iff.mp hmark
  · rfl
  · obtain rfl := (List.cons.inj hname).1
    exact absurd hc (by decide)

theorem length_dropMark_le (t : Text) : (dropMark (stripExtension t)).length ≤ t.length :=
  (dropMark_suffix _).length_le.trans (stripExtension_prefix_self t).length_le

/-- White space dropped from the end of a usual name belongs to the stem. -/
theorem length_lt_of_end (hmark : mark ∈ partialMarks) {before kept after : Text}
    (hname : mark ++ stem = before ++ (kept ++ after))
    (hbefore : ∀ c ∈ before, isBlank c) (hafter : ∀ c ∈ after, isBlank c) (hne : after ≠ []) :
    (dropMark (stripExtension kept)).length < stem.length := by
  have hpos : 0 < after.length := List.length_pos_iff.mpr hne
  obtain rfl | rfl := mem_partialMarks_iff.mp hmark
  · have hlength := congrArg List.length hname
    rw [List.nil_append, List.length_append, List.length_append] at hlength
    have hkept := length_dropMark_le kept
    omega
  · cases before with
    | cons b others => exact nomatch mark_eq_nil hmark (hbefore b List.mem_cons_self) hname
    | nil =>
      cases kept with
      | nil =>
        obtain ⟨c, rest, rfl⟩ := List.exists_cons_of_ne_nil hne
        exact nomatch mark_eq_nil hmark (hafter c List.mem_cons_self) hname
      | cons c kept =>
        obtain ⟨rfl, hstem⟩ := List.cons.inj hname
        -- the mark is dropped too, and there is no ending in it
        have hstrip : stripExtension (.char '_' :: kept) = .char '_' :: stripExtension kept :=
          stripExtension_append_cons (by decide) [] kept
        have hlength := congrArg List.length hstem
        have hkept := (stripExtension_prefix_self kept).length_le
        simp only [List.nil_append, List.append_eq, List.length_append] at hlength
        rw [hstrip, dropMark]
        omega

/-- White space dropped from the start of a usual name belongs to the stem. -/
theorem length_lt_of_start (hending : ending ∈ [] :: sheetExtensions) {before kept : Text}
    (hname : stem ++ ending = before ++ kept) (hbefore : ∀ c ∈ before, isBlank c)
    (hne : before ≠ []) :
    (dropMark (stripExtension kept)).length < stem.length := by
  have hpos : 0 < before.length := List.length_pos_iff.mpr hne
  obtain rfl | hending := List.mem_cons.mp hending
  · have hlength := congrArg List.length hname
    rw [List.append_nil, List.length_append] at hlength
    have hkept := length_dropMark_le kept
    omega
  · have hdot : ∀ e ∈ sheetExtensions, ∀ c ∈ e.head?, isBlank c = false := by decide
    -- the dot of the ending is visible, so the white space ends before it
    have hinner : ∃ inner, stem = before ++ inner ∧ kept = inner ++ ending := by
      obtain ⟨passed, rfl, hpassed⟩ | hinner := List.append_eq_append_iff.mp hname
      · cases passed with
        | nil => exact ⟨[], by simp, by simpa using hpassed.symm⟩
        | cons c rest =>
          have hc := hdot ending hending c (by simp [hpassed])
          exact absurd (hbefore c (by simp)) (by simp [hc])
      · exact hinner
    obtain ⟨inner, rfl, rfl⟩ := hinner
    have hlength := (dropMark_suffix inner).length_le
    rw [stripExtension_append hending, List.length_append]
    omega

/-- When white space is dropped from a usual name, less than the stem is left of it without its mark
and its ending. The white space stood at the start, or the stem ends with white space. -/
theorem IsStem.length_lt (h : IsStem stem) (hmark : mark ∈ partialMarks)
    (hending : ending ∈ [] :: sheetExtensions) {before kept after : Text}
    (hname : mark ++ stem ++ ending = before ++ (kept ++ after)) (hbefore : ∀ c ∈ before, isBlank c)
    (hafter : ∀ c ∈ after, isBlank c) (hne : before ≠ [] ∨ after ≠ []) :
    (dropMark (stripExtension kept)).length < stem.length ∧
      (before ≠ [] ∨ ∃ c ∈ stem.getLast?, isBlank c) := by
  rcases List.eq_nil_or_concat' after with rfl | ⟨rest, c, rfl⟩
  · have hstart : before ≠ [] := hne.resolve_right fun hnil => hnil rfl
    obtain ⟨b, others, rfl⟩ := List.exists_cons_of_ne_nil hstart
    rw [List.append_nil, List.append_assoc] at hname
    obtain rfl := mark_eq_nil hmark (hbefore b List.mem_cons_self) hname
    exact ⟨length_lt_of_start hending hname hbefore hstart, .inl hstart⟩
  · have hlast : (mark ++ stem ++ ending).getLast? = some c := by
      rw [hname, ← List.append_assoc, ← List.append_assoc, List.getLast?_concat]
    have hc : isBlank c := hafter c (by simp)
    obtain ⟨rfl, hstem⟩ := h.ends_blank hending hlast hc
    rw [List.append_nil] at hname
    exact ⟨length_lt_of_end hmark hname hbefore hafter (by simp), .inr ⟨c, hstem, hc⟩⟩

end Stem

/-! ## What a spelling is made of -/

/-- The last part of a spelling comes from a part of the collapsed path. -/
theorem exists_mem_of_toText_eq {q : Path} (hroot : q.root = .relative)
    (hparts : ∀ part ∈ q.parts, IsPart part) {folders : List Text} {stem : Text}
    (hfolders : ∀ folder ∈ folders, IsPart folder) (hstem : IsPart stem)
    (heq : (dropPartialMark q).toText = (⟨.relative, folders ++ [stem]⟩ : Path).toText) :
    ∃ part ∈ q.parts, dropMark part = stem := by
  have hwritten := splitOn_toText hfolders hstem.2
  obtain ⟨root, parts⟩ := q
  obtain rfl : root = .relative := hroot
  rcases List.eq_nil_or_concat' parts with rfl | ⟨before, last, rfl⟩
  · -- a path of no parts is written as a dot, which is no part itself
    have hdot : Text.splitOn '/' (dropPartialMark ⟨.relative, []⟩).toText =
        [] ++ [[.char '.']] := by decide
    rw [heq, hwritten] at hdot
    obtain rfl := List.singleton_inj.mp (List.append_inj' hdot rfl).2
    exact absurd hstem.1 (by decide)
  · have hlast : IsPart last := hparts last (by simp)
    have hmarked : CodePoint.char '/' ∉ dropMark last :=
      fun h => hlast.2 ((dropMark_suffix last).subset h)
    have hread := splitOn_toText (fun part hpart => hparts part (List.mem_append_left _ hpart))
      hmarked
    rw [← dropPartialMark_concat, heq, hwritten] at hread
    exact ⟨last, by simp, List.singleton_inj.mp (List.append_inj' hread.symm rfl).2⟩

/-- The last part of a spelling is a folder or the last part of the stripped path, without its mark.
-/
theorem exists_dropMark_eq {t : Text} {currents : Nat} {folders : List Text} {kept stem : Text}
    (hfolders : ∀ folder ∈ folders, IsPart folder) (hkept : CodePoint.char '/' ∉ kept)
    (hstem : IsPart stem) (ht : Text.strip t = writtenPath currents folders kept)
    (heq : spellingText t = (⟨.relative, folders ++ [stem]⟩ : Path).toText) :
    ∃ part, (part ∈ folders ∨ part = stripExtension kept) ∧ dropMark part = stem := by
  have hparts : ∀ part ∈ folders ++ [stripExtension kept].filter isPart,
      IsPart part ∧ (part ∈ folders ∨ part = stripExtension kept) := by
    intro part hpart
    obtain hmem | hmem := List.mem_append.mp hpart
    · exact ⟨hfolders part hmem, .inl hmem⟩
    · obtain ⟨hmem, hnamed⟩ := List.mem_filter.mp hmem
      obtain rfl := List.mem_singleton.mp hmem
      exact ⟨⟨hnamed, fun h => hkept ((stripExtension_prefix_self kept).subset h)⟩, .inr rfl⟩
  rw [spellingText, spelling_of_strip hfolders hkept ht] at heq
  obtain ⟨part, hpart, hdrop⟩ := exists_mem_of_toText_eq (by rfl)
    (fun part hpart => (hparts part (mem_of_mem_collapse hpart)).1) hfolders hstem heq
  exact ⟨part, (hparts part (mem_of_mem_collapse hpart)).2, hdrop⟩

/-! ## Where a file lies -/

/-- Seen from the directory `base`, the file lies behind the folders, and its name is the stem with
a mark and an ending. No part of the way there has white space at its ends. -/
structure LiesBehind (base file : Text) (folders : List Text) (stem : Text) : Prop where
  isAbsolute_base : (ofText base).isAbsolute
  isAbsolute_file : (ofText file).isAbsolute
  isStem : IsStem stem
  way : ∃ mark ∈ partialMarks, ∃ ending ∈ sheetExtensions,
    relativeTo (ofText base).collapse (ofText file).collapse =
        ⟨.relative, folders ++ [mark ++ stem ++ ending]⟩ ∧
      ∀ part ∈ folders ++ [mark ++ stem ++ ending], IsTrimmed part

namespace LiesBehind

variable {base file : Text} {folders : List Text} {stem : Text}

/-- The way to a file goes up and then down to names. -/
theorem exists_ups (h : LiesBehind base file folders stem) :
    IsName stem ∧ ∃ count names, folders = List.replicate count up ++ names ∧
      ∀ name ∈ names, IsName name := by
  obtain ⟨mark, hmark, ending, hending, hway, -⟩ := h.way
  have hfile : ∀ name ∈ (ofText file).collapse.parts, IsName name := fun name hname =>
    ⟨isPart_of_mem_ofText (mem_of_mem_collapse hname), (mem_collapse h.isAbsolute_file hname).1⟩
  have hlong : ∀ e ∈ sheetExtensions, up.length < e.length := by decide
  have hup : mark ++ stem ++ ending ≠ up := by
    intro heq
    have hlength := congrArg List.length heq
    rw [List.length_append] at hlength
    have := hlong ending hending
    omega
  obtain ⟨count, names, hrelative, hparts⟩ :=
    relativeTo_spec (ofText base).collapse (ofText file).collapse
  have hnames : ∀ name ∈ names, IsName name := by
    intro name hname
    refine hfile name ?_
    rw [hparts]
    exact List.mem_append_right _ hname
  have heq : List.replicate count up ++ names = folders ++ [mark ++ stem ++ ending] :=
    (Path.mk.inj (hrelative.symm.trans hway)).2
  rcases List.eq_nil_or_concat' names with rfl | ⟨inner, last, rfl⟩
  · have hmem : mark ++ stem ++ ending ∈ List.replicate count up := by
      rw [← List.append_nil (List.replicate count up), heq]
      simp
    exact absurd (List.mem_replicate.mp hmem).2 hup
  · rw [← List.append_assoc] at heq
    obtain ⟨hfolders, hlast⟩ := List.append_inj' heq rfl
    obtain rfl := List.singleton_inj.mp hlast
    have hlast : IsName (mark ++ stem ++ ending) := hnames _ (by simp)
    refine ⟨h.isStem.isName fun hslash => hlast.1.2 ?_, count, inner, hfolders.symm,
      fun name hname => hnames name (List.mem_append_left _ hname)⟩
    exact List.mem_append_left _ (List.mem_append_right _ hslash)

theorem isPart_folder (h : LiesBehind base file folders stem) :
    ∀ folder ∈ folders, IsPart folder ∧ IsTrimmed folder := by
  intro folder hfolder
  obtain ⟨mark, -, ending, -, -, htrimmed⟩ := h.way
  refine ⟨?_, htrimmed folder (List.mem_append_left _ hfolder)⟩
  obtain ⟨-, count, names, rfl, hnames⟩ := h.exists_ups
  obtain hmem | hmem := List.mem_append.mp hfolder
  · exact isPart_of_mem_ups hmem
  · exact (hnames folder hmem).1

/-- A usual name without white space that could be dropped is spelled like the file. -/
theorem spelling_eq (h : LiesBehind base file folders stem) {name : Text}
    (hname : name ∈ usualNames stem) {t : Text} {currents : Nat}
    (ht : Text.strip t = writtenPath currents folders name) :
    spelling t = ⟨.relative, folders ++ [stem]⟩ := by
  obtain ⟨mark, hmark, ending, hending, rfl⟩ := mem_usualNames_iff.mp hname
  obtain ⟨hstem, count, names, rfl, hnames⟩ := h.exists_ups
  have hends : ending ∈ sheetExtensions ∨
      ending = [] ∧ stripExtension (mark ++ stem) = mark ++ stem :=
    (eq_nil_or_mem_endings hending).imp_right fun hnil =>
      ⟨hnil, h.isStem.stripExtension_append_mark hmark⟩
  rw [spelling_writtenPath count hnames (isName_append_mark hmark hstem) hends ht,
    h.isStem.dropMark_append hmark]

/-- The spellings of the file: for itself, and for its folder when it is the index of one. -/
theorem fileSpellings_eq (h : LiesBehind base file folders stem) (place : Place) :
    fileSpellings place file base =
      .ok (if stem = "index".toText ∧ folders ≠ [] then
        [(⟨.relative, folders ++ [stem]⟩ : Path).toText, (⟨.relative, folders⟩ : Path).toText]
      else [(⟨.relative, folders ++ [stem]⟩ : Path).toText]) := by
  obtain ⟨mark, hmark, ending, hending, hway, htrimmed⟩ := h.way
  have hne : file ≠ [] := by
    rintro rfl
    exact absurd h.isAbsolute_file (by decide)
  have hname : mark ++ stem ++ ending ∈ usualNames stem :=
    mem_usualNames_iff.mpr ⟨mark, hmark, ending, List.mem_cons_of_mem _ hending, rfl⟩
  have hspelling : spelling (relativeTo (place.absolute (.ofText base))
      (place.absolute (.ofText file))).toText = ⟨.relative, folders ++ [stem]⟩ := by
    rw [absolute_of_isAbsolute place h.isAbsolute_base,
      absolute_of_isAbsolute place h.isAbsolute_file, hway, toText_concat]
    exact h.spelling_eq hname (isTrimmed_writtenPath h.isPart_folder 0 (htrimmed _ (by simp))).strip
  have hlast : (⟨.relative, folders ++ [stem]⟩ : Path).name = stem := by simp [Path.name]
  have hparent : (⟨.relative, folders ++ [stem]⟩ : Path).parent = ⟨.relative, folders⟩ := by
    simp [parent]
  have hlong : ((⟨.relative, folders ++ [stem]⟩ : Path).isAbsolute = true ∨
      1 < (folders ++ [stem]).length) ↔ folders ≠ [] := by
    simp [isAbsolute, List.length_pos_iff]
  rw [SheetPath.fileSpellings_of_relativeTo hne hspelling, hlast, hparent]
  simp only [hlong]

/-- White space that is dropped from a usual name is missing in the spelling. -/
theorem spellingText_ne (h : LiesBehind base file folders stem) {name : Text}
    (hname : name ∈ usualNames stem) {currents : Nat}
    (hblank : ¬IsTrimmed (writtenPath currents folders name)) :
    spellingText (writtenPath currents folders name) ≠
      (⟨.relative, folders ++ [stem]⟩ : Path).toText := by
  obtain ⟨mark, hmark, ending, hending, rfl⟩ := mem_usualNames_iff.mp hname
  obtain ⟨before, kept, after, hsplit, hstrip, hbefore, hafter, hstart⟩ :=
    strip_writtenPath h.isPart_folder currents (mark ++ stem ++ ending)
  have hdropped : before ≠ [] ∨ after ≠ [] := by
    by_contra hnone
    simp only [not_or, not_not] at hnone
    obtain ⟨rfl, rfl⟩ := hnone
    rw [List.nil_append, List.append_nil] at hsplit
    exact hblank (isTrimmed_iff.mpr (hsplit ▸ hstrip))
  obtain ⟨hshort, hend⟩ := h.isStem.length_lt hmark hending hsplit hbefore hafter hdropped
  obtain ⟨hstem, -⟩ := h.exists_ups
  have hname : IsName (mark ++ stem ++ ending) :=
    isName_append (isName_append_mark hmark hstem) (eq_nil_or_mem_endings hending)
  have hkept : CodePoint.char '/' ∉ kept := by
    intro hslash
    refine hname.1.2 ?_
    rw [hsplit]
    exact List.mem_append_right _ (List.mem_append_left _ hslash)
  intro heq
  obtain ⟨part, hpart | rfl, hdrop⟩ := exists_dropMark_eq
    (fun folder hfolder => (h.isPart_folder folder hfolder).1) hkept hstem.1 hstrip heq
  · obtain hbegin | ⟨c, hc, hcblank⟩ := hend
    · obtain ⟨-, rfl⟩ := hstart hbegin
      exact nomatch hpart
    · -- a folder does not end like the stem, with white space
      obtain ⟨front, hfront⟩ := dropMark_suffix part
      rw [hdrop] at hfront
      have hlast : part.getLast? = some c := by
        rw [← hfront, List.getLast?_append_of_ne_nil _ h.isStem.ne_nil]
        exact hc
      exact absurd hcblank (by simp [(h.isPart_folder part hpart).2.2 c hlast])
  · rw [hdrop] at hshort
    exact lt_irrefl _ hshort

/-- A folder that looks neither like a partial nor like a sheet is spelled as itself. -/
theorem spelling_folder {outer : List Text} {folder : Text}
    (h : LiesBehind base file (outer ++ [folder]) stem) (hmark : folder.head? ≠ some (.char '_'))
    (hending : ∀ ending ∈ sheetExtensions, ¬ending <:+ folder) (currents : Nat) :
    spelling (writtenPath currents outer folder) = ⟨.relative, outer ++ [folder]⟩ ∧
      spelling (writtenPath currents (outer ++ [folder]) []) = ⟨.relative, outer ++ [folder]⟩ := by
  have hparts := h.isPart_folder
  obtain ⟨hfolder, htrimmed⟩ := hparts folder (by simp)
  have houter : ∀ part ∈ outer, IsPart part ∧ IsTrimmed part :=
    fun part hpart => hparts part (List.mem_append_left _ hpart)
  have hself : stripExtension folder = folder := stripExtension_eq_self_iff.mpr hending
  have hspelled : dropPartialMark (⟨.relative, outer ++ [folder]⟩ : Path).collapse =
      ⟨.relative, outer ++ [folder]⟩ := by
    obtain ⟨-, count, names, hups, hnames⟩ := h.exists_ups
    have hcollapse := collapse_relative (fun name hname => (hnames name hname).2) count
    rw [← hups] at hcollapse
    rw [hcollapse, dropPartialMark_concat, (dropMark_eq_iff hmark).mpr (.inl rfl)]
  constructor
  · rw [spelling_of_strip (fun part hpart => (houter part hpart).1) hfolder.2
      (isTrimmed_writtenPath houter currents htrimmed).strip, hself,
      List.filter_cons_of_pos hfolder.1, List.filter_nil, hspelled]
  · have hnil : [stripExtension []].filter isPart = [] := by decide
    rw [spelling_of_strip (fun part hpart => (hparts part hpart).1) List.not_mem_nil
      (isTrimmed_writtenPath hparts currents (by decide)).strip, hnil, List.append_nil, hspelled]

end LiesBehind

/-! ## The spellings of a file -/

/-- The usual names of a file, behind its folders, are spellings of it exactly when no white space
stands at the ends of the written path, as is always so when there is none at the ends of the stem.
The folder of an index file is a spelling of it too, with or without a slash at its end, unless it
is itself taken for a partial or a sheet. -/
theorem writtenPath_spells_iff {base file : Text} {folders : List Text} {stem : Text}
    (h : LiesBehind base file folders stem) (place : Place) :
    ∃ spellings, fileSpellings place file base = .ok spellings ∧
      (∀ currents, ∀ name ∈ usualNames stem,
        (spellingText (writtenPath currents folders name) ∈ spellings ↔
            IsTrimmed (writtenPath currents folders name)) ∧
          (IsTrimmed stem → IsTrimmed (writtenPath currents folders name))) ∧
      ∀ outer folder, folders = outer ++ [folder] → stem = "index".toText →
        folder.head? ≠ some (.char '_') → (∀ ending ∈ sheetExtensions, ¬ending <:+ folder) →
          ∀ currents, spellingText (writtenPath currents outer folder) ∈ spellings ∧
            spellingText (writtenPath currents folders []) ∈ spellings := by
  refine ⟨_, h.fileSpellings_eq place, fun currents name hname => ?_, ?_⟩
  · have htrimmed : IsTrimmed stem → IsTrimmed (writtenPath currents folders name) := by
      intro hstem
      obtain ⟨mark, hmark, ending, hending, rfl⟩ := mem_usualNames_iff.mp hname
      have hcore := isTrimmed_append_mark hmark h.isStem.ne_nil hstem
      exact isTrimmed_writtenPath h.isPart_folder currents (isTrimmed_append
        (List.append_ne_nil_of_right_ne_nil _ h.isStem.ne_nil) hcore
        (eq_nil_or_mem_endings hending))
    refine ⟨⟨fun hmem => ?_, fun hends => ?_⟩, htrimmed⟩
    · by_contra hblank
      have hindex : stem ≠ "index".toText := by
        rintro rfl
        exact hblank (htrimmed (by decide))
      rw [if_neg fun hand => hindex hand.1, List.mem_singleton] at hmem
      exact h.spellingText_ne hname hblank hmem
    · rw [spellingText, h.spelling_eq hname hends.strip]
      split_ifs <;> simp
  · rintro outer folder rfl hindex hmark hending currents
    obtain ⟨hplain, hslash⟩ := h.spelling_folder hmark hending currents
    rw [if_pos ⟨hindex, by simp⟩, spellingText, spellingText, hplain, hslash]
    simp

theorem indexSheet_liesBehind :
    LiesBehind "/work/lib".toText "/work/ui kit/_index.sass".toText [up, "ui kit".toText]
      "index".toText where
  isAbsolute_base := by decide
  isAbsolute_file := by decide
  isStem := ⟨by decide, by decide, by decide, by decide⟩
  way := ⟨[.char '_'], by decide, ".sass".toText, by decide, by decide +kernel, by decide +kernel⟩

theorem writtenPath_spells_indexSheet :
    LiesBehind "/work/lib".toText "/work/ui kit/_index.sass".toText [up, "ui kit".toText]
      "index".toText ∧
    ∃ spellings, fileSpellings workPlace "/work/ui kit/_index.sass".toText "/work/lib".toText =
        .ok spellings ∧
      spellingText "././../ui kit/index.css".toText ∈ spellings ∧
      spellingText "./../ui kit".toText ∈ spellings ∧
      spellingText "./../ui kit/".toText ∈ spellings := by
  obtain ⟨spellings, heq, hnames, hfolder⟩ :=
    writtenPath_spells_iff indexSheet_liesBehind workPlace
  have hname := (hnames 2 "index.css".toText (by decide)).1.mpr (by decide +kernel)
  obtain ⟨hplain, hslash⟩ := hfolder [up] "ui kit".toText rfl rfl (by decide) (by decide) 1
  exact ⟨indexSheet_liesBehind, spellings, heq, hname, hplain, hslash⟩

/-- White space at the end of a stem is visible in the name of a file and dropped from an import
without an ending. -/
theorem blankStem_not_spelled :
    LiesBehind "/work".toText "/work/a .scss".toText [] "a ".toText ∧
    writtenPath 0 [] "a ".toText = "a ".toText ∧ "a ".toText ∈ usualNames "a ".toText ∧
    fileSpellings workPlace "/work/a .scss".toText "/work".toText = .ok ["a ".toText] ∧
    spellingText "a ".toText ∉ ["a ".toText] := by
  have hstem : IsStem "a ".toText := ⟨by decide, by decide, by decide, by decide⟩
  have hlies : LiesBehind "/work".toText "/work/a .scss".toText [] "a ".toText :=
    ⟨by decide, by decide, hstem, [], by decide, ".scss".toText, by decide, by decide +kernel,
      by decide +kernel⟩
  exact ⟨hlies, rfl, by decide, rfl, by decide +kernel⟩

end StyleVars
