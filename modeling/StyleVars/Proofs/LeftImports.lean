import StyleVars.Compile.Record
import StyleVars.Proofs.ImportLookups
import StyleVars.Proofs.KeyedLists

/-!
# Imports that are left in place

When a file is inlined, an import in it that means no known file is moved to the text of the entry.
The compiler then looks it up from another directory, and only what is known is served.
`leftImport_kept_iff` says when it keeps its meaning.
-/

namespace StyleVars

open StyleVars.Path

/-! ## Looking up from absolute directories -/

section Locating

variable {disk : Disk} {place : Place} {path : Text}

theorem locateImport_ok (disk : Disk) (place : Place) (path : Text) {directories : List Text}
    (h : ∀ directory ∈ directories, (ofText directory).isAbsolute) :
    ∃ found, locateImport disk place path directories = .ok found := by
  unfold locateImport
  simp only
  split_ifs
  · exact ⟨none, rfl⟩
  · split
    · exact ⟨none, rfl⟩
    · rename_i location hlocation
      obtain ⟨directory, hdirectory, hmem⟩ :=
        List.mem_flatMap.mp (List.mem_of_find?_eq_some hlocation)
      obtain ⟨q, -, rfl⟩ := List.mem_map.mp hmem
      have habsolute : ((ofText directory).join q).isAbsolute := by
        rw [join]
        split_ifs with hq
        · exact hq
        · exact h directory hdirectory
      rw [normalForm_of_isAbsolute place habsolute]
      exact ⟨_, rfl⟩

theorem locateImport_cons_of_ok {directory : Text} {directories : List Text}
    {here others : Option Text} (hhere : locateImport disk place path [directory] = .ok here)
    (hothers : locateImport disk place path directories = .ok others) :
    locateImport disk place path (directory :: directories) = .ok (here.or others) := by
  rw [locateImport_cons, hhere]
  cases here with
  | none => exact hothers
  | some found => rfl

end Locating

/-! ## What the compilations are served -/

/-- The names of the files that an importer answers with. -/
def servedNames (answer : Option (List Served)) : List Text := (answer.getD []).map Served.name

variable {site : Site} {entry file path : Text} {includePaths : List Text}

theorem importingDirectory_of_isAbsolute (place : Place) (hfile : (ofText file).isAbsolute) :
    importingDirectory place file entry = .ok (ofText file).collapse.parent.toText := by
  have hnot : ¬(file = [] ∨ file = textSource) := by
    rintro (rfl | rfl) <;> exact absurd hfile (by decide)
  rw [importingDirectory, if_neg hnot, normalForm_of_isAbsolute place hfile]
  rfl

/-- The first compilation is served the file that is found from the importing file. -/
theorem servedNames_resolveRecorded (hfile : (ofText file).isAbsolute) {r : ImportRecord}
    {answer : Option (List Served)} {found : Option Text}
    (hanswer : (resolveRecorded site entry includePaths path file r).1 = .ok answer)
    (hfound : locateImport site.disk site.place path
      ((ofText file).collapse.parent.toText :: includePaths) = .ok found) :
    servedNames answer = found.toList := by
  have hlocated : (do
      let base ← importingDirectory site.place file entry
      locateImport site.disk site.place path (base :: includePaths)) = .ok found := by
    rw [importingDirectory_of_isAbsolute site.place hfile]
    exact hfound
  rw [resolveRecorded] at hanswer
  simp only [hlocated] at hanswer
  cases found with
  | none => rw [← Except.ok.inj hanswer]; rfl
  | some target =>
    simp only at hanswer
    split_ifs at hanswer
    · rw [← Except.ok.inj hanswer]
      rfl
    · split at hanswer
      · exact nomatch hanswer
      · rw [← Except.ok.inj hanswer]
        rfl

/-- The second compilation is served the file that is found from the entry, provided it is known. -/
theorem servedNames_knownImporter (known : KnownSources) {found : Option Text}
    (hfound : locateImport site.disk site.place path
      ((ofText entry).parent.toText :: includePaths) = .ok found) :
    ∃ answer, (knownImporter site known entry includePaths).call path textSource = .ok answer ∧
      servedNames answer = found.toList.filter (· ∈ Keyed.keys known) := by
  have hbase : importingDirectory site.place textSource entry =
      .ok (ofText entry).parent.toText := if_pos (.inr rfl)
  have hcall : (knownImporter site known entry includePaths).call path textSource =
      (knownImporter site known entry includePaths).answer path (some textSource) := rfl
  rw [hcall]
  simp only [knownImporter]
  split_ifs with hplain
  · have hnone : found = none := by
      rw [locateImport, if_pos hplain] at hfound
      exact (Except.ok.inj hfound).symm
    exact ⟨none, rfl, by rw [hnone]; rfl⟩
  · simp only [Option.getD_some, hbase, hfound, bind, Except.bind]
    cases found with
    | none => exact ⟨none, rfl, rfl⟩
    | some target =>
      refine ⟨_, rfl, ?_⟩
      by_cases htarget : target ∈ Keyed.keys known
      · obtain ⟨text, htext⟩ := Keyed.exists_of_mem_keys htarget
        simp [htext, htarget, servedNames]
      · have hnone : Keyed.get? target known = none := by
          rw [Option.eq_none_iff_forall_ne_some]
          intro text htext
          exact htarget (List.mem_map_of_mem (Keyed.mem_of_get? htext))
        simp [hnone, htarget, servedNames]

/-! ## Keeping the meaning -/

/-- What is served agrees when the first look-up goes to one directory and the second to another
before both go to the same ones, and the second is restricted to known files. -/
theorem filter_toList_or_eq_iff {known : List Text} {here others : Option Text}
    (hknown : ∀ target ∈ here.or others, target ∈ known) (there : Option Text) :
    (there.or others).toList.filter (· ∈ known) = (here.or others).toList ↔
      (there = none ∧ (here = none ∨ here = others)) ∨
        ∃ target, there = some target ∧
          (here.or others).toList = if target ∈ known then [target] else [] := by
  cases there with
  | some target =>
    have hfilter : [target].filter (· ∈ known) = if target ∈ known then [target] else [] := by
      by_cases htarget : target ∈ known <;> simp [htarget]
    simp only [Option.some_or, Option.toList_some, hfilter]
    simp [eq_comm]
  | none =>
    cases here with
    | none =>
      have hothers : others.toList.filter (· ∈ known) = others.toList := by
        refine List.filter_eq_self.mpr fun target htarget => decide_eq_true ?_
        exact hknown target (Option.mem_toList.mp htarget)
      simpa using hothers
    | some target =>
      have htarget : target ∈ known := hknown target rfl
      cases others with
      | none => simp
      | some other =>
        by_cases hother : other ∈ known
        · simp [hother, eq_comm]
        · have hne : target ≠ other := fun heq => hother (heq ▸ htarget)
          simp [hother, hne]

/-- A usual path that means no known file is not found on the disk, unless as the importing file. -/
theorem SheetPath.Suits.eq_none_or_eq_file {p : SheetPath} {known : KnownSources}
    (h : p.Suits (Keyed.keys known) (directoryText file :: includePaths)) {found : Option Text}
    (hfound : locateImport site.disk site.place p.text (directoryText file :: includePaths) =
      .ok found)
    (hknown : ∀ target ∈ found, target ∈ Keyed.keys known)
    (hleft : knownTarget site.place known includePaths file p.text = .ok none) :
    found = none ∨ found = some file := by
  have hnone : firstMeant p.isSheetIn (Keyed.keys known) file
      (directoryText file :: includePaths) = none :=
    Except.ok.inj ((h.findTarget_eq site.place file).symm.trans hleft)
  cases found with
  | none => exact .inl rfl
  | some target =>
    refine .inr (congrArg some ?_)
    by_contra hother
    obtain ⟨other, hsome⟩ := h.isSome_firstMeant hfound (hknown target rfl) hother
    exact absurd (hnone.symm.trans hsome) nofun

/-- An import of an inlined file that is left in place keeps its meaning exactly when the directory
of the entry has no sheet for it and that of the file adds nothing to the include paths, or when the
sheet that is found from the entry is the one that was loaded, or is not known and none was. A usual
path that is left in place means no file, or the file itself, for the first compilation. -/
theorem leftImport_kept_iff {known : KnownSources} {r : ImportRecord}
    {first : Option (List Served)} (hentry : (ofText entry).isAbsolute)
    (hfile : (ofText file).isAbsolute) (hknown : file ∈ Keyed.keys known)
    (hincludes : ∀ directory ∈ includePaths, (ofText directory).isAbsolute)
    (hfirst : (resolveRecorded site entry includePaths path file r).1 = .ok first)
    (hincluded : ∀ name ∈ servedNames first, name ∈ Keyed.keys known)
    (hleft : knownTarget site.place known includePaths file path = .ok none) :
    ∃ second here there others,
      (knownImporter site known entry includePaths).call path textSource = .ok second ∧
      locateImport site.disk site.place path [(ofText file).collapse.parent.toText] = .ok here ∧
      locateImport site.disk site.place path [(ofText entry).parent.toText] = .ok there ∧
      locateImport site.disk site.place path includePaths = .ok others ∧
      (servedNames second = servedNames first ↔
        (there = none ∧ (here = none ∨ here = others)) ∨
          ∃ target, there = some target ∧
            servedNames first = if target ∈ Keyed.keys known then [target] else []) ∧
      ∀ p : SheetPath, p.text = path →
        p.Suits (Keyed.keys known) (directoryText file :: includePaths) →
        (servedNames first = [] ∨ servedNames first = [file]) ∧
          (servedNames first = [] →
            (servedNames second = [] ↔ ∀ target ∈ there, target ∉ Keyed.keys known)) := by
  have hfileDirectory : (ofText (ofText file).collapse.parent.toText).isAbsolute :=
    isAbsolute_ofText_toText (p := (ofText file).collapse.parent) hfile
  have hentryDirectory : (ofText (ofText entry).parent.toText).isAbsolute :=
    isAbsolute_ofText_toText (p := (ofText entry).parent) hentry
  obtain ⟨here, hhere⟩ := locateImport_ok site.disk site.place path
    (List.forall_mem_singleton.mpr hfileDirectory)
  obtain ⟨there, hthere⟩ := locateImport_ok site.disk site.place path
    (List.forall_mem_singleton.mpr hentryDirectory)
  obtain ⟨others, hothers⟩ := locateImport_ok site.disk site.place path hincludes
  have hfound := locateImport_cons_of_ok hhere hothers
  have hfirst' := servedNames_resolveRecorded hfile hfirst hfound
  obtain ⟨second, hsecond, hsecond'⟩ :=
    servedNames_knownImporter known (locateImport_cons_of_ok hthere hothers)
  have hincluded' : ∀ target ∈ here.or others, target ∈ Keyed.keys known := by
    intro target htarget
    refine hincluded target ?_
    rw [hfirst', htarget]
    exact List.mem_singleton_self target
  have hiff := filter_toList_or_eq_iff hincluded' there
  rw [← hfirst', ← hsecond'] at hiff
  refine ⟨second, here, there, others, hsecond, hhere, hthere, hothers, hiff, ?_⟩
  rintro p rfl hsuits
  rw [(hsuits.files file hknown).parent_eq] at hfound
  refine ⟨?_, fun hnil => ?_⟩
  · obtain hnone | hself := hsuits.eq_none_or_eq_file hfound hincluded' hleft
    · exact .inl (by rw [hfirst', hnone]; rfl)
    · exact .inr (by rw [hfirst', hself]; rfl)
  · have hothers' : others = none := by
      rw [hnil, eq_comm, Option.toList_eq_nil_iff, Option.or_eq_none_iff] at hfirst'
      exact hfirst'.2
    rw [hsecond', hothers', Option.or_none, List.filter_eq_nil_iff]
    simp

/-- An import of an absolute path, for the spelling of which no file is known. -/
def absoluteSources : KnownSources :=
  [("/work/main.scss".toText, "@import \"sub/f\";\n".toText),
    ("/work/sub/f.scss".toText, "@import \"/work/sub/b\";\n".toText),
    ("/work/sub/_b.scss".toText, "$b: 1;\n".toText)]

theorem absoluteSources_kept :
    ∃ first second,
      (resolveRecorded ⟨emptyFiles (Keyed.keys absoluteSources), workPlace⟩
        "/work/main.scss".toText [] "/work/sub/b".toText "/work/sub/f.scss".toText
        (.start "/work/main.scss".toText)).1 = .ok first ∧
      (∀ name ∈ servedNames first, name ∈ Keyed.keys absoluteSources) ∧
      knownTarget workPlace absoluteSources [] "/work/sub/f.scss".toText "/work/sub/b".toText =
        .ok none ∧
      (knownImporter ⟨emptyFiles (Keyed.keys absoluteSources), workPlace⟩ absoluteSources
        "/work/main.scss".toText []).call "/work/sub/b".toText textSource = .ok second ∧
      servedNames first = ["/work/sub/_b.scss".toText] ∧
      servedNames second = servedNames first := by
  have hfirst : (resolveRecorded ⟨emptyFiles (Keyed.keys absoluteSources), workPlace⟩
      "/work/main.scss".toText [] "/work/sub/b".toText "/work/sub/f.scss".toText
      (.start "/work/main.scss".toText)).1 =
        .ok (some [⟨"/work/sub/_b.scss".toText, some []⟩]) := rfl
  have hincluded : ∀ name ∈ servedNames (some [⟨"/work/sub/_b.scss".toText, some []⟩]),
      name ∈ Keyed.keys absoluteSources := by decide +kernel
  have hleft : knownTarget workPlace absoluteSources [] "/work/sub/f.scss".toText
      "/work/sub/b".toText = .ok none := rfl
  obtain ⟨second, here, there, others, hsecond, -, hthere, -, hkept, -⟩ :=
    leftImport_kept_iff (by decide +kernel) (by decide +kernel) (by decide +kernel) (by simp)
      hfirst hincluded hleft
  have hfound : locateImport (emptyFiles (Keyed.keys absoluteSources)) workPlace
      "/work/sub/b".toText [(ofText "/work/main.scss".toText).parent.toText] =
        .ok (some "/work/sub/_b.scss".toText) := rfl
  refine ⟨_, second, hfirst, hincluded, hleft, hsecond, rfl, hkept.mpr (.inr ?_)⟩
  refine ⟨"/work/sub/_b.scss".toText, Except.ok.inj (hthere.symm.trans hfound), ?_⟩
  decide +kernel

/-- A path that goes up and comes back. -/
def roundaboutSources : KnownSources :=
  [("/work/main.scss".toText, "@import \"sub/f\";\n".toText),
    ("/work/sub/f.scss".toText, "@import \"../sub/b\";\n".toText),
    ("/work/sub/_b.scss".toText, "$b: 1;\n".toText)]

/-- The file that the import has loaded is known, but it is not found from the entry. -/
theorem roundaboutSources_lost :
    (resolveRecorded ⟨emptyFiles (Keyed.keys roundaboutSources), workPlace⟩
      "/work/main.scss".toText [] "../sub/b".toText "/work/sub/f.scss".toText
      (.start "/work/main.scss".toText)).1 =
        .ok (some [⟨"/work/sub/_b.scss".toText, some []⟩]) ∧
    "/work/sub/_b.scss".toText ∈ Keyed.keys roundaboutSources ∧
    knownTarget workPlace roundaboutSources [] "/work/sub/f.scss".toText "../sub/b".toText =
      .ok none ∧
    (knownImporter ⟨emptyFiles (Keyed.keys roundaboutSources), workPlace⟩ roundaboutSources
      "/work/main.scss".toText []).call "../sub/b".toText textSource = .ok none :=
  ⟨rfl, by decide +kernel, rfl, rfl⟩

end StyleVars
