import StyleVars.Proofs.ImportTree
import StyleVars.Proofs.Outcomes
import StyleVars.Proofs.SheetNames
import Mathlib.Data.List.Find

/-!
# Two look-ups of one import

The compiler looks an import up on the disk, trying the names of sheets in a fixed order; the
inliner looks it up among the known files, in the order in which these were loaded. Both go through
the directories one after the other. `knownTarget_located` says when they agree: the file on the
disk has to be the first of the known files that the path can mean in the first directory with one
of them. A folder's index that was loaded before a sheet of the folder's name is in its way.
-/

namespace StyleVars

open StyleVars.Path

/-! ## The first known file -/

/-- The first file other than the importer, in the order of the files, that is meant in the first of
the directories in which one is meant. -/
def firstMeant (means : Text → Text → Bool) (files : List Text) (importer : Text)
    (directories : List Text) : Option Text :=
  directories.findSome? fun directory =>
    files.find? fun file => file ≠ importer && means directory file

/-- The file `found` is meant in one of the directories. The importer left out, no file before it is
meant there, and none at all in the directories before. -/
def IsFirstMeant (means : Text → Text → Bool) (files : List Text) (importer : Text)
    (directories : List Text) (found : Text) : Prop :=
  ∃ before directory after earlier later,
    directories = before ++ directory :: after ∧ files = earlier ++ found :: later ∧
      found ≠ importer ∧ means directory found ∧
      (∀ other ∈ earlier, other ≠ importer → ¬means directory other) ∧
      ∀ passed ∈ before, ∀ other ∈ files, other ≠ importer → ¬means passed other

section First

variable {means means' : Text → Text → Bool} {files directories : List Text} {importer : Text}

theorem firstMeant_eq_some_iff {found : Text} :
    firstMeant means files importer directories = some found ↔
      IsFirstMeant means files importer directories found := by
  simp only [firstMeant, IsFirstMeant, List.findSome?_eq_some_iff, List.find?_eq_some_iff_append,
    List.find?_eq_none]
  constructor
  · rintro ⟨before, directory, after, rfl, ⟨hfound, earlier, later, rfl, hearlier⟩, hbefore⟩
    rw [Bool.and_eq_true, decide_eq_true_iff] at hfound
    refine ⟨before, directory, after, earlier, later, rfl, rfl, hfound.1, hfound.2, ?_, ?_⟩
    · intro other hother hne
      simpa [hne] using hearlier other hother
    · intro passed hpassed other hother hne
      simpa [hne] using hbefore passed hpassed other hother
  · rintro ⟨before, directory, after, earlier, later, rfl, rfl, hne, hmeans, hearlier, hbefore⟩
    refine ⟨before, directory, after, rfl, ⟨by simp [hne, hmeans], earlier, later, rfl, ?_⟩, ?_⟩
    · intro other hother
      simpa [or_iff_not_imp_left] using hearlier other hother
    · intro passed hpassed other hother
      simpa using hbefore passed hpassed other hother

theorem firstMeant_eq_none_iff :
    firstMeant means files importer directories = none ↔
      ∀ directory ∈ directories, ∀ file ∈ files, file ≠ importer → ¬means directory file := by
  simp [firstMeant, List.findSome?_eq_none_iff, List.find?_eq_none]

/-- A file that is meant before one that is meant as well is so in an earlier directory, or it comes
earlier among the files. -/
theorem IsFirstMeant.comes_before {before after : List Text} {directory found other : Text}
    (h : IsFirstMeant means files importer (before ++ directory :: after) found)
    (hmeans : means directory other) (hother : other ∈ files) (himporter : other ≠ importer)
    (hne : found ≠ other) :
    (∃ passed ∈ before, means passed found) ∨
      means directory found ∧ [found, other].Sublist files := by
  obtain ⟨before', directory', after', earlier, later, hsplit, rfl, -, hfound, hearlier, hbefore⟩ :=
    h
  have hnotPassed : directory ∉ before' := fun hpassed =>
    hbefore directory hpassed other hother himporter hmeans
  have hplace : directory' ∈ before ∨ directory' = directory := by
    rcases List.append_eq_append_iff.mp hsplit with ⟨xs, rfl, hrest⟩ | ⟨xs, rfl, hrest⟩
    · cases xs with
      | nil => exact .inr (List.cons.inj hrest).1.symm
      | cons x xs =>
        obtain rfl := (List.cons.inj hrest).1
        exact absurd (List.mem_append_right _ List.mem_cons_self) hnotPassed
    · cases xs with
      | nil => exact .inr (List.cons.inj hrest).1
      | cons x xs =>
        obtain rfl := (List.cons.inj hrest).1
        exact .inl (List.mem_append_right _ List.mem_cons_self)
  rcases hplace with hpassed | rfl
  · exact .inl ⟨directory', hpassed, hfound⟩
  · have hlater : other ∈ later := by
      rcases List.mem_append.mp hother with hin | hin
      · exact absurd hmeans (hearlier other hin himporter)
      · exact (List.mem_cons.mp hin).resolve_left (Ne.symm hne)
    have hsublist : [found, other].Sublist (found :: later) :=
      (List.singleton_sublist.mpr hlater).cons_cons found
    exact .inr ⟨hfound, hsublist.trans (List.sublist_append_right earlier _)⟩

/-- Only what is meant in the directories matters. -/
theorem firstMeant_congr
    (h : ∀ directory ∈ directories, ∀ file ∈ files, means directory file = means' directory file) :
    firstMeant means files importer directories = firstMeant means' files importer directories := by
  have hfind : ∀ directory ∈ directories,
      (files.find? fun file => file ≠ importer && means directory file) =
        files.find? fun file => file ≠ importer && means' directory file := by
    intro directory hdirectory
    refine List.find?_congr fun file hfile => ?_
    rw [h directory hdirectory file hfile]
  clear h
  induction directories with
  | nil => rfl
  | cons directory rest ih =>
    rw [firstMeant, firstMeant, List.findSome?_cons, List.findSome?_cons,
      hfind directory List.mem_cons_self]
    split
    · rfl
    · exact ih fun other hother => hfind other (List.mem_cons_of_mem _ hother)

end First

/-- An import of the given spelling means the file when it stands in the directory. -/
def isSpelled (place : Place) (wanted directory file : Text) : Bool :=
  match fileSpellings place file directory with
  | .ok spellings => spellings.contains wanted
  | .error _ => false

section Known

variable {place : Place} {files directories : List Text} {importer wanted : Text}

theorem findSpelling_eq {directory : Text} {found : Option Text}
    (h : findSpelling place importer wanted directory files = .ok found) :
    found = files.find? fun file => file ≠ importer && isSpelled place wanted directory file := by
  induction files with
  | nil => exact (Except.ok.inj h).symm
  | cons file rest ih =>
    by_cases himporter : file = importer
    · rw [himporter, findSpelling_cons_self] at h
      rw [ih h, List.find?_cons_of_neg (by simp [himporter])]
    · rw [findSpelling_cons_of_ne himporter] at h
      obtain ⟨spellings, hspellings, h⟩ := Except.bind_eq_ok.mp h
      have hmeans : isSpelled place wanted directory file = spellings.contains wanted := by
        rw [isSpelled, hspellings]
      split_ifs at h with hwanted
      · rw [List.find?_cons_of_pos (by simp [himporter, hmeans, hwanted])]
        exact (Except.ok.inj h).symm
      · rw [ih h, List.find?_cons_of_neg (by simp [hmeans, hwanted])]

theorem findTarget_eq {found : Option Text}
    (h : findTarget place files importer wanted directories = .ok found) :
    found = firstMeant (isSpelled place wanted) files importer directories := by
  induction directories with
  | nil => exact (Except.ok.inj h).symm
  | cons directory rest ih =>
    rw [findTarget] at h
    obtain ⟨first, hfirst, h⟩ := Except.bind_eq_ok.mp h
    have hfind := findSpelling_eq hfirst
    rw [firstMeant, List.findSome?_cons, ← hfind]
    cases first with
    | some file => exact (Except.ok.inj h).symm
    | none => exact ih h

end Known

/-! ## Usual paths -/

namespace SheetPath

/-- The file is one of the sheets that the path can mean in the directory. -/
def isSheetIn (p : SheetPath) (directory file : Text) : Bool :=
  (p.sheetsIn directory).contains file

/-- The path is written as usual, the files are sheets, the directories are absolute, and the path
goes back into none of the directories. -/
structure Suits (p : SheetPath) (files directories : List Text) : Prop where
  usual : p.IsUsual
  files : ∀ file ∈ files, IsSheetFile file
  absolute : ∀ directory ∈ directories, (ofText directory).root = .slash
  direct : ∀ directory ∈ directories, p.IsDirect (ofText directory).collapse

variable {p : SheetPath} {files directories : List Text}

theorem Suits.isSpelled_eq (h : p.Suits files directories) (place : Place) {directory file : Text}
    (hdirectory : directory ∈ directories) (hfile : file ∈ files) :
    isSpelled place (spellingText p.text) directory file = p.isSheetIn directory file := by
  have habsolute := h.absolute directory hdirectory
  obtain ⟨spellings, hspellings, hmem⟩ :=
    mem_fileSpellings_iff h.usual place (h.files file hfile) habsolute
  have hsheets := mem_sheetsIn_iff h.usual (h.files file hfile) habsolute
    (h.direct directory hdirectory)
  rw [isSpelled, isSheetIn, hspellings, Bool.eq_iff_iff, List.contains_iff_mem,
    List.contains_iff_mem, hmem, hsheets]

/-- A usual path means the first known file among the sheets that it can mean. -/
theorem Suits.findTarget_eq (h : p.Suits files directories) (place : Place) (importer : Text) :
    findTarget place files importer (spellingText p.text) directories =
      .ok (firstMeant p.isSheetIn files importer directories) := by
  have hnames : [] ∉ files := fun hmem => (h.files [] hmem).ne_nil rfl
  obtain ⟨found, hfound, -⟩ :=
    findTarget_spec place hnames importer (spellingText p.text) directories
  rw [hfound, StyleVars.findTarget_eq hfound]
  congr 1
  exact firstMeant_congr fun directory hdirectory file hfile =>
    h.isSpelled_eq place hdirectory hfile

/-- A sheet on the disk that is known is also found among the known files. -/
theorem Suits.isSome_firstMeant (h : p.Suits files directories) {disk : Disk} {place : Place}
    {importer located : Text} (hlocated : locateImport disk place p.text directories =
      .ok (some located)) (hknown : located ∈ files) (hother : located ≠ importer) :
    ∃ target, firstMeant p.isSheetIn files importer directories = some target := by
  rw [← Option.isSome_iff_exists, Option.isSome_iff_ne_none, Ne, firstMeant_eq_none_iff]
  intro hnone
  obtain ⟨directory, hdirectory, hsheet⟩ := exists_mem_sheetsIn h.usual h.absolute hlocated
  exact hnone directory hdirectory located hknown hother (List.contains_iff_mem.mpr hsheet)

end SheetPath

/-! ## The directory of a file on the disk -/

section Locating

variable {disk : Disk} {place : Place} {path : Text}

/-- What is found in the first directory comes before what is found in the others. -/
theorem locateImport_cons (directory : Text) (directories : List Text) :
    locateImport disk place path (directory :: directories) =
      locateImport disk place path [directory] >>= fun
        | some found => .ok (some found)
        | none => locateImport disk place path directories := by
  unfold locateImport
  simp only
  split_ifs with hplain
  · rfl
  · rw [List.flatMap_cons, List.flatMap_singleton, List.find?_append]
    cases ((possibleFiles path).map (ofText directory).join).find? (disk.isFile place) with
    | none => rfl
    | some location =>
      simp only [Option.some_or]
      cases place.normalForm location <;> rfl

/-- A file that is found is found in one of the directories, and none is in those before it. -/
theorem exists_directory_of_locateImport {directories : List Text} {located : Text}
    (h : locateImport disk place path directories = .ok (some located)) :
    ∃ before directory after, directories = before ++ directory :: after ∧
      (∀ passed ∈ before, locateImport disk place path [passed] = .ok none) ∧
      locateImport disk place path [directory] = .ok (some located) := by
  induction directories with
  | nil =>
    unfold locateImport at h
    split_ifs at h <;> exact nomatch h
  | cons directory directories ih =>
    rw [locateImport_cons] at h
    obtain ⟨here, hhere, h⟩ := Except.bind_eq_ok.mp h
    cases here with
    | some found => exact ⟨[], directory, directories, rfl, nofun, hhere.trans h⟩
    | none =>
      obtain ⟨before, other, after, rfl, hbefore, hother⟩ := ih h
      exact ⟨directory :: before, other, after, rfl, List.forall_mem_cons.mpr ⟨hhere, hbefore⟩,
        hother⟩

end Locating

/-! ## The two look-ups -/

/-- An import of a known file that is found on the disk is inlined as that file exactly when it is
the first known one that the import means. When it is not, either the spelling of the import does
not mean it in the directory where it was found, or another known file is inlined: one that is meant
in a directory passed on the disk, or in the same directory and was loaded before it. A usual path
means sheets of the directories; for it a file is always found, and it is the one on the disk unless
another known file can be meant too. -/
theorem knownTarget_located {disk : Disk} {place : Place} {known : KnownSources}
    {includePaths : List Text} {file path located : Text}
    (hlocated : locateImport disk place path (directoryText file :: includePaths) =
      .ok (some located))
    (hknown : located ∈ Keyed.keys known) (hother : located ≠ file) :
    (∃ before directory after, directoryText file :: includePaths = before ++ directory :: after ∧
      (∀ passed ∈ before, locateImport disk place path [passed] = .ok none) ∧
      locateImport disk place path [directory] = .ok (some located) ∧
      ∀ found, knownTarget place known includePaths file path = .ok found →
        (found = some located ↔ IsFirstMeant (isSpelled place (spellingText path))
          (Keyed.keys known) file (directoryText file :: includePaths) located) ∧
        (found ≠ some located → isSpelled place (spellingText path) directory located →
          ∃ target, found = some target ∧
            ((∃ passed ∈ before, isSpelled place (spellingText path) passed target) ∨
              isSpelled place (spellingText path) directory target ∧
                [target, located].Sublist (Keyed.keys known)))) ∧
    ∀ p : SheetPath, p.text = path →
      p.Suits (Keyed.keys known) (directoryText file :: includePaths) →
      (∃ target, knownTarget place known includePaths file path = .ok (some target) ∧
        (target = located ↔ IsFirstMeant p.isSheetIn (Keyed.keys known) file
          (directoryText file :: includePaths) located)) ∧
      ((∀ directory ∈ directoryText file :: includePaths, ∀ other ∈ Keyed.keys known,
          p.isSheetIn directory other → other = file ∨ other = located) →
        knownTarget place known includePaths file path = .ok (some located)) := by
  constructor
  · obtain ⟨before, directory, after, hdirectories, hbefore, hdirectory⟩ :=
      exists_directory_of_locateImport hlocated
    refine ⟨before, directory, after, hdirectories, hbefore, hdirectory, fun found hfound => ?_⟩
    have hfirst := findTarget_eq hfound
    refine ⟨by rw [← firstMeant_eq_some_iff, ← hfirst], fun hne hspelled => ?_⟩
    rw [hdirectories] at hfirst
    cases found with
    | none =>
      have hnone := firstMeant_eq_none_iff.mp hfirst.symm directory
        (List.mem_append_right _ List.mem_cons_self) located hknown hother
      exact absurd hspelled hnone
    | some target =>
      have hmeant := firstMeant_eq_some_iff.mp hfirst.symm
      exact ⟨target, rfl, hmeant.comes_before hspelled hknown hother fun heq => hne (by rw [heq])⟩
  · rintro p rfl hsuits
    have hfound : knownTarget place known includePaths file p.text =
        .ok (firstMeant p.isSheetIn (Keyed.keys known) file
          (directoryText file :: includePaths)) :=
      hsuits.findTarget_eq place file
    obtain ⟨target, htarget⟩ := hsuits.isSome_firstMeant hlocated hknown hother
    rw [hfound, ← firstMeant_eq_some_iff, htarget]
    refine ⟨⟨target, rfl, Option.some_inj.symm⟩, fun honly => ?_⟩
    obtain ⟨before, directory, after, earlier, later, hdirectories, hfiles, hne, hmeans, -⟩ :=
      firstMeant_eq_some_iff.mp htarget
    have hdirectory : directory ∈ directoryText file :: includePaths := by
      rw [hdirectories]
      exact List.mem_append_right _ List.mem_cons_self
    have htargetKnown : target ∈ Keyed.keys known := by
      rw [hfiles]
      exact List.mem_append_right _ List.mem_cons_self
    rw [(honly directory hdirectory target htargetKnown hmeans).resolve_left hne]

/-- A disk with files of no text: only their names matter to a look-up. -/
def emptyFiles (files : List Text) : Disk := .ofFiles (files.map fun file => (file, []))

/-- The working directory of the samples. -/
def workPlace : Place := .alone (.ofText "/work".toText) (.ofText "/root".toText)

/-- A sheet of a folder below an include path. -/
def sharedSources : KnownSources :=
  [("/work/main.scss".toText, "@import \"lib/b\";\n".toText),
    ("/shared/lib/_b.scss".toText, "$b: 1;\n".toText)]

theorem sharedSources_suit :
    (⟨0, 0, ["lib".toText], "b".toText, []⟩ : SheetPath).Suits (Keyed.keys sharedSources)
      (directoryText "/work/main.scss".toText :: ["/shared".toText]) := by
  have husual : (⟨0, 0, ["lib".toText], "b".toText, []⟩ : SheetPath).IsUsual :=
    ⟨by decide +kernel, by decide +kernel, by decide +kernel, .inr (.inr (by decide +kernel))⟩
  refine ⟨husual, ?_, by decide +kernel, ?_⟩
  · intro file hfile
    obtain rfl | rfl := List.mem_pair.mp hfile
    · exact @IsSheetFile.mk ["work".toText] "main".toText ".scss".toText (by decide +kernel)
        (by decide +kernel) (by decide +kernel) (by decide +kernel)
    · exact @IsSheetFile.mk ["shared".toText, "lib".toText] "_b".toText ".scss".toText
        (by decide +kernel) (by decide +kernel) (by decide +kernel) (by decide +kernel)
  · intro directory hdirectory
    exact SheetPath.isDirect_of_ups husual rfl (by revert directory; decide +kernel)
      (by revert directory; decide +kernel)

theorem knownTarget_sharedSources :
    locateImport (emptyFiles (Keyed.keys sharedSources)) workPlace "lib/b".toText
        (directoryText "/work/main.scss".toText :: ["/shared".toText]) =
      .ok (some "/shared/lib/_b.scss".toText) ∧
    "/shared/lib/_b.scss".toText ∈ Keyed.keys sharedSources ∧
    "/shared/lib/_b.scss".toText ≠ "/work/main.scss".toText ∧
    knownTarget workPlace sharedSources ["/shared".toText] "/work/main.scss".toText
        "lib/b".toText = .ok (some "/shared/lib/_b.scss".toText) := by
  have hlocated : locateImport (emptyFiles (Keyed.keys sharedSources)) workPlace "lib/b".toText
      (directoryText "/work/main.scss".toText :: ["/shared".toText]) =
        .ok (some "/shared/lib/_b.scss".toText) := rfl
  have hknown : "/shared/lib/_b.scss".toText ∈ Keyed.keys sharedSources := by decide +kernel
  have hother : "/shared/lib/_b.scss".toText ≠ "/work/main.scss".toText := by decide +kernel
  refine ⟨hlocated, hknown, hother, ?_⟩
  refine ((knownTarget_located hlocated hknown hother).2 _ ?_ sharedSources_suit).2 ?_
  · decide +kernel
  · decide +kernel

/-- The index of a folder was loaded before the sheet of the folder's name. -/
def shadowedSources : KnownSources :=
  [("/work/main.scss".toText, "@import \"x/index\";\n@import \"x\";\n".toText),
    ("/work/x/_index.scss".toText, "$b: 1;\n".toText), ("/work/x.scss".toText, "$a: 1;\n".toText)]

/-- On the disk the sheet is found, among the known files the index. -/
theorem shadowedSources_target :
    locateImport (emptyFiles (Keyed.keys shadowedSources)) workPlace "x".toText
        [directoryText "/work/main.scss".toText] = .ok (some "/work/x.scss".toText) ∧
    "/work/x.scss".toText ∈ Keyed.keys shadowedSources ∧
    "/work/x.scss".toText ≠ "/work/main.scss".toText ∧
    knownTarget workPlace shadowedSources [] "/work/main.scss".toText "x".toText =
      .ok (some "/work/x/_index.scss".toText) ∧
    "/work/x/_index.scss".toText ≠ "/work/x.scss".toText :=
  ⟨rfl, by decide +kernel, by decide +kernel, rfl, by decide +kernel⟩

end StyleVars
