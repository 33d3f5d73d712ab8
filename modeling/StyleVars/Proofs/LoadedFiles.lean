import StyleVars.Extract.Sources
import StyleVars.Proofs.CompilerRuns
import StyleVars.Proofs.Outcomes
import StyleVars.Proofs.PathSpellings

/-!
# The record of the loaded files

While imports are asked for, of the importers of the caller and of the disk in any order, the record
tells which files have been loaded (`ImportRecord.Tells`): the entry first, each file once and under
its normal form, in the order in which they were first loaded, and the texts that were served last.
The files that a compilation reports are therefore those that took part in it (`recordAfter_tells`).
-/

namespace StyleVars

open StyleVars.Path

/-! ## Normal forms -/

/-- The working directory is below a root, and all directories can be written and read again. -/
structure Place.IsProper (place : Place) : Prop where
  absolute : place.workDir.isAbsolute
  workDir : ∀ part ∈ place.workDir.parts, IsPart part
  home : ∀ part ∈ place.home.parts, IsPart part
  homes : ∀ user home, place.homes user = some home → ∀ part ∈ home.parts, IsPart part

/-- The name of a file is absolute, and it is its own normal form. -/
structure Place.IsNormal (place : Place) (file : Text) : Prop where
  absolute : (ofText file).isAbsolute
  normalText : place.normalText file = .ok file

namespace Place

variable {place : Place}

theorem isPart_join {p q : Path} (hp : ∀ part ∈ p.parts, IsPart part)
    (hq : ∀ part ∈ q.parts, IsPart part) : ∀ part ∈ (p.join q).parts, IsPart part := by
  unfold join
  split_ifs
  · exact hq
  · intro part hpart
    exact (List.mem_append.mp hpart).elim (hp part) (hq part)

theorem IsProper.isAbsolute_join (h : place.IsProper) (p : Path) :
    (place.workDir.join p).isAbsolute := by
  unfold join
  split_ifs with hp
  · exact hp
  · exact h.absolute

/-- An absolute and collapsed path has nothing but names. -/
theorem IsProper.isName_absolute (h : place.IsProper) {p : Path}
    (hp : ∀ part ∈ p.parts, IsPart part) : ∀ name ∈ (place.absolute p).parts, IsName name := by
  intro name hname
  obtain ⟨hne, hmem⟩ := mem_collapse (h.isAbsolute_join p) hname
  exact ⟨isPart_join h.workDir hp name hmem, hne⟩

theorem normalText_toText (place : Place) {p : Path} (habsolute : p.isAbsolute)
    (hparts : ∀ part ∈ p.parts, IsPart part) :
    place.normalText p.toText = .ok p.collapse.toText := by
  rw [Place.normalText, ofText_toText hparts, normalForm_of_isAbsolute place habsolute]
  rfl

/-- The text of an absolute and collapsed path is normal. -/
theorem IsProper.isNormal_absolute (h : place.IsProper) {p : Path}
    (hp : ∀ part ∈ p.parts, IsPart part) : place.IsNormal (place.absolute p).toText := by
  have hnames := h.isName_absolute hp
  have habsolute : (place.absolute p).isAbsolute := h.isAbsolute_join p
  refine ⟨isAbsolute_ofText_toText habsolute, ?_⟩
  rw [place.normalText_toText habsolute fun name hname => (hnames name hname).1,
    collapse_of_names fun name hname => (hnames name hname).2]

theorem IsProper.isPart_homeOf (h : place.IsProper) {user : Text} {home : Path}
    (hhome : place.homeOf? user = some home) : ∀ part ∈ home.parts, IsPart part := by
  unfold homeOf? at hhome
  split_ifs at hhome
  · obtain rfl := Option.some.inj hhome
    exact h.home
  · exact h.homes user home hhome

theorem IsProper.isPart_expandHome (h : place.IsProper) {p expanded : Path}
    (hp : ∀ part ∈ p.parts, IsPart part) (hexpanded : place.expandHome p = .ok expanded) :
    ∀ part ∈ expanded.parts, IsPart part := by
  unfold expandHome at hexpanded
  split at hexpanded
  · rename_i user rest hroot hparts
    split at hexpanded
    · rename_i home hhome
      obtain rfl := Except.ok.inj hexpanded
      intro part hpart
      refine (List.mem_append.mp hpart).elim (h.isPart_homeOf hhome part) fun hrest => hp part ?_
      rw [hparts]
      exact List.mem_cons_of_mem _ hrest
    · exact nomatch hexpanded
  · obtain rfl := Except.ok.inj hexpanded
    exact hp

/-- Normal forms are normal: taking them again changes nothing. -/
theorem IsProper.isNormal_normalForm (h : place.IsProper) {p q : Path}
    (hp : ∀ part ∈ p.parts, IsPart part) (hq : place.normalForm p = .ok q) :
    place.IsNormal q.toText := by
  obtain ⟨expanded, hexpanded, rfl⟩ := Except.map_eq_ok.mp hq
  exact h.isNormal_absolute (h.isPart_expandHome hp hexpanded)

theorem IsProper.isNormal_normalText (h : place.IsProper) {t file : Text}
    (hfile : place.normalText t = .ok file) : place.IsNormal file := by
  obtain ⟨p, hp, rfl⟩ := Except.map_eq_ok.mp hfile
  exact h.isNormal_normalForm (fun _ => isPart_of_mem_ofText) hp

/-- A normal name means the same file in every directory. -/
theorem IsNormal.absolute_join {file : Text} (h : place.IsNormal file) (base : Path) :
    (place.absolute (base.join (ofText file))).toText = file := by
  have hjoin : base.join (ofText file) = ofText file := if_pos h.absolute
  have hnormal := h.normalText
  rw [Place.normalText, normalForm_of_isAbsolute place h.absolute] at hnormal
  rw [hjoin, absolute_of_isAbsolute place h.absolute]
  exact Except.ok.inj hnormal

end Place

/-! ## What is found on the disk -/

theorem isPart_cons_mark {name : Text} (h : CodePoint.char '/' ∉ name) :
    IsPart (.char '_' :: name) := by
  refine ⟨by simp [isPart], ?_⟩
  rw [List.mem_cons, not_or]
  exact ⟨by decide, h⟩

theorem isPart_append_ending {name ending : Text} (h : CodePoint.char '/' ∉ name)
    (hending : ending ∈ sheetExtensions) : IsPart (name ++ ending) := by
  have hlong : ∀ e ∈ sheetExtensions, 2 ≤ e.length ∧ CodePoint.char '/' ∉ e := by decide
  obtain ⟨hlength, hslash⟩ := hlong ending hending
  have hne : ∀ t : Text, t.length < 2 → name ++ ending ≠ t := by
    rintro t ht rfl
    rw [List.length_append] at ht
    omega
  refine ⟨?_, fun hmem => (List.mem_append.mp hmem).elim h hslash⟩
  simp only [isPart, Bool.and_eq_true, ne_eq, decide_eq_true_eq]
  exact ⟨hne _ (by decide), hne _ (by decide)⟩

/-- The files that an import can mean have names of files. -/
theorem isPart_of_mem_possibleFiles {path : Text} {p : Path} (h : p ∈ possibleFiles path) :
    ∀ part ∈ p.parts, IsPart part := by
  have htarget : ∀ part ∈ (ofText path).parts, IsPart part := fun _ => isPart_of_mem_ofText
  have hparent : ∀ part ∈ (ofText path).parent.parts, IsPart part :=
    fun part hpart => htarget part (List.dropLast_subset _ hpart)
  have hchild : ∀ q : Path, (∀ part ∈ q.parts, IsPart part) → ∀ last, IsPart last →
      ∀ part ∈ (q.child last).parts, IsPart part := by
    intro q hq last hlast part hpart
    obtain hmem | hmem := List.mem_append.mp hpart
    · exact hq part hmem
    · rw [List.mem_singleton.mp hmem]
      exact hlast
  have hname : CodePoint.char '/' ∉ (ofText path).name := by
    unfold Path.name
    cases hlast : (ofText path).parts.getLast? with
    | none => simp
    | some last => exact (htarget last (List.mem_of_getLast? hlast)).2
  have hindex : ∀ ending ∈ sheetExtensions,
      IsPart ("_index".toText ++ ending) ∧ IsPart ("index".toText ++ ending) :=
    fun ending hending => ⟨isPart_append_ending (by decide) hending,
      isPart_append_ending (by decide) hending⟩
  unfold possibleFiles at h
  simp only at h
  split_ifs at h
  · obtain rfl | rfl := List.mem_pair.mp h
    · exact hchild _ hparent _ (isPart_cons_mark hname)
    · exact htarget
  · rw [List.mem_append, List.mem_flatMap, List.mem_flatMap] at h
    obtain ⟨ending, hending, h⟩ | ⟨ending, hending, h⟩ := h
    · have hfile := isPart_append_ending hname hending
      obtain rfl | rfl := List.mem_pair.mp h
      · exact hchild _ hparent _ (isPart_cons_mark hfile.2)
      · exact hchild _ hparent _ hfile
    · obtain rfl | rfl := List.mem_pair.mp h
      · exact hchild _ htarget _ (hindex ending hending).1
      · exact hchild _ htarget _ (hindex ending hending).2

/-- A file that is found on the disk is named by its normal form. -/
theorem Place.IsProper.isNormal_located {disk : Disk} {place : Place} (h : place.IsProper)
    {path target : Text} {directories : List Text}
    (htarget : locateImport disk place path directories = .ok (some target)) :
    place.IsNormal target := by
  unfold locateImport at htarget
  simp only at htarget
  split_ifs at htarget
  · simp at htarget
  · split at htarget
    · simp at htarget
    · rename_i location hlocation
      obtain ⟨p, hp, heq⟩ := Except.map_eq_ok.mp htarget
      obtain rfl := Option.some.inj heq
      obtain ⟨directory, -, hmem⟩ := List.mem_flatMap.mp (List.mem_of_find?_eq_some hlocation)
      obtain ⟨file, hfile, rfl⟩ := List.mem_map.mp hmem
      exact h.isNormal_normalForm (Place.isPart_join (fun _ => isPart_of_mem_ofText)
        (isPart_of_mem_possibleFiles hfile)) hp

/-! ## Requests -/

/-- A request for the files that an import means: an importer of the caller is asked or, without
one, the disk. -/
structure LoadRequest where
  importer : Option Importer
  path : Text
  previous : Text

/-- A file of an answer under its normal form, its name being read in the directory `base`. -/
def Served.normal (place : Place) (base : Path) (s : Served) : Served :=
  ⟨(place.absolute (base.join (.ofText s.name))).toText, s.source⟩

section Requests

variable (site : Site) (entry : Text) (includePaths : List Text)

/-- Makes the request and records the files of the answer. -/
def LoadRequest.run (request : LoadRequest) (r : ImportRecord) :
    Except Failure (Option (List Served)) × ImportRecord :=
  match request.importer with
  | some importer => askRecorded site entry importer request.path request.previous r
  | none => resolveRecorded site entry includePaths request.path request.previous r

/-- The answer to the request. -/
def LoadRequest.answer (request : LoadRequest) : Except Failure (Option (List Served)) :=
  (request.run site entry includePaths (.start entry)).1

/-- The files that the request loads, none when it fails. -/
def LoadRequest.loads (request : LoadRequest) : List Served :=
  match request.answer site entry includePaths,
      importingDirectory site.place request.previous entry with
  | .ok (some served), .ok base => served.map (Served.normal site.place (.ofText base))
  | _, _ => []

/-- The record after requests. -/
def recordAfter (requests : List LoadRequest) : ImportRecord :=
  requests.foldl (fun r request => (request.run site entry includePaths r).2) (.start entry)

end Requests

/-- The record with the files that were loaded. -/
def ImportRecord.recordLoads (r : ImportRecord) (loads : List Served) : ImportRecord :=
  loads.foldl (fun r s => r.record s.name s.source) r

section Run

variable {site : Site} {entry : Text} {includePaths : List Text}

theorem recordAll_eq (place : Place) (base : Path) (r : ImportRecord) (served : List Served) :
    r.recordAll place base served = r.recordLoads (served.map (Served.normal place base)) := by
  rw [ImportRecord.recordLoads, List.foldl_map]
  rfl

/-- A request is answered whatever has been recorded, and what it loads is recorded. -/
theorem LoadRequest.run_eq (hplace : site.place.IsProper) (request : LoadRequest)
    (r : ImportRecord) :
    request.run site entry includePaths r =
      (request.answer site entry includePaths,
        r.recordLoads (request.loads site entry includePaths)) := by
  obtain ⟨importer, path, previous⟩ := request
  have hnone : r.recordLoads [] = r := rfl
  cases importer with
  | some importer =>
    simp only [loads, answer, run, askRecorded]
    cases importer.call path previous with
    | error e => rfl
    | ok found =>
      rcases found with _ | _ | ⟨first, others⟩
      · rfl
      · cases importingDirectory site.place previous entry <;> rfl
      · cases importingDirectory site.place previous entry with
        | error e => rfl
        | ok base => exact congrArg _ (recordAll_eq site.place (.ofText base) r (first :: others))
  | none =>
    simp only [loads, answer, run, resolveRecorded]
    cases hbase : importingDirectory site.place previous entry with
    | error e => rfl
    | ok base =>
      simp only [bind, Except.bind]
      cases hlocated : locateImport site.disk site.place path (base :: includePaths) with
      | error e => rfl
      | ok found =>
        cases found with
        | none => rfl
        | some target =>
          -- the file is named by its normal form already
          have hnormal : ∀ source, Served.normal site.place (.ofText base) ⟨target, source⟩ =
              ⟨target, source⟩ := by
            intro source
            rw [Served.normal, (hplace.isNormal_located hlocated).absolute_join]
          simp only
          split_ifs
          · simp only [List.map_cons, List.map_nil, hnormal]
            rfl
          · cases site.disk.read site.place (.ofText target) with
            | error e => rfl
            | ok text =>
              simp only [List.map_cons, List.map_nil, hnormal]
              rfl

theorem LoadRequest.isNormal_loads (hplace : site.place.IsProper) (request : LoadRequest) :
    ∀ s ∈ request.loads site entry includePaths, site.place.IsNormal s.name := by
  intro s hs
  unfold loads at hs
  split at hs
  · rename_i served base _ _
    obtain ⟨file, -, rfl⟩ := List.mem_map.mp hs
    exact hplace.isNormal_absolute (Place.isPart_join (fun _ => isPart_of_mem_ofText)
      fun _ => isPart_of_mem_ofText)
  · exact nomatch hs

end Run

/-! ## What the record tells -/

/-- The record tells what was loaded: the entry first, each file once and under its normal form, in
the order in which they were first loaded, and for each file the text that was served last. -/
structure ImportRecord.Tells (place : Place) (entry : Text) (loads : List Served)
    (r : ImportRecord) : Prop where
  first : r.files.head? = some entry
  nodup : r.files.Nodup
  normal : ∀ file ∈ r.files, place.IsNormal file
  files : r.files = (entry :: loads.map Served.name).eraseDups
  known : ∀ file ∈ Keyed.keys r.sources, file ∈ r.files
  texts : ∀ file, Keyed.get? file r.sources =
    loads.reverse.findSome? fun s => if s.name = file then s.source else none

namespace ImportRecord

variable {place : Place} {entry : Text} {loads : List Served} {r : ImportRecord}

theorem tells_start (h : place.IsNormal entry) : (start entry).Tells place entry [] where
  first := rfl
  nodup := List.nodup_singleton entry
  normal := fun file hfile => List.mem_singleton.mp hfile ▸ h
  files := by
    rw [← Keyed.foldl_insertNew]
    rfl
  known := fun _ hfile => nomatch hfile
  texts := fun _ => rfl

/-- One more file is told like the others. -/
theorem Tells.record (h : r.Tells place entry loads) {s : Served} (hs : place.IsNormal s.name) :
    (r.record s.name s.source).Tells place entry (loads ++ [s]) := by
  have hfiles : (r.record s.name s.source).files = Keyed.insertNew r.files s.name := rfl
  constructor
  case first =>
    rw [hfiles, Keyed.insertNew]
    split_ifs
    · exact h.first
    · rw [List.head?_append, h.first, Option.some_or]
  case nodup => exact Keyed.nodup_insertNew h.nodup s.name
  case normal =>
    intro file hfile
    obtain hold | rfl := (Keyed.mem_insertNew_iff s.name).mp hfile
    · exact h.normal file hold
    · exact hs
  case files =>
    rw [hfiles, h.files, List.map_append, ← List.cons_append, ← Keyed.foldl_insertNew,
      ← Keyed.foldl_insertNew, List.foldl_append]
    rfl
  case known =>
    intro file hfile
    refine (Keyed.mem_insertNew_iff s.name).mpr ?_
    simp only [ImportRecord.record] at hfile
    split at hfile
    · rw [Keyed.keys_put, Keyed.mem_insertNew_iff] at hfile
      exact hfile.imp (h.known file) id
    · exact .inl (h.known file hfile)
  case texts =>
    intro file
    rw [List.reverse_append, List.reverse_singleton, List.singleton_append, List.findSome?_cons,
      ← h.texts file]
    obtain ⟨name, source⟩ := s
    cases source with
    | none => simp [ImportRecord.record]
    | some text =>
      simp only [ImportRecord.record, Keyed.get?_put]
      split_ifs <;> rfl

theorem Tells.recordLoads (h : r.Tells place entry loads) {more : List Served}
    (hmore : ∀ s ∈ more, place.IsNormal s.name) :
    (r.recordLoads more).Tells place entry (loads ++ more) := by
  induction more generalizing r loads with
  | nil =>
    rw [List.append_nil]
    exact h
  | cons s more ih =>
    rw [List.forall_mem_cons] at hmore
    have hrest := ih (h.record hmore.1) hmore.2
    rwa [List.append_assoc, List.singleton_append] at hrest

/-- Files are only added behind the others. -/
theorem files_prefix_recordLoads (r : ImportRecord) (loads : List Served) :
    r.files <+: (r.recordLoads loads).files := by
  induction loads generalizing r with
  | nil => exact List.prefix_refl _
  | cons s loads ih =>
    refine .trans ?_ (ih (r.record s.name s.source))
    have hfiles : (r.record s.name s.source).files = Keyed.insertNew r.files s.name := rfl
    rw [hfiles, Keyed.insertNew]
    split_ifs
    · exact List.prefix_refl _
    · exact List.prefix_append _ _

end ImportRecord

section Run

variable {site : Site} {entry : Text} {includePaths : List Text}

theorem recordAfter_append_singleton (hplace : site.place.IsProper) (requests : List LoadRequest)
    (request : LoadRequest) :
    recordAfter site entry includePaths (requests ++ [request]) =
      (recordAfter site entry includePaths requests).recordLoads
        (request.loads site entry includePaths) := by
  unfold recordAfter
  rw [List.foldl_append, List.foldl_cons, List.foldl_nil, LoadRequest.run_eq hplace]

/-- What one request preserves, all of them do. -/
theorem tells_recordAfter (includePaths : List Text) (hplace : site.place.IsProper)
    (hentry : site.place.IsNormal entry) (requests : List LoadRequest) :
    (recordAfter site entry includePaths requests).Tells site.place entry
      (requests.flatMap (LoadRequest.loads site entry includePaths)) := by
  induction requests using List.reverseRecOn with
  | nil => exact ImportRecord.tells_start hentry
  | append_singleton requests request ih =>
    rw [recordAfter_append_singleton hplace, List.flatMap_append, List.flatMap_singleton]
    exact ih.recordLoads (request.isNormal_loads hplace)

/-- Nothing is loaded when nothing is found or something fails. -/
theorem LoadRequest.loads_eq_nil {request : LoadRequest}
    (h : ∀ served, request.answer site entry includePaths = .ok (some served) → served = []) :
    request.loads site entry includePaths = [] := by
  unfold loads
  split
  · rename_i served base hanswer _
    rw [h served hanswer]
    rfl
  · rfl

/-! ## The files of a compilation -/

variable {σ : Type}

/-- A compilation records what it asks for. -/
theorem compileHost_keeps_record (site : Site) (entry : Text) (includePaths : List Text)
    (importers : List Importer) (functions : List HostFunction) (hooks : Hooks σ) :
    (compileHost site entry includePaths importers functions hooks).Keeps fun _ state =>
      ∃ requests, state.1 = recordAfter site entry includePaths requests where
  served := by
    rintro past ⟨r, s⟩ ⟨r', s'⟩ i path previous answer ⟨requests, rfl⟩ hanswer
    refine ⟨requests ++ [⟨importers[i]?, path, previous⟩], ?_⟩
    have hrecord := congrArg (fun x => x.2.1) hanswer
    unfold recordAfter
    rw [List.foldl_append]
    exact hrecord.symm
  called := by
    rintro past ⟨r, s⟩ ⟨r', s'⟩ i argument answer ⟨requests, rfl⟩ hanswer
    refine ⟨requests, ?_⟩
    simp only [compileHost] at hanswer
    split at hanswer
    all_goals exact (congrArg (fun x => x.2.1) hanswer).symm

theorem isNormal_sheetPath {place : Place} (hplace : place.IsProper) {job : SheetJob} {file : Text}
    (h : job.sheetPath place = .ok file) : place.IsNormal file := by
  unfold SheetJob.sheetPath at h
  split at h
  · exact hplace.isNormal_normalText h
  · obtain ⟨p, hp, rfl⟩ := Except.map_eq_ok.mp h
    refine hplace.isNormal_normalForm ?_ hp
    intro part hpart
    obtain hmem | hmem := List.mem_append.mp hpart
    · exact hplace.workDir part hmem
    · rw [List.mem_singleton.mp hmem]
      decide

theorem sheetPath_of_compileRequest {job : SheetJob} {request : CompileRequest}
    (h : compileRequest site job = .ok (entry, includePaths, request)) :
    job.sheetPath site.place = .ok entry := by
  rw [compileRequest] at h
  split_ifs at h
  · obtain ⟨-, ⟨⟩, -⟩ := Except.bind_eq_ok.mp h
  · simp only [Except.bind_eq_ok] at h
    obtain ⟨file, hfile, paths, -, heads, -, h⟩ := h
    -- the file does not depend on where the text comes from
    have hentry : file = entry := by
      split at h
      · obtain ⟨directory, -, hinput⟩ := Except.bind_eq_ok.mp h
        exact (Prod.mk.inj (Except.ok.inj hinput)).1
      · exact (Prod.mk.inj (Except.ok.inj h)).1
    rw [← hentry]
    exact hfile

/-- The result of a compilation tells its record, which has begun with a normal entry. -/
theorem compile_sources (hplace : site.place.IsProper) {compiler : Compiler} {job : SheetJob}
    {hooks : Hooks σ} {s : σ} {compiled : Compiled}
    (h : (compile site compiler job hooks s).recorded.outcome = .ok compiled) :
    site.place.IsNormal compiled.sources.entry ∧
      ∃ includePaths requests,
        ⟨compiled.sources.files, compiled.sources.texts⟩ =
          recordAfter site compiled.sources.entry includePaths requests := by
  unfold compile at h
  rcases hrequest : compileRequest site job with e | ⟨entry, includePaths, request⟩
  · simp [hrequest, Recorded.fail] at h
  · rw [hrequest] at h
    obtain ⟨css, -, rfl⟩ := Except.map_eq_ok.mp h
    have hstart : ∃ requests, ImportRecord.start entry =
        recordAfter site entry includePaths requests := ⟨[], rfl⟩
    have hkeeps := compileHost_keeps_record site entry includePaths job.importers
      (job.functions.map Prod.snd) hooks
    obtain ⟨requests, hrecord⟩ :=
      @Host.Keeps.run _ _ _ _ hkeeps (compiler request) [] (.start entry, s) hstart
    refine ⟨?_, includePaths, requests, hrecord⟩
    exact isNormal_sheetPath hplace (sheetPath_of_compileRequest hrequest)

/-- Names that are normal and differ are their own normal forms. -/
theorem compiledFiles_eq {place : Place} {sheets : SourceSet}
    (hfirst : sheets.files.head? = some sheets.entry) (hnodup : sheets.files.Nodup)
    (hnormal : ∀ file ∈ sheets.files, place.IsNormal file) :
    compiledFiles place sheets = .ok (sheets.entry, sheets.files) := by
  obtain ⟨rest, hrest⟩ := List.head?_eq_some_iff.mp hfirst
  have hentry : place.normalText sheets.entry = .ok sheets.entry :=
    (hnormal _ (hrest ▸ List.mem_cons_self)).normalText
  have hfiles : sheets.files.mapM place.normalText = .ok sheets.files :=
    Except.mapM_eq_ok.mpr (List.map_congr_left fun file hfile => (hnormal file hfile).normalText)
  have honce : sheets.files.foldl Keyed.insertNew [sheets.entry] = sheets.files := by
    have hagain : sheets.files.foldl Keyed.insertNew [sheets.entry] =
        sheets.files.foldl Keyed.insertNew [] := by
      rw [hrest, List.foldl_cons, List.foldl_cons, Keyed.insertNew_of_mem List.mem_cons_self]
      rfl
    rw [hagain, Keyed.foldl_insertNew_of_nodup hnodup]
  unfold compiledFiles
  rw [hentry, hfiles]
  simp only [bind, Except.bind, honce]
  rfl

end Run

/-- Whatever is asked for, the record tells what was loaded: it only grows, a request that finds
nothing or fails leaves it as it is, and the files of a compilation are those of its record. -/
theorem recordAfter_tells {site : Site} {entry : Text} (includePaths : List Text)
    (hplace : site.place.IsProper) (hentry : ∃ name, site.place.normalText name = .ok entry)
    (requests : List LoadRequest) :
    (recordAfter site entry includePaths requests).Tells site.place entry
        (requests.flatMap (LoadRequest.loads site entry includePaths)) ∧
      (∀ request, (recordAfter site entry includePaths requests).files <+:
        (recordAfter site entry includePaths (requests ++ [request])).files) ∧
      (∀ request : LoadRequest,
        (∀ served, request.answer site entry includePaths = .ok (some served) → served = []) →
          recordAfter site entry includePaths (requests ++ [request]) =
            recordAfter site entry includePaths requests) ∧
      ∀ {σ : Type} {compiler : Compiler} {job : SheetJob} {hooks : Hooks σ} {s : σ}
        {compiled : Compiled},
        (compile site compiler job hooks s).recorded.outcome = .ok compiled →
          (∃ includePaths requests, ⟨compiled.sources.files, compiled.sources.texts⟩ =
            recordAfter site compiled.sources.entry includePaths requests) ∧
          compiledFiles site.place compiled.sources =
            .ok (compiled.sources.entry, compiled.sources.files) := by
  obtain ⟨name, hname⟩ := hentry
  have hnormal := hplace.isNormal_normalText hname
  refine ⟨tells_recordAfter includePaths hplace hnormal requests, ?_, ?_, ?_⟩
  · intro request
    rw [recordAfter_append_singleton hplace]
    exact ImportRecord.files_prefix_recordLoads _ _
  · intro request hrequest
    rw [recordAfter_append_singleton hplace, LoadRequest.loads_eq_nil hrequest]
    rfl
  · intro σ compiler job hooks s compiled hcompiled
    obtain ⟨hentry', includePaths', requests', hrecord⟩ := compile_sources hplace hcompiled
    have htells := tells_recordAfter includePaths' hplace hentry' requests'
    rw [← hrecord] at htells
    exact ⟨⟨includePaths', requests', hrecord⟩,
      compiledFiles_eq htells.first htells.nodup htells.normal⟩

/-- Two sheets on the disk, one of them in the indented notation. -/
def sampleDisk : Disk :=
  .ofFiles [("/work/_a.scss".toText, "$a: 1;\n".toList.map Char.toNat),
    ("/lib/b.sass".toText, "$b: 2\n".toList.map Char.toNat)]

def sampleSite : Site := ⟨sampleDisk, .alone (.ofText "/work".toText) (.ofText "/root".toText)⟩

/-- An importer that serves a file twice, once under a relative name, and a file without its text.
-/
def sampleImporter : Importer where
  positional := 1
  variadic := false
  answer path _ :=
    if path = "c".toText then
      .ok (some [⟨"x/../c.scss".toText, some "$c: 3;\n".toText⟩, ⟨"/lib/b.sass".toText, none⟩,
        ⟨"/work/c.scss".toText, some "$c: 4;\n".toText⟩])
    else .ok none

/-- Two look-ups on the disk that find a file, one that finds none, and the importer between them.
-/
def sampleRequests : List LoadRequest :=
  [⟨none, "a".toText, textSource⟩, ⟨some sampleImporter, "c".toText, "/work/_a.scss".toText⟩,
    ⟨none, "d".toText, textSource⟩, ⟨none, "b".toText, textSource⟩]

theorem recordAfter_sampleRequests :
    sampleSite.place.IsProper ∧
      (∃ name, sampleSite.place.normalText name = .ok "/work/main.scss".toText) ∧
      (recordAfter sampleSite "/work/main.scss".toText ["/lib".toText] sampleRequests).files =
        ["/work/main.scss".toText, "/work/_a.scss".toText, "/work/c.scss".toText,
          "/lib/b.sass".toText] ∧
      Keyed.get? "/work/c.scss".toText
          (recordAfter sampleSite "/work/main.scss".toText ["/lib".toText]
            sampleRequests).sources =
        some "$c: 4;\n".toText := by
  have hplace : sampleSite.place.IsProper :=
    ⟨by decide +kernel, by decide +kernel, by decide +kernel, nofun⟩
  have hentry : ∃ name, sampleSite.place.normalText name = .ok "/work/main.scss".toText :=
    ⟨"x/../main.scss".toText, rfl⟩
  obtain ⟨htells, -⟩ := recordAfter_tells ["/lib".toText] hplace hentry sampleRequests
  refine ⟨hplace, hentry, ?_, ?_⟩
  · rw [htells.files]
    decide +kernel
  · rw [htells.texts]
    decide +kernel

end StyleVars
