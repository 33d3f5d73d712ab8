import StyleVars.Proofs.PathSpellings

/-!
# Names of style sheets

The path of an import is usually written as some steps up, some folders and a name, with or without
an ending (`SheetPath`). It can mean twelve sheets in a directory: partial or not, with each of the
endings, or the index of a folder (`SheetPath.sheetsIn`). The spellings of a known file agree with
that (`SheetPath.mem_fileSpellings_iff`), provided that the path does not go up and down the same
way.
-/

namespace StyleVars

open StyleVars.Path

/-! ## Paths of imports -/

/-- A path as it is usually written in an import: references to the current directory, steps up,
folders, and a name with or without an ending. -/
structure SheetPath where
  currents : Nat
  ups : Nat
  folders : List Text
  name : Text
  ending : Text

namespace SheetPath

/-- The way to the folder of the path and on to the given parts. -/
def way (p : SheetPath) (last : List Text) : Path :=
  ⟨.relative, (List.replicate p.ups up ++ p.folders) ++ last⟩

/-- The path as it is written. -/
def text (p : SheetPath) : Text :=
  (List.replicate p.currents [CodePoint.char '.', .char '/']).flatten ++
    (p.way [p.name ++ p.ending]).toText

/-- The names of the sheets that the path can mean, in the order in which they are tried. -/
def forms (p : SheetPath) : List (List Text) :=
  sheetExtensions.flatMap (fun ending => [[.char '_' :: (p.name ++ ending)], [p.name ++ ending]]) ++
    sheetExtensions.flatMap fun ending =>
      [[p.name, "_index".toText ++ ending], [p.name, "index".toText ++ ending]]

/-- The sheets that the path can mean in a directory. -/
def sheetsIn (p : SheetPath) (directory : Text) : List Text :=
  p.forms.map fun form => ((ofText directory).join (p.way form)).collapse.toText

/-- Folders and name are names without white space at their ends, and the name has neither the
underscore of a partial nor an ending of its own, unless one follows it. -/
structure IsUsual (p : SheetPath) : Prop where
  folders : ∀ folder ∈ p.folders, IsName folder ∧ IsTrimmed folder
  name : IsName p.name ∧ IsTrimmed p.name
  mark : p.name.head? ≠ some (.char '_')
  ending : p.ending = ".scss".toText ∨ p.ending = indentedExtension ∨
    p.ending = [] ∧ stripExtension p.name = p.name

/-- From the directory `b` the path is the shortest way to each of its sheets: it does not go up and
down the same way. -/
def IsDirect (p : SheetPath) (b : Path) : Prop :=
  ∀ form ∈ p.forms, relativeTo b (b.join (p.way form)).collapse = p.way form

theorem mem_forms_iff {p : SheetPath} (h : p.name.head? ≠ some (.char '_')) {form : List Text} :
    form ∈ p.forms ↔ ∃ ending ∈ sheetExtensions, ∃ stem,
      (dropMark stem = p.name ∧ form = [stem ++ ending]) ∨
        (dropMark stem = "index".toText ∧ form = [p.name, stem ++ ending]) := by
  have hindex : ∀ stem, dropMark stem = "index".toText ↔
      stem = "index".toText ∨ stem = .char '_' :: "index".toText :=
    fun stem => dropMark_eq_iff (by decide)
  simp only [forms, List.mem_append, List.mem_flatMap, List.mem_cons, List.not_mem_nil, or_false,
    dropMark_eq_iff h, hindex]
  constructor
  · rintro (⟨ending, hending, rfl | rfl⟩ | ⟨ending, hending, rfl | rfl⟩)
    · exact ⟨ending, hending, .char '_' :: p.name, .inl ⟨.inr rfl, rfl⟩⟩
    · exact ⟨ending, hending, p.name, .inl ⟨.inl rfl, rfl⟩⟩
    · exact ⟨ending, hending, "_index".toText, .inr ⟨.inr rfl, rfl⟩⟩
    · exact ⟨ending, hending, "index".toText, .inr ⟨.inl rfl, rfl⟩⟩
  · rintro ⟨ending, hending, stem, ⟨rfl | rfl, rfl⟩ | ⟨rfl | rfl, rfl⟩⟩
    · exact .inl ⟨ending, hending, .inr rfl⟩
    · exact .inl ⟨ending, hending, .inl rfl⟩
    · exact .inr ⟨ending, hending, .inr rfl⟩
    · exact .inr ⟨ending, hending, .inl rfl⟩

variable {p : SheetPath}

theorem IsUsual.mem_endings (h : p.IsUsual) :
    p.ending ∈ sheetExtensions ∨ p.ending = [] ∧ stripExtension p.name = p.name := by
  obtain hending | hending | hending := h.ending
  · exact .inl (hending ▸ by decide)
  · exact .inl (hending ▸ by decide)
  · exact .inr hending

theorem IsUsual.isTrimmed_last (h : p.IsUsual) :
    IsName (p.name ++ p.ending) ∧ IsTrimmed (p.name ++ p.ending) :=
  ⟨isName_append h.name.1 (h.mem_endings.imp_right And.left),
    isTrimmed_append h.name.1.1.ne_nil h.name.2 (h.mem_endings.imp_right And.left)⟩

/-- How the path of an import is spelled. -/
theorem spelling_text (h : p.IsUsual) : spelling p.text = p.way [p.name] := by
  have htext : p.text = writtenPath p.currents (List.replicate p.ups up ++ p.folders)
      (p.name ++ p.ending) := by
    rw [text, way, toText_concat]
    rfl
  have htrimmed := isTrimmed_writtenPath (isTrimmed_of_mem_ups_append h.folders p.ups) p.currents
    h.isTrimmed_last.2
  have hmark : dropMark p.name = p.name := (dropMark_eq_iff h.mark).mpr (.inl rfl)
  rw [htext, spelling_writtenPath p.ups (fun name hname => (h.folders name hname).1) h.name.1
    h.mem_endings htrimmed.strip, hmark]
  rfl

end SheetPath

/-- The text of an absolute path to a sheet whose parts have no white space at their ends. -/
inductive IsSheetFile : Text → Prop
  | mk {folders : List Text} {stem ending : Text}
    (hfolders : ∀ folder ∈ folders, IsName folder ∧ IsTrimmed folder)
    (hstem : IsName (dropMark stem)) (htrimmed : IsTrimmed stem)
    (hending : ending ∈ sheetExtensions) :
    IsSheetFile (⟨.slash, folders ++ [stem ++ ending]⟩ : Path).toText

namespace SheetPath

variable {p : SheetPath}

/-- A sheet is spelled like the path, for itself or for its folder, exactly when it has one of the
names that the path can mean. -/
theorem way_eq_iff (h : p.IsUsual) {parts : List Text} {stem ending : Text}
    (hending : ending ∈ sheetExtensions) :
    (p.way [p.name] = ⟨.relative, parts ++ [dropMark stem]⟩ ∨
        dropMark stem = "index".toText ∧ p.way [p.name] = ⟨.relative, parts⟩) ↔
      ∃ form ∈ p.forms, (⟨.relative, parts ++ [stem ++ ending]⟩ : Path) = p.way form := by
  have hcons : ∀ {as bs : List Text} {a b : Text}, as ++ [a] = bs ++ [b] → as = bs ∧ a = b := by
    intro as bs a b heq
    obtain ⟨hinit, hlast⟩ := List.append_inj' heq rfl
    exact ⟨hinit, List.singleton_inj.mp hlast⟩
  -- the ending is stripped from the name of a sheet again
  have hstem : ∀ {stem' ending' : Text}, ending' ∈ sheetExtensions →
      stem ++ ending = stem' ++ ending' → stem = stem' := by
    intro stem' ending' hending' heq
    rw [← stripExtension_append hending stem, heq, stripExtension_append hending']
  have hindex : ∀ last : Text, p.way [p.name, last] =
      ⟨.relative, (p.way [p.name]).parts ++ [last]⟩ := by
    intro last
    simp [way]
  constructor
  · rintro (heq | ⟨hmark, heq⟩)
    · obtain ⟨hparts, hname⟩ := hcons (Path.mk.inj heq).2
      refine ⟨[stem ++ ending], ?_, ?_⟩
      · exact (mem_forms_iff h.mark).mpr ⟨ending, hending, stem, .inl ⟨hname.symm, rfl⟩⟩
      · rw [way, hparts]
    · refine ⟨[p.name, stem ++ ending], ?_, ?_⟩
      · exact (mem_forms_iff h.mark).mpr ⟨ending, hending, stem, .inr ⟨hmark, rfl⟩⟩
      · rw [hindex, heq]
  · rintro ⟨form, hform, heq⟩
    obtain ⟨ending', hending', stem', ⟨hmark, rfl⟩ | ⟨hmark, rfl⟩⟩ :=
      (mem_forms_iff h.mark).mp hform
    · obtain ⟨hparts, hlast⟩ := hcons (Path.mk.inj heq).2
      rw [hstem hending' hlast, hmark, hparts]
      exact .inl rfl
    · rw [hindex] at heq
      obtain ⟨hparts, hlast⟩ := hcons (Path.mk.inj heq).2
      rw [hstem hending' hlast, hparts]
      exact .inr ⟨hmark, rfl⟩

theorem isName_of_mem_forms (h : p.IsUsual) {form : List Text} (hform : form ∈ p.forms) :
    form ≠ [] ∧ ∀ part ∈ form, IsName part := by
  obtain ⟨ending, hending, stem, ⟨hmark, rfl⟩ | ⟨hmark, rfl⟩⟩ := (mem_forms_iff h.mark).mp hform
  · have hstem : IsName stem := isName_of_dropMark (hmark ▸ h.name.1)
    refine ⟨by simp, fun part hpart => ?_⟩
    rw [List.mem_singleton.mp hpart]
    exact isName_append hstem (.inl hending)
  · have hstem : IsName stem := isName_of_dropMark (hmark ▸ by decide)
    refine ⟨by simp, fun part hpart => ?_⟩
    obtain rfl | hpart := List.mem_cons.mp hpart
    · exact h.name.1
    · rw [List.mem_singleton.mp hpart]
      exact isName_append hstem (.inl hending)

theorem IsUsual.isPart_way (h : p.IsUsual) {last : List Text} (hlast : ∀ part ∈ last, IsName part) :
    ∀ part ∈ (p.way last).parts, IsPart part := by
  intro part hpart
  obtain hpart | hpart := List.mem_append.mp hpart
  · exact (isTrimmed_of_mem_ups_append h.folders p.ups part hpart).1
  · exact (hlast part hpart).1

/-- Steps up alone are no way to a name. -/
theorem way_ne_ups {last : List Text} (hne : last ≠ []) (hlast : ∀ part ∈ last, IsName part)
    (count : Nat) : p.way last ≠ ⟨.relative, List.replicate count up⟩ := by
  intro heq
  obtain ⟨part, rest, rfl⟩ := List.exists_cons_of_ne_nil hne
  have hmem : part ∈ (p.way (part :: rest)).parts :=
    List.mem_append_right _ List.mem_cons_self
  rw [heq] at hmem
  exact (hlast part List.mem_cons_self).2 (List.mem_replicate.mp hmem).2

end SheetPath

/-- A path to a sheet is collapsed. -/
theorem IsSheetFile.spec {file : Text} (h : IsSheetFile file) :
    ∃ folders stem ending, ofText file = ⟨.slash, folders ++ [stem ++ ending]⟩ ∧
      (ofText file).collapse = ofText file ∧ (ofText file).toText = file ∧ file ≠ [] ∧
      (∀ folder ∈ folders, IsName folder ∧ IsTrimmed folder) ∧ IsName (dropMark stem) ∧
      IsTrimmed stem ∧ ending ∈ sheetExtensions := by
  obtain @⟨folders, stem, ending, hfolders, hstem, htrimmed, hending⟩ := h
  have hnames : ∀ part ∈ folders ++ [stem ++ ending], IsName part := by
    intro part hpart
    obtain hpart | hpart := List.mem_append.mp hpart
    · exact (hfolders part hpart).1
    · rw [List.mem_singleton.mp hpart]
      exact isName_append (isName_of_dropMark hstem) (.inl hending)
  have hread := ofText_toText (p := ⟨.slash, folders ++ [stem ++ ending]⟩)
    fun part hpart => (hnames part hpart).1
  have hcollapse := collapse_of_names (p := ⟨.slash, folders ++ [stem ++ ending]⟩)
    fun part hpart => (hnames part hpart).2
  refine ⟨folders, stem, ending, hread, ?_, ?_, ?_, hfolders, hstem, htrimmed, hending⟩
  · rw [hread, hcollapse]
  · rw [hread]
  · simp [toText, Root.text]

theorem IsSheetFile.ne_nil {file : Text} (h : IsSheetFile file) : file ≠ [] := by
  obtain ⟨-, -, -, -, -, -, hne, -⟩ := h.spec
  exact hne

/-- The directory of a sheet. -/
theorem IsSheetFile.parent_eq {file : Text} (h : IsSheetFile file) :
    (ofText file).collapse.parent.toText = directoryText file := by
  obtain ⟨folders, stem, ending, hread, hcollapse, htext, -, hfolders, hstem, -, hending⟩ := h.spec
  have hlast : IsName (stem ++ ending) := isName_append (isName_of_dropMark hstem) (.inl hending)
  have hdirectory := directoryText_toText (fun folder hfolder => (hfolders folder hfolder).1.1)
    hlast.1.2
  rw [← hread, htext] at hdirectory
  rw [hdirectory, hcollapse, hread]
  simp [parent]

namespace SheetPath

variable {p : SheetPath}

/-- The spellings of a sheet that is reached by going up and down. -/
theorem fileSpellings_of_relativeTo {place : Place} {file directory : Text} (hne : file ≠ [])
    {q : Path} (hspelling : spelling (relativeTo (place.absolute (.ofText directory))
      (place.absolute (.ofText file))).toText = q) :
    fileSpellings place file directory =
      .ok (if q.name = "index".toText ∧ (q.isAbsolute ∨ 1 < q.parts.length) then
        [q.toText, q.parent.toText] else [q.toText]) := by
  unfold fileSpellings
  simp only [hspelling, if_neg hne]
  split_ifs <;> rfl

/-- The path is one of the spellings of a sheet exactly when it is written like the sheet, or like
its folder when the sheet is the index. -/
theorem mem_spellings_iff (h : p.IsUsual) {parts : List Text} {stem : Text}
    (hparts : ∀ part ∈ parts, IsPart part) (hstem : IsName (dropMark stem)) {q : Path}
    (hq : q = ⟨.relative, parts ++ [dropMark stem]⟩) :
    spellingText p.text ∈ (if q.name = "index".toText ∧ (q.isAbsolute ∨ 1 < q.parts.length) then
        [q.toText, q.parent.toText] else [q.toText]) ↔
      p.way [p.name] = q ∨
        dropMark stem = "index".toText ∧ p.way [p.name] = ⟨.relative, parts⟩ := by
  have hname : ∀ part ∈ [p.name], IsName part := by simpa using h.name.1
  have hall : ∀ part ∈ q.parts, IsPart part := by
    intro part hpart
    rw [hq] at hpart
    obtain hpart | hpart := List.mem_append.mp hpart
    · exact hparts part hpart
    · rw [List.mem_singleton.mp hpart]
      exact hstem.1
  have hlast : q.name = dropMark stem := by simp [hq, Path.name]
  have hparent : q.parent = ⟨.relative, parts⟩ := by simp [hq, parent]
  rw [spellingText, spelling_text h, hlast, hparent]
  split_ifs with hindex
  · rw [List.mem_pair, toText_inj (h.isPart_way hname) hall,
      toText_inj (h.isPart_way hname) hparts]
    exact or_congr_right ⟨fun heq => ⟨hindex.1, heq⟩, And.right⟩
  · rw [List.mem_singleton, toText_inj (h.isPart_way hname) hall]
    refine ⟨.inl, fun hor => hor.resolve_right ?_⟩
    -- the way to the sheet has a name, so the folder is not the directory itself
    rintro ⟨hmark, heq⟩
    refine hindex ⟨hmark, .inr ?_⟩
    have hpos : 0 < parts.length := by
      rw [← (Path.mk.inj heq).2, List.length_append, List.length_singleton]
      omega
    rw [hq, List.length_append, List.length_singleton]
    omega

/-- A known sheet has the spelling of the path in a directory exactly when the way from there to the
sheet is one that the path can mean. -/
theorem mem_fileSpellings_iff (h : p.IsUsual) (place : Place) {file directory : Text}
    (hfile : IsSheetFile file) (hdirectory : (ofText directory).root = .slash) :
    ∃ spellings, fileSpellings place file directory = .ok spellings ∧
      (spellingText p.text ∈ spellings ↔
        ∃ form ∈ p.forms, relativeTo (ofText directory).collapse (ofText file) = p.way form) := by
  obtain ⟨folders, stem, ending, hread, hcollapse, -, hne, hfolders, hstem, htrimmed, hending⟩ :=
    hfile.spec
  have hdirectory' : (ofText directory).isAbsolute := by simp [isAbsolute, hdirectory]
  have hfile' : (ofText file).isAbsolute := by simp [isAbsolute, hread]
  have habsolute : relativeTo (place.absolute (.ofText directory)) (place.absolute (.ofText file)) =
      relativeTo (ofText directory).collapse (ofText file) := by
    rw [absolute_of_isAbsolute place hdirectory', absolute_of_isAbsolute place hfile', hcollapse]
  obtain ⟨count, names, hrelative, hparts⟩ :=
    relativeTo_spec (ofText directory).collapse (ofText file)
  rw [hrelative] at habsolute ⊢
  rcases List.eq_nil_or_concat names with rfl | ⟨inner, last, rfl⟩
  · -- the directory lies below the sheet, and none of the names leads there
    rw [List.append_nil] at habsolute ⊢
    have hspellings := fileSpellings_of_relativeTo (q := ⟨.relative, List.replicate count up⟩) hne
      (by rw [habsolute, spelling_ups])
    refine ⟨_, hspellings, ?_⟩
    have hname : ∀ part ∈ [p.name], IsName part := by simpa using h.name.1
    have hindex : (⟨.relative, List.replicate count up⟩ : Path).name ≠ "index".toText := by
      cases count <;> simp [Path.name, List.getLast?_replicate] <;> decide
    rw [if_neg fun hand => hindex hand.1, List.mem_singleton, spellingText, spelling_text h,
      toText_inj (h.isPart_way hname) fun part hpart => isPart_of_mem_ups hpart]
    refine iff_of_false (way_ne_ups (by simp) hname count) ?_
    rintro ⟨form, hform, heq⟩
    obtain ⟨hform', hnames⟩ := isName_of_mem_forms h hform
    exact way_ne_ups hform' hnames count heq.symm
  · rw [List.concat_eq_append] at habsolute hparts ⊢
    rw [hread, ← List.append_assoc] at hparts
    obtain ⟨hfolders', hlast⟩ := List.append_inj' hparts rfl
    obtain rfl := List.singleton_inj.mp hlast
    have hinner : ∀ folder ∈ inner, IsName folder ∧ IsTrimmed folder := by
      intro folder hfolder
      refine hfolders folder ?_
      rw [hfolders']
      exact List.mem_append_right _ hfolder
    have hstem' : IsName stem := isName_of_dropMark hstem
    have hspelling := spelling_toText count hinner hstem' (.inl hending)
      (isTrimmed_append hstem'.1.ne_nil htrimmed (.inl hending))
    rw [← List.append_assoc] at habsolute ⊢
    rw [← habsolute] at hspelling
    refine ⟨_, fileSpellings_of_relativeTo hne hspelling, ?_⟩
    rw [← way_eq_iff h hending]
    exact mem_spellings_iff h
      (fun part hpart => (isTrimmed_of_mem_ups_append hinner count part hpart).1) hstem rfl

/-! ## Sheets in a directory -/

theorem isPart_collapse_join (h : p.IsUsual) {directory : Text}
    (hdirectory : (ofText directory).isAbsolute) {form : List Text} (hform : form ∈ p.forms) :
    ∀ part ∈ ((ofText directory).join (p.way form)).collapse.parts, IsPart part := by
  intro part hpart
  have hjoin : (ofText directory).join (p.way form) =
      ⟨(ofText directory).root, (ofText directory).parts ++ (p.way form).parts⟩ := rfl
  have habsolute : ((ofText directory).join (p.way form)).isAbsolute := hdirectory
  have hmem := (mem_collapse habsolute hpart).2
  rw [hjoin] at hmem
  obtain hmem | hmem := List.mem_append.mp hmem
  · exact isPart_of_mem_ofText hmem
  · exact h.isPart_way (isName_of_mem_forms h hform).2 part hmem

/-- From a directory that the path leads from directly, the sheets are those that it is the way to.
-/
theorem mem_sheetsIn_iff (h : p.IsUsual) {file directory : Text} (hfile : IsSheetFile file)
    (hdirectory : (ofText directory).root = .slash)
    (hdirect : p.IsDirect (ofText directory).collapse) :
    file ∈ p.sheetsIn directory ↔
      ∃ form ∈ p.forms, relativeTo (ofText directory).collapse (ofText file) = p.way form := by
  have habsolute : (ofText directory).isAbsolute := by simp [isAbsolute, hdirectory]
  have hjoin : ∀ form, ((ofText directory).collapse.join (p.way form)).collapse =
      ((ofText directory).join (p.way form)).collapse :=
    fun form => collapse_collapse_join habsolute rfl
  rw [sheetsIn, List.mem_map]
  refine exists_congr fun form => and_congr_right fun hform => ?_
  constructor
  · rintro rfl
    rw [ofText_toText (isPart_collapse_join h habsolute hform), ← hjoin]
    exact hdirect form hform
  · intro heq
    obtain ⟨folders, stem, ending, hread, hcollapse, htext, -⟩ := hfile.spec
    have hnames : ∀ name ∈ (ofText file).parts, name ≠ up := by
      intro name hname
      rw [← hcollapse] at hname
      exact (mem_collapse (by simp [isAbsolute, hread]) hname).1
    have hroot : (ofText directory).collapse.root = (ofText file).root := by
      rw [hread]
      exact hdirectory
    have hback := collapse_join_relativeTo (b := (ofText directory).collapse) (t := ofText file)
      habsolute (fun name hname => (mem_collapse habsolute hname).1) hnames hroot
    rw [heq, hjoin] at hback
    rw [hback, htext]

/-- A path that only goes down is direct. -/
theorem isDirect_of_ups (h : p.IsUsual) (hups : p.ups = 0) {b : Path} (hb : b.isAbsolute)
    (hnames : ∀ name ∈ b.parts, name ≠ up) : p.IsDirect b := by
  intro form hform
  have hdown : ∀ name ∈ p.folders ++ form, name ≠ up := by
    intro name hname
    obtain hname | hname := List.mem_append.mp hname
    · exact (h.folders name hname).1.2
    · exact ((isName_of_mem_forms h hform).2 name hname).2
  have hway : p.way form = ⟨.relative, List.replicate 0 up ++ (p.folders ++ form)⟩ := by
    simp [way, hups]
  rw [hway, collapse_join hb hnames hdown, Nat.sub_zero, List.take_length, relativeTo]
  have hdrop := dropCommon_append b.parts [] (p.folders ++ form)
  rw [List.append_nil, dropCommon_nil] at hdrop
  simp only [hdrop]
  rfl

/-! ## Looking up on the disk -/

theorem ofText_text (h : p.IsUsual) : ofText p.text = p.way [p.name ++ p.ending] := by
  have hlast : ∀ part ∈ [p.name ++ p.ending], IsName part := by simpa using h.isTrimmed_last.1
  have hread := ofText_toText (h.isPart_way hlast)
  have hroot : rootOf (p.way [p.name ++ p.ending]).toText = .relative := congrArg Path.root hread
  rw [text, (ofText_flatten hroot p.currents).2, hread]

/-- The ending of a path is its extension, and without an ending there is no extension of a sheet in
the notations that can be imported. -/
theorem extension_text (h : p.IsUsual) :
    (extension (p.name ++ p.ending) = ".scss".toText ∨
        extension (p.name ++ p.ending) = indentedExtension) ∧ p.ending ∈ sheetExtensions ∨
      ¬(extension (p.name ++ p.ending) = ".scss".toText ∨
        extension (p.name ++ p.ending) = indentedExtension) ∧ p.ending = [] := by
  obtain hending | hending | ⟨hnil, hself⟩ := h.ending
  · refine .inl ⟨.inl ?_, hending ▸ by decide⟩
    rw [hending]
    exact @extension_append _ h.name.1.1.ne_nil "scss".toText (by decide) (by decide)
  · refine .inl ⟨.inr ?_, hending ▸ by decide⟩
    rw [hending]
    exact @extension_append _ h.name.1.1.ne_nil "sass".toText (by decide) (by decide)
  · refine .inr ⟨?_, hnil⟩
    rw [hnil, List.append_nil]
    have hnot := stripExtension_eq_self_iff.mp hself
    have hsuffix := extension_suffix p.name
    rintro (heq | heq)
    · exact hnot _ (by decide) (heq ▸ hsuffix)
    · exact hnot _ (by decide) (heq ▸ hsuffix)

/-- The sheets that are looked for on the disk are some of those that the path can mean. -/
theorem mem_possibleFiles (h : p.IsUsual) {q : Path} (hq : q ∈ possibleFiles p.text) :
    ∃ form ∈ p.forms, q = p.way form := by
  have hname : (p.way [p.name ++ p.ending]).name = p.name ++ p.ending := by simp [Path.name, way]
  have hsibling : ∀ other, (p.way [p.name ++ p.ending]).parent.child other = p.way [other] := by
    intro other
    simp [way, parent, child]
  have hunder : ∀ other, (p.way [p.name]).child other = p.way [p.name, other] := by
    intro other
    simp [way, child]
  unfold possibleFiles at hq
  simp only [ofText_text h, hname, hsibling] at hq
  simp only [forms, List.mem_append, List.mem_flatMap, List.mem_cons, List.not_mem_nil, or_false]
  obtain ⟨hextension, hending⟩ | ⟨hextension, hnil⟩ := extension_text h
  · rw [if_pos hextension, List.mem_pair] at hq
    obtain rfl | rfl := hq
    · exact ⟨_, .inl ⟨p.ending, hending, .inl rfl⟩, rfl⟩
    · exact ⟨_, .inl ⟨p.ending, hending, .inr rfl⟩, rfl⟩
  · rw [if_neg hextension] at hq
    simp only [hnil, List.append_nil, hunder, List.mem_append, List.mem_flatMap, List.mem_cons,
      List.not_mem_nil, or_false] at hq
    obtain ⟨ending, hending, rfl | rfl⟩ | ⟨ending, hending, rfl | rfl⟩ := hq
    · exact ⟨_, .inl ⟨ending, hending, .inl rfl⟩, rfl⟩
    · exact ⟨_, .inl ⟨ending, hending, .inr rfl⟩, rfl⟩
    · exact ⟨_, .inr ⟨ending, hending, .inl rfl⟩, rfl⟩
    · exact ⟨_, .inr ⟨ending, hending, .inr rfl⟩, rfl⟩

/-- A file that is found is one of the sheets of a directory. -/
theorem exists_mem_sheetsIn (h : p.IsUsual) {disk : Disk} {place : Place}
    {directories : List Text} (hdirectories : ∀ d ∈ directories, (ofText d).root = .slash)
    {found : Text} (hfound : locateImport disk place p.text directories = .ok (some found)) :
    ∃ directory ∈ directories, found ∈ p.sheetsIn directory := by
  unfold locateImport at hfound
  simp only at hfound
  split_ifs at hfound with hplain
  · simp at hfound
  · split at hfound
    · simp at hfound
    · rename_i location hlocation
      obtain ⟨directory, hdirectory, hmem⟩ :=
        List.mem_flatMap.mp (List.mem_of_find?_eq_some hlocation)
      obtain ⟨q, hq, rfl⟩ := List.mem_map.mp hmem
      obtain ⟨form, hform, rfl⟩ := mem_possibleFiles h hq
      have habsolute : ((ofText directory).join (p.way form)).isAbsolute := by
        have hroot : ((ofText directory).join (p.way form)).root = (ofText directory).root := rfl
        simp [isAbsolute, hroot, hdirectories directory hdirectory]
      rw [normalForm_of_isAbsolute place habsolute] at hfound
      refine ⟨directory, hdirectory, List.mem_map.mpr ⟨form, hform, ?_⟩⟩
      exact Option.some.inj (Except.ok.inj hfound)

end SheetPath

end StyleVars
