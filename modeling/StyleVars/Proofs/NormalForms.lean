import StyleVars.Proofs.LoadedFiles

/-!
# Normal forms of paths

Files are told apart by the texts of their paths, which therefore have to be written in one way
only. The normal form of a path is its root and the names below it, with single slashes between them
and nothing else (`Path.IsCanonical`); it stays as it is when it is taken again, and where a
directory stands in for its normal form, the paths that start from it lead to the same files
(`normalText_canonical`).
-/

namespace StyleVars

open StyleVars.Path

namespace Path

/-- The text starts at a root, and from there on it is made up of names with single slashes between
them: without empty parts, single dots and steps up, and without a slash at the end unless it is the
root alone. -/
structure IsCanonical (t : Text) : Prop where
  isAbsolute : (ofText t).isAbsolute
  isName : ∀ part ∈ (ofText t).parts, IsName part
  written : t = (ofText t).root.text ++ Text.join ['/'] (ofText t).parts
  slash_at_end : t.getLast? = some (.char '/') → t = (ofText t).root.text

theorem getLast?_join {parts : List Text} (hne : parts ≠ []) (h : ∀ part ∈ parts, IsPart part) :
    ∃ c, (Text.join ['/'] parts).getLast? = some c ∧ c ≠ '/' := by
  obtain hnil | ⟨before, last, rfl⟩ := List.eq_nil_or_concat' parts
  · exact absurd hnil hne
  · have hlast : IsPart last := h last (by simp)
    refine ⟨last.getLast hlast.ne_nil, ?_, ?_⟩
    · rw [join_concat, List.getLast?_append_of_ne_nil _ hlast.ne_nil,
        List.getLast?_eq_some_getLast hlast.ne_nil]
    · exact fun heq => hlast.2 (heq ▸ List.getLast_mem hlast.ne_nil)

/-- A root with names below it is written canonically. -/
theorem isCanonical_toText {p : Path} (habsolute : p.isAbsolute)
    (hnames : ∀ name ∈ p.parts, IsName name) : IsCanonical p.toText := by
  have hread : ofText p.toText = p := ofText_toText fun name hname => (hnames name hname).1
  have hroot : p.root ≠ .relative := by simpa [Path.isAbsolute] using habsolute
  have htext : p.toText = p.root.text ++ Text.join ['/'] p.parts := if_neg fun h => hroot h.1
  refine ⟨?_, ?_, ?_, ?_⟩ <;> rw [hread]
  · exact habsolute
  · exact hnames
  · exact htext
  · intro hslash
    by_cases hne : p.parts = []
    · rw [htext, hne]
      exact List.append_nil _
    · obtain ⟨c, hc, hnot⟩ := getLast?_join hne fun name hname => (hnames name hname).1
      rw [htext, List.getLast?_append, hc] at hslash
      exact absurd (Option.some.inj hslash) hnot

end Path

namespace Place

variable {place : Place}

/-- Where the home directory is known that it starts from, a path has a normal form, which is
canonical. -/
theorem IsProper.exists_normalText (h : place.IsProper) {t : Text} {expanded : Path}
    (hexpanded : place.expandHome (ofText t) = .ok expanded) :
    ∃ file, place.normalText t = .ok file ∧ IsCanonical file ∧
      (ofText file).root = (place.workDir.join expanded).root := by
  have hnames : ∀ name ∈ (place.absolute expanded).parts, IsName name :=
    h.isName_absolute (h.isPart_expandHome (fun _ => isPart_of_mem_ofText) hexpanded)
  refine ⟨(place.absolute expanded).toText, ?_,
    isCanonical_toText (h.isAbsolute_join expanded) hnames, ?_⟩
  · rw [Place.normalText, Place.normalForm, hexpanded]
    rfl
  · rw [ofText_toText fun name hname => (hnames name hname).1]
    rfl

/-- It does not matter whether a relative path starts from a directory or from its normal form. -/
theorem exists_normalText_join (place : Place) {d p : Text} (hd : (ofText d).isAbsolute)
    (hp : (ofText p).isAbsolute = false) :
    ∃ directory file, place.normalText d = .ok directory ∧
      place.normalText ((ofText directory).join (ofText p)).toText = .ok file ∧
      place.normalText ((ofText d).join (ofText p)).toText = .ok file := by
  have hofText : ∀ t, ∀ part ∈ (ofText t).parts, IsPart part := fun _ _ => isPart_of_mem_ofText
  have hcollapse : ∀ part ∈ (ofText d).collapse.parts, IsPart part :=
    fun part hpart => hofText d part (mem_collapse hd hpart).2
  have hjoin : ∀ q : Path, q.isAbsolute → (q.join (ofText p)).isAbsolute := by
    intro q hq
    rw [join, hp]
    exact hq
  refine ⟨(ofText d).collapse.toText, ((ofText d).join (ofText p)).collapse.toText, ?_, ?_, ?_⟩
  · rw [Place.normalText, normalForm_of_isAbsolute place hd]
    rfl
  · rw [ofText_toText hcollapse, place.normalText_toText (hjoin (ofText d).collapse hd)
      (isPart_join hcollapse (hofText p)), collapse_collapse_join hd hp]
  · exact place.normalText_toText (hjoin (ofText d) hd) (isPart_join (hofText d) (hofText p))

end Place

/-- The normal form of a path is canonical and starts at the root of the path; it is its own normal
form. A relative path leads to the same file from a directory and from its normal form. -/
theorem normalText_canonical {place : Place} (h : place.IsProper) :
    (∀ t expanded, place.expandHome (ofText t) = .ok expanded →
      ∃ file, place.normalText t = .ok file ∧ place.normalText file = .ok file ∧
        IsCanonical file ∧ (ofText file).root = (place.workDir.join expanded).root) ∧
    ∀ d p, (ofText d).isAbsolute → (ofText p).isAbsolute = false →
      ∃ directory file, place.normalText d = .ok directory ∧
        place.normalText ((ofText directory).join (ofText p)).toText = .ok file ∧
        place.normalText ((ofText d).join (ofText p)).toText = .ok file := by
  refine ⟨fun t expanded hexpanded => ?_, fun d p => place.exists_normalText_join⟩
  obtain ⟨file, hfile, hcanonical⟩ := h.exists_normalText hexpanded
  exact ⟨file, hfile, (h.isNormal_normalText hfile).normalText, hcanonical⟩

/-- A place whose home directory is below two slashes, and where one other user is known. -/
def sharedHome : Place where
  workDir := .ofText "/srv/site".toText
  home := .ofText "//host/home".toText
  homes user := if user = "ann".toText then some (.ofText "/home/../ann".toText) else none

theorem normalText_canonical_sharedHome :
    sharedHome.IsProper ∧
    (∃ file, sharedHome.normalText "~/./a/..//../../../b~/".toText = .ok file ∧
      file = "//b~".toText ∧ IsCanonical file) ∧
    (∃ file, sharedHome.normalText "~ann//x/../~/".toText = .ok file ∧
      file = "/ann/~".toText ∧ IsCanonical file) ∧
    ∃ directory file, sharedHome.normalText "/../c//d/../e/".toText = .ok directory ∧
      directory = "/c/e".toText ∧ file = "/c/~/f".toText ∧
      sharedHome.normalText ((ofText directory).join (ofText ".././~/f".toText)).toText =
        .ok file := by
  have hproper : sharedHome.IsProper := by
    refine ⟨by decide, by decide, by decide, fun user home hhome => ?_⟩
    simp only [sharedHome] at hhome
    split_ifs at hhome
    obtain rfl := Option.some.inj hhome
    decide
  have hexpand : sharedHome.expandHome (ofText "~/./a/..//../../../b~/".toText) =
      .ok (ofText "//host/home/a/../../../../b~".toText) := by rfl
  have hother : sharedHome.expandHome (ofText "~ann//x/../~/".toText) =
      .ok (ofText "/home/../ann/x/../~".toText) := by rfl
  obtain ⟨hnormal, hjoin⟩ := normalText_canonical hproper
  obtain ⟨own, hown, -, hcanonical, -⟩ := hnormal _ _ hexpand
  obtain ⟨others, hothers, -, hcanonical', -⟩ := hnormal _ _ hother
  obtain ⟨directory, file, hdirectory, hfile, hfile'⟩ :=
    hjoin "/../c//d/../e/".toText ".././~/f".toText (by decide) (by decide)
  refine ⟨hproper, ⟨own, hown, ?_, hcanonical⟩, ⟨others, hothers, ?_, hcanonical'⟩, directory, file,
    hdirectory, ?_, ?_, hfile⟩
  · exact Except.ok.inj (hown.symm.trans (by rfl))
  · exact Except.ok.inj (hothers.symm.trans (by rfl))
  · exact Except.ok.inj (hdirectory.symm.trans (by rfl))
  · exact Except.ok.inj (hfile'.symm.trans (by rfl))

end StyleVars
