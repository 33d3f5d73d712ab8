import StyleVars.Path.Place
import Mathlib.Data.List.TakeDrop
import Mathlib.Tactic.SplitIfs

/-!
# Texts of paths

A path that has been written is read again as itself (`Path.ofText_toText`). An absolute path that
is collapsed has no steps up, and the path from a directory to a file leads back to the file
(`Path.collapse_join_relativeTo`).
-/

namespace StyleVars

/-! ## Pieces of a text -/

namespace Text

variable {sep : CodePoint} {t : Text}

theorem splitOn_ne_nil (sep : CodePoint) (t : Text) : splitOn sep t ≠ [] := by
  cases t with
  | nil => simp [splitOn]
  | cons c rest =>
    rw [splitOn]
    split
    · simp
    · split_ifs <;> simp

theorem splitOn_cons_sep (sep : CodePoint) (t : Text) :
    splitOn sep (sep :: t) = [] :: splitOn sep t := by
  obtain ⟨piece, rest, h⟩ := List.exists_cons_of_ne_nil (splitOn_ne_nil sep t)
  rw [splitOn, h]
  exact if_pos rfl

theorem splitOn_of_notMem (h : sep ∉ t) : splitOn sep t = [t] := by
  induction t with
  | nil => rfl
  | cons c rest ih =>
    have hc : c ≠ sep := fun heq => h (heq ▸ List.mem_cons_self)
    rw [splitOn, ih fun hmem => h (List.mem_cons_of_mem _ hmem)]
    exact if_neg hc

/-- The pieces of a text go on behind a separator. -/
theorem splitOn_append_sep (sep : CodePoint) (a b : Text) :
    splitOn sep (a ++ sep :: b) = splitOn sep a ++ splitOn sep b := by
  induction a with
  | nil => exact splitOn_cons_sep sep b
  | cons c a ih =>
    obtain ⟨piece, rest, h⟩ := List.exists_cons_of_ne_nil (splitOn_ne_nil sep a)
    rw [List.cons_append, splitOn, ih, h, splitOn, h]
    split_ifs <;> rfl

theorem notMem_of_mem_splitOn {piece : Text} (h : piece ∈ splitOn sep t) : sep ∉ piece := by
  induction t generalizing piece with
  | nil =>
    rw [splitOn, List.mem_singleton] at h
    rw [h]
    exact List.not_mem_nil
  | cons c rest ih =>
    obtain ⟨first, others, hsplit⟩ := List.exists_cons_of_ne_nil (splitOn_ne_nil sep rest)
    have hrest : ∀ other ∈ first :: others, sep ∉ other := fun other hother =>
      ih (hsplit ▸ hother)
    rw [splitOn, hsplit] at h
    simp only at h
    split_ifs at h with hc
    · obtain rfl | hmem := List.mem_cons.mp h
      · exact List.not_mem_nil
      · exact hrest piece hmem
    · obtain rfl | hmem := List.mem_cons.mp h
      · intro hsep
        obtain heq | hsep := List.mem_cons.mp hsep
        · exact hc heq.symm
        · exact hrest first List.mem_cons_self hsep
      · exact hrest piece (List.mem_cons_of_mem _ hmem)

/-- Pieces without separators are split again where they were joined. -/
theorem splitOn_join {pieces : List Text} (hne : pieces ≠ []) (h : ∀ piece ∈ pieces, sep ∉ piece) :
    splitOn sep (join [sep] pieces) = pieces := by
  induction pieces with
  | nil => exact absurd rfl hne
  | cons first rest ih =>
    have hfirst : splitOn sep first = [first] := splitOn_of_notMem (h first List.mem_cons_self)
    cases rest with
    | nil => exact hfirst
    | cons second rest =>
      have hrest := ih (List.cons_ne_nil _ _) fun piece hpiece =>
        h piece (List.mem_cons_of_mem _ hpiece)
      rw [join, List.append_assoc, List.singleton_append, splitOn_append_sep, hfirst, hrest]
      · rfl
      · simp

end Text

namespace Path

/-! ## Reading what was written -/

/-- A part as it stands between two slashes. -/
def IsPart (part : Text) : Prop := isPart part ∧ CodePoint.char '/' ∉ part

/-- A part that names a file or a directory. -/
def IsName (part : Text) : Prop := IsPart part ∧ part ≠ up

instance : DecidablePred IsPart := fun _ => inferInstanceAs (Decidable (_ ∧ _))

instance : DecidablePred IsName := fun _ => inferInstanceAs (Decidable (_ ∧ _))

theorem isPart_up : IsPart up := by decide

theorem isPart_of_mem_ups {count : Nat} {part : Text} (h : part ∈ List.replicate count up) :
    IsPart part := by
  rw [(List.mem_replicate.mp h).2]
  exact isPart_up

theorem IsPart.ne_nil {part : Text} (h : IsPart part) : part ≠ [] := by
  rintro rfl
  exact absurd h.1 (by decide)

theorem isPart_of_mem_ofText {t part : Text} (h : part ∈ (ofText t).parts) : IsPart part := by
  obtain ⟨hsplit, hpart⟩ := List.mem_filter.mp h
  exact ⟨hpart, Text.notMem_of_mem_splitOn hsplit⟩

/-- A text of parts does not start with a slash. -/
theorem head?_join {parts : List Text} (h : ∀ part ∈ parts, IsPart part) :
    (Text.join ['/'] parts).head? ≠ some (.char '/') := by
  cases parts with
  | nil => simp [Text.join]
  | cons first rest =>
    obtain ⟨c, more, rfl⟩ := List.exists_cons_of_ne_nil (h first List.mem_cons_self).ne_nil
    have hc : c ≠ '/' := fun heq => (h _ List.mem_cons_self).2 (heq ▸ List.mem_cons_self)
    cases rest <;> simpa [Text.join] using hc

theorem rootOf_append (root : Root) {t : Text} (h : t.head? ≠ some (.char '/')) :
    rootOf (root.text ++ t) = root := by
  cases t with
  | nil => cases root <;> rfl
  | cons c rest =>
    have hc : c ≠ '/' := by simpa using h
    cases root <;> simp [Root.text, rootOf, hc]

theorem splitOn_append (root : Root) (t : Text) :
    (Text.splitOn '/' (root.text ++ t)).filter isPart = (Text.splitOn '/' t).filter isPart := by
  cases root with
  | relative => rfl
  | slash =>
    rw [Root.text, List.singleton_append, Text.splitOn_cons_sep]
    rfl
  | doubleSlash =>
    rw [Root.text, List.cons_append, List.singleton_append, Text.splitOn_cons_sep,
      Text.splitOn_cons_sep]
    rfl

/-- A path is read as it was written. -/
theorem ofText_toText {p : Path} (h : ∀ part ∈ p.parts, IsPart part) : ofText p.toText = p := by
  obtain ⟨root, parts⟩ := p
  by_cases hdot : root = .relative ∧ parts = []
  · obtain ⟨rfl, rfl⟩ := hdot
    rfl
  · have htext : toText ⟨root, parts⟩ = root.text ++ Text.join ['/'] parts := if_neg hdot
    rw [htext, ofText, rootOf_append root (head?_join h), splitOn_append]
    congr 1
    by_cases hne : parts = []
    · subst hne
      rfl
    · rw [Text.splitOn_join hne fun part hpart => (h part hpart).2]
      exact List.filter_eq_self.mpr fun part hpart => (h part hpart).1

theorem toText_inj {p q : Path} (hp : ∀ part ∈ p.parts, IsPart part)
    (hq : ∀ part ∈ q.parts, IsPart part) : p.toText = q.toText ↔ p = q := by
  refine ⟨fun h => ?_, congrArg toText⟩
  rw [← ofText_toText hp, h, ofText_toText hq]

/-! ## Steps up -/

theorem foldl_pushPart_names {names : List Text} (h : ∀ name ∈ names, name ≠ up) (absolute : Bool)
    (parts : List Text) : names.foldl (pushPart absolute) parts = names.reverse ++ parts := by
  induction names generalizing parts with
  | nil => rfl
  | cons name names ih =>
    rw [List.forall_mem_cons] at h
    have hpush : pushPart absolute parts name = name :: parts := if_pos (.inl h.1)
    rw [List.foldl_cons, hpush, ih h.2, List.reverse_cons, List.append_assoc,
      List.singleton_append]

/-- At a root a step up removes a name. -/
theorem foldl_pushPart_ups {parts : List Text} (h : ∀ name ∈ parts, name ≠ up) (count : Nat) :
    (List.replicate count up).foldl (pushPart true) parts = parts.drop count := by
  induction count generalizing parts with
  | zero => rfl
  | succ count ih =>
    have hhead : parts.head? ≠ some up := fun heq => h up (List.mem_of_mem_head? heq) rfl
    have hpush : pushPart true parts up = parts.tail := by simp [pushPart, hhead]
    rw [List.replicate_succ, List.foldl_cons, hpush, ih fun name hname =>
      h name (List.mem_of_mem_tail hname), List.drop_tail]

/-- At the start of a relative path steps up are kept. -/
theorem foldl_pushPart_relative (count done : Nat) :
    (List.replicate count up).foldl (pushPart false) (List.replicate done up) =
      List.replicate (count + done) up := by
  induction count generalizing done with
  | zero => rw [Nat.zero_add]; rfl
  | succ count ih =>
    have hpush : pushPart false (List.replicate done up) up = List.replicate (done + 1) up := by
      cases done <;> simp [pushPart, List.replicate_succ]
    rw [List.replicate_succ, List.foldl_cons, hpush, ih]
    congr 1
    omega

theorem mem_pushPart {absolute : Bool} {parts : List Text} {part name : Text}
    (h : name ∈ pushPart absolute parts part) : name = part ∨ name ∈ parts := by
  unfold pushPart at h
  split_ifs at h
  · exact List.mem_cons.mp h
  · exact .inr (List.mem_of_mem_tail h)

/-- Collapsing adds no parts. -/
theorem mem_foldl_pushPart {absolute : Bool} {rest done : List Text} {name : Text}
    (h : name ∈ rest.foldl (pushPart absolute) done) : name ∈ rest ∨ name ∈ done := by
  induction rest generalizing done with
  | nil => exact .inr h
  | cons part rest ih =>
    obtain hmem | hmem := ih h
    · exact .inl (List.mem_cons_of_mem _ hmem)
    · obtain rfl | hmem := mem_pushPart hmem
      · exact .inl List.mem_cons_self
      · exact .inr hmem

theorem ne_up_of_mem_pushPart {parts : List Text} (h : ∀ name ∈ parts, name ≠ up) (part : Text) :
    ∀ name ∈ pushPart true parts part, name ≠ up := by
  intro name hname
  have hhead : parts.head? ≠ some up := fun heq => h up (List.mem_of_mem_head? heq) rfl
  by_cases hpart : part = up
  · have hpush : pushPart true parts part = parts.tail := by simp [pushPart, hpart, hhead]
    exact h name (List.mem_of_mem_tail (hpush ▸ hname))
  · obtain rfl | hmem := mem_pushPart hname
    · exact hpart
    · exact h name hmem

/-- Below a root no steps up are left. -/
theorem ne_up_of_mem_foldl_pushPart {rest done : List Text} (hdone : ∀ name ∈ done, name ≠ up) :
    ∀ name ∈ rest.foldl (pushPart true) done, name ≠ up := by
  induction rest generalizing done with
  | nil => exact hdone
  | cons part rest ih => exact ih (ne_up_of_mem_pushPart hdone part)

theorem mem_of_mem_collapse {p : Path} {name : Text} (h : name ∈ p.collapse.parts) :
    name ∈ p.parts := by
  obtain hmem | hmem := mem_foldl_pushPart (List.mem_reverse.mp h)
  · exact hmem
  · exact nomatch hmem

theorem collapse_of_isAbsolute {p : Path} (h : p.isAbsolute) :
    p.collapse = ⟨p.root, (p.parts.foldl (pushPart true) []).reverse⟩ := by
  rw [collapse, h]

/-- A collapsed absolute path has no steps up. -/
theorem mem_collapse {p : Path} (habsolute : p.isAbsolute) {name : Text}
    (h : name ∈ p.collapse.parts) : name ≠ up ∧ name ∈ p.parts := by
  refine ⟨?_, mem_of_mem_collapse h⟩
  rw [collapse_of_isAbsolute habsolute, List.mem_reverse] at h
  exact ne_up_of_mem_foldl_pushPart (by simp) name h

theorem collapse_of_names {p : Path} (h : ∀ name ∈ p.parts, name ≠ up) : p.collapse = p := by
  rw [collapse, foldl_pushPart_names h, List.append_nil, List.reverse_reverse]

/-- A relative path that goes up before it goes down is collapsed. -/
theorem collapse_relative {names : List Text} (h : ∀ name ∈ names, name ≠ up) (count : Nat) :
    collapse ⟨.relative, List.replicate count up ++ names⟩ =
      ⟨.relative, List.replicate count up ++ names⟩ := by
  have hups := foldl_pushPart_relative count 0
  simp only [List.replicate_zero, Nat.add_zero] at hups
  have habsolute : isAbsolute ⟨.relative, List.replicate count up ++ names⟩ = false := rfl
  rw [collapse, habsolute, List.foldl_append, hups, foldl_pushPart_names h, List.reverse_append,
    List.reverse_reverse, List.reverse_replicate]

/-- It does not matter whether a directory is collapsed before a relative path is followed. -/
theorem collapse_collapse_join {p q : Path} (hp : p.isAbsolute) (hq : q.isAbsolute = false) :
    (p.collapse.join q).collapse = (p.join q).collapse := by
  have hnames : ∀ name ∈ p.collapse.parts, name ≠ up := fun name h => (mem_collapse hp h).1
  have hjoin : ∀ r : Path, r.join q = ⟨r.root, r.parts ++ q.parts⟩ := by
    intro r
    rw [join, hq]
    rfl
  have hfold : p.collapse.parts.foldl (pushPart true) [] = p.parts.foldl (pushPart true) [] := by
    rw [foldl_pushPart_names hnames, List.append_nil, collapse_of_isAbsolute hp,
      List.reverse_reverse]
  have hcollapse : ∀ parts : List Text, collapse ⟨p.root, parts⟩ =
      ⟨p.root, (parts.foldl (pushPart true) []).reverse⟩ := fun _ => collapse_of_isAbsolute hp
  have hleft : (p.collapse.join q).collapse =
      ⟨p.root, ((p.collapse.parts ++ q.parts).foldl (pushPart true) []).reverse⟩ := by
    rw [hjoin]
    exact hcollapse _
  have hright : (p.join q).collapse =
      ⟨p.root, ((p.parts ++ q.parts).foldl (pushPart true) []).reverse⟩ := by
    rw [hjoin]
    exact hcollapse _
  rw [hleft, hright, List.foldl_append, List.foldl_append, hfold]

/-- A path that goes up before it goes down, followed from a directory. -/
theorem collapse_join {b : Path} (hb : b.isAbsolute) (hnames : ∀ name ∈ b.parts, name ≠ up)
    {names : List Text} (h : ∀ name ∈ names, name ≠ up) (count : Nat) :
    (b.join ⟨.relative, List.replicate count up ++ names⟩).collapse =
      ⟨b.root, b.parts.take (b.parts.length - count) ++ names⟩ := by
  have hjoin : b.join ⟨.relative, List.replicate count up ++ names⟩ =
      ⟨b.root, b.parts ++ (List.replicate count up ++ names)⟩ := rfl
  have hups : ∀ name ∈ b.parts.reverse, name ≠ up :=
    fun name hname => hnames name (List.mem_reverse.mp hname)
  have hcollapse : ∀ parts : List Text, collapse ⟨b.root, parts⟩ =
      ⟨b.root, (parts.foldl (pushPart true) []).reverse⟩ := fun _ => collapse_of_isAbsolute hb
  rw [hjoin, hcollapse, List.foldl_append, List.foldl_append, foldl_pushPart_names hnames,
    List.append_nil, foldl_pushPart_ups hups, foldl_pushPart_names h, List.reverse_append,
    List.reverse_reverse, List.drop_reverse, List.reverse_reverse]

/-! ## Relative paths -/

theorem dropCommon_append (common as bs : List Text) :
    dropCommon (common ++ as) (common ++ bs) = dropCommon as bs := by
  induction common with
  | nil => rfl
  | cons c common ih => rw [List.cons_append, List.cons_append, dropCommon, if_pos rfl, ih]

theorem dropCommon_nil (bs : List Text) : dropCommon [] bs = ([], bs) := by
  cases bs <;> rfl

/-- What is dropped is common to both lists. -/
theorem dropCommon_spec (as bs : List Text) :
    ∃ common, as = common ++ (dropCommon as bs).1 ∧ bs = common ++ (dropCommon as bs).2 := by
  induction as generalizing bs with
  | nil => exact ⟨[], by cases bs <;> exact ⟨rfl, rfl⟩⟩
  | cons a as ih =>
    cases bs with
    | nil => exact ⟨[], rfl, rfl⟩
    | cons b bs =>
      by_cases hab : a = b
      · obtain ⟨common, has, hbs⟩ := ih bs
        refine ⟨a :: common, ?_⟩
        rw [dropCommon, if_pos hab, List.cons_append, List.cons_append, ← has, ← hbs, hab]
        exact ⟨rfl, rfl⟩
      · refine ⟨[], ?_⟩
        rw [dropCommon, if_neg hab]
        exact ⟨rfl, rfl⟩

/-- A relative path goes up and then down. -/
theorem relativeTo_spec (b t : Path) :
    ∃ count names, relativeTo b t = ⟨.relative, List.replicate count up ++ names⟩ ∧
      t.parts = b.parts.take (b.parts.length - count) ++ names := by
  obtain ⟨common, hb, ht⟩ := dropCommon_spec b.parts t.parts
  generalize hdrop : dropCommon b.parts t.parts = apart at hb ht
  obtain ⟨back, forth⟩ := apart
  refine ⟨back.length, forth, ?_, ?_⟩
  · simp only [relativeTo, hdrop, List.map_const']
  · rw [ht, hb, List.length_append, Nat.add_sub_cancel, List.take_left]

/-- The relative path of a file leads to the file. -/
theorem collapse_join_relativeTo {b t : Path} (hb : b.isAbsolute)
    (hnames : ∀ name ∈ b.parts, name ≠ up) (ht : ∀ name ∈ t.parts, name ≠ up)
    (hroot : b.root = t.root) : (b.join (relativeTo b t)).collapse = t := by
  obtain ⟨count, names, hrelative, hparts⟩ := relativeTo_spec b t
  have hdown : ∀ name ∈ names, name ≠ up := by
    intro name hname
    refine ht name ?_
    rw [hparts]
    exact List.mem_append_right _ hname
  rw [hrelative, collapse_join hb hnames hdown, ← hparts, hroot]

end Path
end StyleVars
