import StyleVars.Proofs.Outcomes
import StyleVars.Text.Word
import StyleVars.Value.CssColors
import StyleVars.Value.Flat
import Mathlib.Data.List.Basic

/-!
# Reading flat forms

A reader that keeps a stack of the brackets that are open gives back every value of words and lists
from its nested form, and a list that shows itself to be one from its flat form, but for the
separators of lists with fewer than two items (`Native.flatten_decodable`). What a text adds to the
list that is being read does not depend on where it stands (`ReadsAs`), which is how the texts of
lists are read from those of their items.
-/

namespace StyleVars

/-! ## Values of words and lists -/

/-- A nonempty text of letters, numerals, hyphens and underscores. -/
def IsWordText (t : Text) : Prop := t ≠ [] ∧ ∀ c ∈ t, isNameChar c

instance : DecidablePred IsWordText := fun _ => inferInstanceAs (Decidable (_ ∧ _))

/-- A word, or a list of such values with either separator, with or without brackets. -/
inductive Native.IsTree : Native → Prop
  | word {t : Text} (h : IsWordText t) : IsTree (.string t)
  | list {items : List Native} {separator : Separator} {bracketed : Bool}
      (h : ∀ v ∈ items, IsTree v) : IsTree (.list items separator bracketed)

/-- A list that is one by its flat form: brackets or a separator show it. -/
def Native.ShowsList : Native → Prop
  | .list items _ bracketed => bracketed = true ∨ 2 ≤ items.length
  | _ => False

mutual

/-- The value with commas for the separators that stand nowhere, those of lists with fewer than two
items. -/
def Native.canonical : Native → Native
  | .list items separator bracketed =>
    .list (canonicalItems items) (if items.length < 2 then .comma else separator) bracketed
  | v => v

/-- The items of a list, each of them canonical. -/
def canonicalItems : List Native → List Native
  | [] => []
  | v :: rest => v.canonical :: canonicalItems rest

end

theorem canonicalItems_eq_map (items : List Native) :
    canonicalItems items = items.map Native.canonical := by
  induction items with
  | nil => rfl
  | cons v rest ih => rw [canonicalItems, ih, List.map_cons]

theorem flattenItems_eq_mapM [ColorNames] (items : List Native) :
    flattenItems items = items.mapM (flatten true) := by
  induction items with
  | nil => rfl
  | cons v rest ih => rw [flattenItems, ih, List.mapM_cons]

theorem length_of_flattenItems [ColorNames] {items : List Native} {texts : List Text}
    (h : flattenItems items = .ok texts) : texts.length = items.length := by
  rw [flattenItems_eq_mapM, Except.mapM_eq_ok] at h
  simpa only [List.length_map] using (congrArg List.length h).symm

/-! ## The reader -/

/-- Items of a list and the separators between them, each in the order of the text. -/
@[ext]
structure Run where
  items : List Native
  separators : List Separator

namespace Run

instance : Append Run := ⟨fun r s => ⟨r.items ++ s.items, r.separators ++ s.separators⟩⟩

theorem append_def (r s : Run) : r ++ s = ⟨r.items ++ s.items, r.separators ++ s.separators⟩ := rfl

/-- No items. -/
def empty : Run := ⟨[], []⟩

/-- One item. -/
def item (v : Native) : Run := ⟨[v], []⟩

/-- A separator between items. -/
def separator (s : Separator) : Run := ⟨[], [s]⟩

theorem empty_append (r : Run) : empty ++ r = r := rfl

theorem append_empty (r : Run) : r ++ empty = r := by
  ext1 <;> exact List.append_nil _

theorem append_assoc (r s t : Run) : r ++ s ++ t = r ++ (s ++ t) := by
  ext1 <;> exact List.append_assoc ..

/-- The list of these items. Without separators it has the comma. -/
def toList (r : Run) (bracketed : Bool) : Native :=
  .list r.items (r.separators.head?.getD .comma) bracketed

/-- One item alone stands for itself, other items for a list. -/
def value : Run → Native
  | ⟨[v], []⟩ => v
  | r => r.toList false

end Run

/-- What stands before the items of a list. -/
def openMark (bracketed : Bool) : CodePoint := if bracketed then '[' else '('

/-- What stands behind the items of a list. -/
def closeMark (bracketed : Bool) : CodePoint := if bracketed then ']' else ')'

/-- Where the reading of a flat form stands: the word that has begun, the list that is read there,
and around it the lists whose brackets are open, innermost first, with the kind of the bracket that
stands behind them. -/
structure FlatReader where
  word : Text
  run : Run
  outer : List (Run × Bool)

namespace FlatReader

/-- A word that has begun becomes an item. -/
def endWord (r : FlatReader) : FlatReader :=
  if r.word = [] then r else ⟨[], r.run ++ .item (.string r.word), r.outer⟩

/-- A separator behind the items. -/
def separate (s : Separator) (r : FlatReader) : FlatReader := ⟨[], r.run ++ .separator s, r.outer⟩

/-- A list that begins behind the items. -/
def openList (bracketed : Bool) (r : FlatReader) : FlatReader :=
  ⟨[], .empty, (r.run, bracketed) :: r.outer⟩

/-- The list becomes an item of the one around it. -/
def closeList (r : FlatReader) : FlatReader :=
  match r.outer with
  | [] => r
  | (before, bracketed) :: outer => ⟨[], before ++ .item (r.run.toList bracketed), outer⟩

/-- One more character. -/
def step (r : FlatReader) (c : CodePoint) : FlatReader :=
  if c = ',' then r.endWord.separate .comma
  else if c = ' ' then r.endWord.separate .space
  else if c = '(' then r.endWord.openList false
  else if c = '[' then r.endWord.openList true
  else if c = ')' ∨ c = ']' then r.endWord.closeList
  else { r with word := r.word ++ [c] }

/-- The reader behind a text. -/
def read (r : FlatReader) (t : Text) : FlatReader := t.foldl step r

theorem read_append (r : FlatReader) (t u : Text) : r.read (t ++ u) = (r.read t).read u :=
  List.foldl_append

theorem endWord_of_nil {r : FlatReader} (h : r.word = []) : r.endWord = r := if_pos h

theorem step_separator (r : FlatReader) (s : Separator) :
    r.read s.text = r.endWord.separate s := by
  cases s <;> rfl

theorem step_open (r : FlatReader) (bracketed : Bool) :
    r.step (openMark bracketed) = r.endWord.openList bracketed := by
  cases bracketed <;> rfl

theorem step_close (r : FlatReader) (bracketed : Bool) :
    r.step (closeMark bracketed) = r.endWord.closeList := by
  cases bracketed <;> rfl

theorem step_nameChar (r : FlatReader) {c : CodePoint} (h : isNameChar c) :
    r.step c = { r with word := r.word ++ [c] } := by
  have hne : ∀ d, isNameChar d = false → c ≠ d := by
    rintro d hd rfl
    rw [h] at hd
    exact nomatch hd
  simp only [step, hne ',' (by decide), hne ' ' (by decide), hne '(' (by decide),
    hne '[' (by decide), hne ')' (by decide), hne ']' (by decide), if_false, or_self]

theorem read_nameChars (r : FlatReader) {t : Text} (h : ∀ c ∈ t, isNameChar c) :
    r.read t = { r with word := r.word ++ t } := by
  induction t generalizing r with
  | nil =>
    rw [List.append_nil]
    rfl
  | cons c rest ih =>
    have hrest : ∀ d ∈ rest, isNameChar d := fun d hd => h d (List.mem_cons_of_mem _ hd)
    rw [read, List.foldl_cons, step_nameChar r (h c List.mem_cons_self)]
    refine (ih _ hrest).trans ?_
    rw [List.append_assoc, List.singleton_append]

end FlatReader

/-- The value that a flat form is read as. -/
def readFlat (t : Text) : Native :=
  ((FlatReader.mk [] .empty []).read t).endWord.run.value

/-! ## What a text adds to a list -/

/-- Where no word has begun, the text adds a run to the list that is being read, and leaves what is
around the list as it is. -/
def ReadsAs (t : Text) (added : Run) : Prop :=
  ∀ run outer, ((FlatReader.mk [] run outer).read t).endWord = ⟨[], run ++ added, outer⟩

namespace ReadsAs

variable {t u : Text} {a b : Run}

theorem unique (ht : ReadsAs t a) (ht' : ReadsAs t b) : a = b :=
  congrArg FlatReader.run ((ht .empty []).symm.trans (ht' .empty []))

theorem readFlat_eq (ht : ReadsAs t a) : readFlat t = a.value := by
  rw [readFlat, ht .empty [], Run.empty_append]

theorem nil : ReadsAs [] .empty := by
  intro run outer
  rw [Run.append_empty]
  rfl

theorem word (h : IsWordText t) : ReadsAs t (.item (.string t)) := by
  intro run outer
  rw [FlatReader.read_nameChars _ h.2, List.nil_append, FlatReader.endWord, if_neg h.1]

/-- Two texts with a separator between them. -/
theorem separated (ht : ReadsAs t a) (hu : ReadsAs u b) (s : Separator) :
    ReadsAs (t ++ s.text ++ u) (a ++ .separator s ++ b) := by
  intro run outer
  rw [FlatReader.read_append, FlatReader.read_append, FlatReader.step_separator, ht,
    FlatReader.separate, hu, Run.append_assoc, Run.append_assoc, Run.append_assoc]

/-- A text in brackets or parentheses is one item. -/
theorem enclosed (ht : ReadsAs t a) (bracketed : Bool) :
    ReadsAs (openMark bracketed :: t ++ [closeMark bracketed])
      (.item (a.toList bracketed)) := by
  intro run outer
  have hopen : (FlatReader.mk [] run outer).step (openMark bracketed) =
      ⟨[], .empty, (run, bracketed) :: outer⟩ := by
    rw [FlatReader.step_open, FlatReader.endWord_of_nil rfl]
    rfl
  have hclose := FlatReader.step_close
    ((FlatReader.mk [] .empty ((run, bracketed) :: outer)).read t) bracketed
  rw [ht, Run.empty_append] at hclose
  rw [List.cons_append, FlatReader.read, List.foldl_cons, hopen, List.foldl_append, List.foldl_cons,
    List.foldl_nil]
  exact (congrArg FlatReader.endWord hclose).trans (FlatReader.endWord_of_nil rfl)

/-- Texts that are read as items each are read, with a separator between them, as these items. -/
theorem join {texts : List Text} {items : List Native}
    (h : List.Forall₂ (fun t v => ReadsAs t (.item v)) texts items) (s : Separator) :
    ReadsAs (Text.join s.text texts) ⟨items, List.replicate (items.length - 1) s⟩ := by
  induction h with
  | nil => exact nil
  | @cons t v texts items ht hrest ih =>
    cases hrest with
    | nil => exact ht
    | cons hsecond hmore => exact ht.separated ih s

end ReadsAs

/-! ## How flat forms are read -/

/-- The texts of items that are read as one item each. -/
theorem exists_flattenItems [ColorNames] {items : List Native} {form : Native → Native}
    (h : ∀ v ∈ items, ∃ t, flatten true v = .ok t ∧ ReadsAs t (.item (form v))) :
    ∃ texts, flattenItems items = .ok texts ∧
      List.Forall₂ (fun t v => ReadsAs t (.item v)) texts (items.map form) := by
  simp only [flattenItems_eq_mapM, Except.mapM_eq_ok]
  induction items with
  | nil => exact ⟨[], rfl, .nil⟩
  | cons v rest ih =>
    obtain ⟨t, hflat, hreads⟩ := h v List.mem_cons_self
    obtain ⟨texts, htexts, hrest⟩ := ih fun w hw => h w (List.mem_cons_of_mem _ hw)
    exact ⟨t :: texts, by rw [List.map_cons, List.map_cons, hflat, htexts], .cons hreads hrest⟩

theorem toList_replicate (items : List Native) (separator : Separator) (bracketed : Bool) :
    Run.toList ⟨items.map Native.canonical, List.replicate (items.length - 1) separator⟩ bracketed =
      (Native.list items separator bracketed).canonical := by
  rw [Run.toList, Native.canonical, canonicalItems_eq_map, List.head?_replicate]
  congr 1
  by_cases hlength : items.length < 2
  · rw [if_pos hlength, if_pos (by omega)]
    rfl
  · rw [if_neg hlength, if_neg (by omega)]
    rfl

namespace Native

section Flat

variable [ColorNames]

/-- As an item a value is read as itself. -/
theorem IsTree.exists_flatten {v : Native} (h : v.IsTree) :
    ∃ t, flatten true v = .ok t ∧ ReadsAs t (.item v.canonical) := by
  induction h with
  | @word t h => exact ⟨t, rfl, .word h⟩
  | @list items separator bracketed h ih =>
    obtain ⟨texts, hflat, htexts⟩ := exists_flattenItems ih
    have hjoined := ReadsAs.join htexts separator
    rw [List.length_map] at hjoined
    have henclosed := hjoined.enclosed bracketed
    rw [toList_replicate] at henclosed
    refine ⟨_, ?_, henclosed⟩
    rw [flatten, hflat]
    cases bracketed <;> rfl

/-- So is a list on its own whose flat form shows that it is one. -/
theorem IsTree.exists_flatten_of_showsList {v : Native} (h : v.IsTree) (hshows : v.ShowsList) :
    ∃ t run, flatten false v = .ok t ∧ ReadsAs t run ∧ run.value = v.canonical := by
  cases h with
  | word h => exact hshows.elim
  | @list items separator bracketed h =>
    cases bracketed with
    | true =>
      have hlist : (Native.list items separator true).IsTree := .list h
      obtain ⟨t, hflat, hreads⟩ := hlist.exists_flatten
      exact ⟨t, _, hflat, hreads, rfl⟩
    | false =>
      have hlength : 2 ≤ items.length := hshows.resolve_left Bool.false_ne_true
      obtain ⟨texts, hflat, htexts⟩ := exists_flattenItems fun v hv => (h v hv).exists_flatten
      have hjoined := ReadsAs.join htexts separator
      rw [List.length_map] at hjoined
      refine ⟨_, _, by rw [flatten, hflat]; rfl, hjoined, ?_⟩
      rw [← toList_replicate]
      match items, hlength with
      | first :: second :: rest, _ => rfl

omit [ColorNames] in
/-- The separator of a list with fewer than two items stands nowhere. -/
theorem flatList_of_short {texts : List Text} (h : texts.length < 2) (s s' : Separator)
    (bracketed nested : Bool) :
    flatList s bracketed nested texts = flatList s' bracketed nested texts := by
  match texts, h with
  | [], _ => rfl
  | [t], _ => rfl

theorem flattenItems_map {items : List Native} {form : Native → Native}
    (h : ∀ v ∈ items, flatten true (form v) = flatten true v) :
    flattenItems (items.map form) = flattenItems items := by
  induction items with
  | nil => rfl
  | cons v rest ih =>
    rw [List.map_cons, flattenItems, flattenItems, h v List.mem_cons_self,
      ih fun w hw => h w (List.mem_cons_of_mem _ hw)]

theorem IsTree.flatten_canonical {v : Native} (h : v.IsTree) (nested : Bool) :
    flatten nested v.canonical = flatten nested v := by
  induction h generalizing nested with
  | word h => rfl
  | @list items separator bracketed h ih =>
    rw [canonical, canonicalItems_eq_map, flatten, flatten,
      flattenItems_map fun v hv => ih v hv true]
    cases hflat : flattenItems items with
    | error e => rfl
    | ok texts =>
      split_ifs with hlength
      · rw [← length_of_flattenItems hflat] at hlength
        exact congrArg Except.ok (flatList_of_short hlength ..)
      · rfl

/-! ## What flat forms tell -/

/-- The nested forms of values of words and lists are read as these values, but for separators that
stand nowhere, and so are the flat forms of lists that show themselves to be lists. Two values have
the same form only if they differ in such separators, and then they have. -/
theorem flatten_decodable {v w : Native} (hv : v.IsTree) (hw : w.IsTree) :
    (∃ t, flatten true v = .ok t ∧ readFlat t = v.canonical) ∧
    (v.ShowsList → ∃ t, flatten false v = .ok t ∧ readFlat t = v.canonical) ∧
    (flatten true v = flatten true w ↔ v.canonical = w.canonical) ∧
    (v.ShowsList → w.ShowsList →
      (flatten false v = flatten false w ↔ v.canonical = w.canonical)) := by
  have hnested : ∀ {x : Native}, x.IsTree →
      ∃ t, flatten true x = .ok t ∧ readFlat t = x.canonical := by
    intro x hx
    obtain ⟨t, hflat, hreads⟩ := hx.exists_flatten
    exact ⟨t, hflat, hreads.readFlat_eq⟩
  have hshown : ∀ {x : Native}, x.IsTree → x.ShowsList →
      ∃ t, flatten false x = .ok t ∧ readFlat t = x.canonical := by
    intro x hx hshows
    obtain ⟨t, run, hflat, hreads, hrun⟩ := hx.exists_flatten_of_showsList hshows
    exact ⟨t, hflat, hreads.readFlat_eq.trans hrun⟩
  have htold : ∀ {nested}, (∃ t, flatten nested v = .ok t ∧ readFlat t = v.canonical) →
      (∃ t, flatten nested w = .ok t ∧ readFlat t = w.canonical) →
        (flatten nested v = flatten nested w ↔ v.canonical = w.canonical) := by
    rintro nested ⟨t, ht, hread⟩ ⟨u, hu, hread'⟩
    constructor
    · intro heq
      obtain rfl := Except.ok.inj (ht.symm.trans (heq.trans hu))
      exact hread.symm.trans hread'
    · intro heq
      rw [← hv.flatten_canonical, heq, hw.flatten_canonical]
  exact ⟨hnested hv, hshown hv, htold (hnested hv) (hnested hw),
    fun hvshows hwshows => htold (hshown hv hvshows) (hshown hw hwshows)⟩

end Flat

section Samples

open CssColors

/-- A list with two short lists in it, whose separators stand nowhere. -/
def sampleTree (hidden : Separator) : Native :=
  .list [.string "a-b".toText, .list [.string "c_1".toText] hidden false, .list [] hidden true]
    .space false

theorem isTree_sampleTree (hidden : Separator) : (sampleTree hidden).IsTree := by
  refine .list fun v hv => ?_
  simp only [List.mem_cons, List.not_mem_nil, or_false] at hv
  obtain rfl | rfl | rfl := hv
  · exact .word (by decide)
  · exact .list fun w hw => List.mem_singleton.mp hw ▸ .word (by decide)
  · exact .list fun w hw => absurd hw List.not_mem_nil

theorem flatten_sampleTree :
    (sampleTree .comma).IsTree ∧ (sampleTree .space).IsTree ∧
    readFlat "(a-b (c_1) [])".toText = (sampleTree .comma).canonical ∧
    (sampleTree .comma).ShowsList ∧ (sampleTree .space).ShowsList ∧
    flatten false (sampleTree .comma) = flatten false (sampleTree .space) := by
  have hcomma := isTree_sampleTree .comma
  have hspace := isTree_sampleTree .space
  have hshows : ∀ hidden, (sampleTree hidden).ShowsList := fun _ => .inr (Nat.le_succ 2)
  obtain ⟨⟨t, ht, hread⟩, -, -, hsame⟩ := flatten_decodable hcomma hspace
  obtain rfl : "(a-b (c_1) [])".toText = t := Except.ok.inj ht
  exact ⟨hcomma, hspace, hread, hshows _, hshows _, (hsame (hshows _) (hshows _)).mpr rfl⟩

end Samples

end Native

end StyleVars
