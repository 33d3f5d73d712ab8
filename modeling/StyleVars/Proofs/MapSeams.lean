import StyleVars.Proofs.FlatReader
import StyleVars.Proofs.KeyedLists
import StyleVars.Proofs.PathTexts
import StyleVars.Value.CssColors
import Mathlib.Data.List.Nodup

/-!
# What the flat form of a map tells

The keys and the values of a map are flattened as they would be on their own, so that the comma
between two entries looks like the commas of a list. Certain is what stands between the colons of
the text: the first key, the items of each value together with those of the next key, and the last
value. Two maps of words and lists have one flat form exactly when they agree in these runs of items
(`flatten_map_eq_iff`); it tells the entries where no item can be counted to the other side of the
comma.
-/

namespace StyleVars

/-! ## Joined texts -/

theorem join_cons {rest : List Text} (h : rest ≠ []) (sep first : Text) :
    Text.join sep (first :: rest) = first ++ sep ++ Text.join sep rest := by
  cases rest with
  | nil => exact absurd rfl h
  | cons second rest => rfl

theorem join_cons_append (sep head piece : Text) (rest : List Text) :
    Text.join sep ((head ++ piece) :: rest) = head ++ Text.join sep (piece :: rest) := by
  cases rest with
  | nil => rfl
  | cons second rest => simp only [join_cons (List.cons_ne_nil _ _), List.append_assoc]

theorem join_cons_ne_nil {first : Text} (h : first ≠ []) {sep : Text} {rest : List Text} :
    Text.join sep (first :: rest) ≠ [] := by
  cases rest with
  | nil => exact h
  | cons second rest =>
    rw [join_cons (List.cons_ne_nil _ _)]
    simp [h]

theorem notMem_join {c : CodePoint} {sep : Text} (hsep : c ∉ sep) {pieces : List Text}
    (h : ∀ piece ∈ pieces, c ∉ piece) : c ∉ Text.join sep pieces := by
  induction pieces with
  | nil => exact List.not_mem_nil
  | cons piece rest ih =>
    have hpiece := h piece List.mem_cons_self
    cases rest with
    | nil => exact hpiece
    | cons second rest =>
      have hrest := ih fun other hother => h other (List.mem_cons_of_mem _ hother)
      rw [join_cons (List.cons_ne_nil _ _)]
      simp only [List.mem_append, not_or]
      exact ⟨⟨hpiece, hsep⟩, hrest⟩

/-! ## Keys and values -/

/-- A word, or a list of two or more such values without brackets. -/
inductive Native.IsPlain : Native → Prop
  | word {t : Text} (h : IsWordText t) : IsPlain (.string t)
  | list {items : List Native} {separator : Separator} (hlength : 2 ≤ items.length)
      (h : ∀ v ∈ items, IsPlain v) : IsPlain (.list items separator false)

/-- The entries of a map whose keys and values are plain. The keys are different, as those of a map
are. -/
structure IsPlainMap (entries : List (Native × Native)) : Prop where
  plain : ∀ entry ∈ entries, entry.1.IsPlain ∧ entry.2.IsPlain
  distinct : (entries.map Prod.fst).Nodup

namespace Native

/-- The items of a value on its own; a word is one item. -/
def run : Native → Run
  | .list items separator false => ⟨items, List.replicate (items.length - 1) separator⟩
  | v => .item v

/-- A list with spaces between its items. -/
def isSpaced : Native → Bool
  | .list _ .space _ => true
  | _ => false

/-- A list with either separator. -/
def isList : Native → Bool
  | .list .. => true
  | _ => false

theorem IsPlain.isTree {v : Native} (h : v.IsPlain) : v.IsTree := by
  induction h with
  | word h => exact .word h
  | list _ _ ih => exact .list ih

/-- Every separator of a plain value stands in its flat form. -/
theorem IsPlain.canonical_eq {v : Native} (h : v.IsPlain) : v.canonical = v := by
  induction h with
  | word h => rfl
  | @list items separator hlength h ih =>
    have hitems : items.map canonical = items := (List.map_congr_left ih).trans (List.map_id' items)
    rw [canonical, canonicalItems_eq_map, hitems, if_neg (by omega)]

theorem IsPlain.value_run {v : Native} (h : v.IsPlain) : v.run.value = v := by
  cases h with
  | word h => rfl
  | @list items separator hlength h =>
    match items, hlength with
    | first :: second :: rest, _ => rfl

theorem IsPlain.run_inj {v w : Native} (hv : v.IsPlain) (hw : w.IsPlain) (h : v.run = w.run) :
    v = w := by
  rw [← hv.value_run, h, hw.value_run]

theorem IsPlain.length_items {v : Native} (h : v.IsPlain) :
    v.run.items.length = v.run.separators.length + 1 := by
  cases h with
  | word h => rfl
  | @list items separator hlength h =>
    change items.length = (List.replicate (items.length - 1) separator).length + 1
    rw [List.length_replicate]
    omega

theorem IsPlain.separators_eq {v : Native} (h : v.IsPlain) :
    ∃ n s, v.run.separators = List.replicate n s := by
  cases h with
  | word h => exact ⟨0, .comma, rfl⟩
  | list hlength h => exact ⟨_, _, rfl⟩

theorem IsPlain.separators_of_isSpaced {v : Native} (h : v.IsPlain) (hspaced : v.isSpaced) :
    ∃ n, v.run.separators = List.replicate (n + 1) .space := by
  cases h with
  | word h => exact nomatch hspaced
  | @list items separator hlength h =>
    cases separator with
    | comma => exact nomatch hspaced
    | space => exact ⟨items.length - 2, congrArg (List.replicate · _) (by omega)⟩

theorem IsPlain.separators_of_not_isList {v : Native} (h : v.IsPlain) (hword : v.isList = false) :
    v.run.separators = [] := by
  cases h with
  | word h => rfl
  | list hlength h => exact nomatch hword

/-! ## No colons within keys and values -/

theorem IsTree.colon_notMem [ColorNames] {v : Native} (h : v.IsTree) :
    ∀ {nested t}, flatten nested v = .ok t → CodePoint.char ':' ∉ t := by
  induction h with
  | @word t h =>
    intro nested u hflat hcolon
    rw [← Except.ok.inj hflat] at hcolon
    exact absurd (h.2 _ hcolon) (by decide)
  | @list items separator bracketed h ih =>
    intro nested u hflat
    obtain ⟨texts, htexts, hu⟩ := Except.bind_eq_ok.mp hflat
    rw [flattenItems_eq_mapM, Except.mapM_eq_ok] at htexts
    have hpieces : ∀ t ∈ texts, CodePoint.char ':' ∉ t := by
      intro t ht
      obtain ⟨v, hv, hvt⟩ := List.mem_map.mp (htexts ▸ List.mem_map_of_mem ht)
      exact ih v hv hvt
    have hjoin : CodePoint.char ':' ∉ Text.join separator.text texts :=
      notMem_join (by cases separator <;> decide) hpieces
    rw [← Except.ok.inj hu, flatList]
    split_ifs
    · simp [hjoin]
    · simp [hjoin]
    · exact hjoin

end Native

/-! ## Texts and the runs they are written for -/

/-- Texts with separators between neighbours. -/
def interleave : List Text → List Separator → Text
  | t :: texts, s :: separators => t ++ s.text ++ interleave texts separators
  | texts, _ => texts.flatten

theorem join_eq_interleave (s : Separator) (texts : List Text) :
    Text.join s.text texts = interleave texts (List.replicate (texts.length - 1) s) := by
  induction texts with
  | nil => rfl
  | cons t rest ih =>
    cases rest with
    | nil => exact (List.append_nil t).symm
    | cons u rest =>
      rw [join_cons (List.cons_ne_nil _ _), ih]
      rfl

theorem interleave_append {texts : List Text} {separators : List Separator} (s : Separator)
    (more : List Text) (others : List Separator) (h : texts.length = separators.length + 1) :
    interleave (texts ++ more) (separators ++ s :: others) =
      interleave texts separators ++ s.text ++ interleave more others := by
  induction separators generalizing texts with
  | nil =>
    match texts, h with
    | [t], _ => simp [interleave]
  | cons first separators ih =>
    match texts, h with
    | t :: texts, h =>
      have hrest := ih (Nat.succ.inj h)
      simp only [List.cons_append, interleave, hrest, List.append_assoc]

section Written

variable [ColorNames]

/-- The text is the one of the items and separators of the run, and it is read as that run. -/
structure Written (t : Text) (r : Run) : Prop where
  text : ∃ texts, flattenItems r.items = .ok texts ∧ t = interleave texts r.separators
  reads : ReadsAs t r
  balanced : r.items.length = r.separators.length + 1
  colon : CodePoint.char ':' ∉ t

namespace Written

variable {t u : Text} {a b : Run}

theorem text_unique (ht : Written t a) (hu : Written u a) : t = u := by
  obtain ⟨texts, htexts, rfl⟩ := ht.text
  obtain ⟨texts', htexts', rfl⟩ := hu.text
  rw [Except.ok.inj (htexts.symm.trans htexts')]

theorem run_unique (ht : Written t a) (ht' : Written t b) : a = b := ht.reads.unique ht'.reads

theorem ne_nil (ht : Written t a) : t ≠ [] := by
  rintro rfl
  have hempty := ReadsAs.nil.unique ht.reads
  have hbalanced := ht.balanced
  rw [← hempty] at hbalanced
  exact nomatch hbalanced

/-- A value and the next key with the comma between them. -/
theorem glue (ht : Written t a) (hu : Written u b) :
    Written (t ++ Separator.comma.text ++ u) (a ++ .separator .comma ++ b) where
  text := by
    obtain ⟨texts, htexts, rfl⟩ := ht.text
    obtain ⟨texts', htexts', rfl⟩ := hu.text
    have hlength := (length_of_flattenItems htexts).trans ht.balanced
    refine ⟨texts ++ texts', ?_, ?_⟩
    · rw [flattenItems_eq_mapM, Except.mapM_eq_ok] at htexts htexts' ⊢
      simp [Run.append_def, Run.separator, htexts, htexts']
    · have happend := interleave_append .comma texts' b.separators hlength
      simpa [Run.append_def, Run.separator] using happend.symm
  reads := ht.reads.separated hu.reads .comma
  balanced := by
    have hbalanced := ht.balanced
    have hbalanced' := hu.balanced
    simp only [Run.append_def, Run.separator, List.append_nil, List.length_append,
      List.length_singleton]
    omega
  colon := by
    have hcolon := ht.colon
    have hcolon' := hu.colon
    simp [Separator.text, hcolon, hcolon']

end Written

/-- A text for a key or a value on its own. -/
def Writes (t : Text) (v : Native) : Prop := Written t v.run ∧ readFlat t = v

theorem Native.IsPlain.exists_text {v : Native} (h : v.IsPlain) :
    ∃ t, flatten false v = .ok t ∧ Writes t v := by
  have hlength := h.length_items
  have hvalue := h.value_run
  have hcolon : ∀ {t}, flatten false v = .ok t → CodePoint.char ':' ∉ t := h.isTree.colon_notMem
  cases h with
  | @word t h =>
    refine ⟨t, rfl, ⟨⟨[t], rfl, (List.append_nil t).symm⟩, .word h, hlength, hcolon rfl⟩, ?_⟩
    exact (ReadsAs.word h).readFlat_eq
  | @list items separator hitems h =>
    have hplain : ∀ v ∈ items, v.IsPlain := h
    obtain ⟨texts, hflat, htexts⟩ := exists_flattenItems fun v hv =>
      (hplain v hv).isTree.exists_flatten
    have hsame : items.map Native.canonical = items :=
      (List.map_congr_left fun v hv => (hplain v hv).canonical_eq).trans (List.map_id' items)
    rw [hsame] at htexts
    have hreads := ReadsAs.join htexts separator
    have hok : flatten false (.list items separator false) =
        .ok (Text.join separator.text texts) := by
      rw [flatten, hflat]
      rfl
    refine ⟨_, hok, ⟨⟨texts, hflat, ?_⟩, hreads, hlength, hcolon hok⟩, ?_⟩
    · rw [join_eq_interleave, length_of_flattenItems hflat]
      rfl
    · exact hreads.readFlat_eq.trans hvalue

end Written

/-! ## What stands between the colons -/

/-- What stands between the colons of a map, where `single` stands for a key or a value alone and
`glue` for a value with the next key. -/
def colonParts {α β : Type} (single : α → β) (glue : α → α → β) : List (α × α) → List β
  | [] => []
  | (k, v) :: rest => single k :: behind v rest
where
  /-- What stands behind the colon of an entry with the given value. -/
  behind (v : α) : List (α × α) → List β
    | [] => [single v]
    | (k, w) :: rest => glue v k :: behind w rest

/-- The items of a value and of the next key, with the comma between them. -/
def seam (v k : Native) : Run := v.run ++ .separator .comma ++ k.run

/-- The items between the colons of a map: those of the first key, those of each value and the next
key, and those of the last value. -/
def betweenColons : List (Native × Native) → List Run := colonParts Native.run seam

/-- The texts of a value and of the next key, with the comma between them. -/
def gluedTexts (v k : Text) : Text := v ++ Separator.comma.text ++ k

/-- The texts between the colons of a map. -/
def textsBetweenColons : List (Text × Text) → List Text := colonParts id gluedTexts

theorem behind_ne_nil {α β : Type} {single : α → β} {glue : α → α → β} (v : α)
    (rest : List (α × α)) : colonParts.behind single glue v rest ≠ [] := by
  cases rest <;> exact List.cons_ne_nil _ _

/-- A value shares its text with the next key, so the first entry is told apart from the others. -/
theorem join_entries_cons (k v : Text) (rest : List (Text × Text)) :
    Text.join Separator.comma.text
        (((k, v) :: rest).map fun entry => entry.1 ++ ": ".toText ++ entry.2) =
      k ++ ": ".toText ++ Text.join ": ".toText (colonParts.behind id gluedTexts v rest) := by
  induction rest generalizing k v with
  | nil => rfl
  | cons entry rest ih =>
    obtain ⟨k', w⟩ := entry
    rw [List.map_cons, join_cons (by simp), ih k' w, colonParts.behind,
      join_cons (behind_ne_nil w rest), gluedTexts]
    simp only [List.append_assoc]

/-- The entries of a map joined with commas are the texts between its colons joined with colons. -/
theorem join_entries (entries : List (Text × Text)) :
    Text.join Separator.comma.text (entries.map fun entry => entry.1 ++ ": ".toText ++ entry.2) =
      Text.join ": ".toText (textsBetweenColons entries) := by
  cases entries with
  | nil => rfl
  | cons entry rest =>
    rw [join_entries_cons entry.1 entry.2, textsBetweenColons, colonParts,
      join_cons (behind_ne_nil entry.2 rest)]
    rfl

theorem join_colon_eq (t : Text) (rest : List Text) :
    Text.join ": ".toText (t :: rest) =
      Text.join [.char ':'] (t :: rest.map (.char ' ' :: ·)) := by
  induction rest generalizing t with
  | nil => rfl
  | cons u rest ih =>
    have hspace := join_cons_append [.char ':'] [.char ' '] u (rest.map (.char ' ' :: ·))
    rw [join_cons (List.cons_ne_nil _ _), ih, List.map_cons, join_cons (List.cons_ne_nil _ _)]
    simp only [List.append_assoc]
    exact congrArg (fun text => t ++ .char ':' :: text) hspace.symm

/-- Behind its first piece a text joined with colons is split at them, with a space before each
piece. -/
theorem splitOn_join_colon {t : Text} {rest : List Text}
    (h : ∀ piece ∈ t :: rest, CodePoint.char ':' ∉ piece) :
    Text.splitOn ':' (Text.join ": ".toText (t :: rest)) = t :: rest.map (.char ' ' :: ·) := by
  rw [join_colon_eq]
  refine Text.splitOn_join (List.cons_ne_nil _ _) fun piece hpiece => ?_
  obtain rfl | hmem := List.mem_cons.mp hpiece
  · exact h piece List.mem_cons_self
  · obtain ⟨u, hu, rfl⟩ := List.mem_map.mp hmem
    simpa using h u (List.mem_cons_of_mem _ hu)

/-- Texts without colons are told by the text in which they are joined with colons. -/
theorem join_colon_inj {ts us : List Text} (hts : ∀ t ∈ ts, t ≠ [] ∧ CodePoint.char ':' ∉ t)
    (hus : ∀ u ∈ us, u ≠ [] ∧ CodePoint.char ':' ∉ u)
    (h : Text.join ": ".toText ts = Text.join ": ".toText us) : ts = us := by
  cases ts with
  | nil =>
    cases us with
    | nil => rfl
    | cons u us => exact absurd h.symm (join_cons_ne_nil (hus u List.mem_cons_self).1)
  | cons t ts =>
    cases us with
    | nil => exact absurd h (join_cons_ne_nil (hts t List.mem_cons_self).1)
    | cons u us =>
      have hsplit := congrArg (Text.splitOn ':') h
      rw [splitOn_join_colon fun piece hpiece => (hts piece hpiece).2,
        splitOn_join_colon fun piece hpiece => (hus piece hpiece).2] at hsplit
      obtain ⟨rfl, hrest⟩ := List.cons.inj hsplit
      rw [List.map_injective_iff.mpr (fun _ _ heq => (List.cons.inj heq).2) hrest]

/-! ## The texts of plain maps -/

section Entries

variable [ColorNames]

/-- Texts for the key and the value of an entry. -/
def WritesEntry (text : Text × Text) (entry : Native × Native) : Prop :=
  Writes text.1 entry.1 ∧ Writes text.2 entry.2

theorem exists_entryTexts {entries : List (Native × Native)}
    (h : ∀ entry ∈ entries, entry.1.IsPlain ∧ entry.2.IsPlain) :
    ∃ texts, flattenEntries entries = .ok texts ∧ List.Forall₂ WritesEntry texts entries := by
  induction entries with
  | nil => exact ⟨[], rfl, .nil⟩
  | cons entry rest ih =>
    obtain ⟨k, v⟩ := entry
    obtain ⟨hk, hv⟩ := h _ List.mem_cons_self
    obtain ⟨key, hkey, hkeyWrites⟩ := hk.exists_text
    obtain ⟨value, hvalue, hvalueWrites⟩ := hv.exists_text
    obtain ⟨texts, htexts, hrest⟩ := ih fun other hother => h other (List.mem_cons_of_mem _ hother)
    refine ⟨(key, value) :: texts, ?_, .cons ⟨hkeyWrites, hvalueWrites⟩ hrest⟩
    rw [flattenEntries, hvalue, hkey, htexts]
    rfl

/-- Different keys have different texts. -/
theorem nodup_keyTexts {texts : List (Text × Text)} {entries : List (Native × Native)}
    (h : List.Forall₂ WritesEntry texts entries)
    (hkeys : (entries.map Prod.fst).Nodup) : (Keyed.keys texts).Nodup := by
  have hread : (texts.map Prod.fst).map readFlat = entries.map Prod.fst := by
    clear hkeys
    induction h with
    | nil => rfl
    | cons hfirst hrest ih =>
      rw [List.map_cons, List.map_cons, List.map_cons, hfirst.1.2, ih]
  rw [← hread] at hkeys
  exact List.Nodup.of_map readFlat hkeys

theorem forall₂_behind {texts : List (Text × Text)} {entries : List (Native × Native)}
    (h : List.Forall₂ WritesEntry texts entries) {t : Text} {v : Native} (ht : Written t v.run) :
    List.Forall₂ Written (colonParts.behind id gluedTexts t texts)
      (colonParts.behind Native.run seam v entries) := by
  induction h generalizing t v with
  | nil => exact .cons ht .nil
  | cons hfirst hrest ih => exact .cons (ht.glue hfirst.1.1) (ih hfirst.2.1)

theorem forall₂_betweenColons {texts : List (Text × Text)} {entries : List (Native × Native)}
    (h : List.Forall₂ WritesEntry texts entries) :
    List.Forall₂ Written (textsBetweenColons texts) (betweenColons entries) := by
  cases h with
  | nil => exact .nil
  | cons hfirst hrest => exact .cons hfirst.1.1 (forall₂_behind hrest hfirst.2.1)

/-- The flat form of a plain map joins what stands between its colons. -/
theorem IsPlainMap.exists_texts {entries : List (Native × Native)} (h : IsPlainMap entries)
    (nested : Bool) :
    ∃ pieces, flatten nested (.map entries) =
        .ok (.char '(' :: Text.join ": ".toText pieces ++ [.char ')']) ∧
      List.Forall₂ Written pieces (betweenColons entries) := by
  obtain ⟨texts, htexts, hwrites⟩ := exists_entryTexts h.plain
  refine ⟨textsBetweenColons texts, ?_, forall₂_betweenColons hwrites⟩
  rw [flatten, htexts, ← join_entries]
  change Except.ok (flatEntries (Keyed.ofList texts)) = _
  rw [Keyed.ofList_of_nodup (nodup_keyTexts hwrites h.distinct)]
  rfl

theorem ne_nil_and_colon_notMem {pieces : List Text} {runs : List Run}
    (h : List.Forall₂ Written pieces runs) : ∀ t ∈ pieces, t ≠ [] ∧ CodePoint.char ':' ∉ t := by
  induction h with
  | nil => exact fun _ hmem => absurd hmem List.not_mem_nil
  | cons hfirst hrest ih => exact List.forall_mem_cons.mpr ⟨⟨hfirst.ne_nil, hfirst.colon⟩, ih⟩

theorem writtenPieces_eq_iff {pieces pieces' : List Text} {runs runs' : List Run}
    (h : List.Forall₂ Written pieces runs) (h' : List.Forall₂ Written pieces' runs') :
    Text.join ": ".toText pieces = Text.join ": ".toText pieces' ↔ runs = runs' := by
  constructor
  · intro heq
    obtain rfl := join_colon_inj (ne_nil_and_colon_notMem h) (ne_nil_and_colon_notMem h') heq
    have hunique : Relator.RightUnique Written := fun _ _ _ => Written.run_unique
    exact List.right_unique_forall₂' hunique h h'
  · rintro rfl
    have hunique : Relator.LeftUnique Written := fun _ _ _ => Written.text_unique
    rw [List.left_unique_forall₂' hunique h h']

end Entries

/-! ## Where an entry ends -/

/-- No item between the value and the next key can be counted to the other side of the comma: one of
them is a list with spaces, or both are words. -/
def Native.StaysApart (v k : Native) : Prop :=
  v.isSpaced ∨ k.isSpaced ∨ (v.isList = false ∧ k.isList = false)

theorem replicate_append_cons_inj {α : Type} {a b : α} (hne : a ≠ b) {xs ys : List α} {n m : Nat}
    (h : List.replicate n a ++ b :: xs = List.replicate m a ++ b :: ys) : n = m := by
  induction n generalizing m with
  | zero =>
    cases m with
    | zero => rfl
    | succ m => exact absurd (List.cons.inj h).1.symm hne
  | succ n ih =>
    cases m with
    | zero => exact absurd (List.cons.inj h).1 hne
    | succ m => rw [ih (List.cons.inj h).2]

namespace Native

/-- A list with spaces ends where the first comma stands. -/
theorem IsPlain.length_separators_eq {v w : Native} (hv : v.IsPlain) (hw : w.IsPlain)
    (hspaced : v.isSpaced) {xs ys : List Separator}
    (h : v.run.separators ++ .comma :: xs = w.run.separators ++ .comma :: ys) :
    v.run.separators.length = w.run.separators.length := by
  obtain ⟨n, hn⟩ := hv.separators_of_isSpaced hspaced
  obtain ⟨m, s, hm⟩ := hw.separators_eq
  rw [hn, hm] at h ⊢
  cases m with
  | zero => exact nomatch (List.cons.inj h).1
  | succ m =>
    obtain rfl : Separator.space = s := (List.cons.inj h).1
    have hne : Separator.space ≠ .comma := nofun
    rw [replicate_append_cons_inj hne h]

theorem IsPlain.reverse_separators {v : Native} (h : v.IsPlain) :
    v.run.separators.reverse = v.run.separators := by
  obtain ⟨n, s, hn⟩ := h.separators_eq
  rw [hn, List.reverse_replicate]

theorem StaysApart.length_separators_eq {v k v' k' : Native} (h : StaysApart v k)
    (hv : v.IsPlain) (hk : k.IsPlain) (hv' : v'.IsPlain) (hk' : k'.IsPlain)
    (hseparators : v.run.separators ++ .comma :: k.run.separators =
      v'.run.separators ++ .comma :: k'.run.separators) :
    v.run.separators.length = v'.run.separators.length := by
  have hlength := congrArg List.length hseparators
  simp only [List.length_append, List.length_cons] at hlength
  obtain hspaced | hspaced | ⟨hword, hword'⟩ := h
  · exact hv.length_separators_eq hv' hspaced hseparators
  · -- from the end of the text the key comes before the comma
    have hreverse := congrArg List.reverse hseparators
    simp only [List.reverse_append, List.reverse_cons, List.append_assoc, List.singleton_append,
      hk.reverse_separators, hk'.reverse_separators] at hreverse
    have hkeys := hk.length_separators_eq hk' hspaced hreverse
    omega
  · rw [hv.separators_of_not_isList hword, hk.separators_of_not_isList hword'] at hlength
    rw [hv.separators_of_not_isList hword]
    simp only [List.length_nil] at hlength ⊢
    omega

theorem StaysApart.seam_inj {v k v' k' : Native} (h : StaysApart v k) (hv : v.IsPlain)
    (hk : k.IsPlain) (hv' : v'.IsPlain) (hk' : k'.IsPlain) (heq : seam v k = seam v' k') :
    v = v' ∧ k = k' := by
  have hitems : v.run.items ++ k.run.items = v'.run.items ++ k'.run.items := by
    simpa [seam, Run.append_def, Run.separator] using congrArg Run.items heq
  have hseparators : v.run.separators ++ .comma :: k.run.separators =
      v'.run.separators ++ .comma :: k'.run.separators := by
    simpa [seam, Run.append_def, Run.separator] using congrArg Run.separators heq
  have hlength := h.length_separators_eq hv hk hv' hk' hseparators
  have hcount : v.run.items.length = v'.run.items.length := by
    rw [hv.length_items, hv'.length_items, hlength]
  obtain ⟨hvItems, hkItems⟩ := List.append_inj hitems hcount
  obtain ⟨hvSeparators, hkSeparators⟩ := List.append_inj hseparators hlength
  exact ⟨hv.run_inj hv' (Run.ext hvItems hvSeparators),
    hk.run_inj hk' (Run.ext hkItems (List.cons.inj hkSeparators).2)⟩

end Native

/-- Each comma settles the value before it and the key behind it, from left to right. -/
theorem behind_inj {rest rest' : List (Native × Native)} {k v k' v' : Native}
    (h : ∀ entry ∈ (k, v) :: rest, entry.1.IsPlain ∧ entry.2.IsPlain)
    (h' : ∀ entry ∈ (k', v') :: rest', entry.1.IsPlain ∧ entry.2.IsPlain)
    (hapart : ((k, v) :: rest).IsChain fun entry next => entry.2.StaysApart next.1)
    (heq : colonParts.behind Native.run seam v rest = colonParts.behind Native.run seam v' rest') :
    v = v' ∧ rest = rest' := by
  induction rest generalizing rest' k v k' v' with
  | nil =>
    cases rest' with
    | nil =>
      have hv : v.IsPlain := (h _ List.mem_cons_self).2
      have hv' : v'.IsPlain := (h' _ List.mem_cons_self).2
      exact ⟨hv.run_inj hv' (List.cons.inj heq).1, rfl⟩
    | cons next rest' => exact absurd (List.cons.inj heq).2.symm (behind_ne_nil _ _)
  | cons next rest ih =>
    cases rest' with
    | nil => exact absurd (List.cons.inj heq).2 (behind_ne_nil _ _)
    | cons next' rest' =>
      obtain ⟨key, w⟩ := next
      obtain ⟨key', w'⟩ := next'
      obtain ⟨⟨-, hv⟩, hrest⟩ := List.forall_mem_cons.mp h
      obtain ⟨⟨-, hv'⟩, hrest'⟩ := List.forall_mem_cons.mp h'
      have hkey : key.IsPlain := (hrest _ List.mem_cons_self).1
      have hkey' : key'.IsPlain := (hrest' _ List.mem_cons_self).1
      obtain ⟨hseam, hmore⟩ := List.cons.inj heq
      obtain ⟨hfirst, hnext⟩ := List.isChain_cons_cons.mp hapart
      obtain ⟨rfl, rfl⟩ := hfirst.seam_inj hv hkey hv' hkey' hseam
      obtain ⟨rfl, rfl⟩ := ih hrest hrest' hnext hmore
      exact ⟨rfl, rfl⟩

/-- Where each value stays apart from the next key, what stands between the colons tells the
entries. -/
theorem betweenColons_inj {entries entries' : List (Native × Native)}
    (h : ∀ entry ∈ entries, entry.1.IsPlain ∧ entry.2.IsPlain)
    (h' : ∀ entry ∈ entries', entry.1.IsPlain ∧ entry.2.IsPlain)
    (hapart : entries.IsChain fun entry next => entry.2.StaysApart next.1)
    (heq : betweenColons entries = betweenColons entries') : entries = entries' := by
  cases entries with
  | nil =>
    cases entries' with
    | nil => rfl
    | cons entry' rest' => exact nomatch heq
  | cons entry rest =>
    cases entries' with
    | nil => exact nomatch heq
    | cons entry' rest' =>
      obtain ⟨k, v⟩ := entry
      obtain ⟨k', v'⟩ := entry'
      obtain ⟨hkeys, hmore⟩ := List.cons.inj heq
      obtain ⟨rfl, rfl⟩ := behind_inj h h' hapart hmore
      have hk : k.IsPlain := (h _ List.mem_cons_self).1
      have hk' : k'.IsPlain := (h' _ List.mem_cons_self).1
      rw [hk.run_inj hk' hkeys]

/-! ## What the flat form of a map tells -/

/-- Maps of words and lists are flattened, and two of them have one flat form exactly when the same
items stand between their colons. Where each value stays apart from the next key, that is the one
map with this flat form. -/
theorem flatten_map_eq_iff [ColorNames] {entries entries' : List (Native × Native)}
    (h : IsPlainMap entries) (h' : IsPlainMap entries') (nested : Bool) :
    (flatten nested (.map entries)).isOk ∧
    (flatten nested (.map entries) = flatten nested (.map entries') ↔
      betweenColons entries = betweenColons entries') ∧
    ((entries.IsChain fun entry next => entry.2.StaysApart next.1) →
      flatten nested (.map entries) = flatten nested (.map entries') → entries = entries') := by
  obtain ⟨pieces, hflat, hwritten⟩ := h.exists_texts nested
  obtain ⟨pieces', hflat', hwritten'⟩ := h'.exists_texts nested
  have hsame : flatten nested (.map entries) = flatten nested (.map entries') ↔
      betweenColons entries = betweenColons entries' := by
    rw [hflat, hflat', ← writtenPieces_eq_iff hwritten hwritten']
    simp
  refine ⟨by rw [hflat]; rfl, hsame, fun hapart heq => ?_⟩
  exact betweenColons_inj h.plain h'.plain hapart (hsame.mp heq)

section Samples

open CssColors

/-- A list of two words. -/
def pairOf (first second : String) (separator : Separator) : Native :=
  .list [.string first.toText, .string second.toText] separator false

theorem isPlain_pairOf {first second : String} (hfirst : IsWordText first.toText)
    (hsecond : IsWordText second.toText) (separator : Separator) :
    (pairOf first second separator).IsPlain :=
  .list (Nat.le_refl 2) (List.forall_mem_cons.mpr
    ⟨.word hfirst, List.forall_mem_singleton.mpr (.word hsecond)⟩)

/-- Two entries, the first with a list as its value. -/
def pairValue (separator : Separator) : List (Native × Native) :=
  [(.string "a".toText, pairOf "b" "c" separator), (.string "d".toText, .string "e".toText)]

/-- Two entries, the second with a list as its key. -/
def pairKey : List (Native × Native) :=
  [(.string "a".toText, .string "b".toText), (pairOf "c" "d" .comma, .string "e".toText)]

theorem isPlainMap_pairValue (separator : Separator) : IsPlainMap (pairValue separator) where
  plain := List.forall_mem_cons.mpr
    ⟨⟨.word (by decide), isPlain_pairOf (by decide) (by decide) separator⟩,
      List.forall_mem_singleton.mpr ⟨.word (by decide), .word (by decide)⟩⟩
  distinct := by
    have hne : "a".toText ≠ "d".toText := by decide
    simpa [pairValue] using hne

theorem isPlainMap_pairKey : IsPlainMap pairKey where
  plain := List.forall_mem_cons.mpr
    ⟨⟨.word (by decide), .word (by decide)⟩,
      List.forall_mem_singleton.mpr ⟨isPlain_pairOf (by decide) (by decide) .comma,
        .word (by decide)⟩⟩
  distinct := by simp [pairKey, pairOf]

/-- With spaces the list stays apart from the next key, with commas it does not. -/
theorem flatten_map_pairs :
    IsPlainMap (pairValue .comma) ∧ IsPlainMap (pairValue .space) ∧ IsPlainMap pairKey ∧
    flatten true (.map (pairValue .comma)) = flatten true (.map pairKey) ∧
    ((pairValue .space).IsChain fun entry next => entry.2.StaysApart next.1) ∧
    flatten false (.map (pairValue .space)) ≠ flatten false (.map pairKey) := by
  have hcomma := isPlainMap_pairValue .comma
  have hspace := isPlainMap_pairValue .space
  have hkey := isPlainMap_pairKey
  have hapart : (pairValue .space).IsChain fun entry next => entry.2.StaysApart next.1 :=
    .cons_cons (.inl rfl) (.singleton _)
  have hruns : betweenColons (pairValue .comma) = betweenColons pairKey := by
    simp [betweenColons, colonParts, colonParts.behind, pairValue, pairKey, pairOf, Native.run,
      seam, Run.append_def, Run.item, Run.separator]
  obtain ⟨-, hsame, -⟩ := flatten_map_eq_iff hcomma hkey true
  obtain ⟨-, -, htold⟩ := flatten_map_eq_iff hspace hkey false
  refine ⟨hcomma, hspace, hkey, hsame.mpr hruns, hapart, fun heq => ?_⟩
  have hentries := htold hapart heq
  simp [pairValue, pairKey, pairOf] at hentries

/-- The text `(a: b,c,d: e)` is that of two maps: the `c` is an item of the value of `a` in the one,
and of the key of `e` in the other. -/
theorem flatten_map_confused :
    ¬ ∀ entries entries' : List (Native × Native), IsPlainMap entries → IsPlainMap entries' →
      flatten false (.map entries) = flatten false (.map entries') → entries = entries' := by
  intro htold
  have hcomma : flatten false (.map (pairValue .comma)) = .ok "(a: b,c,d: e)".toText := rfl
  have hkey : flatten false (.map pairKey) = .ok "(a: b,c,d: e)".toText := rfl
  have hentries := htold _ _ (isPlainMap_pairValue .comma) isPlainMap_pairKey
    (hcomma.trans hkey.symm)
  simp [pairValue, pairKey, pairOf] at hentries

end Samples

end StyleVars
