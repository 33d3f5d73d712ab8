import StyleVars.Proofs.KeyedLists
import StyleVars.Proofs.Outcomes
import StyleVars.Value.CssColors
import StyleVars.Value.Structured
import Mathlib.Data.List.Basic

/-!
# Keys with one flat form

Different keys of a map can have one flat form, the number 1 and the text `1` for example. The flat
and the structured form of the map are collected by loops of their own; both keep the place of the
first of these keys and the value of the last (`Native.map_forms`).
-/

namespace StyleVars

/-! ## The keys of a map by their flat forms -/

section Forms

variable [ColorNames]

/-- The flat forms of the keys of a map, each of them once, in the order of their first
occurrences. -/
def flatKeys (entries : List (Native × Native)) : List Text :=
  (entries.filterMap fun entry => (flatten false entry.1).toOption).eraseDups

/-- The value of the last entry whose key has the given flat form. -/
def lastValue? (key : Text) (entries : List (Native × Native)) : Option Native :=
  entries.reverse.findSome? fun entry =>
    if (flatten false entry.1).toOption = some key then some entry.2 else none

/-! ## One recursion for both forms -/

/-- An entry by the flat form of its key, with a form of its value; the value is taken first. -/
def formedEntry {α : Type} (form : Native → Except Failure α) (entry : Native × Native) :
    Except Failure (Text × α) := do
  let value ← form entry.2
  let key ← flatten false entry.1
  return (key, value)

theorem flattenEntries_eq_mapM (entries : List (Native × Native)) :
    flattenEntries entries = entries.mapM (formedEntry (flatten false)) := by
  induction entries with
  | nil => rfl
  | cons entry rest ih => simp only [flattenEntries, List.mapM_cons, formedEntry, ih, bind_assoc,
      pure_bind]

theorem structuredEntries_eq_mapM (entries : List (Native × Native)) :
    structuredEntries entries = entries.mapM (formedEntry Native.structured) := by
  induction entries with
  | nil => rfl
  | cons entry rest ih => simp only [structuredEntries, List.mapM_cons, formedEntry, ih,
      bind_assoc, pure_bind]

section Formed

variable {α : Type} {form : Native → Except Failure α}

theorem formedEntry_eq_ok {entry : Native × Native} {pair : Text × α} :
    formedEntry form entry = .ok pair ↔
      flatten false entry.1 = .ok pair.1 ∧ form entry.2 = .ok pair.2 := by
  simp only [formedEntry, Except.bind_eq_ok]
  constructor
  · rintro ⟨value, hvalue, key, hkey, heq⟩
    obtain rfl := Except.ok.inj heq
    exact ⟨hkey, hvalue⟩
  · rintro ⟨hkey, hvalue⟩
    exact ⟨pair.2, hvalue, pair.1, hkey, rfl⟩

/-- Every entry has a formed one when its key has a flat form and its value the form. -/
theorem exists_formed {entries : List (Native × Native)}
    (h : ∀ entry ∈ entries, (flatten false entry.1).isOk ∧ (form entry.2).isOk) :
    ∃ pairs, entries.mapM (formedEntry form) = .ok pairs := by
  simp only [Except.mapM_eq_ok]
  induction entries with
  | nil => exact ⟨[], rfl⟩
  | cons entry rest ih =>
    obtain ⟨key, hkey⟩ := Except.exists_eq_ok (h entry List.mem_cons_self).1
    obtain ⟨value, hvalue⟩ := Except.exists_eq_ok (h entry List.mem_cons_self).2
    obtain ⟨pairs, hpairs⟩ := ih fun other hother => h other (List.mem_cons_of_mem _ hother)
    have hentry : formedEntry form entry = .ok (key, value) := formedEntry_eq_ok.mpr ⟨hkey, hvalue⟩
    exact ⟨(key, value) :: pairs, by rw [List.map_cons, List.map_cons, hentry, hpairs]⟩

variable {entries : List (Native × Native)} {pairs : List (Text × α)}

theorem keys_of_formed (h : entries.map (formedEntry form) = pairs.map .ok) :
    (entries.filterMap fun entry => (flatten false entry.1).toOption) = pairs.map Prod.fst := by
  induction entries generalizing pairs with
  | nil =>
    obtain rfl := List.map_eq_nil_iff.mp h.symm
    rfl
  | cons entry rest ih =>
    obtain ⟨pair, pairs, rfl, hpair, hpairs⟩ := List.map_eq_cons_iff.mp h.symm
    have hkey := (formedEntry_eq_ok.mp hpair.symm).1
    rw [List.filterMap_cons_some (by rw [hkey]; rfl), ih hpairs.symm, List.map_cons]

theorem findSome?_of_formed (h : entries.map (formedEntry form) = pairs.map .ok) (key : Text) :
    (entries.findSome? fun entry =>
        if (flatten false entry.1).toOption = some key then some entry.2 else none).map form =
      (pairs.findSome? fun pair => if pair.1 = key then some pair.2 else none).map .ok := by
  induction entries generalizing pairs with
  | nil =>
    obtain rfl := List.map_eq_nil_iff.mp h.symm
    rfl
  | cons entry rest ih =>
    obtain ⟨pair, pairs, rfl, hpair, hpairs⟩ := List.map_eq_cons_iff.mp h.symm
    obtain ⟨hkey, hvalue⟩ := formedEntry_eq_ok.mp hpair.symm
    have hsame : (flatten false entry.1).toOption = some key ↔ pair.1 = key := by
      rw [hkey]
      exact Option.some_inj
    rw [List.findSome?_cons, List.findSome?_cons]
    by_cases hpairkey : pair.1 = key
    · simp [hsame, hpairkey, hvalue]
    · simpa [hsame, hpairkey] using ih hpairs.symm

/-- The formed entries, put one after the other, are those of the keys by their flat forms, each
with the form of the last value. -/
theorem ofList_of_formed (h : entries.mapM (formedEntry form) = .ok pairs) :
    Keyed.keys (Keyed.ofList pairs) = flatKeys entries ∧
    (Keyed.ofList pairs).map (fun pair => (pair.1, some (Except.ok pair.2))) =
      (flatKeys entries).map fun key => (key, (lastValue? key entries).map form) := by
  rw [Except.mapM_eq_ok] at h
  have hkeys : Keyed.keys (Keyed.ofList pairs) = flatKeys entries := by
    rw [Keyed.keys_ofList, Keyed.foldl_insertNew, ← keys_of_formed h]
    rfl
  refine ⟨hkeys, ?_⟩
  rw [← hkeys, Keyed.keys, List.map_map]
  refine List.map_congr_left fun pair hpair => ?_
  have hlast := Keyed.get?_of_mem (Keyed.nodup_ofList pairs) hpair
  -- the last of the entries with a key is the first of them from the end
  have hreverse : entries.reverse.map (formedEntry form) = pairs.reverse.map .ok := by
    rw [List.map_reverse, List.map_reverse, h]
  rw [Keyed.get?_ofList] at hlast
  rw [Function.comp_apply, lastValue?, findSome?_of_formed hreverse, hlast]
  rfl

end Formed

end Forms

/-! ## The renderings of a structured map -/

theorem Structured.entriesData_eq_map (entries : List (Text × Structured)) :
    entriesData entries = entries.map fun entry => (entry.1, entry.2.toData) := by
  induction entries with
  | nil => rfl
  | cons entry rest ih =>
    rw [entriesData, ih]
    rfl

theorem Structured.bareEntries_eq_map (entries : List (Text × Structured)) :
    bareEntries entries = entries.map fun entry => (entry.1, entry.2.bare) := by
  induction entries with
  | nil => rfl
  | cons entry rest ih =>
    rw [bareEntries, ih]
    rfl

/-! ## The two forms of a map -/

/-- When the keys of a map have flat forms and its values have both forms, the map has both forms,
with the same keys in the same order: the flat forms of its keys, each where it occurs first and
with the value that it occurs with last. The renderings of the structured form keep these entries,
and to put them one after the other into a new mapping changes nothing. -/
theorem Native.map_forms [ColorNames] {entries : List (Native × Native)}
    (h : ∀ entry ∈ entries, (flatten false entry.1).isOk ∧ (flatten false entry.2).isOk ∧
      entry.2.structured.isOk) (nested : Bool) :
    ∃ (values : List (Text × Structured)) (texts : List (Text × Text)),
      (Native.map entries).structured = .ok (.map values) ∧
      values.map (fun entry => (entry.1, some (Except.ok entry.2))) =
        (flatKeys entries).map (fun key =>
          (key, (lastValue? key entries).map Native.structured)) ∧
      Structured.toData (.map values) = .ofFields [("type".toText, .text Kind.map.name),
        ("value".toText, .ofFields (values.map fun entry => (entry.1, entry.2.toData)))] ∧
      Structured.bare (.map values) =
        .ofFields (values.map fun entry => (entry.1, entry.2.bare)) ∧
      Keyed.keys values = flatKeys entries ∧
      (∀ {β : Type} (rendering : Structured → β),
        Keyed.ofList (values.map fun entry => (entry.1, rendering entry.2)) =
          values.map fun entry => (entry.1, rendering entry.2)) ∧
      flatten nested (.map entries) =
        .ok (.char '(' :: Text.join [.char ',']
          (texts.map fun entry => entry.1 ++ ": ".toText ++ entry.2) ++ [.char ')']) ∧
      texts.map (fun entry => (entry.1, some (Except.ok entry.2))) =
        (flatKeys entries).map (fun key =>
          (key, (lastValue? key entries).map (flatten false))) := by
  obtain ⟨values, hvalues⟩ := exists_formed fun entry hentry =>
    ⟨(h entry hentry).1, (h entry hentry).2.2⟩
  obtain ⟨texts, htexts⟩ := exists_formed fun entry hentry =>
    ⟨(h entry hentry).1, (h entry hentry).2.1⟩
  obtain ⟨hkeys, hlast⟩ := ofList_of_formed hvalues
  refine ⟨Keyed.ofList values, Keyed.ofList texts, ?_, hlast, ?_, ?_, hkeys, ?_, ?_,
    (ofList_of_formed htexts).2⟩
  · rw [structured, structuredEntries_eq_mapM, hvalues]
    rfl
  · rw [Structured.toData, Structured.fields, Structured.entriesData_eq_map]
    rfl
  · rw [Structured.bare, Structured.bareEntries_eq_map]
  · intro β rendering
    refine Keyed.ofList_of_nodup ?_
    rw [Keyed.keys, List.map_map]
    exact Keyed.nodup_ofList values
  · rw [flatten, flattenEntries_eq_mapM, htexts]
    rfl

section Samples

open CssColors

/-- A truth value and a text that is written alike, around another key. -/
def collidingEntries : List (Native × Native) :=
  [(.boolean true, .string "first".toText), (.null, .boolean false),
    (.string "true".toText, .list [.string "a".toText, .null] .comma false)]

theorem Native.map_forms_collidingEntries :
    (∀ entry ∈ collidingEntries, (flatten false entry.1).isOk ∧ (flatten false entry.2).isOk ∧
      entry.2.structured.isOk) ∧
    (∃ values, (Native.map collidingEntries).structured = .ok (.map values) ∧
      Keyed.keys values = ["true".toText, "null".toText]) ∧
    flatten true (.map collidingEntries) = .ok "(true: a,null,null: false)".toText := by
  have hforms : ∀ entry ∈ collidingEntries, (flatten false entry.1).isOk ∧
      (flatten false entry.2).isOk ∧ entry.2.structured.isOk := by
    decide
  obtain ⟨values, texts, hstructured, -, -, -, hkeys, -, hflat, htexts⟩ :=
    Native.map_forms hforms true
  have hpairs : Function.Injective fun entry : Text × Text =>
      (entry.1, some (Except.ok (ε := Failure) entry.2)) := by
    intro entry other heq
    obtain ⟨hkey, htext⟩ := Prod.mk.inj heq
    exact Prod.ext hkey (Except.ok.inj (Option.some.inj htext))
  obtain rfl : texts = [("true".toText, "a,null".toText), ("null".toText, "false".toText)] :=
    List.map_injective_iff.mpr hpairs htexts
  exact ⟨hforms, ⟨values, hstructured, hkeys⟩, hflat⟩

end Samples

end StyleVars
