import StyleVars.Proofs.BarePayloads
import StyleVars.Proofs.JsonTexts
import StyleVars.Proofs.ServiceAnswers
import StyleVars.Value.CssColors

/-!
# Payloads in JSON

JSON has no numbers but finite ones. The structured form of a value keeps its numbers and the alpha
of its colors as they are, so that its renderings are values that JSON has, and the printed payload
is a JSON text, exactly when all the numbers that it keeps are finite (`isJson_structured_iff`). The
response of a service has nothing in the place of a number that is not finite.
-/

namespace StyleVars

/-! ## The values of JSON -/

/-- A value that JSON has. -/
inductive Data.IsJson : Data → Prop
  | null : IsJson .null
  | bool (b : Bool) : IsJson (.bool b)
  | int (n : Int) : IsJson (.int n)
  | real {x : Binary64} (hfinite : x.isFinite) : IsJson (.real x)
  | text (t : Text) : IsJson (.text t)
  | list {items : List Data} (hitems : ∀ d ∈ items, IsJson d) : IsJson (.list items)
  | mapping {entries : Data.Entries} (hkeys : ∀ entry ∈ entries, ∃ t, entry.1 = .text t)
      (hvalues : ∀ entry ∈ entries, IsJson entry.2) : IsJson (.mapping entries)

namespace Data

mutual

/-- All keys in a value are texts. -/
def hasTextKeys : Data → Bool
  | .list items => textKeysInItems items
  | .mapping entries => textKeysInEntries entries
  | _ => true

/-- All keys in the items of a list are texts. -/
def textKeysInItems : List Data → Bool
  | [] => true
  | d :: rest => hasTextKeys d && textKeysInItems rest

/-- All keys of a mapping and all keys in its values are texts. -/
def textKeysInEntries : List (Key × Data) → Bool
  | [] => true
  | (key, d) :: rest => key matches .text _ && hasTextKeys d && textKeysInEntries rest

end

theorem allFiniteItems_iff {items : List Data} :
    allFiniteItems items ↔ ∀ d ∈ items, d.allFinite := by
  induction items with
  | nil => simp [allFiniteItems]
  | cons d rest ih => simp [allFiniteItems, ih]

theorem allFiniteEntries_iff {entries : Entries} :
    allFiniteEntries entries ↔ ∀ entry ∈ entries, entry.2.allFinite := by
  induction entries with
  | nil => simp [allFiniteEntries]
  | cons entry rest ih => simp [allFiniteEntries, ih]

theorem textKeysInItems_iff {items : List Data} :
    textKeysInItems items ↔ ∀ d ∈ items, d.hasTextKeys := by
  induction items with
  | nil => simp [textKeysInItems]
  | cons d rest ih => simp [textKeysInItems, ih]

theorem textKeysInEntries_iff {entries : Entries} :
    textKeysInEntries entries ↔
      (∀ entry ∈ entries, ∃ t, entry.1 = .text t) ∧ ∀ entry ∈ entries, entry.2.hasTextKeys := by
  induction entries with
  | nil => simp [textKeysInEntries]
  | cons entry rest ih =>
    obtain ⟨key, d⟩ := entry
    cases key <;> simp [textKeysInEntries, ih, and_left_comm]

theorem allFinite_ofFields {fields : List (Text × Data)} :
    (ofFields fields).allFinite ↔ ∀ field ∈ fields, field.2.allFinite := by
  rw [ofFields, allFinite, allFiniteEntries_iff, named, List.forall_mem_map]

theorem hasTextKeys_ofFields {fields : List (Text × Data)} :
    (ofFields fields).hasTextKeys ↔ ∀ field ∈ fields, field.2.hasTextKeys := by
  rw [ofFields, hasTextKeys, textKeysInEntries_iff, named, List.forall_mem_map, List.forall_mem_map]
  exact and_iff_right fun field _ => ⟨field.1, rfl⟩

theorem IsJson.allFinite {d : Data} (h : d.IsJson) : d.allFinite := by
  induction h with
  | real hfinite => exact hfinite
  | list _ ih => exact allFiniteItems_iff.mpr ih
  | mapping _ _ ih => exact allFiniteEntries_iff.mpr ih
  | _ => rfl

theorem isJson_of_allFinite {d : Data} (hfinite : d.allFinite) (hkeys : d.hasTextKeys) :
    d.IsJson := by
  match d with
  | .null => exact .null
  | .bool b => exact .bool b
  | .int n => exact .int n
  | .real x => exact .real hfinite
  | .text t => exact .text t
  | .list items =>
    refine .list fun d hd => ?_
    have := List.sizeOf_lt_of_mem hd
    exact isJson_of_allFinite (allFiniteItems_iff.mp hfinite d hd)
      (textKeysInItems_iff.mp hkeys d hd)
  | .mapping entries =>
    obtain ⟨htexts, hvalues⟩ := textKeysInEntries_iff.mp hkeys
    refine .mapping htexts fun entry hentry => ?_
    obtain ⟨key, d⟩ := entry
    have := List.sizeOf_lt_of_mem hentry
    exact isJson_of_allFinite (allFiniteEntries_iff.mp hfinite _ hentry) (hvalues _ hentry)
termination_by sizeOf d
decreasing_by
  · simp_wf
    omega
  · simp_wf
    simp only [Prod.mk.sizeOf_spec] at this
    omega

theorem isJson_iff_allFinite {d : Data} (hkeys : d.hasTextKeys) : d.IsJson ↔ d.allFinite :=
  ⟨IsJson.allFinite, fun hfinite => isJson_of_allFinite hfinite hkeys⟩

end Data

/-! ## The two renderings -/

/-- The keys in both values are texts, and the numbers in one are finite exactly when those in the
other are. -/
structure Data.Alike (d d' : Data) : Prop where
  left : d.hasTextKeys
  right : d'.hasTextKeys
  finite : d.allFinite = d'.allFinite

namespace Data.Alike

theorem refl {d : Data} (h : d.hasTextKeys) : Alike d d := ⟨h, h, rfl⟩

theorem isJson_iff {d d' : Data} (h : Alike d d') : d.IsJson ↔ d'.IsJson := by
  rw [isJson_iff_allFinite h.left, isJson_iff_allFinite h.right, h.finite]

/-- A type, and what else is told about a value besides numbers, changes nothing. -/
theorem tagged {d d' : Data} (h : Alike d d') (tag : Text) {more : List (Text × Data)}
    (hmore : ∀ field ∈ more, field.2.hasTextKeys ∧ field.2.allFinite) :
    Alike (ofFields (Structured.tagged tag d more)) d' := by
  refine ⟨?_, h.right, ?_⟩
  · rw [hasTextKeys_ofFields, Structured.tagged, List.forall_mem_cons, List.forall_mem_cons]
    exact ⟨rfl, h.left, fun field hfield => (hmore field hfield).1⟩
  · rw [← h.finite, Bool.eq_iff_iff, allFinite_ofFields, Structured.tagged, List.forall_mem_cons,
      List.forall_mem_cons]
    exact ⟨fun hall => hall.2.1, fun hd => ⟨rfl, hd, fun field hfield => (hmore field hfield).2⟩⟩

theorem list {α : Type} {xs : List α} {f g : α → Data} (h : ∀ x ∈ xs, Alike (f x) (g x)) :
    Alike (.list (xs.map f)) (.list (xs.map g)) := by
  refine ⟨?_, ?_, ?_⟩
  · rw [hasTextKeys, textKeysInItems_iff, List.forall_mem_map]
    exact fun x hx => (h x hx).left
  · rw [hasTextKeys, textKeysInItems_iff, List.forall_mem_map]
    exact fun x hx => (h x hx).right
  · rw [allFinite, allFinite, Bool.eq_iff_iff, allFiniteItems_iff, allFiniteItems_iff,
      List.forall_mem_map, List.forall_mem_map]
    exact forall₂_congr fun x hx => by rw [(h x hx).finite]

theorem ofFields {α : Type} {xs : List (Text × α)} {f g : α → Data}
    (h : ∀ x ∈ xs, Alike (f x.2) (g x.2)) :
    Alike (.ofFields (xs.map fun x => (x.1, f x.2)))
      (.ofFields (xs.map fun x => (x.1, g x.2))) := by
  refine ⟨?_, ?_, ?_⟩
  · rw [hasTextKeys_ofFields, List.forall_mem_map]
    exact fun x hx => (h x hx).left
  · rw [hasTextKeys_ofFields, List.forall_mem_map]
    exact fun x hx => (h x hx).right
  · rw [Bool.eq_iff_iff, allFinite_ofFields, allFinite_ofFields, List.forall_mem_map,
      List.forall_mem_map]
    exact forall₂_congr fun x hx => by rw [(h x hx).finite]

end Data.Alike

theorem Structured.itemsData_eq_map (items : List Structured) :
    itemsData items = items.map toData := by
  induction items with
  | nil => rfl
  | cons x rest ih =>
    rw [itemsData, ih]
    rfl

theorem Structured.bareItems_eq_map (items : List Structured) :
    bareItems items = items.map bare := by
  induction items with
  | nil => rfl
  | cons x rest ih =>
    rw [bareItems, ih]
    rfl

theorem Data.hasTextKeys_ofNumber (n : Number) : (ofNumber n).hasTextKeys := by
  cases n <;> rfl

namespace Structured

open Data (Alike)

/-- The two renderings of a value are alike, whatever is told about it besides numbers. -/
theorem fields_append_alike (x : Structured) {more : List (Text × Data)}
    (hmore : ∀ field ∈ more, field.2.hasTextKeys ∧ field.2.allFinite) :
    Alike (.ofFields (x.fields ++ more)) x.bare := by
  match x with
  | null => exact (Alike.refl rfl).tagged _ hmore
  | boolean b => exact (Alike.refl rfl).tagged _ hmore
  | string t => exact (Alike.refl rfl).tagged _ hmore
  | flat tag text => exact (Alike.refl rfl).tagged _ hmore
  | number n unit =>
    refine (Alike.refl (Data.hasTextKeys_ofNumber n)).tagged _ ?_
    exact List.forall_mem_cons.mpr ⟨⟨rfl, rfl⟩, hmore⟩
  | color r g b a hex =>
    refine (Alike.refl ?_).tagged _ hmore
    rw [colorData, Data.hasTextKeys_ofFields]
    simp [Data.hasTextKeys, Data.hasTextKeys_ofNumber]
  | list items separator =>
    have hitems : ∀ x ∈ items, Alike x.toData x.bare := fun x hx => by
      have := List.sizeOf_lt_of_mem hx
      simpa [toData] using @fields_append_alike x [] (by simp)
    rw [fields, bare, itemsData_eq_map, bareItems_eq_map]
    exact (Alike.list hitems).tagged _ (List.forall_mem_cons.mpr ⟨⟨rfl, rfl⟩, hmore⟩)
  | map entries =>
    have hentries : ∀ entry ∈ entries, Alike entry.2.toData entry.2.bare := fun entry hentry => by
      have := List.sizeOf_lt_of_mem hentry
      simpa [toData] using @fields_append_alike entry.2 [] (by simp)
    rw [fields, bare, entriesData_eq_map, bareEntries_eq_map]
    exact (Alike.ofFields hentries).tagged _ hmore
termination_by sizeOf x
decreasing_by
  · simp_wf
    omega
  · obtain ⟨key, y⟩ := entry
    simp_wf
    simp only [Prod.mk.sizeOf_spec] at this
    omega

theorem toData_alike (x : Structured) : Alike x.toData x.bare := by
  simpa [toData] using @fields_append_alike x [] (by simp)

end Structured

/-! ## The numbers of a value -/

section Numbers

variable [ColorNames]

/-- The value keeps the number in its structured form: it is that number, or a color with that
alpha, or has it in an item, or in the value that a key of it has last. -/
inductive Native.Keeps : Native → Binary64 → Prop
  | number {x : Binary64} {unit : Text} : Keeps (.number x unit) x
  | alpha {red green blue x : Binary64} : Keeps (.color red green blue x) x
  | item {items : List Native} {separator : Separator} {bracketed : Bool} {v : Native}
      {x : Binary64} (hv : v ∈ items) (hx : Keeps v x) : Keeps (.list items separator bracketed) x
  | value {entries : List (Native × Native)} {key : Text} {v : Native} {x : Binary64}
      (hv : lastValue? key entries = some v) (hx : Keeps v x) : Keeps (.map entries) x

/-- All numbers that a value keeps are finite. -/
def Native.KeepsFinite (v : Native) : Prop := ∀ x, v.Keeps x → x.isFinite

namespace Native

theorem keepsFinite_number {x : Binary64} {unit : Text} :
    (number x unit).KeepsFinite ↔ x.isFinite := by
  constructor
  · intro h
    exact h x .number
  · rintro h _ ⟨⟩
    exact h

theorem keepsFinite_color {red green blue alpha : Binary64} :
    (color red green blue alpha).KeepsFinite ↔ alpha.isFinite := by
  constructor
  · intro h
    exact h alpha .alpha
  · rintro h _ ⟨⟩
    exact h

theorem keepsFinite_list {items : List Native} {separator : Separator} {bracketed : Bool} :
    (list items separator bracketed).KeepsFinite ↔ ∀ v ∈ items, v.KeepsFinite := by
  constructor
  · intro h v hv x hx
    exact h x (.item hv hx)
  · rintro h x (_ | _ | ⟨hv, hx⟩)
    exact h _ hv x hx

theorem keepsFinite_map {entries : List (Native × Native)} :
    (map entries).KeepsFinite ↔
      ∀ key v, lastValue? key entries = some v → v.KeepsFinite := by
  constructor
  · intro h key v hv x hx
    exact h x (.value hv hx)
  · rintro h x (_ | _ | _ | ⟨hv, hx⟩)
    exact h _ _ hv x hx

end Native

theorem exists_of_lastValue? {key : Text} {entries : List (Native × Native)} {v : Native}
    (h : lastValue? key entries = some v) :
    ∃ entry ∈ entries, (flatten false entry.1).toOption = some key ∧ entry.2 = v := by
  obtain ⟨entry, hentry, hsome⟩ := List.exists_of_findSome?_eq_some h
  split_ifs at hsome with hkey
  exact ⟨entry, List.mem_reverse.mp hentry, hkey, Option.some.inj hsome⟩

theorem sizeOf_lt_of_lastValue? {key : Text} {entries : List (Native × Native)} {v : Native}
    (h : lastValue? key entries = some v) : sizeOf v < sizeOf entries := by
  obtain ⟨⟨k, _⟩, hentry, -, rfl⟩ := exists_of_lastValue? h
  have hlt := List.sizeOf_lt_of_mem hentry
  rw [Prod.mk.sizeOf_spec] at hlt
  dsimp only
  omega

/-- The formed map has under each key the form of the key's last value. -/
theorem lastValue?_map_of_formed {α : Type} {form : Native → Except Failure α}
    {entries : List (Native × Native)} {pairs : List (Text × α)}
    (h : entries.mapM (formedEntry form) = .ok pairs) (key : Text) :
    (lastValue? key entries).map form = (Keyed.get? key (Keyed.ofList pairs)).map .ok := by
  rw [Except.mapM_eq_ok] at h
  rw [Keyed.get?_ofList]
  refine findSome?_of_formed ?_ key
  rw [List.map_reverse, List.map_reverse, h]

theorem structuredItems_eq_mapM (items : List Native) :
    structuredItems items = items.mapM Native.structured := by
  induction items with
  | nil => rfl
  | cons v rest ih => simp only [structuredItems, List.mapM_cons, ih]

omit [ColorNames] in
/-- Integral numbers are finite, and the others stay what they are. -/
theorem allFinite_ofBinary64 (x : Binary64) :
    (Data.ofNumber (.ofBinary64 x)).allFinite = x.isFinite := by
  unfold Number.ofBinary64
  cases hint : x.toInt? with
  | none => rfl
  | some n =>
    cases x with
    | finite => rfl
    | _ => exact nomatch hint

omit [ColorNames] in
theorem structuredColor_eq_ok_iff {red green blue alpha : Binary64} {x : Structured} :
    structuredColor red green blue alpha = .ok x ↔ ∃ r g b, roundHalfUp red = .ok r ∧
      roundHalfUp green = .ok g ∧ roundHalfUp blue = .ok b ∧
      x = .color r g b (.ofBinary64 alpha) (Color.hex r g b) := by
  unfold structuredColor
  constructor
  · intro h
    obtain ⟨r, hr, h⟩ := Except.bind_eq_ok.mp h
    obtain ⟨g, hg, h⟩ := Except.bind_eq_ok.mp h
    obtain ⟨b, hb, h⟩ := Except.bind_eq_ok.mp h
    exact ⟨r, g, b, hr, hg, hb, (Except.ok.inj h).symm⟩
  · rintro ⟨r, g, b, hr, hg, hb, rfl⟩
    rw [hr, hg, hb]
    rfl

theorem Native.allFinite_bare_iff {v : Native} {x : Structured} (h : v.structured = .ok x) :
    x.bare.allFinite ↔ v.KeepsFinite := by
  match v with
  | .null =>
    obtain rfl := Except.ok.inj h
    exact iff_of_true rfl fun _ hx => by cases hx
  | .boolean b =>
    obtain rfl := Except.ok.inj h
    exact iff_of_true rfl fun _ hx => by cases hx
  | .string t =>
    obtain rfl := Except.ok.inj h
    exact iff_of_true rfl fun _ hx => by cases hx
  | .number n unit =>
    obtain rfl := Except.ok.inj h
    rw [keepsFinite_number, Structured.bare, allFinite_ofBinary64]
  | .color red green blue alpha =>
    obtain ⟨r, g, b, -, -, -, rfl⟩ := structuredColor_eq_ok_iff.mp h
    rw [keepsFinite_color, Structured.bare, Structured.colorData, Data.allFinite_ofFields]
    simp [allFinite_ofBinary64, Data.allFinite]
  | .list items separator bracketed =>
    rw [structured, structuredItems_eq_mapM, Except.bind_eq_ok] at h
    obtain ⟨xs, hxs, hx⟩ := h
    obtain rfl := Except.ok.inj hx
    rw [Except.mapM_eq_ok] at hxs
    rw [keepsFinite_list, Structured.bare, Structured.bareItems_eq_map, Data.allFinite,
      Data.allFiniteItems_iff, List.forall_mem_map]
    constructor
    · intro hall v hv
      have hform : v.structured ∈ xs.map Except.ok := hxs ▸ List.mem_map_of_mem hv
      obtain ⟨x, hx, heq⟩ := List.mem_map.mp hform
      have := List.sizeOf_lt_of_mem hv
      exact (allFinite_bare_iff heq.symm).mp (hall x hx)
    · intro hall x hx
      have hform : Except.ok x ∈ items.map Native.structured := hxs ▸ List.mem_map_of_mem hx
      obtain ⟨v, hv, heq⟩ := List.mem_map.mp hform
      have := List.sizeOf_lt_of_mem hv
      exact (allFinite_bare_iff heq).mpr (hall v hv)
  | .map entries =>
    rw [structured, structuredEntries_eq_mapM, Except.bind_eq_ok] at h
    obtain ⟨pairs, hpairs, hx⟩ := h
    obtain rfl := Except.ok.inj hx
    rw [keepsFinite_map, Structured.bare, Structured.bareEntries_eq_map, Data.allFinite_ofFields,
      List.forall_mem_map]
    constructor
    · intro hall key v hv
      have hform := lastValue?_map_of_formed hpairs key
      rw [hv] at hform
      obtain ⟨x, hx, heq⟩ := Option.map_eq_some_iff.mp hform.symm
      have := sizeOf_lt_of_lastValue? hv
      exact (allFinite_bare_iff heq.symm).mp (hall (key, x) (Keyed.mem_of_get? hx))
    · intro hall entry hentry
      have hform := lastValue?_map_of_formed hpairs entry.1
      rw [Keyed.get?_of_mem (Keyed.nodup_ofList pairs) hentry] at hform
      obtain ⟨v, hv, heq⟩ := Option.map_eq_some_iff.mp hform
      have := sizeOf_lt_of_lastValue? hv
      exact (allFinite_bare_iff heq).mpr (hall entry.1 v hv)
  | .unsupported typeName =>
    rw [structured] at h
    cases h
termination_by sizeOf v
decreasing_by
  all_goals
    simp_wf
    omega

end Numbers

/-! ## Payloads -/

theorem Variable.toData_alike (v : Variable) : Data.Alike v.toData v.value.bare := by
  refine v.value.fields_append_alike ?_
  have hsources : ∀ d ∈ v.sources.map Data.text, d.hasTextKeys ∧ d.allFinite := by simp [
    Data.hasTextKeys, Data.allFinite]
  have hsites : ∀ d ∈ v.sites.map Provenance.toData, d.hasTextKeys ∧ d.allFinite := by
    rw [List.forall_mem_map]
    exact fun site _ => ⟨rfl, rfl⟩
  simp only [List.forall_mem_cons, Data.hasTextKeys, Data.allFinite, Data.textKeysInItems_iff,
    Data.allFiniteItems_iff]
  exact ⟨forall₂_and.mp hsources, forall₂_and.mp hsites, List.forall_mem_nil _⟩

theorem Variables.allFinite_payload (vars : Variables) :
    vars.payload.allFinite ↔ ∀ entry ∈ vars, entry.2.value.toData.IsJson := by
  rw [payload, Data.allFinite_ofFields, List.forall_mem_singleton, Data.allFinite_ofFields,
    List.forall_mem_map]
  refine forall₂_congr fun entry _ => ?_
  have hvalue := entry.2.value.toData_alike
  rw [(Variable.toData_alike entry.2).finite, hvalue.isJson_iff,
    Data.isJson_iff_allFinite hvalue.right]

theorem Variables.allFinite_barePayload (vars : Variables) :
    vars.barePayload.allFinite ↔ ∀ entry ∈ vars, entry.2.value.bare.IsJson := by
  rw [barePayload, Data.allFinite_ofFields, List.forall_mem_singleton, Data.allFinite_ofFields,
    List.forall_mem_map]
  refine forall₂_congr fun entry _ => ?_
  rw [Data.isJson_iff_allFinite entry.2.value.toData_alike.right]

/-- The forms in which a payload is printed: alone, or with the compiled text. -/
def printedForms (css : Text) (payload : Data) : List Data :=
  [payload, .ofFields [("css".toText, .text css), ("vars".toText, payload)]]

theorem isJsonText_printed_iff (css : Text) {payload printed : Data}
    (h : printed ∈ printedForms css payload) :
    IsJsonText (printed.json ++ [.char '\n']) ↔ payload.allFinite := by
  have hfinite : printed.allFinite ↔ payload.allFinite := by
    simp only [printedForms, List.mem_cons, List.not_mem_nil, or_false] at h
    rcases h with rfl | rfl
    · exact Iff.rfl
    · rw [Data.allFinite_ofFields, List.forall_mem_cons, List.forall_mem_singleton]
      exact and_iff_right rfl
  rw [isJsonText_json_iff printed (by simp [JsonText.IsSpace, String.toText]), hfinite]

namespace Service

theorem isJson_ofFields {fields : List (Text × Data)} (h : ∀ field ∈ fields, field.2.IsJson) :
    (Data.ofFields fields).IsJson := by
  refine .mapping ?_ ?_
  · rw [Data.named, List.forall_mem_map]
    exact fun field _ => ⟨field.1, rfl⟩
  · rw [Data.named, List.forall_mem_map]
    exact h

/-- What is written of a value is a value that JSON has. -/
theorem WrittenAs.isJson {d read : Data} (h : WrittenAs d read) : read.IsJson := by
  induction h with
  | null => exact .null
  | bool b => exact .bool b
  | int n => exact .int n
  | real hfinite => exact .real hfinite
  | lost => exact .null
  | text t => exact .text t
  | @list items read hlength _ ih =>
    refine .list fun d hd => ?_
    obtain ⟨i, hi, rfl⟩ := List.getElem_of_mem hd
    have hpair : (items[i], read[i]) ∈ items.zip read :=
      List.mem_iff_getElem.mpr ⟨i, by simp [← hlength, hi], by simp⟩
    exact ih _ hpair
  | mapping _ _ _ ih => exact isJson_ofFields ih

/-- The document of the response to an extraction is a value that JSON has, whatever the variables
are. -/
theorem isJson_extracted {framework : Framework} (hwrites : framework.WritesJson) {css : Text}
    {vars d : Data} (h : (framework.extracted css vars).body = some d) : d.IsJson := by
  obtain ⟨told, rfl⟩ | ⟨css', vars', rfl, hvars⟩ := hwrites.extracted h
  · exact isJson_ofFields (List.forall_mem_singleton.mpr (.text told))
  · refine isJson_ofFields (List.forall_mem_cons.mpr ⟨.text css', ?_⟩)
    exact List.forall_mem_singleton.mpr hvars.isJson

end Service

/-! ## Which payloads are JSON -/

/-- Both renderings of a value's structured form are values that JSON has exactly when all numbers
that the value keeps are finite. Payloads, with types or without and alone or with the compiled
text, print as JSON texts exactly when all their values are such. A service whose framework writes
documents in JSON always responds with a value that JSON has. -/
theorem isJson_structured_iff [ColorNames] {v : Native} {x : Structured} (h : v.structured = .ok x)
    (vars : Variables) (css : Text) (payload : Data) :
    (x.toData.IsJson ↔ v.KeepsFinite) ∧ (x.bare.IsJson ↔ v.KeepsFinite) ∧
    (∀ printed ∈ printedForms css vars.payload, IsJsonText (printed.json ++ [.char '\n']) ↔
      ∀ entry ∈ vars, entry.2.value.toData.IsJson) ∧
    (∀ printed ∈ printedForms css vars.barePayload, IsJsonText (printed.json ++ [.char '\n']) ↔
      ∀ entry ∈ vars, entry.2.value.bare.IsJson) ∧
    (∀ framework : Service.Framework, framework.WritesJson →
      ∀ d, (framework.extracted css payload).body = some d → d.IsJson) := by
  have hbare : x.bare.IsJson ↔ v.KeepsFinite := by
    rw [Data.isJson_iff_allFinite x.toData_alike.right, Native.allFinite_bare_iff h]
  refine ⟨x.toData_alike.isJson_iff.trans hbare, hbare, ?_, ?_, fun _ hwrites _ =>
    Service.isJson_extracted hwrites⟩
  · intro printed hprinted
    rw [isJsonText_printed_iff css hprinted, Variables.allFinite_payload]
  · intro printed hprinted
    rw [isJsonText_printed_iff css hprinted, Variables.allFinite_barePayload]

section Samples

open CssColors

/-- A map in which a key is given twice, first for what is no number. -/
def renewedEntries : List (Native × Native) :=
  [(.boolean true, .number .nan []),
    (.string "true".toText, .list [.number (.ofRank false 1) "px".toText, .null] .space true)]

/-- The number that is not finite is lost with the first value of the key. -/
theorem isJson_structured_renewed :
    ∃ x, (Native.map renewedEntries).structured = .ok x ∧ (Native.map renewedEntries).KeepsFinite ∧
      x.toData.IsJson ∧ x.bare.IsJson ∧
      IsJsonText ((Variables.payload [("$m".toText, ⟨x, [], []⟩)]).json ++ [.char '\n']) ∧
      ∀ d, ((Service.Plain.framework .null).extracted [] x.toData).body = some d → d.IsJson := by
  have hfinite : (Native.map renewedEntries).KeepsFinite := by
    rw [Native.keepsFinite_map]
    intro key v hv
    have hkeys : ∀ entry ∈ renewedEntries,
        (flatten false entry.1).toOption = some "true".toText := by
      decide
    obtain ⟨entry, hentry, hkey, -⟩ := exists_of_lastValue? hv
    obtain rfl := Option.some.inj ((hkeys entry hentry).symm.trans hkey)
    obtain rfl := Option.some.inj hv
    rw [Native.keepsFinite_list, List.forall_mem_cons, List.forall_mem_singleton,
      Native.keepsFinite_number]
    exact ⟨by decide, nofun⟩
  obtain ⟨x, hx⟩ : ∃ x, (Native.map renewedEntries).structured = .ok x :=
    Except.exists_eq_ok (by decide)
  obtain ⟨htyped, hbare, hprinted, -, hextracted⟩ :=
    isJson_structured_iff hx [("$m".toText, ⟨x, [], []⟩)] [] x.toData
  have htyped := htyped.mpr hfinite
  refine ⟨x, hx, hfinite, htyped, hbare.mpr hfinite, ?_, ?_⟩
  · exact (hprinted _ List.mem_cons_self).mpr (List.forall_mem_singleton.mpr htyped)
  · exact hextracted _ (Service.Plain.writesJson_framework .null)

/-- What is no number has a structured form that is no value of JSON. -/
theorem not_isJson_structured_nan :
    ∃ x, (Native.number .nan []).structured = .ok x ∧ ¬x.toData.IsJson ∧ ¬x.bare.IsJson ∧
      ¬IsJsonText ((Variables.payload [("$a".toText, ⟨x, [], []⟩)]).json ++ [.char '\n']) ∧
      ¬IsJsonText ((Variables.barePayload [("$a".toText, ⟨x, [], []⟩)]).json ++ [.char '\n']) := by
  refine ⟨.number (.real .nan) [], rfl, fun h => ?_, fun h => ?_, fun h => ?_, fun h => ?_⟩
  · exact absurd h.allFinite (by decide)
  · exact absurd h.allFinite (by decide)
  · exact absurd ((isJsonText_printed_iff [] List.mem_cons_self).mp h) (by decide)
  · exact absurd ((isJsonText_printed_iff [] List.mem_cons_self).mp h) (by decide)

end Samples

end StyleVars
