import StyleVars.Proofs.CollidingKeys
import StyleVars.Proofs.FlatPayload

/-!
# Payloads of bare values

The bare form of a value is taken from the value itself, while `compact` finds it in a payload by
the types that stand there. Both give the same, whatever the keys of maps are called
(`applyToPayload_compact`).

A bare value does not say any more whether it has a type. A second `compact` takes a map with the
key `value` for an entry with a type and leaves nothing but what stands under that key; every other
value it leaves as it is (`compact_twice_iff`).
-/

namespace StyleVars

/-- The payload of the names and the bare values of variables. -/
def Variables.barePayload (vars : Variables) : Data :=
  .ofFields [("global".toText, .ofFields (vars.map fun entry => (entry.1, entry.2.value.bare)))]

/-! ## Values with their types -/

theorem untypedField_eq (tag : Option Data) (entries : Data.Entries) :
    untypedField tag entries = (Data.field? "value".toText entries).map (untypedPart tag) := by
  induction entries with
  | nil => rfl
  | cons entry rest ih =>
    obtain ⟨key, d⟩ := entry
    rw [untypedField, Data.field?, Keyed.get?]
    split_ifs
    · rfl
    · exact ih

/-- What is left of a mapping depends on what it has for a value and for a type. -/
theorem untyped_ofFields (fields : List (Text × Data)) :
    untyped (.ofFields fields) =
      ((Keyed.get? "value".toText fields).map
        (untypedPart (Keyed.get? "type".toText fields))).getD (.ofFields fields) := by
  rw [← Data.get?_ofFields, ← Data.get?_ofFields]
  exact congrArg (Option.getD · _) (untypedField_eq _ _)

/-- The first two entries of a rendering tell its type and its value. -/
theorem untyped_tagged (tag : Text) (value : Data) (more : List (Text × Data)) :
    untyped (.ofFields (Structured.tagged tag value more)) =
      untypedPart (some (.text tag)) value := by
  rw [untyped_ofFields]
  rfl

namespace Structured

mutual

/-- A rendering with types leaves the bare value, whatever entries follow. -/
theorem untyped_fields_append (x : Structured) (more : List (Text × Data)) :
    untyped (.ofFields (x.fields ++ more)) = x.bare := by
  cases x with
  | null => exact untyped_tagged ..
  | boolean b => exact untyped_tagged ..
  | string t => exact untyped_tagged ..
  | number n unit =>
    refine (untyped_tagged ..).trans ?_
    cases n <;> rfl
  | color r g b a hex => exact untyped_tagged ..
  | list items separator =>
    refine (untyped_tagged ..).trans ?_
    change Data.list (untypedItems (itemsData items)) = _
    rw [untypedItems_itemsData, bare]
  | map entries =>
    refine (untyped_tagged ..).trans ?_
    change Data.mapping (untypedEntries (Data.named (entriesData entries))) = _
    rw [untypedEntries_entriesData, bare, Data.ofFields]
  | flat tag text => exact untyped_tagged ..

theorem untypedItems_itemsData (items : List Structured) :
    untypedItems (itemsData items) = bareItems items := by
  cases items with
  | nil => rfl
  | cons x rest =>
    rw [itemsData, untypedItems, bareItems, untypedItems_itemsData rest]
    congr 1
    simpa using untyped_fields_append x []

theorem untypedEntries_entriesData (entries : List (Text × Structured)) :
    untypedEntries (Data.named (entriesData entries)) = Data.named (bareEntries entries) := by
  match entries with
  | [] => rfl
  | (k, x) :: rest =>
    have hx : untyped (.ofFields x.fields) = x.bare := by simpa using untyped_fields_append x []
    have hrest := untypedEntries_entriesData rest
    rw [Data.named, Data.named] at hrest ⊢
    rw [entriesData, bareEntries, List.map_cons, List.map_cons, untypedEntries, hx, hrest]

end

theorem untyped_toData (x : Structured) : untyped x.toData = x.bare := by
  simpa [toData] using x.untyped_fields_append []

end Structured

theorem Variable.untyped_toData (v : Variable) : untyped v.toData = v.value.bare :=
  v.value.untyped_fields_append _

theorem compactPayload_bare (vars : Variables) :
    compactPayload vars.payload = .ok vars.barePayload := by
  simp only [compactPayload_payload, Variable.untyped_toData, Variables.barePayload]

/-- `compact` makes the bare value of every structured value of its rendering with types, and of a
payload the names and the bare values of its variables, in the same order. -/
theorem applyToPayload_compact (patience : Patience) (options : Data.Entries) (vars : Variables) :
    (∀ x : Structured, untyped x.toData = x.bare) ∧
    Pipeline.applyToPayload patience (.compact options) vars.payload = .ok vars.barePayload := by
  refine ⟨Structured.untyped_toData, ?_⟩
  rw [applyToPayload_of_compacts patience (fun _ => rfl), compactPayload_bare]

/-! ## Bare values once more -/

section Size

mutual

theorem sizeOf_untyped_le (d : Data) : sizeOf (untyped d) ≤ sizeOf d := by
  match d with
  | .mapping entries =>
    rw [untyped]
    cases hfield : untypedField (Data.field? "type".toText entries) entries with
    | none => exact Nat.le_refl _
    | some part =>
      have := sizeOf_untypedField_le _ entries hfield
      simp only [Option.getD_some, Data.mapping.sizeOf_spec]
      omega
  | .list items => exact Nat.le_refl _
  | .null => exact Nat.le_refl _
  | .bool _ => exact Nat.le_refl _
  | .int _ => exact Nat.le_refl _
  | .real _ => exact Nat.le_refl _
  | .text _ => exact Nat.le_refl _

theorem sizeOf_untypedField_le (tag : Option Data) (entries : Data.Entries) {part : Data}
    (h : untypedField tag entries = some part) : sizeOf part ≤ sizeOf entries := by
  match entries with
  | [] => exact nomatch h
  | (key, value) :: rest =>
    rw [untypedField] at h
    simp only [List.cons.sizeOf_spec, Prod.mk.sizeOf_spec]
    split_ifs at h
    · obtain rfl := Option.some.inj h
      have := sizeOf_untypedPart_le tag value
      omega
    · have := sizeOf_untypedField_le tag rest h
      omega

theorem sizeOf_untypedPart_le (tag : Option Data) (d : Data) :
    sizeOf (untypedPart tag d) ≤ sizeOf d := by
  match d with
  | .list items =>
    have := sizeOf_untypedItems_le items
    rw [untypedPart]
    split_ifs <;> simp only [Data.list.sizeOf_spec] <;> omega
  | .mapping entries =>
    have := sizeOf_untypedEntries_le entries
    rw [untypedPart]
    split_ifs <;> simp only [Data.mapping.sizeOf_spec] <;> omega
  | .null => exact Nat.le_refl _
  | .bool _ => exact Nat.le_refl _
  | .int _ => exact Nat.le_refl _
  | .real _ => exact Nat.le_refl _
  | .text _ => exact Nat.le_refl _

theorem sizeOf_untypedItems_le (items : List Data) :
    sizeOf (untypedItems items) ≤ sizeOf items := by
  match items with
  | [] => exact Nat.le_refl _
  | d :: rest =>
    have hd := sizeOf_untyped_le d
    have hrest := sizeOf_untypedItems_le rest
    simp only [untypedItems, List.cons.sizeOf_spec]
    omega

theorem sizeOf_untypedEntries_le (entries : List (Data.Key × Data)) :
    sizeOf (untypedEntries entries) ≤ sizeOf entries := by
  match entries with
  | [] => exact Nat.le_refl _
  | (key, d) :: rest =>
    have hd := sizeOf_untyped_le d
    have hrest := sizeOf_untypedEntries_le rest
    simp only [untypedEntries, List.cons.sizeOf_spec, Prod.mk.sizeOf_spec]
    omega

end

/-- A value is smaller than the mapping in which it stands. -/
theorem sizeOf_lt_of_get? {key : Text} {d : Data} {fields : List (Text × Data)}
    (h : Keyed.get? key fields = some d) : sizeOf d < sizeOf (Data.ofFields fields) := by
  have hmem : (Data.Key.text key, d) ∈ Data.named fields :=
    List.mem_map.mpr ⟨_, Keyed.mem_of_get? h, rfl⟩
  have hlt := List.sizeOf_lt_of_mem hmem
  rw [Data.ofFields, Data.mapping.sizeOf_spec]
  rw [Prod.mk.sizeOf_spec] at hlt
  omega

end Size

namespace Structured

/-- A bare map with the key `value` is taken for an entry that has a type. -/
theorem untyped_bare_map (entries : List (Text × Structured)) :
    untyped (bare (.map entries)) =
      ((Keyed.get? "value".toText entries).map fun x =>
        untypedPart ((Keyed.get? "type".toText entries).map bare) x.bare).getD
          (bare (.map entries)) := by
  rw [bare, untyped_ofFields, bareEntries_eq_map, Keyed.get?_map, Keyed.get?_map, Option.map_map]
  rfl

/-- Bare values that are no maps have no key `value`. -/
theorem untyped_bare_of_keys?_eq_none {x : Structured} (h : x.keys? = none) :
    untyped x.bare = x.bare := by
  cases x with
  | map entries => exact nomatch h
  | number n unit => cases n <;> rfl
  | color r g b a hex =>
    rw [bare, colorData, untyped_ofFields]
    rfl
  | _ => rfl

/-- The bare value stays as it is exactly when it is no map with the key `value`. What stands under
that key is smaller than the map and cannot take its place. -/
theorem untyped_bare_iff (x : Structured) :
    untyped x.bare = x.bare ↔ ∀ keys, x.keys? = some keys → "value".toText ∉ keys := by
  cases x with
  | map entries =>
    have hkeys : (∀ keys, (map entries).keys? = some keys → "value".toText ∉ keys) ↔
        Keyed.get? "value".toText entries = none := by
      rw [Keyed.get?_eq_none_iff]
      exact ⟨fun h => h _ rfl, fun h keys heq => Option.some.inj heq ▸ h⟩
    rw [hkeys, untyped_bare_map]
    cases hvalue : Keyed.get? "value".toText entries with
    | none => simp
    | some x =>
      have hbare : Keyed.get? "value".toText (bareEntries entries) = some x.bare := by
        rw [bareEntries_eq_map, Keyed.get?_map, hvalue, Option.map_some]
      have hlt := sizeOf_lt_of_get? hbare
      have hle := sizeOf_untypedPart_le ((Keyed.get? "type".toText entries).map bare) x.bare
      simp only [Option.map_some, Option.getD_some, reduceCtorEq, iff_false]
      intro heq
      rw [heq, bare] at hle
      omega
  | _ =>
    rw [untyped_bare_of_keys?_eq_none rfl]
    simp [keys?]

end Structured

/-! ## A second `compact` -/

theorem ofFields_inj {fields others : List (Text × Data)} :
    Data.ofFields fields = Data.ofFields others ↔ fields = others := by
  have hentry : Function.Injective fun field : Text × Data => (Data.Key.text field.1, field.2) := by
    intro field other heq
    obtain ⟨hkey, hvalue⟩ := Prod.mk.inj heq
    exact Prod.ext (Data.Key.text.inj hkey) hvalue
  rw [Data.ofFields, Data.ofFields, Data.mapping.injEq]
  exact (List.map_injective_iff.mpr hentry).eq_iff

theorem compactPayload_barePayload (vars : Variables) :
    compactPayload vars.barePayload = .ok (.ofFields [("global".toText,
      .ofFields (vars.map fun entry => (entry.1, untyped entry.2.value.bare)))]) := by
  rw [Variables.barePayload, compactPayload_global, List.map_map]
  rfl

theorem runOnPayload_compact (patience : Patience) (options : Data.Entries) {payload result : Data}
    (h : compactPayload payload = .ok result) :
    Pipeline.runOnPayload patience [.compact options] payload = .ok result :=
  (applyToPayload_of_compacts patience (fun _ => rfl) payload).trans h

theorem runOnPayload_compact_cons (patience : Patience) (options : Data.Entries)
    (pipeline : Pipeline) {payload result : Data} (h : compactPayload payload = .ok result) :
    Pipeline.runOnPayload patience (.compact options :: pipeline) payload =
      Pipeline.runOnPayload patience pipeline result := by
  rw [Pipeline.runOnPayload_cons, applyToPayload_of_compacts patience fun _ => rfl, h]
  rfl

/-- A second `compact` reads the bare values as if they had types. It changes nothing exactly when
no variable is a map with the key `value`. -/
theorem compact_twice_iff (patience : Patience) (first second : Data.Entries) (vars : Variables) :
    Pipeline.runOnPayload patience [.compact first] vars.payload = .ok vars.barePayload ∧
    Pipeline.runOnPayload patience [.compact first, .compact second] vars.payload =
      .ok (.ofFields [("global".toText,
        .ofFields (vars.map fun entry => (entry.1, untyped entry.2.value.bare)))]) ∧
    (Pipeline.runOnPayload patience [.compact first, .compact second] vars.payload =
        Pipeline.runOnPayload patience [.compact first] vars.payload ↔
      ∀ entry ∈ vars, ∀ keys, entry.2.value.keys? = some keys → "value".toText ∉ keys) := by
  have honce : Pipeline.runOnPayload patience [.compact first] vars.payload =
      .ok vars.barePayload :=
    runOnPayload_compact patience first (compactPayload_bare vars)
  have htwice : Pipeline.runOnPayload patience [.compact first, .compact second] vars.payload =
      .ok (.ofFields [("global".toText,
        .ofFields (vars.map fun entry => (entry.1, untyped entry.2.value.bare)))]) := by
    rw [runOnPayload_compact_cons patience first _ (compactPayload_bare vars)]
    exact runOnPayload_compact patience second (compactPayload_barePayload vars)
  refine ⟨honce, htwice, ?_⟩
  rw [honce, htwice, Except.ok.injEq, Variables.barePayload, ofFields_inj]
  simp only [List.cons.injEq, Prod.mk.injEq, ofFields_inj, and_true, true_and]
  rw [List.map_inj_left]
  refine forall_congr' fun entry => imp_congr_right fun _ => ?_
  rw [Prod.mk.injEq, Structured.untyped_bare_iff]
  exact and_iff_right rfl

theorem merge_singleton (file : Text) (captured : Captured) :
    Variables.merge [(file, ⟨[(0, captured)], none⟩)] = [(captured.declaration.name,
      ⟨captured.value, [file], [.ofCaptured file captured]⟩)] := by
  have horder : Captures.inOrder ⟨[(0, captured)], none⟩ = [captured] := by
    rw [Captures.inOrder, List.mergeSort_singleton]
    rfl
  change Variables.declareAll [] file ⟨[(0, captured)], none⟩ = _
  rw [Variables.declareAll, Captures.byName, horder]
  rfl

/-- A captured map that has the key `value`. -/
def capturedValueKey : Captured :=
  ⟨⟨"$m".toText, "(value: 1, b: 2)".toText, ⟨false, false⟩, .start⟩,
    .map [("value".toText, .number (.int 1) []), ("b".toText, .number (.int 2) [])]⟩

/-- Of a map with the key `value` one value is left when `compact` is given twice. -/
theorem compact_twice_valueKey :
    Pipeline.runOnPayload .none [.compact []]
        (Variables.merge [("/a.scss".toText, ⟨[(0, capturedValueKey)], none⟩)]).payload =
      .ok (.ofFields [("global".toText, .ofFields [("$m".toText,
        .ofFields [("value".toText, .int 1), ("b".toText, .int 2)])])]) ∧
    Pipeline.runOnPayload .none [.compact [], .compact []]
        (Variables.merge [("/a.scss".toText, ⟨[(0, capturedValueKey)], none⟩)]).payload =
      .ok (.ofFields [("global".toText, .ofFields [("$m".toText, .int 1)])]) ∧
    Pipeline.runOnPayload .none [.compact [], .compact []]
        (Variables.merge [("/a.scss".toText, ⟨[(0, capturedValueKey)], none⟩)]).payload ≠
      Pipeline.runOnPayload .none [.compact []]
        (Variables.merge [("/a.scss".toText, ⟨[(0, capturedValueKey)], none⟩)]).payload := by
  rw [merge_singleton]
  refine ⟨rfl, rfl, ?_⟩
  intro heq
  exact nomatch heq

end StyleVars
