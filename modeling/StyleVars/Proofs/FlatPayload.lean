import StyleVars.Extract.Run
import StyleVars.Proofs.CapturedValues
import StyleVars.Proofs.PayloadSites
import StyleVars.Value.CssColors

/-!
# Payloads of flat values

Which declaration gives a variable its value depends on the places and the flags of the declarations
whose hooks were called, and never on the values (`get?_collectVariables`). When plugins replace the
values by their flat forms, the same declarations win, so that the payload without types has the
flat forms of the very values that win without plugins (`finalPayload_minimal`).
-/

namespace StyleVars

open Captures

/-! ## The values that were passed last -/

/-- The value that was passed last to the hook of a declaration of a file. -/
def lastPassed (calls : List HookValue) (k i : Nat) : Option Native :=
  calls.reverse.findSome? fun call =>
    if call.file = k ∧ call.declaration = i then some call.native else none

theorem lastPassed_append_singleton (calls : List HookValue) (call : HookValue) (k i : Nat) :
    lastPassed (calls ++ [call]) k i =
      if call.file = k ∧ call.declaration = i then some call.native else lastPassed calls k i := by
  rw [lastPassed, List.reverse_append, List.reverse_singleton, List.singleton_append,
    List.findSome?_cons]
  split_ifs <;> rfl

theorem exists_of_lastPassed {calls : List HookValue} {k i : Nat} {native : Native}
    (h : lastPassed calls k i = some native) : ∃ call ∈ calls, call.native = native := by
  obtain ⟨call, hcall, hnative⟩ := List.exists_of_findSome?_eq_some h
  split_ifs at hnative
  exact ⟨call, List.mem_reverse.mp hcall, Option.some.inj hnative⟩

/-- A declaration of a file with the value that was passed last to its hook. -/
structure Passed where
  file : Text
  declaration : Declaration
  native : Native

/-- The declarations whose hooks were called, file by file in the order of the source. -/
def passedIn (files : List SheetFile) (calls : List HookValue) : List Passed :=
  (files.mapIdx Prod.mk).flatMap fun x => (x.2.declarations.mapIdx Prod.mk).filterMap fun y =>
    (lastPassed calls x.1 y.1).map fun native => ⟨x.2.name, y.2, native⟩

/-- The declarations of a variable whose hooks were called. -/
def passedFor (name : Text) (files : List SheetFile) (calls : List HookValue) : List Passed :=
  (passedIn files calls).filter fun p => p.declaration.name = name

/-- The last declaration that is not a default, or the last one when all of them are defaults. -/
def Passed.winner? (passed : List Passed) : Option Passed :=
  (passed.filter fun p => !p.declaration.flags.default).getLast?.or passed.getLast?

theorem Passed.mem_of_winner? {passed : List Passed} {p : Passed} (h : winner? passed = some p) :
    p ∈ passed := by
  rcases Option.or_eq_some_iff.mp h with hreal | ⟨-, hlast⟩
  · exact (List.mem_filter.mp (List.mem_of_getLast? hreal)).1
  · exact List.mem_of_getLast? hlast

/-- The value of a declaration was passed by a call. -/
theorem exists_of_mem_passedFor {name : Text} {files : List SheetFile} {calls : List HookValue}
    {p : Passed} (h : p ∈ passedFor name files calls) : ∃ call ∈ calls, call.native = p.native := by
  obtain ⟨x, -, hx⟩ := List.mem_flatMap.mp (List.mem_filter.mp h).1
  obtain ⟨y, -, hy⟩ := List.mem_filterMap.mp hx
  obtain ⟨native, hnative, rfl⟩ := Option.map_eq_some_iff.mp hy
  exact exists_of_lastPassed hnative

/-- Where all values that are passed have a form, the forms are given by a function. -/
theorem exists_forms {β : Type} [Inhabited β] {f : Native → Except Failure β}
    {calls : List HookValue} (h : ∀ call ∈ calls, (f call.native).isOk) :
    ∃ form : Native → β, ∀ call ∈ calls, f call.native = .ok (form call.native) := by
  refine ⟨fun native => (f native).toOption.getD default, fun call hcall => ?_⟩
  obtain ⟨b, hb⟩ := Except.exists_eq_ok (h call hcall)
  simp [hb, Except.toOption]

/-- The flat form of the value that was passed last for the declaration of a variable that wins. -/
def winningText [ColorNames] (name : Text) (files : List SheetFile) (calls : List HookValue) :
    Text :=
  ((Passed.winner? (passedFor name files calls)).bind fun p =>
    (flatten false p.native).toOption).getD []

/-! ## The variables of a run in which every hook keeps its value -/

section Forms

variable [ColorNames] {pipeline : Pipeline} {form : Native → Structured}
  {calls : List HookValue}

/-- A file has captured the form of the value last passed to each of its hooks. -/
theorem get?_capture_of_forms
    (hform : ∀ call ∈ calls, capturedForm pipeline call.native = .ok (form call.native))
    (file : SheetFile) (k i : Nat) :
    Keyed.get? i (file.capture pipeline (callsOf k calls)).slots =
      file.declarations[i]?.bind fun d => (lastPassed calls k i).map fun n => ⟨d, form n⟩ := by
  induction calls using List.reverseRecOn with
  | nil => cases h : file.declarations[i]? <;> simp [callsOf, SheetFile.capture, lastPassed, empty,
      Keyed.get?]
  | append_singleton calls call ih =>
    have hbefore := ih fun earlier hearlier => hform earlier (List.mem_append_left _ hearlier)
    rw [callsOf_append_singleton, lastPassed_append_singleton]
    by_cases hk : call.file = k
    · have hkept : keptBy pipeline file.declarations (call.declaration, call.native) =
          file.declarations[call.declaration]?.map (⟨·, form call.native⟩) := by
        rw [keptBy, hform call (by simp)]
        cases file.declarations[call.declaration]? <;> rfl
      rw [if_pos hk, SheetFile.capture_append_singleton, call_spec, hkept]
      by_cases hi : call.declaration = i
      · subst hi
        rw [if_pos ⟨hk, rfl⟩]
        cases hd : file.declarations[call.declaration]? with
        | none => simpa [hd] using hbefore
        | some d => simp [Keyed.get?_put]
      · rw [if_neg fun h => hi h.2]
        cases hd : file.declarations[call.declaration]? with
        | none => simpa using hbefore
        | some d => simpa [Keyed.get?_put, hi] using hbefore
    · rw [if_neg hk, List.append_nil, if_neg fun h => hk h.1]
      exact hbefore

theorem nodup_captureAll (pipeline : Pipeline) (files : List SheetFile) (calls : List HookValue) :
    ∀ entry ∈ (files.map SheetFile.name).zip (captureAll pipeline files calls),
      (Keyed.keys entry.2.slots).Nodup := by
  intro entry hentry
  have hcaptured := (List.of_mem_zip hentry).2
  rw [captureAll_eq] at hcaptured
  obtain ⟨k, hk, hcapture⟩ := List.mem_mapIdx.mp hcaptured
  rw [← hcapture]
  exact SheetFile.nodup_capture ..

/-- All files have captured the forms of the values last passed. -/
theorem capturedIn_captureAll
    (hform : ∀ call ∈ calls, capturedForm pipeline call.native = .ok (form call.native))
    (files : List SheetFile) :
    capturedIn ((files.map SheetFile.name).zip (captureAll pipeline files calls)) =
      (passedIn files calls).map fun p => (p.file, ⟨p.declaration, form p.native⟩) := by
  have hnames : files.map SheetFile.name = (files.mapIdx Prod.mk).map fun x => x.2.name := by
    rw [List.map_eq_iff]
    intro k
    rw [List.getElem?_map, List.getElem?_mapIdx, Option.map_map]
    rfl
  rw [capturedIn, passedIn, hnames, List.map_flatMap, captureAll_eq]
  refine flatMap_zip_map (by simp) ?_
  intro k x c hx hc
  rw [List.getElem?_mapIdx] at hx hc
  obtain ⟨file, hfile, rfl⟩ := Option.map_eq_some_iff.mp hx
  rw [hfile] at hc
  obtain rfl := Option.some.inj hc
  have hlisted := map_listed (g := id) fun i => by
    rw [Option.map_id]
    exact get?_capture_of_forms hform file k i
  rw [List.map_id] at hlisted
  dsimp only
  rw [hlisted, List.map_filterMap, List.map_filterMap]
  refine List.filterMap_congr fun y _ => ?_
  rw [Option.map_map, Option.map_map]
  rfl

/-- The names of the variables are those of the declarations whose hooks were called. -/
theorem keys_collectVariables
    (hform : ∀ call ∈ calls, capturedForm pipeline call.native = .ok (form call.native))
    (files : List SheetFile) :
    Keyed.keys (collectVariables files (captureAll pipeline files calls)) =
      ((passedIn files calls).map fun p => p.declaration.name).eraseDups := by
  rw [collectVariables, keys_merge (nodup_captureAll pipeline files calls),
    capturedIn_captureAll hform, List.map_map]
  rfl

/-- A variable has the form of the value that was passed last for the declaration that wins. -/
theorem get?_collectVariables
    (hform : ∀ call ∈ calls, capturedForm pipeline call.native = .ok (form call.native))
    (files : List SheetFile) (name : Text) :
    Keyed.get? name (collectVariables files (captureAll pipeline files calls)) =
      (Passed.winner? (passedFor name files calls)).map fun p =>
        { value := form p.native
          sources := ((passedFor name files calls).map Passed.file).eraseDups
          sites := (passedFor name files calls).map fun p =>
            .ofDeclaration p.file p.declaration } := by
  have hdeclared : declarationsOf name
      ((files.map SheetFile.name).zip (captureAll pipeline files calls)) =
        (passedFor name files calls).map fun p => (p.file, ⟨p.declaration, form p.native⟩) := by
    rw [declarationsOf, capturedIn_captureAll hform, List.filter_map]
    rfl
  have hwinner : ∀ passed : List Passed,
      winner? (passed.map fun p => (p.file, (⟨p.declaration, form p.native⟩ : Captured))) =
        (Passed.winner? passed).map fun p => (p.file, ⟨p.declaration, form p.native⟩) := by
    intro passed
    rw [winner?, Passed.winner?, List.filter_map, List.getLast?_map, List.getLast?_map,
      Option.map_or]
    rfl
  rw [collectVariables, get?_merge (nodup_captureAll pipeline files calls), hdeclared,
    Variable.ofDeclarations, hwinner, Option.map_map, List.map_map, List.map_map]
  rfl

end Forms

/-! ## Payloads without types -/

theorem untypedEntries_named (fields : List (Text × Data)) :
    untypedEntries (Data.named fields) =
      Data.named (fields.map fun field => (field.1, untyped field.2)) := by
  induction fields with
  | nil => rfl
  | cons field rest ih =>
    simp only [Data.named, List.map_cons, untypedEntries] at ih ⊢
    rw [ih]

/-- Of a payload with one scope the entries of that scope lose their types. -/
theorem compactPayload_global (fields : List (Text × Data)) :
    compactPayload (.ofFields [("global".toText, .ofFields fields)]) =
      .ok (.ofFields [("global".toText,
        .ofFields (fields.map fun field => (field.1, untyped field.2)))]) := by
  have hscopes : compactPayload (.ofFields [("global".toText, .ofFields fields)]) =
      .ok (.ofFields [("global".toText, .mapping (untypedEntries (Data.named fields)))]) := rfl
  rw [hscopes, untypedEntries_named]
  rfl

/-- Without types a payload has the same names in the same order. -/
theorem compactPayload_payload (vars : Variables) :
    compactPayload vars.payload = .ok (.ofFields [("global".toText,
      .ofFields (vars.map fun entry => (entry.1, untyped entry.2.toData)))]) := by
  rw [Variables.payload, compactPayload_global, List.map_map]
  rfl

/-- A flat value leaves nothing but its text. -/
theorem untyped_toData_of_flat {v : Variable} {tag text : Text} (h : v.value = .flat tag text) :
    untyped v.toData = .text text := by
  rw [Variable.toData, h, Structured.fields]
  rfl

/-! ## The pipelines that give flat values -/

/-- The payload that calls of the hooks of files end in, for the plugins that are described. -/
def finalPayload [ColorNames] (registry : Registry) (patience : Patience) (specs : List PluginSpec)
    (files : List SheetFile) (calls : List HookValue) : Except Failure Data := do
  let pipeline ← Pipeline.ofSpecs registry specs
  pipeline.runOnPayload patience
    (collectVariables files (captureAll pipeline files calls)).payload

section Pipelines

variable [ColorNames] (registry : Registry) (patience : Patience) (files : List SheetFile)
  (calls : List HookValue)

theorem finalPayload_nil :
    finalPayload registry patience [] files calls =
      .ok (collectVariables files (captureAll [] files calls)).payload :=
  Pipeline.runOnPayload_nil ..

theorem ofSpecs_minimal :
    Pipeline.ofSpecs registry [.name "minimal".toText] = .ok [.minimal []] := rfl

theorem ofSpecs_serialize_compact :
    Pipeline.ofSpecs registry [.name "serialize".toText, .name "compact".toText] =
      .ok [.serialize [], .compact []] := rfl

theorem capturedForm_nil (native : Native) : capturedForm [] native = native.structured :=
  bind_pure native.structured

/-- What is captured depends on the forms that the plugins give to values and on nothing else. -/
theorem captureAll_congr {pipeline pipeline' : Pipeline}
    (h : ∀ native, capturedForm pipeline native = capturedForm pipeline' native) :
    captureAll pipeline files calls = captureAll pipeline' files calls := by
  have hcall : ∀ declarations i native c,
      Captures.call pipeline declarations i native c =
        Captures.call pipeline' declarations i native c := by
    intro declarations i native c
    rw [Captures.call, Captures.call, h]
  simp only [captureAll, captureHooks, hcall]

theorem runOnValue_minimal (native : Native) (value : Structured) :
    Pipeline.runOnValue [.minimal []] native value = serializeValue value native :=
  bind_pure (serializeValue value native)

theorem runOnValue_serialize_compact (native : Native) (value : Structured) :
    Pipeline.runOnValue [.serialize [], .compact []] native value = serializeValue value native :=
  bind_pure (serializeValue value native)

omit [ColorNames] in
/-- A plugin that answers a payload without its types at once needs no patience. -/
theorem applyToPayload_of_compacts {plugin : Plugin}
    (h : ∀ payload, plugin.onPayload payload = (compactPayload payload).map .ready)
    (payload : Data) :
    Pipeline.applyToPayload patience plugin payload = compactPayload payload :=
  Pipeline.applyToPayload_of_ready patience (h payload)

theorem runOnPayload_minimal (payload : Data) :
    Pipeline.runOnPayload patience [.minimal []] payload = compactPayload payload :=
  applyToPayload_of_compacts patience (fun _ => rfl) payload

theorem runOnPayload_serialize_compact (payload : Data) :
    Pipeline.runOnPayload patience [.serialize [], .compact []] payload =
      compactPayload payload := by
  have hserialize : Pipeline.applyToPayload patience (.serialize []) payload = .ok payload :=
    Pipeline.applyToPayload_of_ready patience rfl
  rw [Pipeline.runOnPayload_cons, hserialize]
  exact applyToPayload_of_compacts patience (fun _ => rfl) payload

/-- `minimal` is `serialize` and then `compact`, whatever the values are. -/
theorem finalPayload_minimal_eq :
    finalPayload registry patience [.name "minimal".toText] files calls =
      finalPayload registry patience [.name "serialize".toText, .name "compact".toText] files
        calls := by
  have hform : ∀ native, capturedForm [.minimal []] native =
      capturedForm [.serialize [], .compact []] native := by
    intro native
    simp only [capturedForm, runOnValue_minimal, runOnValue_serialize_compact]
  rw [finalPayload, finalPayload, ofSpecs_minimal, ofSpecs_serialize_compact]
  change Pipeline.runOnPayload .. = Pipeline.runOnPayload ..
  rw [captureAll_congr files calls hform, runOnPayload_minimal, runOnPayload_serialize_compact]

/-- On values that have a structured and a flat form, `minimal` gives what `serialize` and then
`compact` give: the names of the variables without plugins, in their order, each with the flat form
of the value whose structured form the variable has without plugins. -/
theorem finalPayload_minimal
    (hsupported : ∀ call ∈ calls, call.native.structured.isOk ∧ (flatten false call.native).isOk) :
    finalPayload registry patience [] files calls =
        .ok (collectVariables files (captureAll [] files calls)).payload ∧
    finalPayload registry patience [.name "minimal".toText] files calls =
        finalPayload registry patience [.name "serialize".toText, .name "compact".toText] files
          calls ∧
    finalPayload registry patience [.name "minimal".toText] files calls =
        .ok (.ofFields [("global".toText,
          .ofFields ((Keyed.keys (collectVariables files (captureAll [] files calls))).map
            fun name => (name, .text (winningText name files calls))))]) ∧
    ∀ name v, Keyed.get? name (collectVariables files (captureAll [] files calls)) = some v →
      ∃ p, Passed.winner? (passedFor name files calls) = some p ∧
        p.native.structured = .ok v.value ∧
        flatten false p.native = .ok (winningText name files calls) := by
  obtain ⟨form, hform⟩ := exists_forms fun call hcall => (hsupported call hcall).1
  obtain ⟨text, htext⟩ := exists_forms fun call hcall => (hsupported call hcall).2
  have hplain : ∀ call ∈ calls, capturedForm [] call.native = .ok (form call.native) := by
    intro call hcall
    rw [capturedForm_nil, hform call hcall]
  let flatForm (n : Native) : Structured := .flat (form n).ownTag (text n)
  have hflat : ∀ call ∈ calls,
      capturedForm [.minimal []] call.native = .ok (flatForm call.native) := by
    intro call hcall
    rw [capturedForm, hform call hcall]
    change Pipeline.runOnValue .. = _
    rw [runOnValue_minimal, serializeValue, htext call hcall]
    rfl
  have hwinning : ∀ {name p}, Passed.winner? (passedFor name files calls) = some p →
      p.native.structured = .ok (form p.native) ∧ flatten false p.native = .ok (text p.native) ∧
        winningText name files calls = text p.native := by
    intro name p hp
    obtain ⟨call, hcall, hnative⟩ := exists_of_mem_passedFor (Passed.mem_of_winner? hp)
    rw [winningText, hp, Option.bind_some, ← hnative, hform call hcall, htext call hcall]
    exact ⟨rfl, rfl, rfl⟩
  refine ⟨finalPayload_nil .., finalPayload_minimal_eq .., ?_, ?_⟩
  · -- the same declarations win, whatever form their values have
    have hkeys :=
      (keys_collectVariables hplain files).trans (keys_collectVariables hflat files).symm
    let flatVars := collectVariables files (captureAll [.minimal []] files calls)
    have hnodup : (Keyed.keys flatVars).Nodup := by
      rw [keys_collectVariables hflat, ← Keyed.foldl_insertNew]
      exact Keyed.nodup_foldl_insertNew _
    have hentries : (flatVars.map fun entry => (entry.1, untyped entry.2.toData)) =
        (Keyed.keys flatVars).map fun name => (name, .text (winningText name files calls)) := by
      rw [Keyed.keys, List.map_map]
      refine List.map_congr_left fun entry hentry => ?_
      have hget := Keyed.get?_of_mem hnodup hentry
      rw [get?_collectVariables hflat] at hget
      obtain ⟨p, hp, hv⟩ := Option.map_eq_some_iff.mp hget
      have hvalue : entry.2.value = flatForm p.native := by rw [← hv]
      rw [Function.comp_apply, (hwinning hp).2.2, untyped_toData_of_flat hvalue]
    rw [hkeys, finalPayload, ofSpecs_minimal]
    change Pipeline.runOnPayload .. = _
    rw [runOnPayload_minimal, compactPayload_payload, hentries]
  · intro name v hv
    rw [get?_collectVariables hplain] at hv
    obtain ⟨p, hp, rfl⟩ := Option.map_eq_some_iff.mp hv
    obtain ⟨hstructured, hflatten, hname⟩ := hwinning hp
    rw [hname]
    exact ⟨p, hp, hstructured, hflatten⟩

end Pipelines

section Samples

open CssColors

/-- Two files that declare the same variables. -/
def sampleSheets : List SheetFile :=
  [.ofSource "/b.scss".toText 0 "$a: 1;\n$b: 2 !default;\n".toText,
    .ofSource "/main.scss".toText 1 "$b: 3;\n$a: 4 !default;\n".toText]

/-- Calls of three of the four hooks, out of order and one of them twice. -/
def sampleHookValues : List HookValue :=
  [⟨1, 1, .boolean true⟩, ⟨0, 0, .string "x".toText⟩, ⟨0, 1, .null⟩,
    ⟨0, 0, .list [.boolean false, .list [.null, .string "y".toText] .comma false] .space true⟩]

theorem finalPayload_sampleHookValues :
    (∀ call ∈ sampleHookValues, call.native.structured.isOk ∧ (flatten false call.native).isOk) ∧
    finalPayload [] .none [.name "minimal".toText] sampleSheets sampleHookValues =
      .ok (.ofFields [("global".toText, .ofFields [
        ("$a".toText, .text "[false (null,y)]".toText),
        ("$b".toText, .text "null".toText)])]) := by
  have hsupported : ∀ call ∈ sampleHookValues,
      call.native.structured.isOk ∧ (flatten false call.native).isOk := by
    decide +kernel
  obtain ⟨-, -, hpayload, -⟩ :=
    finalPayload_minimal [] .none sampleSheets sampleHookValues hsupported
  have hkeys : Keyed.keys (collectVariables sampleSheets
      (captureAll [] sampleSheets sampleHookValues)) = ["$a".toText, "$b".toText] := by
    obtain ⟨form, hform⟩ := exists_forms fun call hcall => (hsupported call hcall).1
    simp only [← capturedForm_nil] at hform
    rw [keys_collectVariables hform]
    decide +kernel
  have ha : winningText "$a".toText sampleSheets sampleHookValues = "[false (null,y)]".toText := by
    decide +kernel
  have hb : winningText "$b".toText sampleSheets sampleHookValues = "null".toText := by
    decide +kernel
  rw [hkeys, List.map_cons, List.map_cons, ha, hb] at hpayload
  exact ⟨hsupported, hpayload⟩

end Samples

end StyleVars
