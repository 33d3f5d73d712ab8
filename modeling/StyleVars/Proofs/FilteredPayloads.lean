import StyleVars.Plugin.Registry
import StyleVars.Proofs.FlatPayload
import StyleVars.Proofs.SerializedTags
import StyleVars.Value.CssColors

/-!
# Filters in any order

A filter looks at the names of variables and at the types of their values. `serialize` replaces the
values before they are merged, but a value that has been replaced once is still given with its type,
and the same declarations win. Filters therefore keep the same variables at every place of a
pipeline, with `serialize` in it or without, and their order makes no difference
(`payloadOf_of_perm`).
-/

namespace StyleVars

open Captures

/-! ## Pipelines of filters -/

/-- Options of a filter that list names and types by their texts. Each list and each group of lists
may be missing. -/
structure FilterOptions where
  entries : Data.Entries
  listed : ∀ group ∈ ["only".toText, "except".toText],
    ∃ given, optionGroup entries group = .ok given ∧
      ∀ kind ∈ ["props".toText, "types".toText], ∀ d, Data.field? kind given = some d →
        d = .null ∨ ∃ texts : List Text, d = .list (texts.map .text)

/-- A plugin of a pipeline of filters, in which values may also be replaced by their flat forms. -/
inductive Stage
  | filter (options : FilterOptions)
  | serialize (options : Data.Entries)

namespace FilterOptions

theorem exists_optionTexts {d : Option Data}
    (h : ∀ value, d = some value →
      value = .null ∨ ∃ texts : List Text, value = .list (texts.map .text)) :
    ∃ texts, optionTexts d = .ok texts := by
  cases d with
  | none => exact ⟨[], rfl⟩
  | some value =>
    obtain rfl | ⟨texts, rfl⟩ := h value rfl
    · exact ⟨[], rfl⟩
    · exact ⟨_, rfl⟩

/-- Options that list texts are rules. -/
theorem exists_rules (options : FilterOptions) :
    ∃ rules, FilterRules.ofOptions options.entries = .ok rules := by
  obtain ⟨only, honly, honlyTexts⟩ := options.listed "only".toText (by simp)
  obtain ⟨excluded, hexcept, hexceptTexts⟩ := options.listed "except".toText (by simp)
  obtain ⟨onlyNames, honlyNames⟩ := exists_optionTexts (honlyTexts "props".toText (by simp))
  obtain ⟨onlyTypes, honlyTypes⟩ := exists_optionTexts (honlyTexts "types".toText (by simp))
  obtain ⟨exceptNames, hexceptNames⟩ := exists_optionTexts (hexceptTexts "props".toText (by simp))
  obtain ⟨exceptTypes, hexceptTypes⟩ := exists_optionTexts (hexceptTexts "types".toText (by simp))
  simp only [FilterRules.ofOptions, Except.bind_eq_ok]
  exact ⟨_, only, honly, onlyNames, honlyNames, onlyTypes, honlyTypes, excluded, hexcept,
    exceptNames, hexceptNames, exceptTypes, hexceptTypes, rfl⟩

/-- The rules that the options give. -/
def rules (options : FilterOptions) : FilterRules :=
  (FilterRules.ofOptions options.entries).toOption.getD ⟨[], [], [], []⟩

theorem ofOptions_eq (options : FilterOptions) :
    FilterRules.ofOptions options.entries = .ok options.rules := by
  obtain ⟨rules, hrules⟩ := options.exists_rules
  rw [FilterOptions.rules, hrules]
  rfl

end FilterOptions

namespace Stage

/-- The plugin replaces values by their flat forms. -/
def isSerialize : Stage → Bool
  | filter _ => false
  | serialize _ => true

variable [ColorNames]

/-- The plugin. -/
def plugin : Stage → Plugin
  | filter options =>
    { Plugin.inert "filter".toText options.entries with
      onPayload := fun payload =>
        (overScopes (·.filter fun (key, entry) => options.rules.keeps key entry) payload).map
          .ready }
  | serialize options => .serialize options

/-- The description of the plugin by its name and options. -/
def spec : Stage → PluginSpec
  | filter options => .mapping (.name "filter".toText) (some (.mapping options.entries))
  | serialize options => .mapping (.name "serialize".toText) (some (.mapping options))

/-- A variable passes the plugin. -/
def keeps : Stage → Text × Variable → Bool
  | filter options, entry => options.rules.keeps (.text entry.1) entry.2.toData
  | serialize _, _ => true

/-- The filter of the options. -/
theorem filter_eq (options : FilterOptions) :
    Plugin.filter options.entries = .ok (filter options).plugin := by
  rw [Plugin.filter, options.ofOptions_eq]
  rfl

theorem load_spec (registry : Registry) (stage : Stage) :
    PluginSpec.load registry stage.spec = .ok stage.plugin := by
  cases stage with
  | filter options => exact filter_eq options
  | serialize options => rfl

theorem isBuiltin_plugin (stage : Stage) : stage.plugin.IsBuiltin := by
  cases stage with
  | filter options => exact ⟨"filter".toText, _, _, rfl, filter_eq options⟩
  | serialize options => exact ⟨"serialize".toText, _, _, rfl, rfl⟩

theorem serializes_plugin (stage : Stage) : stage.plugin.serializes = stage.isSerialize := by
  cases stage <;> rfl

end Stage

theorem ofSpecs_stages [ColorNames] (registry : Registry) (stages : List Stage) :
    Pipeline.ofSpecs registry (stages.map Stage.spec) = .ok (stages.map Stage.plugin) := by
  rw [Pipeline.ofSpecs, Except.mapM_eq_ok, List.map_map, List.map_map]
  exact List.map_congr_left fun stage _ => stage.load_spec registry

/-! ## Types of captured values -/

/-- The name of the type that the rendering of a value tells. -/
def Structured.typeTag : Structured → Text
  | .flat tag _ => tag
  | x => x.ownTag

/-- A value that has a structured form is given with the type that it carries. -/
theorem Native.typeTag_of_structured [ColorNames] {v : Native} {x : Structured}
    (h : v.structured = .ok x) : x.typeTag = x.ownTag := by
  obtain ⟨kind, -, htag⟩ := v.ownTag_of_structured h
  cases x with
  | flat tag text => exact absurd htag.symm kind.name_ne_nil
  | _ => rfl

/-- One replacement by the flat form keeps the type. -/
theorem Native.typeTag_serialized [ColorNames] {v : Native} {x : Structured}
    (h : v.structured = .ok x) (text : Text) {n : Nat} (hn : n ≤ 1) :
    (x.serialized text n).typeTag = x.ownTag := by
  match n with
  | 0 => exact typeTag_of_structured h
  | 1 => rfl

theorem entryType_toData (v : Variable) :
    FilterRules.entryType v.toData = some (typeKey v.value.typeTag) := by
  have htype : v.toData.get? "type".toText = some (.text v.value.typeTag) := by
    rw [Variable.toData, Data.get?_ofFields, Keyed.get?_append]
    cases v.value <;> rw [Structured.fields] <;> rfl
  rw [FilterRules.entryType, htype]

/-- A filter sees nothing of a variable but its name and the type of its value. -/
theorem Stage.keeps_congr (stage : Stage) {name : Text} {v w : Variable}
    (h : v.value.typeTag = w.value.typeTag) : stage.keeps (name, v) = stage.keeps (name, w) := by
  cases stage with
  | filter options =>
    simp only [keeps, FilterRules.keeps, entryType_toData, h]
  | serialize options => rfl

/-! ## Payloads of pipelines -/

/-- The variables that calls of the hooks of files end in. -/
def collectedBy [ColorNames] (stages : List Stage) (files : List SheetFile)
    (calls : List HookValue) : Variables :=
  collectVariables files (captureAll (stages.map Stage.plugin) files calls)

/-- All plugins let a variable pass. -/
def keptByAll (stages : List Stage) (entry : Text × Variable) : Bool :=
  stages.all fun stage => stage.keeps entry

theorem keptByAll_of_perm {stages stages' : List Stage} (h : stages.Perm stages') :
    keptByAll stages = keptByAll stages' := by
  funext entry
  rw [keptByAll, keptByAll, h.all_eq]

theorem Stage.keeps_of_isSerialize {stage : Stage} (h : stage.isSerialize)
    (entry : Text × Variable) : stage.keeps entry := by
  cases stage with
  | filter options => exact nomatch h
  | serialize options => rfl

/-- Filters alone let pass what they let pass together with `serialize`. -/
theorem keptByAll_filters (stages : List Stage) :
    keptByAll (stages.filter fun stage => !stage.isSerialize) = keptByAll stages := by
  funext entry
  rw [keptByAll, keptByAll, Bool.eq_iff_iff, List.all_eq_true, List.all_eq_true]
  constructor
  · intro hall stage hstage
    by_cases hserialize : stage.isSerialize
    · exact stage.keeps_of_isSerialize hserialize entry
    · exact hall stage (List.mem_filter.mpr ⟨hstage, by simpa using hserialize⟩)
  · exact fun hall stage hstage => hall stage (List.mem_filter.mp hstage).1

/-- The names of variables with the types of their values. -/
def typedNames (vars : Variables) : Keyed Text Text :=
  vars.map fun entry => (entry.1, entry.2.value.typeTag)

/-- The names that are kept depend on the types of the values only. -/
theorem keys_filter_keptByAll (stages : List Stage) (vars : Variables) :
    Keyed.keys (vars.filter (keptByAll stages)) =
      Keyed.keys ((typedNames vars).filter fun entry =>
        keptByAll stages (entry.1, ⟨.flat entry.2 [], [], []⟩)) := by
  have hkeeps : ∀ entry ∈ vars, keptByAll stages entry =
      keptByAll stages (entry.1, ⟨.flat entry.2.value.typeTag [], [], []⟩) := by
    intro entry _
    rw [keptByAll, keptByAll, Bool.eq_iff_iff, List.all_eq_true, List.all_eq_true]
    refine forall₂_congr fun stage _ => ?_
    rw [Stage.keeps_congr stage (v := entry.2) (w := ⟨.flat entry.2.value.typeTag [], [], []⟩) rfl]
  rw [typedNames, List.filter_map, Keyed.keys, Keyed.keys, List.map_map,
    List.filter_congr hkeeps]
  rfl

/-- The type that the value carries which was passed last for the declaration of a variable that
wins. -/
def winningTag [ColorNames] (name : Text) (files : List SheetFile) (calls : List HookValue) :
    Text :=
  ((Passed.winner? (passedFor name files calls)).bind fun p =>
    (p.native.structured.map Structured.ownTag).toOption).getD []

/-- A filter keeps entries of a payload in their order. -/
theorem applyToPayload_stage [ColorNames] (patience : Patience) (stage : Stage) (vars : Variables) :
    Pipeline.applyToPayload patience stage.plugin vars.payload =
      .ok (Variables.payload (vars.filter stage.keeps)) := by
  refine Pipeline.applyToPayload_of_ready patience ?_
  cases stage with
  | filter options =>
    have hnamed : (Data.named (vars.map fun entry => (entry.1, entry.2.toData))).filter
        (fun entry => options.rules.keeps entry.1 entry.2) =
          Data.named ((vars.filter (Stage.filter options).keeps).map fun entry =>
            (entry.1, entry.2.toData)) := by
      rw [Data.named, Data.named, List.map_map, List.map_map, List.filter_map]
      rfl
    exact congrArg
      (fun entries => Except.ok (Reply.ready (.ofFields [("global".toText, .mapping entries)])))
      hnamed
  | serialize options =>
    have hall : vars.filter (Stage.serialize options).keeps = vars :=
      List.filter_eq_self.mpr fun _ _ => rfl
    rw [hall]
    rfl

/-- A pipeline of filters keeps what each of them keeps. -/
theorem runOnPayload_stages [ColorNames] (patience : Patience) (stages : List Stage)
    (vars : Variables) :
    Pipeline.runOnPayload patience (stages.map Stage.plugin) vars.payload =
      .ok (Variables.payload (vars.filter (keptByAll stages))) := by
  induction stages generalizing vars with
  | nil =>
    have hall : vars.filter (keptByAll []) = vars := List.filter_eq_self.mpr fun _ _ => rfl
    rw [hall]
    exact Pipeline.runOnPayload_nil ..
  | cons stage stages ih =>
    have hboth : vars.filter (keptByAll (stage :: stages)) =
        (vars.filter stage.keeps).filter (keptByAll stages) := by
      rw [List.filter_filter]
      exact List.filter_congr fun entry _ => Bool.and_comm ..
    rw [hboth, ← ih, List.map_cons, Pipeline.runOnPayload_cons, applyToPayload_stage]
    rfl

theorem finalPayload_stages [ColorNames] (registry : Registry) (patience : Patience)
    (stages : List Stage) (files : List SheetFile) (calls : List HookValue) :
    finalPayload registry patience (stages.map Stage.spec) files calls =
      .ok (Variables.payload ((collectedBy stages files calls).filter (keptByAll stages))) := by
  rw [finalPayload, ofSpecs_stages]
  exact runOnPayload_stages ..

section Supported

variable [ColorNames] {files : List SheetFile} {calls : List HookValue}
  (hsupported : ∀ call ∈ calls, call.native.structured.isOk ∧ (flatten false call.native).isOk)

include hsupported

/-- The values are captured in forms that depend on how many plugins replace them, and not on their
places in the pipeline. -/
theorem exists_capturedForm : ∃ form : Nat → Native → Structured,
    (∀ stages : List Stage, ∀ call ∈ calls, capturedForm (stages.map Stage.plugin) call.native =
      .ok (form (stages.countP Stage.isSerialize) call.native)) ∧
    ∀ n ≤ 1, ∀ call ∈ calls,
      call.native.structured.map Structured.ownTag = .ok (form n call.native).typeTag := by
  obtain ⟨form, hform⟩ := exists_forms fun call hcall => (hsupported call hcall).1
  obtain ⟨text, htext⟩ := exists_forms fun call hcall => (hsupported call hcall).2
  refine ⟨fun n native => (form native).serialized (text native) n, ?_, ?_⟩
  · intro stages call hcall
    have hbuiltin : ∀ plugin ∈ stages.map Stage.plugin, plugin.IsBuiltin := by
      rw [List.forall_mem_map]
      exact fun stage _ => stage.isBuiltin_plugin
    have hcount : (stages.map Stage.plugin).countP Plugin.serializes =
        stages.countP Stage.isSerialize := by
      rw [List.countP_map]
      exact List.countP_congr fun stage _ => by rw [Function.comp_apply, stage.serializes_plugin]
    rw [capturedForm, hform call hcall, ← hcount]
    exact runOnValue_of_isBuiltin hbuiltin (htext call hcall) _
  · intro n hn call hcall
    rw [hform call hcall, Native.typeTag_serialized (hform call hcall) _ hn]
    rfl

theorem nodup_collectedBy (stages : List Stage) :
    (Keyed.keys (collectedBy stages files calls)).Nodup := by
  obtain ⟨form, hform, -⟩ := exists_capturedForm hsupported
  rw [collectedBy, keys_collectVariables (hform stages), ← Keyed.foldl_insertNew]
  exact Keyed.nodup_foldl_insertNew _

theorem keys_collectedBy (stages stages' : List Stage) :
    Keyed.keys (collectedBy stages files calls) =
      Keyed.keys (collectedBy stages' files calls) := by
  obtain ⟨form, hform, -⟩ := exists_capturedForm hsupported
  rw [collectedBy, collectedBy, keys_collectVariables (hform stages),
    keys_collectVariables (hform stages')]

/-- What is collected depends on how many plugins replace the values. -/
theorem collectedBy_congr {stages stages' : List Stage}
    (hcount : stages.countP Stage.isSerialize = stages'.countP Stage.isSerialize) :
    collectedBy stages files calls =
      collectedBy stages' files calls := by
  obtain ⟨form, hform, -⟩ := exists_capturedForm hsupported
  have hstages := hform stages
  have hstages' := hform stages'
  rw [← hcount] at hstages'
  refine Keyed.ext_of_nodup (nodup_collectedBy hsupported stages) (keys_collectedBy hsupported ..)
    fun name => ?_
  rw [collectedBy, collectedBy, get?_collectVariables hstages, get?_collectVariables hstages']

/-- The names are given with the types of the values that win, whether or not one plugin replaces
the values. -/
theorem typedNames_collectedBy (stages : List Stage)
    (hcount : stages.countP Stage.isSerialize ≤ 1) :
    typedNames (collectedBy stages files calls) =
      ((passedIn files calls).map fun p => p.declaration.name).eraseDups.map fun name =>
        (name, winningTag name files calls) := by
  obtain ⟨form, hform, htag⟩ := exists_capturedForm hsupported
  rw [← keys_collectVariables (hform stages), typedNames, Keyed.keys, List.map_map]
  refine List.map_congr_left fun entry hentry => ?_
  have hget := Keyed.get?_of_mem (nodup_collectedBy hsupported stages) hentry
  rw [collectedBy, get?_collectVariables (hform stages)] at hget
  obtain ⟨p, hp, hv⟩ := Option.map_eq_some_iff.mp hget
  obtain ⟨call, hcall, hnative⟩ := exists_of_mem_passedFor (Passed.mem_of_winner? hp)
  have hwins := htag _ hcount call hcall
  rw [hnative] at hwins
  rw [Function.comp_apply, winningTag, hp, Option.bind_some, hwins, ← hv]
  rfl

/-- Filters and at most one `serialize` give the same payload in any order: that of the pipeline
without filters, reduced in its own order to the variables that all filters let pass. Without
`serialize` the filters keep variables of the same names. -/
theorem finalPayload_of_perm {stages stages' : List Stage} (hperm : stages.Perm stages')
    (hserialize : stages.countP Stage.isSerialize ≤ 1) (registry : Registry)
    (patience : Patience) :
    finalPayload registry patience (stages.map Stage.spec) files calls =
        finalPayload registry patience (stages'.map Stage.spec) files calls ∧
    finalPayload registry patience [] files calls = .ok (collectedBy [] files calls).payload ∧
    finalPayload registry patience ((stages.filter Stage.isSerialize).map Stage.spec) files calls =
        .ok (collectedBy stages files calls).payload ∧
    finalPayload registry patience (stages.map Stage.spec) files calls =
        .ok (Variables.payload ((collectedBy stages files calls).filter (keptByAll stages))) ∧
    finalPayload registry patience
        ((stages.filter fun stage => !stage.isSerialize).map Stage.spec) files calls =
      .ok (Variables.payload ((collectedBy [] files calls).filter (keptByAll stages))) ∧
    Keyed.keys ((collectedBy stages files calls).filter (keptByAll stages)) =
      Keyed.keys ((collectedBy [] files calls).filter (keptByAll stages)) := by
  have hsame : collectedBy stages' files calls = collectedBy stages files calls :=
    collectedBy_congr hsupported (hperm.countP_eq _).symm
  have hreplaced : collectedBy (stages.filter Stage.isSerialize) files calls =
      collectedBy stages files calls := by
    refine collectedBy_congr hsupported ?_
    rw [List.countP_filter]
    exact List.countP_congr fun stage _ => by rw [Bool.and_self]
  have hplain : collectedBy (stages.filter fun stage => !stage.isSerialize) files calls =
      collectedBy [] files calls := by
    refine collectedBy_congr hsupported ?_
    rw [List.countP_filter]
    exact List.countP_eq_zero.mpr fun stage _ => by simp
  refine ⟨?_, finalPayload_nil .., ?_, finalPayload_stages .., ?_, ?_⟩
  · rw [finalPayload_stages, finalPayload_stages, hsame, keptByAll_of_perm hperm]
  · rw [finalPayload_stages, hreplaced, List.filter_eq_self.mpr]
    exact fun entry _ => List.all_eq_true.mpr fun stage hstage =>
      stage.keeps_of_isSerialize (List.mem_filter.mp hstage).2 entry
  · rw [finalPayload_stages, hplain, keptByAll_filters]
  · rw [keys_filter_keptByAll, keys_filter_keptByAll, typedNames_collectedBy hsupported stages
      hserialize, typedNames_collectedBy hsupported [] (Nat.zero_le 1)]

end Supported

section Samples

open CssColors

/-- The options of a filter that keeps the listed types. -/
def FilterOptions.onlyTypes (types : List Text) : FilterOptions where
  entries := Data.named [("only".toText, .ofFields [("types".toText, .list (types.map .text))])]
  listed := by
    simp only [List.forall_mem_cons]
    refine ⟨⟨_, rfl, nofun, fun d hd => .inr ⟨types, ?_⟩, nofun⟩,
      ⟨[], rfl, nofun, nofun, nofun⟩, nofun⟩
    exact (Option.some.inj hd).symm

/-- A filter in front of `serialize` and one behind it. -/
def sampleStages : List Stage :=
  [.filter (.onlyTypes ["LIST".toText, "SassNull".toText]), .serialize [],
    .filter (.onlyTypes ["list".toText])]

theorem finalPayload_sampleStages :
    (∀ call ∈ sampleHookValues, call.native.structured.isOk ∧ (flatten false call.native).isOk) ∧
    sampleStages.Perm sampleStages.reverse ∧ sampleStages.countP Stage.isSerialize ≤ 1 ∧
    ∃ vars : Variables, Keyed.keys vars = ["$a".toText] ∧
      finalPayload [] .none (sampleStages.map Stage.spec) sampleSheets sampleHookValues =
        .ok vars.payload ∧
      finalPayload [] .none (sampleStages.reverse.map Stage.spec) sampleSheets sampleHookValues =
        .ok vars.payload := by
  have hsupported : ∀ call ∈ sampleHookValues,
      call.native.structured.isOk ∧ (flatten false call.native).isOk := by
    decide +kernel
  have hperm := sampleStages.reverse_perm.symm
  obtain ⟨hsame, -, -, hpayload, -, -⟩ :=
    @finalPayload_of_perm _ sampleSheets _ hsupported _ _ hperm (by decide) [] .none
  refine ⟨hsupported, hperm, by decide, _, ?_, hpayload, hsame.symm.trans hpayload⟩
  rw [keys_filter_keptByAll, typedNames_collectedBy hsupported _ (by decide)]
  decide +kernel

end Samples

end StyleVars
