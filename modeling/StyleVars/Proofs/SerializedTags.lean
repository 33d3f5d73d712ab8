import StyleVars.Plugin.Registry
import StyleVars.Proofs.Outcomes
import StyleVars.Value.CssColors
import Mathlib.Data.List.Induction
import Mathlib.Tactic.SplitIfs

/-!
# Types of flattened values

`serialize` and `minimal` replace a value by its flat form with the type that the value carries. A
value that has been replaced once carries its type in another place, where a second replacement does
not look for it. After a pipeline of builtin plugins the rendering therefore tells the type of the
value exactly when one plugin of the pipeline has replaced it (`runOnValue_serialized_iff`).
-/

namespace StyleVars

/-! ## Builtin plugins -/

namespace Plugin

/-- The plugin is one of those that come with the library, with options of its own. -/
def IsBuiltin [ColorNames] (plugin : Plugin) : Prop :=
  ∃ name make options, builtinMaker? name = some make ∧ make options = .ok plugin

/-- The plugin goes by the name of one that replaces values by their flat forms. -/
def serializes (plugin : Plugin) : Bool :=
  plugin.name = "serialize".toText || plugin.name = "minimal".toText

theorem name_of_filter {options : Data.Entries} {plugin : Plugin}
    (h : filter options = .ok plugin) :
    plugin.name = "filter".toText ∧ ∀ value native, plugin.onValue value native = .ok value := by
  obtain ⟨rules, -, hplugin⟩ := Except.bind_eq_ok.mp h
  obtain rfl := Except.ok.inj hplugin
  exact ⟨rfl, fun _ _ => rfl⟩

/-- A builtin plugin leaves a value as it is unless it replaces it by its flat form. -/
theorem IsBuiltin.onValue_eq [ColorNames] {plugin : Plugin} (h : plugin.IsBuiltin)
    (value : Structured) (native : Native) :
    plugin.onValue value native =
      if plugin.serializes then serializeValue value native else .ok value := by
  obtain ⟨name, make, options, hmake, hplugin⟩ := h
  unfold builtinMaker? at hmake
  split_ifs at hmake <;> obtain rfl := Option.some.inj hmake
  · obtain rfl := Except.ok.inj hplugin
    rfl
  · obtain rfl := Except.ok.inj hplugin
    rfl
  · obtain rfl := Except.ok.inj hplugin
    rfl
  · obtain ⟨hname, hvalue⟩ := name_of_filter hplugin
    have hother : plugin.serializes = false := by
      rw [serializes, hname]
      rfl
    rw [hother, hvalue]
    rfl

end Plugin

/-! ## Types -/

/-- A structured form carries the name of the type that the value had for the compiler. -/
theorem Native.ownTag_of_structured [ColorNames] {v : Native} {x : Structured}
    (h : v.structured = .ok x) :
    ∃ kind, v.kind = .ok kind ∧ x.ownTag = kind.name := by
  cases v with
  | null =>
    obtain rfl := Except.ok.inj h
    exact ⟨.null, rfl, rfl⟩
  | boolean b =>
    obtain rfl := Except.ok.inj h
    exact ⟨.boolean, rfl, rfl⟩
  | string t =>
    obtain rfl := Except.ok.inj h
    exact ⟨.string, rfl, rfl⟩
  | number n unit =>
    obtain rfl := Except.ok.inj h
    exact ⟨.number, rfl, rfl⟩
  | color r g b a =>
    obtain ⟨red, -, h⟩ := Except.bind_eq_ok.mp h
    obtain ⟨green, -, h⟩ := Except.bind_eq_ok.mp h
    obtain ⟨blue, -, hx⟩ := Except.bind_eq_ok.mp h
    obtain rfl := Except.ok.inj hx
    exact ⟨.color, rfl, rfl⟩
  | list items separator bracketed =>
    obtain ⟨xs, -, hx⟩ := Except.bind_eq_ok.mp h
    obtain rfl := Except.ok.inj hx
    exact ⟨.list, rfl, rfl⟩
  | map entries =>
    obtain ⟨xs, -, hx⟩ := Except.bind_eq_ok.mp h
    obtain rfl := Except.ok.inj hx
    exact ⟨.map, rfl, rfl⟩
  | unsupported typeName => exact nomatch h

theorem Kind.name_ne_nil (kind : Kind) : kind.name ≠ [] := by
  cases kind <;> exact List.cons_ne_nil _ _

/-! ## Repeated replacements -/

/-- A value that has been replaced by its flat form so many times. Only the first replacement finds
the type of the value. -/
def Structured.serialized (text : Text) (x : Structured) : Nat → Structured
  | 0 => x
  | 1 => .flat x.ownTag text
  | _ + 2 => .flat [] text

theorem Structured.serialized_succ (text : Text) (x : Structured) (n : Nat) :
    x.serialized text (n + 1) = .flat (x.serialized text n).ownTag text := by
  match n with
  | 0 => rfl
  | 1 => rfl
  | _ + 2 => rfl

theorem Pipeline.runOnValue_append_singleton (pipeline : Pipeline) (plugin : Plugin)
    (native : Native) (value : Structured) :
    (pipeline ++ [plugin]).runOnValue native value =
      pipeline.runOnValue native value >>= fun value => plugin.onValue value native := by
  simp only [runOnValue, List.foldlM_append, List.foldlM_cons, List.foldlM_nil, bind_pure]

/-- What builtin plugins make of a value depends on how many of them replace it, and not on their
order. -/
theorem runOnValue_of_isBuiltin [ColorNames] {pipeline : Pipeline}
    (h : ∀ plugin ∈ pipeline, plugin.IsBuiltin) {v : Native} {text : Text}
    (htext : flatten false v = .ok text) (x : Structured) :
    pipeline.runOnValue v x = .ok (x.serialized text (pipeline.countP Plugin.serializes)) := by
  induction pipeline using List.reverseRecOn with
  | nil => rfl
  | append_singleton pipeline plugin ih =>
    have hlast := (h plugin (by simp)).onValue_eq
    have hbefore := ih fun earlier hearlier => h earlier (List.mem_append_left _ hearlier)
    rw [Pipeline.runOnValue_append_singleton, hbefore, List.countP_append, List.countP_singleton]
    refine (hlast _ v).trans ?_
    by_cases hserializes : plugin.serializes
    · rw [if_pos hserializes, if_pos hserializes, Structured.serialized_succ, serializeValue, htext]
      rfl
    · rw [if_neg hserializes, if_neg hserializes]
      rfl

/-- A pipeline of builtin plugins, one of which at least replaces values by their flat forms,
renders a value as its flat form. The type is that of the value if just one plugin has replaced it,
and empty otherwise. -/
theorem runOnValue_serialized_iff [ColorNames] {pipeline : Pipeline}
    (hbuiltin : ∀ plugin ∈ pipeline, plugin.IsBuiltin)
    (hserializes : ∃ plugin ∈ pipeline, plugin.serializes) {v : Native} {x : Structured}
    {text : Text} (hx : v.structured = .ok x) (htext : flatten false v = .ok text) :
    (pipeline.runOnValue v x).map Structured.toData =
      .ok (.ofFields [("type".toText, .text
          (if pipeline.countP Plugin.serializes = 1 then x.ownTag else [])),
        ("value".toText, .text text)]) ∧
    ((pipeline.runOnValue v x).map Structured.toData =
        .ok (.ofFields [("type".toText, .text x.ownTag), ("value".toText, .text text)]) ↔
      pipeline.countP Plugin.serializes = 1) := by
  have hrun := runOnValue_of_isBuiltin hbuiltin htext x
  have htag : x.ownTag ≠ [] := by
    obtain ⟨kind, -, hkind⟩ := Native.ownTag_of_structured hx
    rw [hkind]
    exact kind.name_ne_nil
  have hcount : 0 < pipeline.countP Plugin.serializes := List.countP_pos_iff.mpr hserializes
  rw [hrun]
  generalize pipeline.countP Plugin.serializes = n at hcount
  match n with
  | 1 => exact ⟨rfl, fun _ => rfl, fun _ => rfl⟩
  | n + 2 =>
    refine ⟨rfl, fun heq => ?_, fun heq => by omega⟩
    injection heq with heq
    injection heq with heq
    injection heq with hentry
    injection hentry with _ htype
    injection htype with htype
    exact absurd htype.symm htag

section Samples

open CssColors

/-- A list with an empty value. -/
def sampleList : Native := .list [.boolean true, .null] .comma false

theorem runOnValue_minimal_between :
    (∀ plugin ∈ [Plugin.compact [], .minimal [], .compact []], plugin.IsBuiltin) ∧
    (∃ plugin ∈ [Plugin.compact [], .minimal [], .compact []], plugin.serializes) ∧
    sampleList.structured = .ok (.list [.boolean true, .null] .comma) ∧
    flatten false sampleList = .ok "true,null".toText ∧
    (Pipeline.runOnValue [.compact [], .minimal [], .compact []] sampleList
        (.list [.boolean true, .null] .comma)).map Structured.toData =
      .ok (.ofFields [("type".toText, .text Kind.list.name),
        ("value".toText, .text "true,null".toText)]) := by
  have hcompact : (Plugin.compact []).IsBuiltin := ⟨"compact".toText, _, [], rfl, rfl⟩
  have hminimal : (Plugin.minimal []).IsBuiltin := ⟨"minimal".toText, _, [], rfl, rfl⟩
  have hbuiltin : ∀ plugin ∈ [Plugin.compact [], .minimal [], .compact []], plugin.IsBuiltin := by
    simp [hcompact, hminimal]
  have hserializes : ∃ plugin ∈ [Plugin.compact [], .minimal [], .compact []],
      plugin.serializes := ⟨.minimal [], by simp, rfl⟩
  exact ⟨hbuiltin, hserializes, rfl, rfl,
    (runOnValue_serialized_iff hbuiltin hserializes rfl rfl).2.mpr rfl⟩

/-- The type of a text is lost when `serialize` is given twice. -/
theorem runOnValue_serialize_twice :
    Pipeline.ofSpecs [] [.name "serialize".toText, .name "serialize".toText] =
      .ok [.serialize [], .serialize []] ∧
    (Native.string "bold".toText).structured = .ok (.string "bold".toText) ∧
    flatten false (.string "bold".toText) = .ok "bold".toText ∧
    (Pipeline.runOnValue [.serialize [], .serialize []] (.string "bold".toText)
        (.string "bold".toText)).map Structured.toData =
      .ok (.ofFields [("type".toText, .text []), ("value".toText, .text "bold".toText)]) ∧
    (Pipeline.runOnValue [.serialize [], .serialize []] (.string "bold".toText)
        (.string "bold".toText)).map Structured.toData ≠
      .ok (.ofFields [("type".toText, .text Kind.string.name),
        ("value".toText, .text "bold".toText)]) := by
  refine ⟨rfl, rfl, rfl, rfl, ?_⟩
  intro heq
  exact nomatch heq

end Samples

end StyleVars
