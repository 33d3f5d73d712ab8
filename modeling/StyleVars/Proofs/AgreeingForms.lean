import StyleVars.Proofs.RefusedValues
import StyleVars.Proofs.RoundedNumbers
import StyleVars.Value.CssColors

/-!
# Forms that exist together

The flat and the structured form of a value are taken by two recursions of their own, which visit
the parts of the value in one order. When its colors have proper channels, both forms exist or both
fail for the first value of an unsupported type (`Native.forms_agree`).
-/

namespace StyleVars

/-! ## Proper colors -/

mutual

/-- The channels of the colors in a value are finite numbers, and their alphas lie between zero and
one. -/
def Native.hasProperColors : Native → Bool
  | .null => true
  | .boolean _ => true
  | .string _ => true
  | .number .. => true
  | .color r g b a => r.isFinite && g.isFinite && b.isFinite && a.isAlpha
  | .list items _ _ => properColorsInItems items
  | .map entries => properColorsInEntries entries
  | .unsupported _ => true

/-- The colors in the items of a list are proper. -/
def properColorsInItems : List Native → Bool
  | [] => true
  | v :: rest => v.hasProperColors && properColorsInItems rest

/-- The colors in the keys and the values of a map are proper. -/
def properColorsInEntries : List (Native × Native) → Bool
  | [] => true
  | (k, v) :: rest =>
    k.hasProperColors && v.hasProperColors && properColorsInEntries rest

end

theorem isOk_structuredColor {r g b : Binary64} (a : Binary64) (hr : r.isFinite)
    (hg : g.isFinite) (hb : b.isFinite) : (structuredColor r g b a).isOk :=
  Except.isOk_bind (isOk_roundHalfUp hr) fun _ => Except.isOk_bind (isOk_roundHalfUp hg) fun _ =>
    Except.isOk_bind (isOk_roundHalfUp hb) fun _ => rfl

theorem isOk_flatColor [ColorNames] {r g b a : Binary64} (hr : r.isFinite) (hg : g.isFinite)
    (hb : b.isFinite) (ha : a.isAlpha) : (flatColor r g b a).isOk := by
  obtain ⟨s, rank, rfl, hunits⟩ := Binary64.exists_of_isAlpha ha
  refine Except.isOk_bind (isOk_roundHalfUp hr) fun _ =>
    Except.isOk_bind (isOk_roundHalfUp hg) fun _ =>
      Except.isOk_bind (isOk_roundHalfUp hb) fun _ => ?_
  split
  · exact Except.isOk_bind (isOk_roundHalfUp (Binary64.isFinite_mul_hundred hunits)) fun _ => rfl
  · rfl

/-! ## Failures for a type and no others -/

/-- Nothing but a value of an unsupported type makes the computation fail. -/
def RefusesTypes {α : Type} (outcome : Except Failure α) : Prop :=
  ∀ failure, outcome = .error failure → ∃ typeName, failure = .unsupportedType typeName none

namespace RefusesTypes

variable {α β : Type} {x : Except Failure α}

theorem of_isOk (h : x.isOk) : RefusesTypes x := by
  rintro failure rfl
  exact nomatch h

theorem bind (hx : RefusesTypes x) {f : α → Except Failure β} (hf : ∀ a, RefusesTypes (f a)) :
    RefusesTypes (x >>= f) := by
  cases x with
  | error e =>
    intro failure h
    exact hx failure (congrArg Except.error (Except.error.inj h))
  | ok a => exact hf a

theorem map (hx : RefusesTypes x) (g : α → β) :
    RefusesTypes (x >>= fun a => Pure.pure (g a)) :=
  hx.bind fun _ => of_isOk rfl

/-- The failure is that of the first unsupported type, when there is one. -/
theorem eq_error_iff {types : List Text} (hx : RefusesTypes x) (hblames : Blames x types)
    {failure : Failure} :
    x = .error failure ↔
      ∃ typeName, types.head? = some typeName ∧ failure = .unsupportedType typeName none := by
  constructor
  · intro h
    obtain ⟨typeName, rfl⟩ := hx failure h
    exact ⟨typeName, (hblames.first h).1, rfl⟩
  · rintro ⟨typeName, hhead, rfl⟩
    cases hx' : x with
    | ok a =>
      have hnone : types = [] := hblames.ok (by rw [hx']; rfl)
      rw [hnone] at hhead
      exact nomatch hhead
    | error e =>
      obtain ⟨other, rfl⟩ := hx e hx'
      obtain rfl : other = typeName := Option.some.inj ((hblames.first hx').1.symm.trans hhead)
      rfl

end RefusesTypes

section Forms

variable [ColorNames]

mutual

theorem Native.refusesTypes_flatten (nested : Bool) {v : Native} (h : v.hasProperColors) :
    RefusesTypes (flatten nested v) := by
  cases v with
  | null => exact .of_isOk rfl
  | boolean b => exact .of_isOk rfl
  | string t => exact .of_isOk rfl
  | number x unit => exact .of_isOk rfl
  | color r g b a =>
    simp only [Native.hasProperColors, Bool.and_eq_true] at h
    obtain ⟨⟨⟨hr, hg⟩, hb⟩, ha⟩ := h
    exact .of_isOk (isOk_flatColor hr hg hb ha)
  | list items separator bracketed =>
    rw [flatten]
    exact (refusesTypes_flattenItems h).map _
  | map entries =>
    rw [flatten]
    exact (refusesTypes_flattenEntries h).map _
  | unsupported typeName =>
    rintro failure ⟨⟩
    exact ⟨typeName, rfl⟩

theorem refusesTypes_flattenItems {items : List Native} (h : properColorsInItems items) :
    RefusesTypes (flattenItems items) := by
  cases items with
  | nil => exact .of_isOk rfl
  | cons v rest =>
    obtain ⟨hv, hrest⟩ := (Bool.and_eq_true _ _).mp h
    rw [flattenItems]
    exact (Native.refusesTypes_flatten true hv).bind fun _ =>
      (refusesTypes_flattenItems hrest).map _

theorem refusesTypes_flattenEntries {entries : List (Native × Native)}
    (h : properColorsInEntries entries) : RefusesTypes (flattenEntries entries) := by
  match entries with
  | [] => exact .of_isOk rfl
  | (k, v) :: rest =>
    obtain ⟨⟨hk, hv⟩, hrest⟩ := by simpa only [properColorsInEntries, Bool.and_eq_true] using h
    rw [flattenEntries]
    exact (Native.refusesTypes_flatten false hv).bind fun _ =>
      (Native.refusesTypes_flatten false hk).bind fun _ => (refusesTypes_flattenEntries hrest).map _

end

mutual

theorem Native.refusesTypes_structured {v : Native} (h : v.hasProperColors) :
    RefusesTypes v.structured := by
  cases v with
  | null => exact .of_isOk rfl
  | boolean b => exact .of_isOk rfl
  | string t => exact .of_isOk rfl
  | number x unit => exact .of_isOk rfl
  | color r g b a =>
    simp only [Native.hasProperColors, Bool.and_eq_true] at h
    exact .of_isOk (isOk_structuredColor a h.1.1.1 h.1.1.2 h.1.2)
  | list items separator bracketed =>
    rw [Native.structured]
    exact (refusesTypes_structuredItems h).map _
  | map entries =>
    rw [Native.structured]
    exact (refusesTypes_structuredEntries h).map _
  | unsupported typeName =>
    rintro failure ⟨⟩
    exact ⟨typeName, rfl⟩

theorem refusesTypes_structuredItems {items : List Native} (h : properColorsInItems items) :
    RefusesTypes (structuredItems items) := by
  cases items with
  | nil => exact .of_isOk rfl
  | cons v rest =>
    obtain ⟨hv, hrest⟩ := (Bool.and_eq_true _ _).mp h
    rw [structuredItems]
    exact (Native.refusesTypes_structured hv).bind fun _ =>
      (refusesTypes_structuredItems hrest).map _

theorem refusesTypes_structuredEntries {entries : List (Native × Native)}
    (h : properColorsInEntries entries) : RefusesTypes (structuredEntries entries) := by
  match entries with
  | [] => exact .of_isOk rfl
  | (k, v) :: rest =>
    obtain ⟨⟨hk, hv⟩, hrest⟩ := by simpa only [properColorsInEntries, Bool.and_eq_true] using h
    rw [structuredEntries]
    exact (Native.refusesTypes_structured hv).bind fun _ =>
      (Native.refusesTypes_flatten false hk).bind fun _ =>
        (refusesTypes_structuredEntries hrest).map _

end

/-! ## The two forms of one value -/

/-- A value whose colors are proper has both forms, or it has neither, and both fail for the same
type: that of the first unsupported value in it. -/
theorem Native.forms_agree {v : Native} (hv : v.hasProperColors) (nested : Bool) :
    (∀ typeName cause, flatten nested v = .error (.unsupportedType typeName cause) ↔
      v.structured = .error (.unsupportedType typeName cause)) ∧
    ((¬ ∃ typeName cause, v.structured = .error (.unsupportedType typeName cause)) →
      (flatten nested v).isOk ∧ v.structured.isOk) ∧
    ∀ typeName cause, v.structured = .error (.unsupportedType typeName cause) ↔
      v.unsupportedTypes.head? = some typeName ∧ cause = none := by
  have hflat : ∀ failure, flatten nested v = .error failure ↔
      ∃ typeName, v.unsupportedTypes.head? = some typeName ∧
        failure = .unsupportedType typeName none := fun failure =>
    (refusesTypes_flatten nested hv).eq_error_iff (blames_flatten nested v)
  have hstructured : ∀ failure, v.structured = .error failure ↔
      ∃ typeName, v.unsupportedTypes.head? = some typeName ∧
        failure = .unsupportedType typeName none := fun failure =>
    (refusesTypes_structured hv).eq_error_iff (blames_structured v)
  refine ⟨fun _ _ => (hflat _).trans (hstructured _).symm, ?_, ?_⟩
  · intro hnone
    have hok : ∀ {α : Type} {x : Except Failure α}, (∀ failure, x = .error failure ↔
        ∃ typeName, v.unsupportedTypes.head? = some typeName ∧
          failure = .unsupportedType typeName none) → x.isOk := by
      intro α x hx
      cases x with
      | ok a => rfl
      | error e =>
        obtain ⟨typeName, hhead, -⟩ := (hx e).mp rfl
        exact absurd ⟨typeName, none, (hstructured _).mpr ⟨typeName, hhead, rfl⟩⟩ hnone
    exact ⟨hok hflat, hok hstructured⟩
  · intro typeName cause
    rw [hstructured]
    constructor
    · rintro ⟨other, hhead, heq⟩
      obtain ⟨rfl, rfl⟩ := Failure.unsupportedType.inj heq
      exact ⟨hhead, rfl⟩
    · rintro ⟨hhead, rfl⟩
      exact ⟨typeName, hhead, rfl⟩

end Forms

/-- A map with colors, whose first unsupported value stands in a list that is a key. -/
def mixedMap : Native :=
  .map [
    (.string "a".toText, .color (.ofInt 255) (.ofRatio false 1 2) (.ofInt (-3))
      (.ofRatio false 1 2)),
    (.list [.null, .unsupported "int".toText] .space true, .color (.ofInt 0) (.ofInt 0) (.ofInt 0)
      (.ofInt 1)),
    (.boolean true, .map [(.null, .unsupported "object".toText)])]

section Samples

open CssColors

theorem Native.forms_agree_mixedMap :
    mixedMap.hasProperColors ∧
    mixedMap.structured = .error (.unsupportedType "int".toText none) ∧
    flatten true mixedMap = .error (.unsupportedType "int".toText none) := by
  have hcolors : mixedMap.hasProperColors := by decide +kernel
  obtain ⟨hsame, -, hfirst⟩ := Native.forms_agree hcolors true
  have hstructured := (hfirst "int".toText none).mpr ⟨rfl, rfl⟩
  exact ⟨hcolors, hstructured, (hsame _ _).mpr hstructured⟩

end Samples

end StyleVars
