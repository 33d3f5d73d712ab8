import StyleVars.Proofs.JsonPayloads
import StyleVars.Proofs.RoundedNumbers
import StyleVars.Value.CssColors

/-!
# Channels of colors

The structured form of a color tells its channels twice: as integers and in hexadecimal notation.
The notation moves a channel outside 0 to 255 to the nearest end (`Color.channels?_hex`), the
integers are only rounded. So the two agree exactly when all channels of the color lie in that
range, and this is so for each color at every place inside a value (`structured_color_iff`): a list
and its structured form have the same items, and a map has under each key the form of the last value
that stands for that key (`structured_part?`).
-/

namespace StyleVars

/-! ## Hexadecimal notation -/

namespace Color

/-- From 0 to 255. -/
def IsChannel (n : Int) : Prop := 0 ≤ n ∧ n ≤ 255

instance (n : Int) : Decidable (IsChannel n) := inferInstanceAs (Decidable (_ ∧ _))

/-- The end of the range on the side of a channel outside it. -/
def nearestChannel (n : Int) : Int := max 0 (min 255 n)

/-- The value of a hexadecimal digit in lower case. -/
def digit? (c : CodePoint) : Option Nat := "0123456789abcdef".toText.idxOf? c

/-- The number that two digits give. -/
def byte? : Text → Option Nat
  | [high, low] => do return 16 * (← digit? high) + (← digit? low)
  | _ => none

/-- The channels of a color in hexadecimal notation on six digits. -/
def channels? : Text → Option (Int × Int × Int)
  | '#' :: digits => do
    let red ← byte? (digits.take 2)
    let green ← byte? ((digits.drop 2).take 2)
    let blue ← byte? (digits.drop 4)
    return (red, green, blue)
  | _ => none

/-- The integers are channels, and the notation has the same ones. -/
def IsNormalized (red green blue : Int) (written : Text) : Prop :=
  (IsChannel red ∧ IsChannel green ∧ IsChannel blue) ∧ channels? written = some (red, green, blue)

instance (red green blue : Int) (written : Text) :
    Decidable (IsNormalized red green blue written) := inferInstanceAs (Decidable (_ ∧ _))

theorem nearestChannel_eq_iff {n : Int} : nearestChannel n = n ↔ IsChannel n := by
  unfold nearestChannel IsChannel
  omega

theorem byte?_hex : ∀ n < 256, byte? (Text.hex 2 n) = some n := by
  decide +kernel

theorem byte?_channelHex (n : Int) : byte? (channelHex n) = some (nearestChannel n).toNat :=
  byte?_hex _ (by omega)

theorem exists_of_byte? {t : Text} {n : Nat} (h : byte? t = some n) :
    ∃ high low, t = [high, low] := by
  unfold byte? at h
  split at h
  · exact ⟨_, _, rfl⟩
  · exact nomatch h

/-- The notation of a color has the nearest channels. -/
theorem channels?_hex (red green blue : Int) : channels? (hex red green blue) =
    some (nearestChannel red, nearestChannel green, nearestChannel blue) := by
  have hred := byte?_channelHex red
  have hgreen := byte?_channelHex green
  have hblue := byte?_channelHex blue
  obtain ⟨r, r', hr⟩ := exists_of_byte? hred
  obtain ⟨g, g', hg⟩ := exists_of_byte? hgreen
  obtain ⟨b, b', hb⟩ := exists_of_byte? hblue
  have hnonneg : ∀ n, ((nearestChannel n).toNat : Int) = nearestChannel n := fun n => by
    unfold nearestChannel
    omega
  rw [hr] at hred
  rw [hg] at hgreen
  rw [hb] at hblue
  rw [hex, hr, hg, hb]
  simp [channels?, hred, hgreen, hblue, hnonneg]

theorem isNormalized_hex_iff {red green blue : Int} :
    IsNormalized red green blue (hex red green blue) ↔
      IsChannel red ∧ IsChannel green ∧ IsChannel blue := by
  refine and_iff_left_of_imp fun ⟨hred, hgreen, hblue⟩ => ?_
  rw [channels?_hex, nearestChannel_eq_iff.mpr hred, nearestChannel_eq_iff.mpr hgreen,
    nearestChannel_eq_iff.mpr hblue]

end Color

open Color

/-! ## Rounded channels -/

theorem roundHalfUp_eq_of_small {x : Binary64} {n : Int} (hx : x.toInt? = some n)
    (hn : n.natAbs < 2 ^ 52) : roundHalfUp x = .ok n := by
  have hfinite : x.isFinite := by
    cases x with
    | finite => rfl
    | _ => exact nomatch hx
  obtain ⟨m, hm⟩ := Except.exists_eq_ok (isOk_roundHalfUp hfinite)
  rw [hm, roundHalfUp_of_small hx hm hn]

/-- Rounding keeps a channel in the range or on its side of it, however large the channel is. -/
theorem roundHalfUp_channel {x : Binary64} {n m : Int} (hx : x.toInt? = some n)
    (hm : roundHalfUp x = .ok m) :
    nearestChannel m = nearestChannel n ∧ (IsChannel m ↔ IsChannel n) ∧ (IsChannel n → m = n) := by
  obtain hsmall | hlarge := Nat.lt_or_ge n.natAbs (2 ^ 52)
  · obtain rfl := roundHalfUp_of_small hx hm hsmall
    exact ⟨rfl, Iff.rfl, fun _ => rfl⟩
  · have hside := roundHalfUp_of_large hx hm hlarge
    unfold nearestChannel IsChannel
    split at hside <;> omega

/-! ## Parts of a value -/

/-- A step into a value: to an item of a list or to the value under a key of a map, whose keys are
told by their flat forms. -/
inductive ValueStep
  | item (index : Nat)
  | value (key : Text)

section Parts

variable [ColorNames]

/-- The part of a value to which the steps of a path lead. Of the values for one key the last one
stands there. -/
def Native.part? : Native → List ValueStep → Option Native
  | v, [] => some v
  | .list items _ _, .item index :: rest => items[index]?.bind (·.part? rest)
  | .map entries, .value key :: rest => (lastValue? key entries).bind (·.part? rest)
  | _, _ => none

/-- The part of a structured value to which the steps of a path lead. -/
def Structured.part? : Structured → List ValueStep → Option Structured
  | x, [] => some x
  | .list items _, .item index :: rest => items[index]?.bind (·.part? rest)
  | .map entries, .value key :: rest => (Keyed.get? key entries).bind (·.part? rest)
  | _, _ => none

/-- Parts that agree up to their forms lead to parts that do. -/
theorem bind_part?_of_forms {path : List ValueStep} {part : Option Native}
    {form : Option Structured}
    (hforms : part.map Native.structured = form.map .ok)
    (ih : ∀ {v : Native} {x : Structured}, v.structured = .ok x →
      (v.part? path).map Native.structured = (x.part? path).map .ok) :
    (part.bind (·.part? path)).map Native.structured = (form.bind (·.part? path)).map .ok := by
  cases part with
  | none =>
    rw [Option.map_eq_none_iff.mp hforms.symm]
    rfl
  | some v =>
    obtain ⟨x, rfl, hx⟩ := Option.map_eq_some_iff.mp hforms.symm
    exact ih hx.symm

/-- A value and its structured form have the same parts, up to the form: what a path leads to in the
one is the structured form of what it leads to in the other. -/
theorem structured_part? {v : Native} {x : Structured} (h : v.structured = .ok x)
    (path : List ValueStep) :
    (v.part? path).map Native.structured = (x.part? path).map .ok := by
  induction path generalizing v x with
  | nil => simp [Native.part?, Structured.part?, h]
  | cons step rest ih =>
    cases v with
    | null | boolean | string | number =>
      obtain rfl := Except.ok.inj h
      cases step <;> rfl
    | color =>
      obtain ⟨r, g, b, -, -, -, rfl⟩ := structuredColor_eq_ok_iff.mp h
      cases step <;> rfl
    | list items separator bracketed =>
      rw [Native.structured, structuredItems_eq_mapM, Except.bind_eq_ok] at h
      obtain ⟨xs, hxs, hx⟩ := h
      obtain rfl := Except.ok.inj hx
      rw [Except.mapM_eq_ok] at hxs
      cases step with
      | value key => rfl
      | item index =>
        refine bind_part?_of_forms ?_ ih
        rw [← List.getElem?_map, ← List.getElem?_map, hxs]
    | map entries =>
      rw [Native.structured, structuredEntries_eq_mapM, Except.bind_eq_ok] at h
      obtain ⟨pairs, hpairs, hx⟩ := h
      obtain rfl := Except.ok.inj hx
      cases step with
      | item index => rfl
      | value key => exact bind_part?_of_forms (lastValue?_map_of_formed hpairs key) ih
    | unsupported typeName => cases h

/-- Inside a value that has a structured form, a color with integral channels, whatever their size,
becomes a color whose notation has the nearest channels. Its integers are channels that the notation
has too exactly when those of the color are, and these are kept. -/
theorem structured_color_iff {v : Native} {x : Structured} (h : v.structured = .ok x)
    {path : List ValueStep} {red green blue alpha : Binary64}
    (hpart : v.part? path = some (.color red green blue alpha)) {r g b : Int}
    (hred : red.toInt? = some r) (hgreen : green.toInt? = some g) (hblue : blue.toInt? = some b) :
    ∃ r' g' b' written, x.part? path = some (.color r' g' b' (.ofBinary64 alpha) written) ∧
      channels? written = some (nearestChannel r, nearestChannel g, nearestChannel b) ∧
      (IsNormalized r' g' b' written ↔ IsChannel r ∧ IsChannel g ∧ IsChannel b) ∧
      (IsChannel r → r' = r) ∧ (IsChannel g → g' = g) ∧ (IsChannel b → b' = b) := by
  have hforms := structured_part? h path
  rw [hpart] at hforms
  obtain ⟨part, hx, hcolor⟩ := Option.map_eq_some_iff.mp hforms.symm
  obtain ⟨r', g', b', hr, hg, hb, rfl⟩ := structuredColor_eq_ok_iff.mp hcolor.symm
  obtain ⟨hrnear, hrin, hrkept⟩ := roundHalfUp_channel hred hr
  obtain ⟨hgnear, hgin, hgkept⟩ := roundHalfUp_channel hgreen hg
  obtain ⟨hbnear, hbin, hbkept⟩ := roundHalfUp_channel hblue hb
  refine ⟨r', g', b', _, hx, ?_, ?_, hrkept, hgkept, hbkept⟩
  · rw [channels?_hex, hrnear, hgnear, hbnear]
  · rw [isNormalized_hex_iff, hrin, hgin, hbin]

end Parts

section Samples

open CssColors

/-- A map with a color in a list; an earlier value for the same key is another color. -/
def sampleColors : Native :=
  .map [(.boolean true, .color (.ofInt 900) (.ofInt 0) (.ofInt 0) (.ofInt 1)),
    (.string "true".toText,
      .list [.null, .color (.ofInt 18) (.ofInt 0) (.ofInt 255) (.ofInt 1)] .comma false)]

/-- The color in the list keeps its channels. -/
theorem structured_color_sampleColors :
    ∃ x, sampleColors.structured = .ok x ∧
      ∃ written, x.part? [.value "true".toText, .item 1] =
          some (.color 18 0 255 (.ofBinary64 (.ofInt 1)) written) ∧
        IsNormalized 18 0 255 written := by
  obtain ⟨x, hx⟩ : ∃ x, sampleColors.structured = .ok x := Except.exists_eq_ok (by decide +kernel)
  have hpart : sampleColors.part? [.value "true".toText, .item 1] =
      some (.color (.ofInt 18) (.ofInt 0) (.ofInt 255) (.ofInt 1)) := rfl
  obtain ⟨r, g, b, written, hcolor, -, hnormal, hr, hg, hb⟩ :=
    structured_color_iff hx hpart (r := 18) (g := 0) (b := 255) (by decide +kernel)
      (by decide +kernel) (by decide +kernel)
  obtain rfl := hr (by decide)
  obtain rfl := hg (by decide)
  obtain rfl := hb (by decide)
  exact ⟨x, hx, written, hcolor, hnormal.mpr (by decide)⟩

/-- The integers of a color that is too red are not those of its notation. -/
theorem structured_color_tooRed :
    (Binary64.ofInt 300).toInt? = some 300 ∧ (Binary64.ofInt 0).toInt? = some 0 ∧
    (Native.color (.ofInt 300) (.ofInt 0) (.ofInt 0) (.ofInt 1)).structured =
      .ok (.color 300 0 0 (.ofBinary64 (.ofInt 1)) "#ff0000".toText) ∧
    ¬IsNormalized 300 0 0 "#ff0000".toText := by
  have hred : (Binary64.ofInt 300).toInt? = some 300 := by decide +kernel
  have hnone : (Binary64.ofInt 0).toInt? = some 0 := by decide +kernel
  have hround := roundHalfUp_eq_of_small hnone (by decide)
  refine ⟨hred, hnone, structuredColor_eq_ok_iff.mpr ?_, by decide⟩
  exact ⟨300, 0, 0, roundHalfUp_eq_of_small hred (by decide), hround, hround, rfl⟩

end Samples

end StyleVars
