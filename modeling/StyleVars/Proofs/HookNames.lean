import StyleVars.Extract.Preparation
import StyleVars.Proofs.KeyedLists
import StyleVars.Proofs.Outcomes
import Mathlib.Data.List.Basic
import Mathlib.Data.List.TakeWhile

/-!
# Names of hooks

The identifier of a hook tells the file and the declaration it is for (`hookIdentifier_inj`), its
signature gives it back, and the compiler is told of the hook by it (`head_hook`).
-/

namespace StyleVars

/-! ## Digits -/

theorem Text.isDigit_of_mem_ofNat {n : Nat} {c : CodePoint} (h : c ∈ Text.ofNat n) :
    c.isDigit := by
  obtain ⟨d, hd, rfl⟩ := List.mem_map.mp h
  exact Nat.isDigit_of_mem_toDigits (by decide) (by decide) hd

theorem Text.ofNat_injective : Function.Injective Text.ofNat := by
  intro m n h
  have hdigits : Nat.toDigits 10 m = Nat.toDigits 10 n :=
    List.map_injective_iff.mpr (fun _ _ heq => CodePoint.char.inj heq) h
  have hvalue := congrArg (Nat.ofDigitChars 10 · 0) hdigits
  simpa only [Nat.ofDigitChars_ten_toDigits] using hvalue

theorem isNameChar_of_isDigit {c : CodePoint} (h : c.isDigit) : isNameChar c := by
  cases c with
  | surrogate n => simp [CodePoint.isDigit, CodePoint.char?] at h
  | char c =>
    have hdigit : c.isDigit := h
    have hascii : (CodePoint.char c).toNat < 128 := by
      simp only [Char.isDigit, Bool.and_eq_true, decide_eq_true_eq] at hdigit
      exact Nat.lt_of_le_of_lt (UInt32.le_iff_toNat_le.mp hdigit.2) (by decide)
    simp [isNameChar, isWord, hascii, CodePoint.isAlphanum, CodePoint.char?, Char.isAlphanum,
      hdigit]

/-! ## Identifiers -/

theorem isNameChar_of_mem_hookIdentifier {file declaration : Nat} {c : CodePoint}
    (h : c ∈ hookIdentifier file declaration) : isNameChar c := by
  have hfile : ∀ c ∈ "sassvars-capture-f".toText, isNameChar c := by decide
  have hdeclaration : ∀ c ∈ "-d".toText, isNameChar c := by decide
  simp only [hookIdentifier, List.mem_append] at h
  rcases h with ((h | h) | h) | h
  · exact hfile c h
  · exact isNameChar_of_isDigit (Text.isDigit_of_mem_ofNat h)
  · exact hdeclaration c h
  · exact isNameChar_of_isDigit (Text.isDigit_of_mem_ofNat h)

/-- The digits of a number before a character that is none are told from what follows. -/
theorem takeWhile_isDigit_ofNat (n : Nat) {c : CodePoint} (hc : c.isDigit = false) (rest : Text) :
    (Text.ofNat n ++ c :: rest).takeWhile CodePoint.isDigit = Text.ofNat n := by
  rw [List.takeWhile_append_of_pos fun d hd => Text.isDigit_of_mem_ofNat hd,
    List.takeWhile_cons_of_neg (by simp [hc]), List.append_nil]

/-- Different declarations have different hooks. -/
theorem hookIdentifier_inj {i j i' j' : Nat} :
    hookIdentifier i j = hookIdentifier i' j' ↔ (i, j) = (i', j') := by
  constructor
  · intro h
    simp only [hookIdentifier, List.append_assoc, List.append_cancel_left_eq] at h
    have htext : "-d".toText = [CodePoint.char '-', CodePoint.char 'd'] := rfl
    have hdigits := congrArg (List.takeWhile CodePoint.isDigit) h
    simp only [htext, List.cons_append] at hdigits
    rw [takeWhile_isDigit_ofNat i (by decide), takeWhile_isDigit_ofNat i' (by decide)] at hdigits
    obtain rfl := Text.ofNat_injective hdigits
    simp only [List.append_cancel_left_eq] at h
    rw [Text.ofNat_injective h]
  · intro h
    obtain ⟨rfl, rfl⟩ := Prod.mk.inj h
    rfl

theorem normalizeName_hookIdentifier (file declaration : Nat) :
    normalizeName (hookIdentifier file declaration) = hookIdentifier file declaration := by
  have hdigits : ∀ n, ∀ c ∈ Text.ofNat n, c ≠ CodePoint.char '_' := by
    rintro n c hc rfl
    exact absurd (Text.isDigit_of_mem_ofNat hc) (by decide)
  have hfile : ∀ c ∈ "sassvars-capture-f".toText, c ≠ CodePoint.char '_' := by decide
  have hdeclaration : ∀ c ∈ "-d".toText, c ≠ CodePoint.char '_' := by decide
  refine (List.map_congr_left ?_).trans (List.map_id' _)
  intro c hc
  rw [if_neg]
  simp only [hookIdentifier, List.mem_append] at hc
  rcases hc with ((hc | hc) | hc) | hc
  · exact hfile c hc
  · exact hdigits _ c hc
  · exact hdeclaration c hc
  · exact hdigits _ c hc

/-! ## Signatures -/

theorem ofText?_hookSignature (file declaration : Nat) :
    Signature.ofText? (hookSignature file declaration) =
      some ⟨hookIdentifier file declaration, some "$value".toText⟩ := by
  have hhead : (hookIdentifier file declaration).head? = some (.char 's') := rfl
  have hstart : (hookSignature file declaration).dropWhile isBlank =
      hookSignature file declaration := rfl
  have hparen : "($value)".toText = CodePoint.char '(' :: "$value)".toText := rfl
  have hname : (hookSignature file declaration).takeWhile isNameChar =
      hookIdentifier file declaration := by
    rw [hookSignature, hparen, List.takeWhile_append_of_pos
      fun c hc => isNameChar_of_mem_hookIdentifier hc, List.takeWhile_cons_of_neg (by decide),
      List.append_nil]
  have hrest : (hookSignature file declaration).dropWhile isNameChar = "($value)".toText := by
    rw [hookSignature, hparen, List.dropWhile_append_of_pos
      fun c hc => isNameChar_of_mem_hookIdentifier hc, List.dropWhile_cons_of_neg (by decide)]
  rw [Signature.ofText?]
  simp only [hstart, hname, hrest, hhead]
  rfl

/-- The compiler is told of a hook by its identifier. -/
theorem head_hook (file declaration i j : Nat) :
    HostFunction.head (hookSignature file declaration) (.hook i j) =
      .ok ⟨hookIdentifier file declaration, ["$value".toText]⟩ := by
  rw [HostFunction.head, ofText?_hookSignature]
  · rfl
  · simp

/-! ## Hooks among the functions of a compilation -/

/-- The declaration of a file that a function is the hook of. -/
def HostFunction.hook? : HostFunction → Option (Nat × Nat)
  | .hook file declaration => some (file, declaration)
  | .custom _ => none

/-- A function of the caller, of which the compiler is not told by the name of a hook. -/
structure OwnFunction (entry : Text × HostFunction) : Prop where
  custom : entry.2.hook? = none
  name : ∀ {head}, HostFunction.head entry.1 entry.2 = .ok head →
    ∀ file declaration, normalizeName head.name ≠ hookIdentifier file declaration

/-- A function with the name that its signature gives it. -/
def named (entry : Text × HostFunction) : Except Failure (Text × Text × HostFunction) :=
  (signatureName entry.1).map (·, entry)

theorem named_eq_ok_iff {entry : Text × HostFunction} {y : Text × Text × HostFunction} :
    named entry = .ok y ↔ signatureName entry.1 = .ok y.1 ∧ entry = y.2 := by
  obtain ⟨name, entry'⟩ := y
  rw [named, Except.map_eq_ok]
  simp

/-- The functions of a compilation are put one after the other under their names. -/
theorem hostFunctions_eq (files : List SheetFile) (custom : Keyed Text HostFunction) :
    hostFunctions files custom =
      ((files.flatMap SheetFile.hooks ++ custom).mapM named).map
        fun entries => (Keyed.ofList entries).map Prod.snd := by
  -- the induction is on the functions that are still to be put
  have hfold : ∀ (xs : List (Text × HostFunction)) (acc : Keyed Text (Text × HostFunction)),
      xs.foldlM (fun (merged : Keyed Text (Text × HostFunction)) (x : Text × HostFunction) => do
        let name ← signatureName x.1
        return Keyed.put name (x.1, x.2) merged) acc =
          (xs.mapM named).map (Keyed.putAll acc) := by
    intro xs
    induction xs with
    | nil => exact fun _ => rfl
    | cons x xs ih =>
      intro acc
      rw [List.foldlM_cons, List.mapM_cons]
      cases hname : signatureName x.1 with
      | error e => simp [named, hname, bind, Except.bind, Except.map]
      | ok name =>
        have hnamed : named x = .ok (name, x) := named_eq_ok_iff.mpr ⟨hname, rfl⟩
        rw [hnamed]
        refine (ih _).trans ?_
        cases xs.mapM named <;> rfl
  have hall := hfold (files.flatMap SheetFile.hooks ++ custom) []
  rw [hostFunctions]
  refine (congrArg (Except.map (List.map Prod.snd)) hall).trans ?_
  cases (files.flatMap SheetFile.hooks ++ custom).mapM named <;> rfl

section Merged

variable {files : List SheetFile} {custom functions : Keyed Text HostFunction}
  {entry : Text × HostFunction}

/-- What is kept of all functions once they have their names. -/
theorem hostFunctions_named (h : hostFunctions files custom = .ok functions) :
    ∃ entries : List (Text × Text × HostFunction),
      entries.map Prod.snd = files.flatMap SheetFile.hooks ++ custom ∧
      (∀ x ∈ entries, signatureName x.2.1 = .ok x.1) ∧
      functions = (Keyed.ofList entries).map Prod.snd := by
  rw [hostFunctions_eq, Except.map_eq_ok] at h
  obtain ⟨entries, hentries, rfl⟩ := h
  refine ⟨entries, ?_, ?_, rfl⟩
  · exact Except.map_of_mapM_eq_ok (fun x y hxy => (named_eq_ok_iff.mp hxy).2.symm) hentries
  · intro x hx
    rw [Except.mapM_eq_ok] at hentries
    obtain ⟨y, -, hy⟩ := List.mem_map.mp (hentries ▸ List.mem_map_of_mem hx)
    obtain ⟨hsignature, rfl⟩ := named_eq_ok_iff.mp hy
    exact hsignature

/-- A function is kept when none after it has its name. -/
theorem mem_hostFunctions_iff (h : hostFunctions files custom = .ok functions) :
    entry ∈ functions ↔
      ∃ before after, files.flatMap SheetFile.hooks ++ custom = before ++ entry :: after ∧
        ∀ later ∈ after, signatureName later.1 ≠ signatureName entry.1 := by
  obtain ⟨entries, hall, hname, rfl⟩ := hostFunctions_named h
  have hdiffer : ∀ x ∈ entries, ∀ y ∈ entries,
      (signatureName x.2.1 ≠ signatureName y.2.1 ↔ x.1 ≠ y.1) := by
    intro x hx y hy
    rw [hname x hx, hname y hy, ne_eq, Except.ok.injEq]
  rw [List.mem_map, ← hall]
  constructor
  · rintro ⟨kept, hkept, rfl⟩
    obtain ⟨before, after, rfl, hafter⟩ := Keyed.mem_ofList_iff.mp hkept
    refine ⟨before.map Prod.snd, after.map Prod.snd, by simp, ?_⟩
    intro later hlater
    obtain ⟨x, hx, rfl⟩ := List.mem_map.mp hlater
    exact (hdiffer x (by simp [hx]) kept (by simp)).mpr (hafter x hx)
  · rintro ⟨before, after, hsplit, hafter⟩
    obtain ⟨before', rest, rfl, -, hrest⟩ := List.map_eq_append_iff.mp hsplit
    obtain ⟨kept, after', rfl, rfl, rfl⟩ := List.map_eq_cons_iff.mp hrest
    refine ⟨kept, Keyed.mem_ofList_iff.mpr ⟨before', after', rfl, ?_⟩, rfl⟩
    intro later hlater
    exact (hdiffer later (by simp [hlater]) kept (by simp)).mp
      (hafter later.2 (List.mem_map_of_mem hlater))

/-- The functions of a compilation are hooks of the files or functions of the caller. -/
theorem mem_hostFunctions (h : hostFunctions files custom = .ok functions)
    (hentry : entry ∈ functions) : entry ∈ files.flatMap SheetFile.hooks ++ custom := by
  obtain ⟨before, after, hsplit, -⟩ := (mem_hostFunctions_iff h).mp hentry
  rw [hsplit]
  simp

end Merged

/-- The compiler is told of a function by the identifier of a hook exactly when it is that hook. -/
theorem normalizeName_head_iff {files : List SheetFile} {custom functions : Keyed Text HostFunction}
    (hown : ∀ entry ∈ custom, OwnFunction entry)
    (hfunctions : hostFunctions files custom = .ok functions) {entry : Text × HostFunction}
    (hentry : entry ∈ functions) {head : FunctionHead}
    (hhead : HostFunction.head entry.1 entry.2 = .ok head) (file declaration : Nat) :
    normalizeName head.name = hookIdentifier file declaration ↔
      entry.2.hook? = some (file, declaration) := by
  rcases List.mem_append.mp (mem_hostFunctions hfunctions hentry) with hhook | hcustom
  · obtain ⟨f, -, hmem⟩ := List.mem_flatMap.mp hhook
    obtain ⟨i, -, rfl⟩ := List.mem_mapIdx.mp hmem
    rw [head_hook] at hhead
    obtain rfl := Except.ok.inj hhead
    rw [normalizeName_hookIdentifier, hookIdentifier_inj, HostFunction.hook?, Option.some.injEq]
  · obtain ⟨hnone, hname⟩ := hown entry hcustom
    rw [hnone]
    simp [hname hhead file declaration]

end StyleVars
