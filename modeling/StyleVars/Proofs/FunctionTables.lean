import StyleVars.Proofs.HookNames
import StyleVars.Proofs.WrittenParts
import Mathlib.Data.List.Nodup

/-!
# The table of functions

A signature is a name with or without parameters between parentheses and with white space around
both (`Signature.ofText?_eq_some_iff`). The table of a compilation has one function for each name:
the last one of the caller, and the hook of a declaration where the caller has none
(`hostFunctions_spec`).
-/

namespace StyleVars

/-! ## Signatures as they are written -/

/-- The name of a function: word characters and hyphens, the first of them a hyphen, an underscore
or an ASCII letter. -/
structure IsFunctionName (name : Text) : Prop where
  start : ∃ c ∈ name.head?, isNameStart c
  chars : ∀ c ∈ name, isNameChar c

/-- The texts that are signatures: white space may stand before and behind the name, and behind the
parentheses. -/
inductive Signature.Written : Text → Signature → Prop
  | bare {before name after : Text} (hbefore : ∀ c ∈ before, isBlank c)
      (hname : IsFunctionName name) (hafter : ∀ c ∈ after, isBlank c) :
      Written (before ++ (name ++ after)) ⟨name, none⟩
  | withParameters {before name between parameters after : Text}
      (hbefore : ∀ c ∈ before, isBlank c) (hname : IsFunctionName name)
      (hbetween : ∀ c ∈ between, isBlank c) (hafter : ∀ c ∈ after, isBlank c) :
      Written (before ++ (name ++ (between ++ (.char '(' :: (parameters ++ [.char ')']) ++ after))))
        ⟨name, some parameters⟩

/-- A text that is the signature of a function. -/
def IsSignature (t : Text) : Prop := ∃ s, Signature.Written t s

theorem IsFunctionName.ne_nil {name : Text} (h : IsFunctionName name) : name ≠ [] := by
  rintro rfl
  obtain ⟨c, hc, -⟩ := h.start
  exact nomatch hc

/-- A name is told from what is behind it, unless that goes on with a character of names. -/
theorem IsFunctionName.span {name rest : Text} (h : IsFunctionName name)
    (hrest : ∀ c ∈ rest.head?, isNameChar c = false) :
    (name ++ rest).takeWhile isNameChar = name ∧ (name ++ rest).dropWhile isNameChar = rest := by
  rw [List.takeWhile_append_of_pos h.chars, List.dropWhile_append_of_pos h.chars]
  cases rest with
  | nil => simp
  | cons c rest =>
    have hc : ¬isNameChar c := by simp [hrest c rfl]
    rw [List.takeWhile_cons_of_neg hc, List.dropWhile_cons_of_neg hc, List.append_nil]
    exact ⟨rfl, rfl⟩

/-- White space before a name is skipped. -/
theorem IsFunctionName.dropWhile_isBlank {name before : Text} (h : IsFunctionName name)
    (hbefore : ∀ c ∈ before, isBlank c) (rest : Text) :
    (before ++ (name ++ rest)).dropWhile isBlank = name ++ rest := by
  obtain ⟨c, chars, rfl⟩ := List.exists_cons_of_ne_nil h.ne_nil
  have hc : ¬isBlank c := by
    intro hblank
    have hchar := h.chars c List.mem_cons_self
    rw [not_isNameChar_of_isBlank hblank] at hchar
    exact Bool.false_ne_true hchar
  rw [List.dropWhile_append_of_pos hbefore, List.cons_append, List.dropWhile_cons_of_neg hc]

namespace Signature

/-- A text that starts with a name is read by what is behind the name, white space apart. -/
theorem ofText?_append {before name rest : Text} (hbefore : ∀ c ∈ before, isBlank c)
    (hname : IsFunctionName name) (hrest : ∀ c ∈ rest.head?, isNameChar c = false) :
    ofText? (before ++ (name ++ rest)) =
      match Text.strip rest with
      | [] => some ⟨name, none⟩
      | '(' :: inner =>
        if inner.getLast? = some (.char ')') then some ⟨name, some inner.dropLast⟩ else none
      | _ => none := by
  obtain ⟨htake, hdrop⟩ := hname.span hrest
  obtain ⟨c, hc, hstart⟩ := hname.start
  have hhead : (name.head?.map isNameStart).getD false = true := by
    rw [Option.mem_def.mp hc]
    exact hstart
  rw [ofText?, hname.dropWhile_isBlank hbefore, htake, hdrop]
  exact if_pos hhead

theorem ofText?_of_written {t : Text} {s : Signature} (h : Written t s) : ofText? t = some s := by
  cases h with
  | @bare before name after hbefore hname hafter =>
    have hrest : ∀ c ∈ after.head?, isNameChar c = false := fun c hc =>
      not_isNameChar_of_isBlank (hafter c (List.mem_of_mem_head? hc))
    have hstrip : Text.strip after = [] := by
      rw [← List.nil_append after, Text.strip_append_of_blank hafter]
      rfl
    rw [ofText?_append hbefore hname hrest, hstrip]
  | @withParameters before name between parameters after hbefore hname hbetween hafter =>
    let behind : Text := .char '(' :: (parameters ++ [.char ')']) ++ after
    have hrest : ∀ c ∈ (between ++ behind).head?, isNameChar c = false := by
      intro c hc
      cases between with
      | nil =>
        obtain rfl := Option.some.inj hc
        decide
      | cons b between =>
        obtain rfl := Option.some.inj hc
        exact not_isNameChar_of_isBlank (hbetween b List.mem_cons_self)
    have hstrip : Text.strip (between ++ behind) = .char '(' :: (parameters ++ [.char ')']) := by
      rw [Text.strip_blank_append hbetween, Text.strip_append_of_blank hafter]
      refine Text.strip_eq_self (fun c hc => ?_) fun c hc => ?_
      · obtain rfl := Option.some.inj hc
        decide
      · rw [← List.cons_append, List.getLast?_concat] at hc
        obtain rfl := Option.some.inj hc
        decide
    rw [ofText?_append hbefore hname hrest, hstrip]
    simp

theorem written_of_ofText? {t : Text} {s : Signature} (h : ofText? t = some s) : Written t s := by
  unfold ofText? at h
  let start := t.dropWhile isBlank
  have hstart : t.takeWhile isBlank ++
      (start.takeWhile isNameChar ++ start.dropWhile isNameChar) = t := by
    rw [List.takeWhile_append_dropWhile, List.takeWhile_append_dropWhile]
  have hbefore : ∀ c ∈ t.takeWhile isBlank, isBlank c := List.all_eq_true.mp List.all_takeWhile
  obtain ⟨between, after, hrest, hbetween, hafter⟩ :=
    Text.exists_strip (start.dropWhile isNameChar)
  dsimp only at h
  split at h
  case isFalse => exact nomatch h
  case isTrue hhead =>
    have hname : IsFunctionName (start.takeWhile isNameChar) := by
      refine ⟨?_, List.all_eq_true.mp List.all_takeWhile⟩
      cases hfirst : (start.takeWhile isNameChar).head? with
      | none => rw [hfirst] at hhead; exact nomatch hhead
      | some c => rw [hfirst] at hhead; exact ⟨c, rfl, hhead⟩
    split at h
    · rename_i hstrip
      obtain rfl := Option.some.inj h
      have hblank : ∀ c ∈ between ++ after, isBlank c := fun c hc =>
        (List.mem_append.mp hc).elim (hbetween c) (hafter c)
      have hwritten := Written.bare hbefore hname hblank
      rw [hstrip, List.nil_append] at hrest
      rw [← hrest, hstart] at hwritten
      exact hwritten
    · rename_i inner hstrip
      split_ifs at h with hlast
      obtain rfl := Option.some.inj h
      obtain ⟨parameters, rfl⟩ := List.getLast?_eq_some_iff.mp hlast
      have hwritten : Written _ ⟨start.takeWhile isNameChar, some parameters⟩ :=
        .withParameters hbefore hname hbetween hafter
      rw [hstrip] at hrest
      rw [← hrest, hstart] at hwritten
      rw [List.dropLast_concat]
      exact hwritten
    · exact nomatch h

/-- A text is read as a signature exactly when it is written as one. -/
theorem ofText?_eq_some_iff {t : Text} {s : Signature} : ofText? t = some s ↔ Written t s :=
  ⟨written_of_ofText?, ofText?_of_written⟩

end Signature

/-! ## Names in signatures -/

theorem signatureName_eq_ok_iff {t name : Text} :
    signatureName t = .ok name ↔ ∃ s, Signature.Written t s ∧ normalizeName s.name = name := by
  unfold signatureName
  simp only [← Signature.ofText?_eq_some_iff]
  cases Signature.ofText? t with
  | none => simp
  | some s => simp

theorem signatureName_eq_error_iff {t : Text} {e : Failure} :
    signatureName t = .error e ↔ ¬IsSignature t ∧ e = .invalidSignature t := by
  unfold signatureName IsSignature
  simp only [← Signature.ofText?_eq_some_iff]
  cases Signature.ofText? t with
  | none => simp [eq_comm]
  | some s => simp

theorem isOk_signatureName_iff {t : Text} : (signatureName t).isOk ↔ IsSignature t := by
  cases hname : signatureName t with
  | error e =>
    have hnot := (signatureName_eq_error_iff.mp hname).1
    exact ⟨fun h => Bool.noConfusion h, fun h => absurd h hnot⟩
  | ok name =>
    obtain ⟨s, hs, -⟩ := signatureName_eq_ok_iff.mp hname
    exact ⟨fun _ => ⟨s, hs⟩, fun _ => rfl⟩

theorem signatureName_hookSignature (i j : Nat) :
    signatureName (hookSignature i j) = .ok (hookIdentifier i j) := by
  rw [signatureName, ofText?_hookSignature]
  exact congrArg _ (normalizeName_hookIdentifier i j)

/-! ## The functions of a compilation -/

section Table

variable {files : List SheetFile} {custom functions : Keyed Text HostFunction}

/-- A hook of the files is that of a declaration. -/
theorem mem_hooks {entry : Text × HostFunction} (h : entry ∈ files.flatMap SheetFile.hooks) :
    ∃ (k : Nat) (file : SheetFile) (j : Nat), files[k]? = some file ∧
      j < file.declarations.length ∧
        entry = (hookSignature file.index j, .hook file.index j) := by
  obtain ⟨file, hfile, hentry⟩ := List.mem_flatMap.mp h
  obtain ⟨j, hj, rfl⟩ := List.mem_mapIdx.mp hentry
  obtain ⟨k, hk⟩ := List.mem_iff_getElem?.mp hfile
  exact ⟨k, file, j, hk, hj, rfl⟩

/-- The hook of each declaration is among those of the files. -/
theorem hook_mem {k j : Nat} {file : SheetFile} (hfile : files[k]? = some file)
    (hj : j < file.declarations.length) :
    (hookSignature file.index j, .hook file.index j) ∈ files.flatMap SheetFile.hooks :=
  List.mem_flatMap.mpr ⟨file, List.mem_of_getElem? hfile, List.mem_mapIdx.mpr ⟨j, hj, rfl⟩⟩

/-- The table cannot be built when a signature of the caller is none, and the first of these is
blamed. -/
theorem hostFunctions_eq_error_iff {e : Failure} :
    hostFunctions files custom = .error e ↔
      ∃ before entry after, custom = before ++ entry :: after ∧
        (∀ x ∈ before, IsSignature x.1) ∧ ¬IsSignature entry.1 ∧
          e = .invalidSignature entry.1 := by
  have hnamed : ∀ entry e, named entry = .error e ↔ signatureName entry.1 = .error e := by
    intro entry e
    rw [named]
    cases signatureName entry.1 <;> simp [Except.map]
  have hok : ∀ entry, (named entry).isOk ↔ IsSignature entry.1 := by
    intro entry
    rw [← isOk_signatureName_iff, named]
    cases signatureName entry.1 <;> rfl
  have herror : hostFunctions files custom = .error e ↔
      (files.flatMap SheetFile.hooks ++ custom).mapM named = .error e := by
    rw [hostFunctions_eq]
    cases (files.flatMap SheetFile.hooks ++ custom).mapM named <;> simp [Except.map]
  have hhook : ∀ entry ∈ files.flatMap SheetFile.hooks, IsSignature entry.1 := by
    intro entry hentry
    obtain ⟨k, file, j, -, -, rfl⟩ := mem_hooks hentry
    rw [← isOk_signatureName_iff, signatureName_hookSignature]
    rfl
  rw [herror, Except.mapM_eq_error]
  simp only [hnamed, hok, signatureName_eq_error_iff]
  constructor
  · rintro ⟨before, entry, after, hsplit, ⟨hnot, he⟩, hbefore⟩
    rcases List.append_eq_append_iff.mp hsplit with ⟨before', rfl, hcustom⟩ | ⟨rest, hhooks, hrest⟩
    · exact ⟨before', entry, after, hcustom, fun x hx => hbefore x (by simp [hx]), hnot, he⟩
    · cases rest with
      | nil => exact ⟨[], entry, after, hrest.symm, by simp, hnot, he⟩
      | cons x rest =>
        obtain ⟨rfl, -⟩ := List.cons.inj hrest
        exact absurd (hhook entry (by simp [hhooks])) hnot
  · rintro ⟨before, entry, after, rfl, hbefore, hnot, he⟩
    refine ⟨files.flatMap SheetFile.hooks ++ before, entry, after, by simp, ⟨hnot, he⟩, ?_⟩
    intro x hx
    exact (List.mem_append.mp hx).elim (hhook x) (hbefore x)

/-- The table is built exactly when all signatures of the caller are signatures. -/
theorem isOk_hostFunctions_iff :
    (hostFunctions files custom).isOk ↔ ∀ entry ∈ custom, IsSignature entry.1 := by
  constructor
  · intro hok entry hentry
    obtain ⟨functions, hfunctions⟩ := Except.exists_eq_ok hok
    obtain ⟨entries, hall, hname, -⟩ := hostFunctions_named hfunctions
    obtain ⟨x, hx, rfl⟩ : ∃ x ∈ entries, x.2 = entry := by
      rw [← List.mem_map, hall]
      exact List.mem_append_right _ hentry
    rw [← isOk_signatureName_iff, hname x hx]
    rfl
  · intro hvalid
    cases h : hostFunctions files custom with
    | ok functions => rfl
    | error e =>
      obtain ⟨before, entry, after, rfl, -, hnot, -⟩ := hostFunctions_eq_error_iff.mp h
      exact absurd (hvalid entry (by simp)) hnot

/-- All functions of the table have names, and different ones. -/
theorem exists_names_hostFunctions (h : hostFunctions files custom = .ok functions) :
    ∃ names : List Text, functions.map (fun entry => signatureName entry.1) = names.map .ok ∧
      names.Nodup := by
  obtain ⟨entries, -, hname, rfl⟩ := hostFunctions_named h
  refine ⟨Keyed.keys (Keyed.ofList entries), ?_, Keyed.nodup_ofList entries⟩
  rw [Keyed.keys, List.map_map, List.map_map]
  refine List.map_congr_left fun x hx => ?_
  obtain ⟨before, after, rfl, -⟩ := Keyed.mem_ofList_iff.mp hx
  exact hname x (by simp)

/-- One function of the table has a given name at most. -/
theorem eq_of_signatureName_eq (h : hostFunctions files custom = .ok functions)
    {x y : Text × HostFunction} (hx : x ∈ functions) (hy : y ∈ functions)
    (hname : signatureName x.1 = signatureName y.1) : x = y := by
  obtain ⟨names, hnames, hnodup⟩ := exists_names_hostFunctions h
  have hdiffer : (functions.map fun entry => signatureName entry.1).Nodup := by
    rw [hnames]
    exact List.Nodup.map (fun _ _ => Except.ok.inj) hnodup
  exact List.inj_on_of_nodup_map hdiffer hx hy hname

/-- Each name that a hook or a function of the caller has is in the table. -/
theorem exists_mem_hostFunctions (h : hostFunctions files custom = .ok functions)
    {x : Text × HostFunction} (hx : x ∈ files.flatMap SheetFile.hooks ++ custom) :
    ∃ entry ∈ functions, signatureName entry.1 = signatureName x.1 := by
  obtain ⟨entries, hall, hname, rfl⟩ := hostFunctions_named h
  rw [← hall] at hx
  obtain ⟨e, he, rfl⟩ := List.mem_map.mp hx
  have hkey : e.1 ∈ Keyed.keys (Keyed.ofList entries) := by
    rw [Keyed.keys_ofList, Keyed.mem_foldl_insertNew]
    exact .inr (List.mem_map_of_mem he)
  obtain ⟨kept, hkept, heq⟩ := List.mem_map.mp hkey
  obtain ⟨before, after, rfl, -⟩ := Keyed.mem_ofList_iff.mp hkept
  refine ⟨kept.2, List.mem_map_of_mem hkept, ?_⟩
  rw [hname kept (by simp), hname e he, heq]

/-- The last function of the caller with a name is the one of the table. -/
theorem mem_hostFunctions_of_last (h : hostFunctions files custom = .ok functions)
    {before after : Keyed Text HostFunction} {entry : Text × HostFunction}
    (hcustom : custom = before ++ entry :: after)
    (hafter : ∀ later ∈ after, signatureName later.1 ≠ signatureName entry.1) :
    entry ∈ functions := by
  rw [mem_hostFunctions_iff h, hcustom]
  exact ⟨files.flatMap SheetFile.hooks ++ before, after, by simp, hafter⟩

/-- A function of the table is a hook whose name the caller has not, or the last one of the caller
with its name. -/
theorem mem_hostFunctions_cases (h : hostFunctions files custom = .ok functions)
    {entry : Text × HostFunction} (hentry : entry ∈ functions) :
    (entry ∈ files.flatMap SheetFile.hooks ∧
      ∀ x ∈ custom, signatureName x.1 ≠ signatureName entry.1) ∨
    ∃ before after, custom = before ++ entry :: after ∧
      ∀ later ∈ after, signatureName later.1 ≠ signatureName entry.1 := by
  obtain ⟨before, after, hsplit, hafter⟩ := (mem_hostFunctions_iff h).mp hentry
  rcases List.append_eq_append_iff.mp hsplit with ⟨before', rfl, hcustom⟩ | ⟨rest, hhooks, hrest⟩
  · exact .inr ⟨before', after, hcustom, hafter⟩
  · cases rest with
    | nil => exact .inr ⟨[], after, hrest.symm, hafter⟩
    | cons x rest =>
      obtain ⟨rfl, rfl⟩ := List.cons.inj hrest
      exact .inl ⟨by simp [hhooks], fun x hx => hafter x (List.mem_append_right _ hx)⟩

/-- Building the table of functions fails exactly when the caller has a signature that is none, and
blames the first of them. Otherwise different functions have different names and signatures; the
name of the hook of each declaration is that of one function, which is the hook unless the caller
has the name; each name of the caller is that of the last function it has given it to; and there are
no other functions. -/
theorem hostFunctions_spec
    (hnumbered : ∀ (i : Nat) (file : SheetFile), files[i]? = some file → file.index = i) :
    (∀ e, hostFunctions files custom = .error e ↔
      ∃ before entry after, custom = before ++ entry :: after ∧
        (∀ x ∈ before, IsSignature x.1) ∧ ¬IsSignature entry.1 ∧
          e = .invalidSignature entry.1 ∧ e.family = .value) ∧
    ((hostFunctions files custom).isOk ↔ ∀ entry ∈ custom, IsSignature entry.1) ∧
    ∀ functions, hostFunctions files custom = .ok functions →
      (∃ names : List Text, functions.map (fun entry => signatureName entry.1) = names.map .ok ∧
        names.Nodup) ∧
      (Keyed.keys functions).Nodup ∧
      (∀ i file j, files[i]? = some file → j < file.declarations.length →
        ∃ entry ∈ functions, signatureName entry.1 = .ok (hookIdentifier i j) ∧
          (∀ other ∈ functions, signatureName other.1 = .ok (hookIdentifier i j) →
            other = entry) ∧
          ((∀ x ∈ custom, signatureName x.1 ≠ .ok (hookIdentifier i j)) →
            entry = (hookSignature i j, .hook i j))) ∧
      (∀ before entry after, custom = before ++ entry :: after →
        (∀ later ∈ after, signatureName later.1 ≠ signatureName entry.1) →
          ∀ x, x ∈ functions ∧ signatureName x.1 = signatureName entry.1 ↔ x = entry) ∧
      ∀ entry ∈ functions,
        (∃ i file j, files[i]? = some file ∧ j < file.declarations.length ∧
          entry = (hookSignature i j, .hook i j) ∧
          ∀ x ∈ custom, signatureName x.1 ≠ .ok (hookIdentifier i j)) ∨
        ∃ before after, custom = before ++ entry :: after ∧
          ∀ later ∈ after, signatureName later.1 ≠ signatureName entry.1 := by
  have hmem : ∀ {entry}, entry ∈ files.flatMap SheetFile.hooks →
      ∃ (i : Nat) (file : SheetFile) (j : Nat), files[i]? = some file ∧
        j < file.declarations.length ∧ entry = (hookSignature i j, .hook i j) := by
    intro entry hentry
    obtain ⟨i, file, j, hfile, hj, rfl⟩ := mem_hooks hentry
    rw [hnumbered i file hfile]
    exact ⟨i, file, j, hfile, hj, rfl⟩
  refine ⟨?_, isOk_hostFunctions_iff, fun functions h =>
    ⟨exists_names_hostFunctions h, ?_, ?_, ?_, ?_⟩⟩
  · intro e
    rw [hostFunctions_eq_error_iff]
    constructor
    · rintro ⟨before, entry, after, hcustom, hbefore, hnot, rfl⟩
      exact ⟨before, entry, after, hcustom, hbefore, hnot, rfl, rfl⟩
    · rintro ⟨before, entry, after, hcustom, hbefore, hnot, he, -⟩
      exact ⟨before, entry, after, hcustom, hbefore, hnot, he⟩
  · obtain ⟨names, hnames, hnodup⟩ := exists_names_hostFunctions h
    refine List.Nodup.of_map signatureName ?_
    rw [Keyed.keys, List.map_map]
    exact hnames ▸ List.Nodup.map (fun _ _ => Except.ok.inj) hnodup
  · intro i file j hfile hj
    have hhook := hook_mem hfile hj
    rw [hnumbered i file hfile] at hhook
    obtain ⟨entry, hentry, hname⟩ := exists_mem_hostFunctions h (List.mem_append_left _ hhook)
    rw [signatureName_hookSignature] at hname
    refine ⟨entry, hentry, hname, fun other hother heq => ?_, fun hfree => ?_⟩
    · exact eq_of_signatureName_eq h hother hentry (heq.trans hname.symm)
    · rcases List.mem_append.mp (mem_hostFunctions h hentry) with hin | hin
      · obtain ⟨i', file', j', -, -, rfl⟩ := hmem hin
        rw [signatureName_hookSignature] at hname
        obtain ⟨rfl, rfl⟩ := Prod.mk.inj (hookIdentifier_inj.mp (Except.ok.inj hname))
        rfl
      · exact absurd hname (hfree entry hin)
  · intro before entry after hcustom hafter x
    have hentry := mem_hostFunctions_of_last h hcustom hafter
    constructor
    · rintro ⟨hx, hname⟩
      exact eq_of_signatureName_eq h hx hentry hname
    · rintro rfl
      exact ⟨hentry, rfl⟩
  · intro entry hentry
    rcases mem_hostFunctions_cases h hentry with ⟨hhook, hfree⟩ | hlast
    · obtain ⟨i, file, j, hfile, hj, rfl⟩ := hmem hhook
      rw [signatureName_hookSignature] at hfree
      exact .inl ⟨i, file, j, hfile, hj, rfl, hfree⟩
    · exact .inr hlast

end Table

/-- Two files with a declaration each. -/
def numberedSheets : List SheetFile :=
  [.ofSource "/b.scss".toText 0 "$a: 1;\n".toText,
    .ofSource "/main.scss".toText 1 "$a: 2;\n".toText]

/-- Functions of a caller, one of them with the name of a hook and two with one name. -/
def sampleFunctions : Keyed Text HostFunction :=
  [(" sassvars_capture-f0_d0\n".toText, .custom (.plain ["value".toText])),
    ("double($n)".toText, .custom (.plain ["n".toText])),
    ("double ".toText, .custom .variadic)]

theorem hostFunctions_sampleFunctions :
    (∀ (i : Nat) (file : SheetFile), numberedSheets[i]? = some file → file.index = i) ∧
    ∃ functions, hostFunctions numberedSheets sampleFunctions = .ok functions ∧
      (" sassvars_capture-f0_d0\n".toText, .custom (.plain ["value".toText])) ∈ functions ∧
      (hookSignature 1 0, .hook 1 0) ∈ functions ∧
      ("double ".toText, .custom .variadic) ∈ functions ∧
      ("double($n)".toText, .custom (.plain ["n".toText])) ∉ functions := by
  have hnumbered : ∀ (i : Nat) (file : SheetFile), numberedSheets[i]? = some file →
      file.index = i := by
    intro i file hfile
    match i with
    | 0 => exact Option.some.inj hfile ▸ rfl
    | 1 => exact Option.some.inj hfile ▸ rfl
    | i + 2 => exact nomatch hfile
  obtain ⟨-, hok, hspec⟩ := @hostFunctions_spec numberedSheets sampleFunctions hnumbered
  have hvalid : ∀ entry ∈ sampleFunctions, IsSignature entry.1 := by
    have hread : ∀ entry ∈ sampleFunctions, (signatureName entry.1).isOk := by decide +kernel
    exact fun entry hentry => isOk_signatureName_iff.mp (hread entry hentry)
  obtain ⟨functions, hfunctions⟩ := Except.exists_eq_ok (hok.mpr hvalid)
  obtain ⟨-, -, hhooks, hlast, -⟩ := hspec functions hfunctions
  -- names are compared by what the signatures give, since failures cannot be compared
  have hother : ∀ later ∈ sampleFunctions.drop 1, (signatureName later.1).toOption ≠
      (signatureName " sassvars_capture-f0_d0\n".toText).toOption := by
    decide +kernel
  have hnone : ∀ x ∈ sampleFunctions,
      (signatureName x.1).toOption ≠ some (hookIdentifier 1 0) := by
    decide +kernel
  have hcapture := hlast [] _ (sampleFunctions.drop 1) rfl fun later hlater heq =>
    hother later hlater (congrArg Except.toOption heq)
  have hdouble := hlast (sampleFunctions.take 2) _ [] rfl (by simp)
  refine ⟨hnumbered, functions, hfunctions, ((hcapture _).mpr rfl).1, ?_,
    ((hdouble _).mpr rfl).1, ?_⟩
  · obtain ⟨entry, hentry, -, -, hfree⟩ := hhooks 1 _ 0 rfl (by decide +kernel)
    rw [← hfree fun x hx heq => hnone x hx (congrArg Except.toOption heq)]
    exact hentry
  · intro hmem
    have heq := (hdouble _).mp ⟨hmem, by rfl⟩
    exact absurd (Prod.mk.inj heq).1 (by decide)

end StyleVars
