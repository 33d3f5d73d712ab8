import StyleVars.Proofs.CompilerRuns
import StyleVars.Proofs.IncludedFiles

/-!
# The declarations in a payload

A payload lists for each variable the declarations whose hooks took a value, file by file and inside
of a file in the order of the source, each of them once (`declarationsFor_collectVariables`).
-/

namespace StyleVars

/-! ## Declarations with their hooks -/

/-- A declaration of a file and its number there, which its hook is for. -/
structure HookedDeclaration where
  file : SheetFile
  number : Nat
  declaration : Declaration

namespace HookedDeclaration

/-- The file and the declaration as the hook knows them. -/
def hook (x : HookedDeclaration) : Nat × Nat := (x.file.index, x.number)

/-- The identifier of the hook. -/
def identifier (x : HookedDeclaration) : Text := hookIdentifier x.file.index x.number

/-- The line that calls the hook. -/
def call (x : HookedDeclaration) : Text := hookCall x.file.index x.number x.declaration.name

end HookedDeclaration

/-- The declarations of files, file by file in the order of the source. -/
def hookedDeclarations (files : List SheetFile) : List HookedDeclaration :=
  files.flatMap fun file => file.declarations.mapIdx fun i d => ⟨file, i, d⟩

/-- Where and how a declaration of a file declares its variable. -/
def Provenance.ofDeclaration (file : Text) (d : Declaration) : Provenance :=
  ⟨d.expression, d.flags, file, d.position⟩

/-- Where and how a declaration declares its variable. -/
def HookedDeclaration.site (x : HookedDeclaration) : Provenance :=
  .ofDeclaration x.file.name x.declaration

/-- The declarations that a payload lists for a variable. -/
def Data.declarationsFor (name : Text) (payload : Data) : List Data :=
  match ((payload.get? "global".toText).bind (get? name)).bind (get? "declarations".toText) with
  | some (.list items) => items
  | _ => []

/-! ## Reading a payload -/

namespace Data

theorem get?_ofFields (name : Text) (fields : List (Text × Data)) :
    get? name (ofFields fields) = Keyed.get? name fields := by
  rw [ofFields, get?, field?]
  induction fields with
  | nil => rfl
  | cons entry rest ih =>
    obtain ⟨k, d⟩ := entry
    simp only [named, List.map_cons, Keyed.get?, Key.text.injEq] at ih ⊢
    split_ifs
    · rfl
    · exact ih

end Data

/-- No type of value has an entry with the name of the list of declarations. -/
theorem Structured.get?_fields (value : Structured) :
    Keyed.get? "declarations".toText value.fields = none := by
  cases value <;> rw [Structured.fields] <;> rfl

theorem Variable.get?_toData (v : Variable) :
    v.toData.get? "declarations".toText = some (.list (v.sites.map Provenance.toData)) := by
  rw [Variable.toData, Data.get?_ofFields, Keyed.get?_append, Structured.get?_fields]
  rfl

theorem declarationsFor_payload (name : Text) (vars : Variables) :
    vars.payload.declarationsFor name =
      (((Keyed.get? name vars).map Variable.sites).getD []).map Provenance.toData := by
  have hglobal : vars.payload.get? "global".toText =
      some (.ofFields (vars.map fun entry => (entry.1, entry.2.toData))) := by
    rw [Variables.payload, Data.get?_ofFields]
    rfl
  rw [Data.declarationsFor, hglobal, Option.bind_some, Data.get?_ofFields, Keyed.get?_map]
  cases Keyed.get? name vars with
  | none => rfl
  | some v => simp only [Option.map_some, Option.bind_some, Variable.get?_toData, Option.getD_some]

/-! ## The captured declarations -/

section Lists

variable {α β γ δ : Type}

/-- A range makes no difference past the indices that give something. -/
theorem filterMap_range_of_le {f : Nat → Option α} {m n : Nat} (hmn : m ≤ n)
    (h : ∀ i, m ≤ i → f i = none) : (List.range n).filterMap f = (List.range m).filterMap f := by
  obtain ⟨k, rfl⟩ := Nat.exists_eq_add_of_le hmn
  have hnil : ((List.range k).map (m + ·)).filterMap f = [] := by
    rw [List.filterMap_eq_nil_iff]
    intro i hi
    obtain ⟨j, -, rfl⟩ := List.mem_map.mp hi
    exact h _ (Nat.le_add_right m j)
  rw [List.range_add, List.filterMap_append, hnil, List.append_nil]

/-- What the elements of a list give, each with its index. -/
theorem filterMap_range_getElem? (xs : List α) (f : Nat → α → Option β) :
    (List.range xs.length).filterMap (fun i => xs[i]?.bind (f i)) =
      (xs.mapIdx Prod.mk).filterMap fun x => f x.1 x.2 := by
  induction xs using List.reverseRecOn with
  | nil => rfl
  | append_singleton xs x ih =>
    have hinit : (List.range xs.length).filterMap (fun i => (xs ++ [x])[i]?.bind (f i)) =
        (List.range xs.length).filterMap (fun i => xs[i]?.bind (f i)) := by
      apply List.filterMap_congr
      intro i hi
      rw [List.getElem?_append_left (List.mem_range.mp hi)]
    rw [List.length_append, List.length_singleton, List.range_succ, List.filterMap_append, hinit,
      ih, List.mapIdx_append, List.filterMap_append]
    simp only [List.mapIdx_cons, List.mapIdx_nil, List.filterMap_cons, List.filterMap_nil,
      List.getElem?_concat_length, Option.bind_some, Nat.zero_add]

/-- Two lists of one length that are gone through together. -/
theorem flatMap_zip_map {xs : List α} {ys : List β} (hlength : ys.length = xs.length)
    {name : α → γ} {g : γ × β → List δ} {k : α → List δ}
    (h : ∀ (i : Nat) x y, xs[i]? = some x → ys[i]? = some y → g (name x, y) = k x) :
    ((xs.map name).zip ys).flatMap g = xs.flatMap k := by
  induction xs generalizing ys with
  | nil => rfl
  | cons x xs ih =>
    cases ys with
    | nil => simp at hlength
    | cons y ys =>
      rw [List.map_cons, List.zip_cons_cons, List.flatMap_cons, List.flatMap_cons, h 0 x y rfl rfl]
      rw [ih (Nat.succ.inj hlength) fun i x y hx hy => h (i + 1) x y hx hy]

end Lists

/-- The captured values of a file are read off the elements that their indices stand for. -/
theorem Captures.map_listed {α β : Type} {c : Captures} {g : Captured → β} {found : List α}
    {f : Nat → α → Option β} (h : ∀ i, (Keyed.get? i c.slots).map g = found[i]?.bind (f i)) :
    c.listed.map g = (found.mapIdx Prod.mk).filterMap fun x => f x.1 x.2 := by
  have hbound : ∀ i, c.bound ≤ i → found[i]?.bind (f i) = none := by
    intro i hi
    rw [← h i, Option.map_eq_none_iff, Keyed.get?_eq_none_iff]
    exact fun hkey => absurd (Captures.lt_bound hkey) (Nat.not_lt.mpr hi)
  have hlength : ∀ i, found.length ≤ i → found[i]?.bind (f i) = none := by
    intro i hi
    rw [List.getElem?_eq_none hi, Option.bind_none]
  rw [Captures.listed, List.map_filterMap, ← filterMap_range_getElem?]
  simp only [h]
  -- whichever of the two ranges is longer has nothing in what it has more
  rcases Nat.le_total c.bound found.length with hle | hle
  · exact (filterMap_range_of_le hle hbound).symm
  · exact filterMap_range_of_le hle hlength

theorem index_of_getElem?_sheetFiles {sources : Keyed Text Text} {i : Nat} {file : SheetFile}
    (h : (sheetFiles sources)[i]? = some file) : file.index = i := by
  rw [sheetFiles, List.getElem?_mapIdx] at h
  obtain ⟨source, -, rfl⟩ := Option.map_eq_some_iff.mp h
  rfl

/-- The captured values of all files have the declarations whose hooks took one. -/
theorem map_capturedIn {sources : Keyed Text Text} {taken : List (Nat × Nat)}
    {states : List Captures} (h : HoldsTaken (sheetFiles sources) taken states) :
    (capturedIn (((sheetFiles sources).map SheetFile.name).zip states)).map
        (fun d => (d.1, d.2.declaration)) =
      ((hookedDeclarations (sheetFiles sources)).filter fun x => x.hook ∈ taken).map
        fun x => (x.file.name, x.declaration) := by
  rw [capturedIn, hookedDeclarations, List.map_flatMap, List.filter_flatMap, List.map_flatMap]
  refine flatMap_zip_map h.length ?_
  intro i file c hfile hc
  have hslots : ∀ j, (Keyed.get? j c.slots).map Captured.declaration =
      file.declarations[j]?.bind fun d => if (i, j) ∈ taken then some d else none := by
    intro j
    rw [h.slots hfile hc j]
    split_ifs <;> simp
  have hlisted := congrArg (List.map (file.name, ·)) (Captures.map_listed hslots)
  have hhooks : file.declarations.mapIdx (fun j d => (⟨file, j, d⟩ : HookedDeclaration)) =
      (file.declarations.mapIdx Prod.mk).map fun x => ⟨file, x.1, x.2⟩ := by
    rw [List.mapIdx_eq_iff]
    intro j
    rw [List.getElem?_map, List.getElem?_mapIdx, Option.map_map]
    rfl
  rw [List.map_map, List.map_filterMap] at hlisted
  rw [hhooks, List.filter_map, List.map_map, List.map_map]
  refine hlisted.trans ?_
  rw [← List.filterMap_eq_map, List.filterMap_filter]
  refine List.filterMap_congr fun x _ => ?_
  simp only [Function.comp_apply, HookedDeclaration.hook, index_of_getElem?_sheetFiles hfile,
    decide_eq_true_eq]
  split_ifs <;> rfl

theorem sites_ofDeclarations (declared : List (Text × Captured)) :
    ((Variable.ofDeclarations declared).map Variable.sites).getD [] =
      declared.map fun d => Provenance.ofCaptured d.1 d.2 := by
  rw [Variable.ofDeclarations]
  cases hwinner : winner? declared with
  | none =>
    rw [winner?_eq_none_iff.mp hwinner]
    rfl
  | some winner => rfl

/-- The payload of what the hooks kept lists the declarations whose hooks took a value. -/
theorem declarationsFor_collectVariables {sources : Keyed Text Text} {taken : List (Nat × Nat)}
    {states : List Captures} (h : HoldsTaken (sheetFiles sources) taken states) (name : Text) :
    (collectVariables (sheetFiles sources) states).payload.declarationsFor name =
      ((hookedDeclarations (sheetFiles sources)).filter fun x =>
        x.declaration.name = name ∧ x.hook ∈ taken).map fun x => x.site.toData := by
  have hnodup : ∀ entry ∈ ((sheetFiles sources).map SheetFile.name).zip states,
      (Keyed.keys entry.2.slots).Nodup := fun entry hentry => h.nodup _ (List.of_mem_zip hentry).2
  -- what is read off the payload depends on the files and the declarations alone
  have hnamed := congrArg (fun found : List (Text × Declaration) =>
    (found.filter fun e => e.2.name = name).map fun e => Provenance.ofDeclaration e.1 e.2)
    (map_capturedIn h)
  simp only [List.filter_map, List.map_map, Function.comp_def, List.filter_filter] at hnamed
  rw [declarationsFor_payload, collectVariables, get?_merge hnodup, sites_ofDeclarations,
    declarationsOf]
  refine (congrArg (List.map Provenance.toData) hnamed).trans ?_
  rw [List.map_map]
  simp only [Bool.decide_and]
  rfl

end StyleVars
