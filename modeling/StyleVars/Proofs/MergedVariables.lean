import StyleVars.Extract.Variables
import StyleVars.Proofs.KeyedLists
import Mathlib.Data.List.Sort

/-!
# What the merged variables are

The captured values of all files, in the order of the files and inside of a file in the order of its
declarations, decide everything about the merged variables (`merge_spec`): the names and their
order, and for each name its value, the files that declare it and the sites of its declarations
(`Variable.ofDeclarations`). How the values are grouped on the way does not matter.
-/

namespace StyleVars

/-! ## The meaning of a list of declarations -/

/-- A number that is larger than the index of each captured value. -/
def Captures.bound (c : Captures) : Nat := (Keyed.keys c.slots).foldr max 0 + 1

/-- The captured values of a file by increasing index. -/
def Captures.listed (c : Captures) : List Captured :=
  (List.range c.bound).filterMap fun i => Keyed.get? i c.slots

/-- The captured values of several files, file by file, each with its file. -/
def capturedIn (files : List (Text × Captures)) : List (Text × Captured) :=
  files.flatMap fun (file, c) => c.listed.map (file, ·)

/-- The captured values of a name among those of several files. -/
def declarationsOf (name : Text) (files : List (Text × Captures)) : List (Text × Captured) :=
  (capturedIn files).filter fun (_, c) => c.declaration.name = name

/-- The last declaration that is not a default, or the last one when all of them are defaults. -/
def winner? (declared : List (Text × Captured)) : Option (Text × Captured) :=
  (declared.filter fun (_, c) => !c.declaration.flags.default).getLast?.or declared.getLast?

/-- The variable with the given declarations: it has the value of the one that wins. -/
def Variable.ofDeclarations (declared : List (Text × Captured)) : Option Variable :=
  (winner? declared).map fun (_, c) =>
    { value := c.value
      sources := (declared.map Prod.fst).eraseDups
      sites := declared.map fun (file, c) => Provenance.ofCaptured file c }

/-! ## The captured values of a file -/

theorem Captures.lt_bound {c : Captures} {i : Nat} (h : i ∈ Keyed.keys c.slots) : i < c.bound := by
  have hle : ∀ keys : List Nat, i ∈ keys → i ≤ keys.foldr max 0 := by
    intro keys hmem
    induction keys with
    | nil => simp at hmem
    | cons k keys ih =>
      rw [List.foldr_cons]
      obtain rfl | hmem := List.mem_cons.mp hmem
      · exact Nat.le_max_left _ _
      · exact (ih hmem).trans (Nat.le_max_right _ _)
  exact Nat.lt_succ_of_le (hle _ h)

/-- Sorting the captured values lists them by increasing index. -/
theorem Captures.inOrder_eq_listed {c : Captures} (h : (Keyed.keys c.slots).Nodup) :
    c.inOrder = c.listed := by
  let sorted := c.slots.mergeSort fun a b => a.1 ≤ b.1
  let indexed := (List.range c.bound).filterMap fun i => (Keyed.get? i c.slots).map (i, ·)
  have hlisted : c.listed = indexed.map Prod.snd := by
    simp only [Captures.listed, indexed, List.map_filterMap, Option.map_map, Function.comp_def,
      Option.map_id']
  have hincreasing : indexed.Pairwise fun a b => a.1 < b.1 := by
    refine List.pairwise_filterMap.mpr (List.pairwise_lt_range.imp ?_)
    intro i j hij a ha b hb
    obtain ⟨x, -, rfl⟩ := Option.map_eq_some_iff.mp ha
    obtain ⟨y, -, rfl⟩ := Option.map_eq_some_iff.mp hb
    exact hij
  have hmem : ∀ entry, entry ∈ sorted ↔ entry ∈ indexed := by
    rintro ⟨i, a⟩
    simp only [sorted, indexed, List.mem_mergeSort, List.mem_filterMap, List.mem_range,
      Option.map_eq_some_iff, Prod.mk.injEq]
    constructor
    · intro hentry
      have hkey : i ∈ Keyed.keys c.slots := List.mem_map_of_mem hentry
      exact ⟨i, Captures.lt_bound hkey, a, Keyed.get?_of_mem h hentry, rfl, rfl⟩
    · rintro ⟨i, -, a, hget, rfl, rfl⟩
      exact Keyed.mem_of_get? hget
  have hsorted : sorted.Pairwise fun a b => a.1 ≤ b.1 := by
    have hle : sorted.Pairwise fun a b => decide (a.1 ≤ b.1) = true := by
      refine List.pairwise_mergeSort ?_ ?_ c.slots
      · intro a b d hab hbd
        simp only [decide_eq_true_eq] at hab hbd ⊢
        exact hab.trans hbd
      · intro a b
        simp only [Bool.or_eq_true, decide_eq_true_eq]
        exact Nat.le_total a.1 b.1
    exact hle.imp of_decide_eq_true
  have hnodup : sorted.Nodup := (List.mergeSort_perm _ _).nodup_iff.mpr (.of_map Prod.fst h)
  have hnodup' : indexed.Nodup := hincreasing.imp fun hlt heq => by simp [heq] at hlt
  -- lists that are sorted and have the same elements, each of them once, are equal
  have heq : sorted = indexed := by
    refine ((List.perm_ext_iff_of_nodup hnodup hnodup').mpr hmem).eq_of_pairwise ?_ hsorted
      (hincreasing.imp Nat.le_of_lt)
    rintro ⟨i, a⟩ ⟨j, b⟩ ha hb hij hji
    obtain rfl : i = j := Nat.le_antisymm hij hji
    rw [List.mem_mergeSort] at ha
    rw [← hmem, List.mem_mergeSort] at hb
    have hsame := (Keyed.get?_of_mem h ha).symm.trans (Keyed.get?_of_mem h hb)
    rw [Option.some.inj hsame]
  rw [Captures.inOrder, hlisted, ← heq]

/-! ## Values by name -/

/-- The captured values by name after one more of them. -/
def addCaptured (groups : Keyed Text (List Captured)) (captured : Captured) :
    Keyed Text (List Captured) :=
  Keyed.put captured.declaration.name
    ((Keyed.get? captured.declaration.name groups).getD [] ++ [captured]) groups

theorem Captures.byName_eq (c : Captures) : c.byName = c.inOrder.foldl addCaptured [] := rfl

/-- Each name comes with its captured values in order. -/
theorem get?_foldl_addCaptured (listed : List Captured) (name : Text) :
    Keyed.get? name (listed.foldl addCaptured []) =
      if listed.filter (fun c => c.declaration.name = name) = [] then none
      else some (listed.filter fun c => c.declaration.name = name) := by
  induction listed using List.reverseRecOn with
  | nil => rfl
  | append_singleton listed captured ih =>
    rw [List.foldl_append, List.foldl_cons, List.foldl_nil, addCaptured, Keyed.get?_put,
      List.filter_append]
    by_cases hname : captured.declaration.name = name
    · subst hname
      rw [if_pos rfl, ih]
      by_cases hnil : listed.filter (fun c => c.declaration.name = captured.declaration.name) = []
      · simp [hnil]
      · simp [hnil]
    · rw [if_neg hname, ih]
      simp [hname]

theorem keys_foldl_addCaptured (listed : List Captured) :
    Keyed.keys (listed.foldl addCaptured []) =
      (listed.map fun c => c.declaration.name).foldl Keyed.insertNew [] :=
  Keyed.keys_foldl_put (fun c : Captured => c.declaration.name) _ listed []

theorem Captures.nodup_keys_byName (c : Captures) : (Keyed.keys c.byName).Nodup := by
  rw [Captures.byName_eq, keys_foldl_addCaptured]
  exact Keyed.nodup_foldl_insertNew _

/-! ## One declaration after the other -/

/-- A declaration of a name that is taken in. -/
structure Taken where
  file : Text
  name : Text
  captured : Captured

/-- The declarations of a file as they are taken in, name by name. -/
def takenFrom (file : Text) (c : Captures) : List Taken :=
  c.byName.flatMap fun (name, group) => group.map fun captured => ⟨file, name, captured⟩

/-- The variables after one more declaration that is taken in. -/
def Variables.take (vars : Variables) (t : Taken) : Variables :=
  vars.declare t.file t.name t.captured

theorem foldl_declare_group (vars : Variables) (file name : Text) (group : List Captured) :
    group.foldl (Variables.declare file name) vars =
      (group.map fun captured => (⟨file, name, captured⟩ : Taken)).foldl Variables.take vars := by
  rw [List.foldl_map]
  rfl

/-- The files are merged by taking in one declaration after the other. -/
theorem merge_eq_foldl (files : List (Text × Captures)) :
    Variables.merge files =
      (files.flatMap fun (file, c) => takenFrom file c).foldl Variables.take [] := by
  have hfile : ∀ (vars : Variables) (file : Text) (c : Captures),
      vars.declareAll file c = (takenFrom file c).foldl Variables.take vars := by
    intro vars file c
    simp only [Variables.declareAll, takenFrom, List.foldl_flatMap, foldl_declare_group]
  simp only [Variables.merge, List.foldl_flatMap, hfile]

/-- Only the declarations of a name decide about its variable. -/
theorem get?_foldl_take (name : Text) (taken : List Taken) (vars : Variables) :
    Keyed.get? name (taken.foldl Variables.take vars) =
      (taken.filter fun t => t.name = name).foldl
        (fun v t => some (Variable.declare v t.file t.captured)) (Keyed.get? name vars) := by
  induction taken generalizing vars with
  | nil => rfl
  | cons t taken ih =>
    rw [List.foldl_cons, ih, Variables.take, Variables.declare, Keyed.get?_put]
    by_cases hname : t.name = name
    · subst hname
      rw [if_pos rfl, List.filter_cons_of_pos (by simp), List.foldl_cons]
    · rw [if_neg hname, List.filter_cons_of_neg (by simpa using hname)]

theorem keys_foldl_take (taken : List Taken) (vars : Variables) :
    Keyed.keys (taken.foldl Variables.take vars) =
      (taken.map Taken.name).foldl Keyed.insertNew (Keyed.keys vars) :=
  Keyed.keys_foldl_put Taken.name _ taken vars

/-! ## The value that wins -/

theorem winner?_eq_none_iff {declared : List (Text × Captured)} :
    winner? declared = none ↔ declared = [] := by
  simp only [winner?, Option.or_eq_none_iff, List.getLast?_eq_none_iff]
  constructor
  · rintro ⟨-, hnil⟩
    exact hnil
  · rintro rfl
    exact ⟨rfl, rfl⟩

/-- One more declaration wins unless it is a default and another one is not. -/
theorem winner?_append (declared : List (Text × Captured)) (file : Text) (c : Captured) :
    winner? (declared ++ [(file, c)]) =
      if !c.declaration.flags.default || declared.all (·.2.declaration.flags.default) then
        some (file, c)
      else winner? declared := by
  unfold winner?
  rw [List.filter_append]
  cases hdefault : c.declaration.flags.default with
  | false => simp [hdefault]
  | true =>
    by_cases hall : declared.all (·.2.declaration.flags.default)
    · have hnone : declared.filter (fun d => !d.2.declaration.flags.default) = [] := by
        simpa [List.filter_eq_nil_iff] using hall
      simp [hdefault, hall, hnone]
    · have hsome : declared.filter (fun d => !d.2.declaration.flags.default) ≠ [] := by
        simpa [List.filter_eq_nil_iff] using hall
      obtain ⟨last, hlast⟩ := Option.ne_none_iff_exists'.mp
        (mt List.getLast?_eq_none_iff.mp hsome)
      simp [hdefault, hall, hlast]

/-- Declaring a variable again and again gives it the meaning of all its declarations. -/
theorem foldl_declare (declared : List (Text × Captured)) :
    declared.foldl (fun v (d : Text × Captured) => some (Variable.declare v d.1 d.2)) none =
      Variable.ofDeclarations declared := by
  induction declared using List.reverseRecOn with
  | nil => rfl
  | append_singleton declared d ih =>
    obtain ⟨file, c⟩ := d
    rw [List.foldl_append, ih, List.foldl_cons, List.foldl_nil]
    have hsources : Keyed.insertNew (declared.map Prod.fst).eraseDups file =
        ((declared ++ [(file, c)]).map Prod.fst).eraseDups := by
      rw [← Keyed.foldl_insertNew, ← Keyed.foldl_insertNew, List.map_append, List.foldl_append]
      rfl
    unfold Variable.ofDeclarations
    rw [winner?_append, ← hsources]
    cases hwinner : winner? declared with
    | none =>
      obtain rfl := winner?_eq_none_iff.mp hwinner
      simp [Variable.declare, Keyed.insertNew]
    | some winner =>
      -- the sites a variable has kept tell whether a real value was declared before
      have hall : (declared.map fun d => Provenance.ofCaptured d.1 d.2).all (·.flags.default) =
          declared.all (·.2.declaration.flags.default) := by
        rw [List.all_map]
        rfl
      simp only [Option.map_some, Variable.declare, hall, List.map_append, List.map_cons,
        List.map_nil]
      split_ifs <;> rfl

/-! ## All files -/

/-- A file takes in the same declarations of a name by name as in order. -/
theorem filter_takenFrom {c : Captures} (h : (Keyed.keys c.slots).Nodup) (file name : Text) :
    (takenFrom file c).filter (fun t => t.name = name) =
      (c.listed.filter fun captured => captured.declaration.name = name).map
        (⟨file, name, ·⟩) := by
  have hkeys := c.nodup_keys_byName
  -- of the groups only the one of the name is left
  have hgroup : ∀ entry : Text × List Captured,
      ((entry.2.map fun captured => (⟨file, entry.1, captured⟩ : Taken)).filter
        fun t => t.name = name) =
        if entry.1 = name then entry.2.map (⟨file, name, ·⟩) else [] := by
    rintro ⟨k, group⟩
    by_cases hk : k = name
    · subst hk
      simp
    · simp [hk]
  rw [takenFrom, List.filter_flatMap]
  simp only [hgroup]
  rw [Keyed.flatMap_ite hkeys name fun group => group.map fun captured =>
    (⟨file, name, captured⟩ : Taken), Captures.byName_eq, get?_foldl_addCaptured,
    Captures.inOrder_eq_listed h]
  split_ifs with hnil
  · rw [hnil]
    rfl
  · rfl

/-- A file brings in its names in the order in which they are declared first. -/
theorem foldl_insertNew_takenFrom {c : Captures} (h : (Keyed.keys c.slots).Nodup) (file : Text)
    (names : List Text) :
    ((takenFrom file c).map Taken.name).foldl Keyed.insertNew names =
      (c.listed.map fun captured => captured.declaration.name).foldl Keyed.insertNew names := by
  have hgroups : ∀ entry ∈ c.byName, entry.2 ≠ [] := by
    rintro ⟨name, group⟩ hentry hnil
    have hget := Keyed.get?_of_mem c.nodup_keys_byName hentry
    rw [Captures.byName_eq, get?_foldl_addCaptured] at hget
    split_ifs at hget with hfilter
    exact hfilter ((Option.some.inj hget).trans hnil)
  have hnames : (takenFrom file c).map Taken.name =
      c.byName.flatMap fun entry => entry.2.map fun _ => entry.1 := by
    simp only [takenFrom, List.map_flatMap, List.map_map, Function.comp_def]
  rw [hnames, Keyed.foldl_insertNew_groups hgroups, Captures.byName_eq, keys_foldl_addCaptured,
    Keyed.foldl_insertNew_collected, Captures.inOrder_eq_listed h]

/-- The names come in the order in which they are declared first. -/
theorem keys_merge {files : List (Text × Captures)}
    (h : ∀ entry ∈ files, (Keyed.keys entry.2.slots).Nodup) :
    Keyed.keys (Variables.merge files) =
      ((capturedIn files).map fun d => d.2.declaration.name).eraseDups := by
  have hnames : ∀ names : List Text,
      ((files.flatMap fun (file, c) => takenFrom file c).map Taken.name).foldl
          Keyed.insertNew names =
        ((capturedIn files).map fun d => d.2.declaration.name).foldl Keyed.insertNew names := by
    intro names
    induction files generalizing names with
    | nil => rfl
    | cons entry files ih =>
      have hfile := foldl_insertNew_takenFrom (h entry (by simp)) entry.1 names
      simp only [capturedIn, List.flatMap_cons, List.map_append, List.foldl_append, List.map_map,
        Function.comp_def] at ih ⊢
      rw [hfile]
      exact ih (fun entry hentry => h entry (by simp [hentry])) _
  rw [merge_eq_foldl, keys_foldl_take, hnames, ← Keyed.foldl_insertNew]
  rfl

/-- Each name has the variable that its declarations mean. -/
theorem get?_merge {files : List (Text × Captures)}
    (h : ∀ entry ∈ files, (Keyed.keys entry.2.slots).Nodup) (name : Text) :
    Keyed.get? name (Variables.merge files) =
      Variable.ofDeclarations (declarationsOf name files) := by
  have htaken : (files.flatMap fun (file, c) => takenFrom file c).filter (·.name = name) =
      (declarationsOf name files).map fun d => ⟨d.1, name, d.2⟩ := by
    induction files with
    | nil => rfl
    | cons entry files ih =>
      have hfile := filter_takenFrom (h entry (by simp)) entry.1 name
      have hrest := ih fun entry hentry => h entry (by simp [hentry])
      simp only [declarationsOf, capturedIn, List.flatMap_cons, List.filter_append,
        List.map_append, List.filter_map, List.map_map, Function.comp_def] at hrest ⊢
      rw [hfile, hrest]
  rw [merge_eq_foldl, get?_foldl_take, htaken, List.foldl_map]
  exact foldl_declare _

/-- The merged variables have the names of the captured values in the order of their first
occurrences, and each of them is what all of its declarations mean. -/
theorem merge_spec {files : List (Text × Captures)}
    (h : ∀ entry ∈ files, (Keyed.keys entry.2.slots).Nodup) :
    Keyed.keys (Variables.merge files) =
        ((capturedIn files).map fun d => d.2.declaration.name).eraseDups ∧
      ∀ name, Keyed.get? name (Variables.merge files) =
        Variable.ofDeclarations (declarationsOf name files) :=
  ⟨keys_merge h, get?_merge h⟩

/-- A value captured for a variable. -/
def sampleCaptured (name : Text) (default value : Bool) : Captured :=
  ⟨⟨name, "true".toText, ⟨default, false⟩, .start⟩, .boolean value⟩

/-- Two files, the values of the first of which were captured in another order than that of their
declarations. -/
def sampleFiles : List (Text × Captures) :=
  [("/a.scss".toText,
      ⟨[(1, sampleCaptured "$b".toText true false), (0, sampleCaptured "$a".toText false true)],
        none⟩),
    ("/b.scss".toText, ⟨[(0, sampleCaptured "$a".toText true false)], none⟩)]

theorem merge_sampleFiles :
    (∀ entry ∈ sampleFiles, (Keyed.keys entry.2.slots).Nodup) ∧
    Keyed.keys (Variables.merge sampleFiles) =
        ((capturedIn sampleFiles).map fun d => d.2.declaration.name).eraseDups ∧
      ∀ name, Keyed.get? name (Variables.merge sampleFiles) =
        Variable.ofDeclarations (declarationsOf name sampleFiles) := by
  have hkeys : ∀ entry ∈ sampleFiles, (Keyed.keys entry.2.slots).Nodup := by decide
  exact ⟨hkeys, merge_spec hkeys⟩

example : (Variable.ofDeclarations (declarationsOf "$a".toText sampleFiles)).map Variable.sources =
    some ["/a.scss".toText, "/b.scss".toText] := by
  decide +kernel

/-- Capturing a value keeps the indices of the captured values different. -/
theorem Captures.nodup_call [ColorNames] {c : Captures} (h : (Keyed.keys c.slots).Nodup)
    (pipeline : Pipeline) (declarations : List Declaration) (index : Nat) (native : Native) :
    (Keyed.keys (c.call pipeline declarations index native).2.slots).Nodup := by
  unfold Captures.call
  split
  · exact h
  · split
    · exact Keyed.nodup_keys_put h _ _
    · exact h
    · exact h

end StyleVars
