import StyleVars.Keyed
import Mathlib.Data.List.Basic
import Mathlib.Data.List.Induction
import Mathlib.Tactic.SplitIfs

/-!
# What keyed lists hold

Putting a key changes the value of that key and of no other, and adds the key behind the others when
it is new. The keys that are put one after the other are therefore kept in the order of their first
occurrences.
-/

namespace StyleVars.Keyed

variable {κ α β : Type} [DecidableEq κ]

/-! ## Values -/

theorem get?_put (key k : κ) (value : α) (entries : Keyed κ α) :
    get? key (put k value entries) = if k = key then some value else get? key entries := by
  induction entries with
  | nil => rfl
  | cons entry rest ih =>
    obtain ⟨k', a⟩ := entry
    by_cases hk : k' = k
    · subst hk
      simp only [put, if_true, get?]
      split_ifs <;> rfl
    · simp only [put, hk, if_false, get?, ih]
      by_cases hkey : k' = key
      · have hne : k ≠ key := fun h => hk (hkey.trans h.symm)
        simp only [hkey, hne, if_true, if_false]
      · simp only [hkey, if_false]

theorem get?_append (key : κ) (xs ys : Keyed κ α) :
    get? key (xs ++ ys) = (get? key xs).or (get? key ys) := by
  induction xs with
  | nil => rfl
  | cons entry rest ih =>
    obtain ⟨k, a⟩ := entry
    simp only [List.cons_append, get?]
    split_ifs
    · rfl
    · exact ih

theorem get?_map (key : κ) (f : α → β) (entries : Keyed κ α) :
    get? key (entries.map fun (k, a) => (k, f a)) = (get? key entries).map f := by
  induction entries with
  | nil => rfl
  | cons entry rest ih =>
    obtain ⟨k, a⟩ := entry
    simp only [List.map_cons, get?]
    split_ifs
    · rfl
    · exact ih

theorem mem_of_get? {key : κ} {value : α} {entries : Keyed κ α}
    (h : get? key entries = some value) : (key, value) ∈ entries := by
  induction entries with
  | nil => simp [get?] at h
  | cons entry rest ih =>
    obtain ⟨k, a⟩ := entry
    simp only [get?] at h
    split_ifs at h with hk
    · rw [hk, Option.some.inj h]
      exact List.mem_cons_self
    · exact List.mem_cons_of_mem _ (ih h)

theorem exists_of_mem_keys {key : κ} {entries : Keyed κ α} (h : key ∈ keys entries) :
    ∃ value, get? key entries = some value := by
  induction entries with
  | nil => simp [keys] at h
  | cons entry rest ih =>
    obtain ⟨k, a⟩ := entry
    by_cases hk : k = key
    · exact ⟨a, by simp [get?, hk]⟩
    · obtain ⟨value, hvalue⟩ := ih (by simpa [keys, Ne.symm hk] using h)
      exact ⟨value, by simp [get?, hk, hvalue]⟩

theorem get?_eq_none_iff {key : κ} {entries : Keyed κ α} :
    get? key entries = none ↔ key ∉ keys entries := by
  constructor
  · intro hnone hkey
    obtain ⟨value, hvalue⟩ := exists_of_mem_keys hkey
    rw [hnone] at hvalue
    exact nomatch hvalue
  · intro hkey
    rw [Option.eq_none_iff_forall_ne_some]
    intro value hvalue
    exact hkey (List.mem_map.mpr ⟨_, mem_of_get? hvalue, rfl⟩)

/-- Each entry of a list whose keys are different is found by its key. -/
theorem get?_of_mem {key : κ} {value : α} {entries : Keyed κ α} (hkeys : (keys entries).Nodup)
    (h : (key, value) ∈ entries) : get? key entries = some value := by
  induction entries with
  | nil => simp at h
  | cons entry rest ih =>
    obtain ⟨k, a⟩ := entry
    obtain ⟨hk, hrest⟩ := List.nodup_cons.mp hkeys
    obtain heq | hmem := List.mem_cons.mp h
    · obtain ⟨rfl, rfl⟩ := Prod.mk.inj heq
      simp [get?]
    · have hne : k ≠ key := by
        rintro rfl
        exact hk (List.mem_map.mpr ⟨_, hmem, rfl⟩)
      rw [get?, if_neg hne]
      exact ih hrest hmem

/-- Of a list whose keys are different, one entry at most has the given key. -/
theorem flatMap_ite {entries : Keyed κ α} (hkeys : (keys entries).Nodup) (key : κ)
    (f : α → List β) :
    (entries.flatMap fun entry => if entry.1 = key then f entry.2 else []) =
      ((get? key entries).map f).getD [] := by
  induction entries with
  | nil => rfl
  | cons entry rest ih =>
    obtain ⟨k, a⟩ := entry
    obtain ⟨hk, hrest⟩ := List.nodup_cons.mp hkeys
    rw [List.flatMap_cons, ih hrest]
    by_cases hkey : k = key
    · rw [hkey] at hk
      simp [get?, hkey, get?_eq_none_iff.mpr hk]
    · simp [get?, hkey]

/-! ## Keys -/

theorem keys_put (key : κ) (value : α) (entries : Keyed κ α) :
    keys (put key value entries) = insertNew (keys entries) key := by
  induction entries with
  | nil => rfl
  | cons entry rest ih =>
    obtain ⟨k, a⟩ := entry
    by_cases hk : k = key
    · simp [put, keys, insertNew, hk]
    · have ih' : (put key value rest).map Prod.fst = insertNew (rest.map Prod.fst) key := ih
      simp only [put, hk, if_false, keys, List.map_cons, ih', insertNew, List.mem_cons,
        Ne.symm hk, false_or]
      split_ifs <;> rfl

theorem nodup_insertNew {xs : List κ} (h : xs.Nodup) (x : κ) : (insertNew xs x).Nodup := by
  unfold insertNew
  split_ifs with hx
  · exact h
  · refine List.nodup_append.mpr ⟨h, by simp, ?_⟩
    intro a ha b hb heq
    rw [heq, List.mem_singleton.mp hb] at ha
    exact hx ha

theorem nodup_keys_put {entries : Keyed κ α} (h : (keys entries).Nodup) (key : κ) (value : α) :
    (keys (put key value entries)).Nodup := by
  rw [keys_put]
  exact nodup_insertNew h key

theorem mem_insertNew_iff {x : κ} {xs : List κ} (y : κ) :
    x ∈ insertNew xs y ↔ x ∈ xs ∨ x = y := by
  unfold insertNew
  split_ifs with hy
  · refine ⟨.inl, fun h => h.elim id fun heq => ?_⟩
    rw [heq]
    exact hy
  · simp

theorem mem_foldl_insertNew {x : κ} {xs : List κ} (ys : List κ) :
    x ∈ ys.foldl insertNew xs ↔ x ∈ xs ∨ x ∈ ys := by
  induction ys generalizing xs with
  | nil => simp
  | cons y ys ih => rw [List.foldl_cons, ih, mem_insertNew_iff, List.mem_cons, or_assoc]

theorem insertNew_of_mem {x : κ} {xs : List κ} (h : x ∈ xs) : insertNew xs x = xs := by
  rw [insertNew, if_pos h]

theorem insertNew_of_notMem {x : κ} {xs : List κ} (h : x ∉ xs) : insertNew xs x = xs ++ [x] := by
  rw [insertNew, if_neg h]

theorem mem_insertNew (xs : List κ) (x : κ) : x ∈ insertNew xs x :=
  (mem_insertNew_iff x).mpr (.inr rfl)

/-- Adding a key for each of its values is adding it once. -/
theorem foldl_insertNew_groups {entries : Keyed κ (List α)} (h : ∀ entry ∈ entries, entry.2 ≠ [])
    (xs : List κ) :
    (entries.flatMap fun entry => entry.2.map fun _ => entry.1).foldl insertNew xs =
      (keys entries).foldl insertNew xs := by
  induction entries generalizing xs with
  | nil => rfl
  | cons entry rest ih =>
    obtain ⟨k, group⟩ := entry
    have hagain : ∀ (group : List α) (ys : List κ), k ∈ ys →
        (group.map fun _ => k).foldl insertNew ys = ys := by
      intro group ys hk
      induction group with
      | nil => rfl
      | cons a group ihgroup => rw [List.map_cons, List.foldl_cons, insertNew_of_mem hk, ihgroup]
    have hgroup : (group.map fun _ => k).foldl insertNew xs = insertNew xs k := by
      cases group with
      | nil => exact absurd rfl (h (k, []) (by simp))
      | cons a group => exact hagain group _ (mem_insertNew xs k)
    rw [List.flatMap_cons, List.foldl_append, hgroup]
    exact ih (fun entry hentry => h entry (by simp [hentry])) _

/-- Elements that were collected before are added as they would have been one by one. -/
theorem foldl_insertNew_collected (xs ys : List κ) :
    (ys.foldl insertNew []).foldl insertNew xs = ys.foldl insertNew xs := by
  induction ys using List.reverseRecOn with
  | nil => rfl
  | append_singleton ys y ih =>
    rw [List.foldl_append, List.foldl_append, ← ih]
    simp only [List.foldl_cons, List.foldl_nil]
    by_cases hy : y ∈ ys.foldl insertNew []
    · have hy' : y ∈ (ys.foldl insertNew []).foldl insertNew xs :=
        (mem_foldl_insertNew _).mpr (.inr hy)
      rw [insertNew_of_mem hy, insertNew_of_mem hy']
    · rw [insertNew_of_notMem hy, List.foldl_append]
      rfl

/-- Collecting elements without repetition keeps the first occurrence of each. -/
theorem foldl_insertNew [BEq κ] [LawfulBEq κ] (xs : List κ) :
    xs.foldl insertNew [] = xs.eraseDups := by
  induction xs using List.reverseRecOn with
  | nil => rfl
  | append_singleton xs x ih =>
    rw [List.foldl_append, ih, List.eraseDups_append]
    simp only [List.foldl_cons, List.foldl_nil]
    by_cases hx : x ∈ xs
    · rw [insertNew_of_mem (List.mem_eraseDups.mpr hx)]
      simp [List.removeAll, hx]
    · rw [insertNew_of_notMem fun h => hx (List.mem_eraseDups.mp h)]
      simp [List.removeAll, hx, List.eraseDups_cons]

theorem nodup_foldl_insertNew (xs : List κ) : (xs.foldl insertNew []).Nodup := by
  induction xs using List.reverseRecOn with
  | nil => exact List.nodup_nil
  | append_singleton xs x ih =>
    rw [List.foldl_append]
    exact nodup_insertNew ih x

/-- Elements that differ are collected as they are. -/
theorem foldl_insertNew_of_nodup {xs : List κ} (h : xs.Nodup) : xs.foldl insertNew [] = xs := by
  induction xs using List.reverseRecOn with
  | nil => rfl
  | append_singleton xs x ih =>
    obtain ⟨hxs, -, hdisjoint⟩ := List.nodup_append.mp h
    have hx : x ∉ xs := fun hmem => hdisjoint x hmem x (List.mem_singleton_self x) rfl
    rw [List.foldl_append, ih hxs]
    exact insertNew_of_notMem hx

/-- Keys that are put one after the other stand in the order of their first occurrences. -/
theorem keys_foldl_put (key : β → κ) (value : Keyed κ α → β → α) (xs : List β)
    (entries : Keyed κ α) :
    keys (xs.foldl (fun m x => put (key x) (value m x) m) entries) =
      (xs.map key).foldl insertNew (keys entries) := by
  induction xs generalizing entries with
  | nil => rfl
  | cons x xs ih => rw [List.foldl_cons, ih, keys_put, List.map_cons, List.foldl_cons]

theorem put_of_notMem {key : κ} {entries : Keyed κ α} (h : key ∉ keys entries) (value : α) :
    put key value entries = entries ++ [(key, value)] := by
  induction entries with
  | nil => rfl
  | cons entry rest ih =>
    obtain ⟨k, a⟩ := entry
    have hk : k ≠ key := fun heq => h (List.mem_cons.mpr (.inl heq.symm))
    rw [put, if_neg hk, ih fun hmem => h (List.mem_cons_of_mem _ hmem), List.cons_append]

/-! ## Entries put one after the other -/

theorem keys_ofList (entries : List (κ × α)) :
    keys (ofList entries) = (entries.map Prod.fst).foldl insertNew [] :=
  keys_foldl_put Prod.fst (fun _ entry => entry.2) entries []

theorem nodup_ofList (entries : List (κ × α)) : (keys (ofList entries)).Nodup := by
  rw [keys_ofList]
  exact nodup_foldl_insertNew _

/-- Entries whose keys are different are kept as they are. -/
theorem ofList_of_nodup {entries : List (κ × α)} (h : (keys entries).Nodup) :
    ofList entries = entries := by
  induction entries using List.reverseRecOn with
  | nil => rfl
  | append_singleton entries entry ih =>
    have hkeys : keys (entries ++ [entry]) = keys entries ++ [entry.1] := List.map_append
    rw [hkeys] at h
    obtain ⟨hentries, -, hdisjoint⟩ := List.nodup_append.mp h
    have hput : ofList (entries ++ [entry]) = put entry.1 entry.2 (ofList entries) := by
      rw [ofList, putAll, List.foldl_append]
      rfl
    rw [hput, ih hentries]
    exact put_of_notMem (fun hmem => hdisjoint _ hmem _ List.mem_cons_self rfl) entry.2

theorem mem_iff_get?_eq_some {key : κ} {value : α} {entries : Keyed κ α}
    (hkeys : (keys entries).Nodup) : (key, value) ∈ entries ↔ get? key entries = some value :=
  ⟨get?_of_mem hkeys, mem_of_get?⟩

/-- Lists whose keys are different are told by the order of the keys and by the value of each. -/
theorem ext_of_nodup {xs ys : Keyed κ α} (hnodup : (keys xs).Nodup) (hkeys : keys xs = keys ys)
    (hget : ∀ key, get? key xs = get? key ys) : xs = ys := by
  have hlookups : ∀ {entries : Keyed κ α}, (keys entries).Nodup →
      entries.map (fun entry => (entry.1, some entry.2)) =
        (keys entries).map fun key => (key, get? key entries) := by
    intro entries hentries
    rw [keys, List.map_map]
    refine List.map_congr_left fun entry hentry => ?_
    rw [Function.comp_apply, get?_of_mem hentries hentry]
  have hsome : Function.Injective fun entry : κ × α => (entry.1, some entry.2) := by
    intro entry other heq
    obtain ⟨hkey, hvalue⟩ := Prod.mk.inj heq
    exact Prod.ext hkey (Option.some.inj hvalue)
  refine List.map_injective_iff.mpr hsome ?_
  rw [hlookups hnodup, hlookups (hkeys ▸ hnodup), ← hkeys]
  exact List.map_congr_left fun key _ => by rw [hget]

/-- A key has the value that was put for it last. -/
theorem get?_ofList (key : κ) (entries : List (κ × α)) :
    get? key (ofList entries) =
      entries.reverse.findSome? fun entry => if entry.1 = key then some entry.2 else none := by
  induction entries using List.reverseRecOn with
  | nil => rfl
  | append_singleton entries entry ih =>
    have hput : ofList (entries ++ [entry]) = put entry.1 entry.2 (ofList entries) := by
      rw [ofList, putAll, List.foldl_append]
      rfl
    rw [hput, get?_put, List.reverse_append, List.reverse_singleton, List.singleton_append,
      List.findSome?_cons, ih]
    split_ifs <;> rfl

/-- The entries that are kept are those whose key was not put again. -/
theorem mem_ofList_iff {entries : List (κ × α)} {entry : κ × α} :
    entry ∈ ofList entries ↔
      ∃ before after, entries = before ++ entry :: after ∧
        ∀ later ∈ after, later.1 ≠ entry.1 := by
  rw [mem_iff_get?_eq_some (nodup_ofList entries), get?_ofList, List.findSome?_eq_some_iff]
  constructor
  · rintro ⟨after, last, before, hreverse, hlast, hafter⟩
    split_ifs at hlast with hkey
    obtain rfl : last = entry := Prod.ext hkey (Option.some.inj hlast)
    refine ⟨before.reverse, after.reverse, ?_, ?_⟩
    · have hentries := congrArg List.reverse hreverse
      simpa only [List.reverse_reverse, List.reverse_append, List.reverse_cons,
        List.append_assoc, List.singleton_append] using hentries
    · intro later hlater heq
      have hnone := hafter later (List.mem_reverse.mp hlater)
      rw [if_pos heq] at hnone
      exact nomatch hnone
  · rintro ⟨before, after, rfl, hafter⟩
    refine ⟨after.reverse, entry, before.reverse, by simp, if_pos rfl, ?_⟩
    intro later hlater
    exact if_neg (hafter later (List.mem_reverse.mp hlater))

end StyleVars.Keyed
