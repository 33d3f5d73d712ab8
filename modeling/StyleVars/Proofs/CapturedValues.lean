import StyleVars.Plugin.Builtin
import StyleVars.Proofs.MergedVariables
import StyleVars.Proofs.Outcomes
import StyleVars.Value.CssColors

/-!
# What the hooks of a file have captured

A call of a hook keeps the value, refuses it because of its type, or fails (`Captures.call_cases`).
Only a value that is kept changes the values captured before, and only the first refusal of all is
remembered. After any calls in any order a declaration therefore has the last value that its hook
has kept, and the failure of the file is its first refusal (`SheetFile.capture_spec`).
-/

namespace StyleVars

namespace Captures

/-! ## One call -/

/-- The type for which a value is refused, when taking its form failed for that reason. -/
def refusedType? {α : Type} : Except Failure α → Option Text
  | .error (.unsupportedType typeName _) => some typeName
  | _ => none

theorem refusedType?_eq_some_iff {α : Type} {form : Except Failure α} {typeName : Text} :
    refusedType? form = some typeName ↔
      ∃ cause, form = .error (.unsupportedType typeName cause) := by
  constructor
  · intro h
    unfold refusedType? at h
    split at h
    · rename_i cause
      exact ⟨cause, by rw [Option.some.inj h]⟩
    · exact nomatch h
  · rintro ⟨cause, rfl⟩
    rfl

variable [ColorNames]

/-- The value that a call of the hook of a declaration keeps. -/
def keptBy (pipeline : Pipeline) (declarations : List Declaration) (call : Nat × Native) :
    Option Captured :=
  declarations[call.1]?.bind fun d => (capturedForm pipeline call.2).toOption.map (⟨d, ·⟩)

/-- The type for which a call of the hook of a declaration refuses its value. -/
def refusedBy (pipeline : Pipeline) (declarations : List Declaration) (call : Nat × Native) :
    Option Text :=
  declarations[call.1]?.bind fun _ => refusedType? (capturedForm pipeline call.2)

section Call

variable (pipeline : Pipeline) {declarations : List Declaration}

/-- What a call of the hook of a declaration can do: keep the value, refuse it, or fail. -/
theorem call_cases {i : Nat} {d : Declaration} (hd : declarations[i]? = some d) (native : Native)
    (c : Captures) :
    (∃ value, capturedForm pipeline native = .ok value ∧
      c.call pipeline declarations i native =
        (.ok none, { c with slots := Keyed.put i ⟨d, value⟩ c.slots })) ∨
    (∃ typeName cause, capturedForm pipeline native = .error (.unsupportedType typeName cause) ∧
      c.call pipeline declarations i native =
        (.ok (some (Failure.unsupportedType typeName cause).message),
          { c with failure := c.failure.or (some typeName) })) ∨
    (∃ e, capturedForm pipeline native = .error e ∧
      refusedType? (capturedForm pipeline native) = none ∧
      c.call pipeline declarations i native = (.error e, c)) := by
  unfold Captures.call
  simp only [hd]
  split
  · rename_i value hvalue
    exact .inl ⟨value, hvalue, rfl⟩
  · rename_i typeName cause hrefused
    exact .inr (.inl ⟨typeName, cause, hrefused, rfl⟩)
  · rename_i e hother hfailed
    refine .inr (.inr ⟨e, hfailed, ?_, rfl⟩)
    rw [Option.eq_none_iff_forall_ne_some]
    intro typeName htype
    obtain ⟨cause, herror⟩ := refusedType?_eq_some_iff.mp htype
    exact hother typeName cause (Except.error.inj (hfailed.symm.trans herror))

/-- A call puts the value that it keeps in the place of its declaration, and only a first refusal is
remembered. -/
theorem call_spec (call : Nat × Native) (c : Captures) :
    (c.call pipeline declarations call.1 call.2).2 =
      { slots := (keptBy pipeline declarations call).elim c.slots (Keyed.put call.1 · c.slots)
        failure := c.failure.or (refusedBy pipeline declarations call) } := by
  unfold keptBy refusedBy
  cases hd : declarations[call.1]? with
  | none => simp [Captures.call, hd]
  | some d =>
    obtain ⟨value, hform, hcall⟩ | ⟨typeName, cause, hform, hcall⟩ | ⟨e, hform, hnone, hcall⟩ :=
      call_cases pipeline hd call.2 c
    · simp [hcall, hform, Except.toOption, refusedType?]
    · simp [hcall, hform, Except.toOption, refusedType?]
    · rw [hform] at hnone
      simp [hcall, hform, hnone, Except.toOption]

variable {pipeline}

theorem keptBy_eq_some_iff {call : Nat × Native} {captured : Captured} :
    keptBy pipeline declarations call = some captured ↔
      declarations[call.1]? = some captured.declaration ∧
        capturedForm pipeline call.2 = .ok captured.value := by
  unfold keptBy
  cases declarations[call.1]? with
  | none => simp
  | some d =>
    cases capturedForm pipeline call.2 with
    | error e => simp [Except.toOption]
    | ok value =>
      obtain ⟨d', value'⟩ := captured
      simp [Except.toOption]

theorem keptBy_eq_none_iff {call : Nat × Native} {d : Declaration}
    (hd : declarations[call.1]? = some d) :
    keptBy pipeline declarations call = none ↔ ¬(capturedForm pipeline call.2).isOk := by
  rw [keptBy, hd, Option.bind_some, Option.map_eq_none_iff]
  cases capturedForm pipeline call.2 with
  | error e => simp [Except.toOption, Except.isOk, Except.toBool]
  | ok value => simp [Except.toOption, Except.isOk, Except.toBool]

end Call

end Captures

/-! ## Any number of calls -/

/-- What a file has captured after calls of its hooks, each given by the number of its declaration
and the value. -/
def SheetFile.capture [ColorNames] (file : SheetFile) (pipeline : Pipeline)
    (calls : List (Nat × Native)) : Captures :=
  calls.foldl (fun c call => (c.call pipeline file.declarations call.1 call.2).2) .empty

namespace SheetFile

open Captures

section Capture

variable [ColorNames] (file : SheetFile) (pipeline : Pipeline)

theorem capture_append_singleton (calls : List (Nat × Native)) (call : Nat × Native) :
    file.capture pipeline (calls ++ [call]) =
      ((file.capture pipeline calls).call pipeline file.declarations call.1 call.2).2 := by
  rw [capture, List.foldl_append]
  rfl

theorem nodup_capture (calls : List (Nat × Native)) :
    (Keyed.keys (file.capture pipeline calls).slots).Nodup := by
  induction calls using List.reverseRecOn with
  | nil => exact List.nodup_nil
  | append_singleton calls call ih =>
    rw [capture_append_singleton]
    exact nodup_call ih ..

/-- A declaration has the last value that its hook has kept. -/
theorem get?_capture (calls : List (Nat × Native)) (i : Nat) :
    Keyed.get? i (file.capture pipeline calls).slots =
      calls.reverse.findSome? fun call =>
        if call.1 = i then keptBy pipeline file.declarations call else none := by
  induction calls using List.reverseRecOn with
  | nil => rfl
  | append_singleton calls call ih =>
    rw [capture_append_singleton, call_spec pipeline, List.reverse_append, List.reverse_singleton,
      List.singleton_append, List.findSome?_cons, ← ih]
    cases hkept : keptBy pipeline file.declarations call with
    | none => simp
    | some captured =>
      rw [Option.elim_some, Keyed.get?_put]
      split_ifs <;> rfl

/-- The failure is the first refusal. -/
theorem failure_capture (calls : List (Nat × Native)) :
    (file.capture pipeline calls).failure =
      calls.findSome? (refusedBy pipeline file.declarations) := by
  induction calls using List.reverseRecOn with
  | nil => rfl
  | append_singleton calls call ih =>
    rw [capture_append_singleton, call_spec, ih, List.findSome?_append, List.findSome?_singleton]

/-- A refusal that is remembered is never replaced. -/
theorem failure_capture_append {before : List (Nat × Native)} {typeName : Text}
    (h : (file.capture pipeline before).failure = some typeName) (after : List (Nat × Native)) :
    (file.capture pipeline (before ++ after)).failure = some typeName := by
  rw [failure_capture] at h ⊢
  rw [List.findSome?_append, h, Option.some_or]

section Spec

variable {file : SheetFile} {pipeline : Pipeline} {calls : List (Nat × Native)}

/-- A declaration has a value exactly when its hook has kept one that it did not replace later. -/
theorem get?_capture_eq_some_iff {i : Nat} {captured : Captured} :
    Keyed.get? i (file.capture pipeline calls).slots = some captured ↔
      file.declarations[i]? = some captured.declaration ∧
        ∃ before native after, calls = before ++ (i, native) :: after ∧
          capturedForm pipeline native = .ok captured.value ∧
          ∀ native', (i, native') ∈ after → ¬(capturedForm pipeline native').isOk := by
  rw [get?_capture, List.findSome?_eq_some_iff]
  constructor
  · rintro ⟨after, ⟨j, native⟩, before, hcalls, hkept, hafter⟩
    split_ifs at hkept with hj
    obtain rfl : j = i := hj
    obtain ⟨hd, hform⟩ := keptBy_eq_some_iff.mp hkept
    refine ⟨hd, before.reverse, native, after.reverse, ?_, hform, ?_⟩
    · have hreversed := congrArg List.reverse hcalls
      simpa only [List.reverse_reverse, List.reverse_append, List.reverse_cons,
        List.append_assoc, List.singleton_append] using hreversed
    · intro native' hmem
      have hd' : file.declarations[(j, native').1]? = some captured.declaration := hd
      have hnone := hafter _ (List.mem_reverse.mp hmem)
      rw [if_pos rfl] at hnone
      exact (keptBy_eq_none_iff hd').mp hnone
  · rintro ⟨hd, before, native, after, rfl, hform, hafter⟩
    refine ⟨after.reverse, (i, native), before.reverse, by simp, ?_, ?_⟩
    · rw [if_pos rfl]
      exact keptBy_eq_some_iff.mpr ⟨hd, hform⟩
    · rintro ⟨j, native'⟩ hmem
      split_ifs with hj
      · obtain rfl : j = i := hj
        exact (keptBy_eq_none_iff hd).mpr (hafter native' (List.mem_reverse.mp hmem))
      · rfl

/-- A declaration has no value exactly when its hook has never kept one. -/
theorem notMem_keys_capture_iff (hcalls : ∀ call ∈ calls, call.1 < file.declarations.length)
    {i : Nat} :
    i ∉ Keyed.keys (file.capture pipeline calls).slots ↔
      ∀ native, (i, native) ∈ calls → ¬(capturedForm pipeline native).isOk := by
  rw [← Keyed.get?_eq_none_iff, get?_capture, List.findSome?_eq_none_iff]
  constructor
  · intro hnone native hmem
    have hkept := hnone _ (List.mem_reverse.mpr hmem)
    rw [if_pos rfl] at hkept
    exact (keptBy_eq_none_iff (List.getElem?_eq_getElem (hcalls _ hmem))).mp hkept
  · rintro hfails ⟨j, native⟩ hmem
    rw [List.mem_reverse] at hmem
    split_ifs with hj
    · obtain rfl : j = i := hj
      exact (keptBy_eq_none_iff (List.getElem?_eq_getElem (hcalls _ hmem))).mpr (hfails native hmem)
    · rfl

/-- The failure is that of the first call that refused its value. -/
theorem failure_capture_eq_some_iff (hcalls : ∀ call ∈ calls, call.1 < file.declarations.length)
    {typeName : Text} :
    (file.capture pipeline calls).failure = some typeName ↔
      ∃ before i native after, calls = before ++ (i, native) :: after ∧
        (∃ cause, capturedForm pipeline native = .error (.unsupportedType typeName cause)) ∧
        ∀ call ∈ before, refusedType? (capturedForm pipeline call.2) = none := by
  have hrefused : ∀ call ∈ calls, refusedBy pipeline file.declarations call =
      refusedType? (capturedForm pipeline call.2) := by
    intro call hcall
    rw [refusedBy, List.getElem?_eq_getElem (hcalls call hcall), Option.bind_some]
  rw [failure_capture, List.findSome?_eq_some_iff]
  constructor
  · rintro ⟨before, ⟨i, native⟩, after, rfl, htype, hbefore⟩
    refine ⟨before, i, native, after, rfl, ?_, ?_⟩
    · rw [hrefused _ (by simp)] at htype
      exact refusedType?_eq_some_iff.mp htype
    · intro call hcall
      rw [← hrefused call (by simp [hcall])]
      exact hbefore call hcall
  · rintro ⟨before, i, native, after, rfl, htype, hbefore⟩
    refine ⟨before, (i, native), after, rfl, ?_, ?_⟩
    · rw [hrefused _ (by simp)]
      exact refusedType?_eq_some_iff.mpr htype
    · intro call hcall
      rw [hrefused call (by simp [hcall])]
      exact hbefore call hcall

/-- What a file has captured after any calls of its hooks in any order. A value that was kept is the
form of the last one that the hook of its declaration could keep, and a declaration has none exactly
when its hook never kept one. The failure is the first refusal and is not replaced. Each call
answers with nothing exactly when it keeps its value, and else leaves all values as they were; when
it fails otherwise than by a refusal, its failure is let through and nothing has changed. -/
theorem capture_spec (hcalls : ∀ call ∈ calls, call.1 < file.declarations.length) :
    (Keyed.keys (file.capture pipeline calls).slots).Nodup ∧
    (∀ i ∈ Keyed.keys (file.capture pipeline calls).slots, i < file.declarations.length) ∧
    (∀ i captured, Keyed.get? i (file.capture pipeline calls).slots = some captured ↔
      file.declarations[i]? = some captured.declaration ∧
        ∃ before native after, calls = before ++ (i, native) :: after ∧
          capturedForm pipeline native = .ok captured.value ∧
          ∀ native', (i, native') ∈ after → ¬(capturedForm pipeline native').isOk) ∧
    (∀ i, i ∉ Keyed.keys (file.capture pipeline calls).slots ↔
      ∀ native, (i, native) ∈ calls → ¬(capturedForm pipeline native).isOk) ∧
    (∀ typeName, (file.capture pipeline calls).failure = some typeName ↔
      ∃ before i native after, calls = before ++ (i, native) :: after ∧
        (∃ cause, capturedForm pipeline native = .error (.unsupportedType typeName cause)) ∧
        ∀ call ∈ before, refusedType? (capturedForm pipeline call.2) = none) ∧
    (∀ before after typeName, calls = before ++ after →
      (file.capture pipeline before).failure = some typeName →
        (file.capture pipeline calls).failure = some typeName) ∧
    ∀ before i native after, calls = before ++ (i, native) :: after →
      ∃ answer, (file.capture pipeline before).call pipeline file.declarations i native =
          (answer, file.capture pipeline (before ++ [(i, native)])) ∧
        (answer = .ok none ↔ (capturedForm pipeline native).isOk) ∧
        (answer ≠ .ok none → (file.capture pipeline (before ++ [(i, native)])).slots =
          (file.capture pipeline before).slots) ∧
        (∀ e, answer = .error e ↔
          capturedForm pipeline native = .error e ∧
            refusedType? (capturedForm pipeline native) = none) ∧
        (∀ e, answer = .error e →
          file.capture pipeline (before ++ [(i, native)]) = file.capture pipeline before) := by
  refine ⟨nodup_capture .., ?_, fun _ _ => get?_capture_eq_some_iff,
    fun _ => notMem_keys_capture_iff hcalls, fun _ => failure_capture_eq_some_iff hcalls, ?_, ?_⟩
  · intro i hi
    obtain ⟨captured, hget⟩ := Keyed.exists_of_mem_keys hi
    obtain ⟨hd, -⟩ := get?_capture_eq_some_iff.mp hget
    exact (List.getElem?_eq_some_iff.mp hd).1
  · rintro before after typeName rfl hfailure
    exact failure_capture_append file pipeline hfailure after
  · rintro before i native after rfl
    have hi : i < file.declarations.length := hcalls (i, native) (by simp)
    rw [capture_append_singleton]
    obtain ⟨value, hform, hcall⟩ | ⟨typeName, cause, hform, hcall⟩ | ⟨e, hform, hnone, hcall⟩ :=
      call_cases pipeline (List.getElem?_eq_getElem hi) native (file.capture pipeline before)
    · rw [hcall, hform]
      exact ⟨_, rfl, by simp [Except.isOk, Except.toBool]⟩
    · rw [hcall, hform]
      exact ⟨_, rfl, by simp [Except.isOk, Except.toBool, refusedType?]⟩
    · rw [hform] at hnone
      rw [hcall, hform]
      exact ⟨_, rfl, by simp [Except.isOk, Except.toBool, hnone]⟩

end Spec

end Capture

section Samples

open CssColors

/-- A file with two declarations. -/
def sampleSheet : SheetFile := .ofSource "/a.scss".toText 0 "$a: 1;\n$b: 2 !default;\n".toText

/-- Calls of both hooks: each of them keeps a value, the first one twice, and then fails, in the
meantime by a refusal and at last because a color is no number. -/
def sampleCalls : List (Nat × Native) :=
  [(1, .boolean true), (0, .string "x".toText),
    (0, .list [.null, .unsupported "Opaque".toText] .comma false), (0, .string "y".toText),
    (1, .unsupported "object".toText), (0, .color .nan .nan .nan .nan)]

theorem capture_sampleCalls :
    (∀ call ∈ sampleCalls, call.1 < sampleSheet.declarations.length) ∧
    (∀ d, sampleSheet.declarations[0]? = some d →
      Keyed.get? 0 (sampleSheet.capture [.serialize []] sampleCalls).slots =
        some ⟨d, .flat "SassString".toText "y".toText⟩) ∧
    1 ∈ Keyed.keys (sampleSheet.capture [.serialize []] sampleCalls).slots ∧
    (sampleSheet.capture [.serialize []] sampleCalls).failure = some "Opaque".toText := by
  have hcalls : ∀ call ∈ sampleCalls, call.1 < sampleSheet.declarations.length := by
    decide +kernel
  obtain ⟨-, -, hslot, hnone, hfailure, -⟩ :=
    @capture_spec _ sampleSheet [.serialize []] sampleCalls hcalls
  refine ⟨hcalls, ?_, ?_, ?_⟩
  · intro d hd
    -- the calls behind the last value that is kept are none of the same hook or fail
    refine (hslot 0 _).mpr
      ⟨hd, sampleCalls.take 3, .string "y".toText, sampleCalls.drop 4, rfl, rfl, ?_⟩
    intro native hmem
    obtain rfl : native = .color .nan .nan .nan .nan := by simpa [sampleCalls] using hmem
    decide
  · by_contra hmem
    exact (hnone 1).mp hmem (.boolean true) List.mem_cons_self rfl
  · refine (hfailure _).mpr ⟨sampleCalls.take 2, 0, _, sampleCalls.drop 3, rfl, ⟨none, rfl⟩, ?_⟩
    intro call hcall
    obtain rfl | rfl : call = (1, .boolean true) ∨ call = (0, .string "x".toText) := by
      simpa [sampleCalls] using hcall
    · rfl
    · rfl

end Samples

end SheetFile

/-! ## Several files -/

/-- A value that is passed to the hook of a declaration of a file, both given by their numbers. -/
structure HookValue where
  file : Nat
  declaration : Nat
  native : Native

/-- What the files have captured after calls of their hooks. -/
def captureAll [ColorNames] (pipeline : Pipeline) (files : List SheetFile)
    (calls : List HookValue) : List Captures :=
  calls.foldl (fun states call =>
    (captureHooks pipeline files call.file call.declaration call.native states).2)
    (files.map fun _ => .empty)

/-- The calls of the hooks of one file. -/
def callsOf (k : Nat) (calls : List HookValue) : List (Nat × Native) :=
  calls.filterMap fun call => if call.file = k then some (call.declaration, call.native) else none

theorem callsOf_append_singleton (k : Nat) (calls : List HookValue) (call : HookValue) :
    callsOf k (calls ++ [call]) =
      callsOf k calls ++ if call.file = k then [(call.declaration, call.native)] else [] := by
  rw [callsOf, List.filterMap_append]
  split_ifs with hk <;> simp [callsOf, hk]

/-- Each file captures what is passed to its own hooks. -/
theorem captureAll_eq [ColorNames] (pipeline : Pipeline) (files : List SheetFile)
    (calls : List HookValue) :
    captureAll pipeline files calls =
      files.mapIdx fun k file => file.capture pipeline (callsOf k calls) := by
  induction calls using List.reverseRecOn with
  | nil =>
    rw [eq_comm, List.mapIdx_eq_iff]
    intro k
    rw [captureAll, List.foldl_nil, List.getElem?_map]
    rfl
  | append_singleton calls call ih =>
    have hlast : captureAll pipeline files (calls ++ [call]) =
        (captureHooks pipeline files call.file call.declaration call.native
          (captureAll pipeline files calls)).2 := by
      rw [captureAll, List.foldl_append]
      rfl
    rw [hlast, ih, eq_comm, List.mapIdx_eq_iff]
    intro k
    rw [callsOf_append_singleton]
    cases hfile : files[call.file]? with
    | none =>
      -- no file has this number, so that nothing is captured
      have hne : files[k]? = none ∨ call.file ≠ k := by
        by_cases hk : call.file = k
        · exact .inl (hk ▸ hfile)
        · exact .inr hk
      rcases hne with hnone | hne
      · simp [captureHooks, hfile, hnone]
      · simp [captureHooks, hfile, hne]
    | some file =>
      simp only [captureHooks, hfile, List.getElem?_mapIdx, Option.map_some]
      by_cases hk : call.file = k
      · subst hk
        rw [if_pos rfl, hfile, Option.map_some, SheetFile.capture_append_singleton,
          List.getElem?_set_self', List.getElem?_mapIdx, hfile]
        rfl
      · rw [if_neg hk, List.append_nil, List.getElem?_set_ne hk, List.getElem?_mapIdx]

end StyleVars
