import StyleVars.Compile.LineCompiler
import StyleVars.Proofs.CapturedValues
import StyleVars.Proofs.HookNames
import StyleVars.Proofs.IncludedFiles
import StyleVars.Value.CssColors

/-!
# Values that hooks refuse

A value has no structured form when it has a value of an unsupported type anywhere in it, and the
failure names the first of these types (`Native.blames_structured`). A compiler that ends as soon as
one of its calls is refused makes no call after that one, so that the refusal an extraction reports
is that of the value at which its second compilation ended (`extract_refused`).
-/

namespace StyleVars

open Captures

/-! ## The unsupported types in a value -/

mutual

/-- The types of the unsupported values in a value, in the order in which a form of it is taken. -/
def Native.unsupportedTypes : Native → List Text
  | .null => []
  | .boolean _ => []
  | .string _ => []
  | .number .. => []
  | .color .. => []
  | .list items _ _ => unsupportedInItems items
  | .map entries => unsupportedInEntries entries
  | .unsupported typeName => [typeName]

/-- The types of the unsupported values in the items of a list. -/
def unsupportedInItems : List Native → List Text
  | [] => []
  | v :: rest => v.unsupportedTypes ++ unsupportedInItems rest

/-- The types of the unsupported values in the entries of a map, in each of them those in the value
first. -/
def unsupportedInEntries : List (Native × Native) → List Text
  | [] => []
  | (k, v) :: rest => v.unsupportedTypes ++ (k.unsupportedTypes ++ unsupportedInEntries rest)

end

/-- Taking a form of a value succeeds only when there are no unsupported types, and fails for such a
type only when it is the first of them. -/
structure Blames {α : Type} (outcome : Except Failure α) (types : List Text) : Prop where
  ok : outcome.isOk → types = []
  first : ∀ {typeName cause}, outcome = .error (.unsupportedType typeName cause) →
    types.head? = some typeName ∧ cause = none

namespace Blames

variable {α β : Type} {x : Except Failure α} {types more : List Text}

theorem pure (a : α) : Blames (.ok a) [] where
  ok := fun _ => rfl
  first := by simp

theorem unsupported (typeName : Text) :
    Blames (.error (.unsupportedType typeName none) : Except Failure α) [typeName] where
  ok := fun h => Bool.noConfusion h
  first := by
    intro typeName' cause h
    obtain ⟨rfl, rfl⟩ := Failure.unsupportedType.inj (Except.error.inj h)
    exact ⟨rfl, rfl⟩

theorem bind {f : α → Except Failure β} (hx : Blames x types)
    (hf : ∀ a, Blames (f a) more) : Blames (x >>= f) (types ++ more) := by
  cases x with
  | error e =>
    refine ⟨fun h => Bool.noConfusion h, ?_⟩
    intro typeName cause h
    obtain ⟨hhead, hcause⟩ := hx.first (congrArg Except.error (Except.error.inj h))
    rw [List.head?_append, hhead]
    exact ⟨rfl, hcause⟩
  | ok a =>
    rw [hx.ok rfl]
    exact hf a

theorem map (hx : Blames x types) (g : α → β) :
    Blames (x >>= fun a => Pure.pure (g a)) types := by
  have hbind := hx.bind fun a => pure (g a)
  rwa [List.append_nil] at hbind

end Blames

theorem blames_roundHalfUp (x : Binary64) : Blames (roundHalfUp x) [] := by
  unfold roundHalfUp
  split
  · exact ⟨fun _ => rfl, by simp⟩
  · exact ⟨fun _ => rfl, by simp⟩
  · exact .pure _

theorem blames_structuredColor (r g b a : Binary64) : Blames (structuredColor r g b a) [] :=
  (blames_roundHalfUp r).bind fun _ => (blames_roundHalfUp g).bind fun _ =>
    (blames_roundHalfUp b).map _

section Forms

variable [ColorNames]

theorem blames_flatColor (r g b a : Binary64) : Blames (flatColor r g b a) [] := by
  refine (blames_roundHalfUp r).bind fun _ => (blames_roundHalfUp g).bind fun _ =>
    (blames_roundHalfUp b).bind fun _ => ?_
  split_ifs
  · exact (blames_roundHalfUp _).map _
  · exact .pure _

mutual

theorem Native.blames_flatten (nested : Bool) (v : Native) :
    Blames (flatten nested v) v.unsupportedTypes := by
  cases v with
  | null => exact .pure _
  | boolean b => exact .pure _
  | string t => exact .pure _
  | number x unit => exact .pure _
  | color r g b a => exact blames_flatColor r g b a
  | list items separator bracketed =>
    rw [flatten, Native.unsupportedTypes]
    exact (blames_flattenItems items).map _
  | map entries =>
    rw [flatten, Native.unsupportedTypes]
    exact (blames_flattenEntries entries).map _
  | unsupported typeName => exact .unsupported typeName

theorem blames_flattenItems (items : List Native) :
    Blames (flattenItems items) (unsupportedInItems items) := by
  cases items with
  | nil => exact .pure _
  | cons v rest =>
    rw [flattenItems, unsupportedInItems]
    exact (Native.blames_flatten true v).bind fun _ => (blames_flattenItems rest).map _

theorem blames_flattenEntries (entries : List (Native × Native)) :
    Blames (flattenEntries entries) (unsupportedInEntries entries) := by
  match entries with
  | [] => exact .pure _
  | (k, v) :: rest =>
    rw [flattenEntries, unsupportedInEntries]
    exact (Native.blames_flatten false v).bind fun _ =>
      (Native.blames_flatten false k).bind fun _ => (blames_flattenEntries rest).map _

end

mutual

/-- A value has a structured form only when it has no unsupported types in it, and is refused only
for the first of them. -/
theorem Native.blames_structured (v : Native) : Blames v.structured v.unsupportedTypes := by
  cases v with
  | null => exact .pure _
  | boolean b => exact .pure _
  | string t => exact .pure _
  | number x unit => exact .pure _
  | color r g b a => exact blames_structuredColor r g b a
  | list items separator bracketed =>
    rw [Native.structured, Native.unsupportedTypes]
    exact (blames_structuredItems items).map _
  | map entries =>
    rw [Native.structured, Native.unsupportedTypes]
    exact (blames_structuredEntries entries).map _
  | unsupported typeName => exact .unsupported typeName

theorem blames_structuredItems (items : List Native) :
    Blames (structuredItems items) (unsupportedInItems items) := by
  cases items with
  | nil => exact .pure _
  | cons v rest =>
    rw [structuredItems, unsupportedInItems]
    exact (Native.blames_structured v).bind fun _ => (blames_structuredItems rest).map _

theorem blames_structuredEntries (entries : List (Native × Native)) :
    Blames (structuredEntries entries) (unsupportedInEntries entries) := by
  match entries with
  | [] => exact .pure _
  | (k, v) :: rest =>
    rw [structuredEntries, unsupportedInEntries]
    exact (Native.blames_structured v).bind fun _ =>
      (Native.blames_flatten false k).bind fun _ => (blames_structuredEntries rest).map _

end

end Forms

/-! ## Compilers that a refusal ends -/

namespace Work

variable {α β : Type}

/-- A course that only leaves notes and fails. -/
inductive FailsAtOnce : Work α → Prop
  | fail (message : Text) : FailsAtOnce (.fail (.compile message))
  | note (event : TraceEvent) {next : Work α} (h : next.FailsAtOnce) :
      FailsAtOnce (.note event next)

/-- A course that fails at once whenever one of its calls is refused. -/
inductive RefusesAtOnce : Work α → Prop
  | done (result : α) : RefusesAtOnce (.done result)
  | fail (failure : Failure) : RefusesAtOnce (.fail failure)
  | lookUp (importer : Nat) (path previous : Text)
      {next : Except Failure (Option (List Served)) → Work α}
      (h : ∀ answer, (next answer).RefusesAtOnce) :
      RefusesAtOnce (.lookUp importer path previous next)
  | call (function : Nat) (argument : Native) {next : Except Failure (Option Text) → Work α}
      (hrefused : ∀ message, (next (.ok (some message))).FailsAtOnce)
      (hothers : ∀ answer, (∀ message, answer ≠ .ok (some message)) →
        (next answer).RefusesAtOnce) : RefusesAtOnce (.call function argument next)
  | note (event : TraceEvent) {next : Work α} (h : next.RefusesAtOnce) :
      RefusesAtOnce (.note event next)

theorem FailsAtOnce.bind {work : Work α} (h : work.FailsAtOnce) (f : α → Work β) :
    (work.bind f).FailsAtOnce := by
  induction h with
  | fail message => exact .fail message
  | note event _ ih => exact .note event ih

theorem RefusesAtOnce.bind {work : Work α} (h : work.RefusesAtOnce) {f : α → Work β}
    (hf : ∀ a, (f a).RefusesAtOnce) : (work >>= f).RefusesAtOnce := by
  induction h with
  | done a => exact hf a
  | fail e => exact .fail e
  | lookUp i path previous _ ih => exact .lookUp i path previous ih
  | call i argument hrefused _ ih => exact .call i argument (fun m => (hrefused m).bind f) ih
  | note event _ ih => exact .note event ih

theorem RefusesAtOnce.foldlM {γ : Type} {step : β → γ → Work β}
    (hstep : ∀ s x, (step s x).RefusesAtOnce) (xs : List γ) (s : β) :
    (xs.foldlM step s).RefusesAtOnce := by
  induction xs generalizing s with
  | nil => exact .done s
  | cons x xs ih =>
    rw [List.foldlM_cons]
    exact (hstep s x).bind ih

end Work

namespace LineCompiler

open Work

theorem ask_refusesAtOnce (path previous : Text) (importer count : Nat) :
    (ask path previous importer count).RefusesAtOnce := by
  induction count generalizing importer with
  | zero => exact .done none
  | succ count ih =>
    refine .lookUp importer path previous fun answer => ?_
    rcases answer with e | _ | served
    · exact .fail e
    · exact ih (importer + 1)
    · exact .done _

theorem capture_refusesAtOnce (given : Surroundings) (function argument : Text) (s : State) :
    (capture given function argument s).RefusesAtOnce := by
  unfold capture
  split
  · exact .note _ (.done s)
  · refine .note _ (.call _ _ (fun message => .fail _) fun answer hanswer => ?_)
    rcases answer with e | _ | message
    · exact .fail e
    · exact .done _
    · exact absurd rfl (hanswer message)

variable {given : Surroundings} {enter : Text → Text → State → Work State}

theorem importPath_refusesAtOnce (henter : ∀ source name s, (enter source name s).RefusesAtOnce)
    (previous : Text) (s : State) (path : Text) :
    (importPath given enter previous s path).RefusesAtOnce := by
  refine (ask_refusesAtOnce path previous 0 given.importerCount).bind fun answer => ?_
  cases answer with
  | none =>
    refine .note _ ?_
    split_ifs
    · exact .done s
    · exact .fail _
  | some found =>
    refine .note _ (RefusesAtOnce.foldlM (fun s file => ?_) _ s)
    cases file.source with
    | none => exact .done s
    | some source => exact henter source file.name s

theorem runLine_refusesAtOnce (henter : ∀ source name s, (enter source name s).RefusesAtOnce)
    (previous : Text) (s : State) (line : Text) :
    (runLine given enter previous s line).RefusesAtOnce := by
  unfold runLine
  split
  · exact capture_refusesAtOnce ..
  · exact RefusesAtOnce.foldlM (importPath_refusesAtOnce henter previous) _ s
  · exact .fail _
  · exact .done _
  · exact .done s

theorem runSheet_refusesAtOnce (given : Surroundings) (depth : Nat) (source name : Text)
    (s : State) : (runSheet given depth source name s).RefusesAtOnce := by
  induction depth generalizing source name s with
  | zero => exact .fail _
  | succ depth ih => exact RefusesAtOnce.foldlM (runLine_refusesAtOnce ih name) _ s

end LineCompiler

theorem lineCompiler_refusesAtOnce (site : Site) (values : LineCompiler.Values)
    (request : CompileRequest) : (lineCompiler site values request).RefusesAtOnce := by
  have hsheet : ∀ source name, Work.RefusesAtOnce (do
      let given := LineCompiler.Surroundings.ofRequest request values
      let s ← LineCompiler.runSheet given (LineCompiler.maxDepth + 1) source name ⟨[], []⟩
      return s.css) := fun source name =>
    (LineCompiler.runSheet_refusesAtOnce ..).bind fun s => .done s.css
  unfold lineCompiler
  dsimp only
  split
  · exact hsheet _ _
  · split
    · exact hsheet _ _
    · exact .fail _

/-! ## The values that hooks receive -/

/-- The calls of a course with their arguments, those included in which its host fails. -/
def Work.calls {α σ : Type} (host : Host σ) : Work α → σ → List (Nat × Native)
  | .done _, _ => []
  | .fail _, _ => []
  | .lookUp i path previous next, s =>
    let (answer, s') := host.lookUp i path previous s
    calls host (next answer) s'
  | .call i argument next, s =>
    let (answer, s') := host.call i argument s
    (i, argument) :: calls host (next answer) s'
  | .note _ next, s => calls host next s

/-- The values that calls of functions pass to hooks. -/
def receivedBy (functions : List HostFunction) (calls : List (Nat × Native)) : List HookValue :=
  calls.filterMap fun call => (functions[call.1]?.bind HostFunction.hook?).map fun hook =>
    ⟨hook.1, hook.2, call.2⟩

/-- The values that the hooks receive in the second compilation. -/
def Preparation.received [ColorNames] (site : Site) (compiler : Compiler) (p : Preparation) :
    List HookValue :=
  match compileRequest site p.job with
  | .error _ => []
  | .ok (entry, includePaths, request) =>
    let functions := p.job.functions.map Prod.snd
    receivedBy functions <| (compiler request).calls
      (compileHost site entry includePaths p.job.importers functions
        (captureHooks p.pipeline p.files))
      (.start entry, p.files.map fun _ => .empty)

theorem receivedBy_cons (functions : List HostFunction) (call : Nat × Native)
    (calls : List (Nat × Native)) :
    receivedBy functions (call :: calls) =
      ((functions[call.1]?.bind HostFunction.hook?).map fun hook =>
        (⟨hook.1, hook.2, call.2⟩ : HookValue)).toList ++ receivedBy functions calls := by
  cases h : functions[call.1]?.bind HostFunction.hook? with
  | none => simp only [receivedBy, List.filterMap_cons, h, Option.map_none, Option.toList_none,
      List.nil_append]
  | some hook => simp only [receivedBy, List.filterMap_cons, h, Option.map_some,
      Option.toList_some, List.singleton_append]

section Host

variable {σ : Type} (site : Site) (entry : Text) (includePaths : List Text)
  (importers : List Importer) {functions : List HostFunction} (hooks : Hooks σ)

/-- A call of a hook passes it the value and nothing else. -/
theorem compileHost_call_hook {i k j : Nat}
    (hhook : functions[i]?.bind HostFunction.hook? = some (k, j)) (argument : Native)
    (x : ImportRecord × σ) :
    (compileHost site entry includePaths importers functions hooks).call i argument x =
      ((hooks k j argument x.2).1, (x.1, (hooks k j argument x.2).2)) := by
  cases hfunction : functions[i]? with
  | none => simp [hfunction] at hhook
  | some function =>
    cases function with
    | custom f => simp [hfunction, HostFunction.hook?] at hhook
    | hook k' j' =>
      rw [hfunction, Option.bind_some, HostFunction.hook?, Option.some.injEq,
        Prod.mk.injEq] at hhook
      obtain ⟨rfl, rfl⟩ := hhook
      simp [compileHost, hfunction]

/-- A call of another function is never refused and leaves the hooks alone. -/
theorem compileHost_call_other {i : Nat}
    (hother : functions[i]?.bind HostFunction.hook? = none) (argument : Native)
    (x : ImportRecord × σ) :
    ∃ answer, (∀ message, answer ≠ .ok (some message)) ∧
      (compileHost site entry includePaths importers functions hooks).call i argument x =
        (answer, x) := by
  cases hfunction : functions[i]? with
  | none => exact ⟨.ok none, by simp, by simp [compileHost, hfunction]⟩
  | some function =>
    cases function with
    | hook k j => simp [hfunction, HostFunction.hook?] at hother
    | custom f =>
      refine ⟨if f.takesOne then .ok none else .error .parameterCount, ?_, ?_⟩
      · split_ifs <;> simp
      · simp [compileHost, hfunction]

/-- A run leaves the hooks as the values that they receive do. -/
theorem run_hooks {α : Type} (work : Work α) (x : ImportRecord × σ) :
    let host := compileHost site entry includePaths importers functions hooks
    (work.run host x).state.2 =
      (receivedBy functions (work.calls host x)).foldl
        (fun s call => (hooks call.file call.declaration call.native s).2) x.2 := by
  intro host
  induction work generalizing x with
  | done a => rfl
  | fail e => rfl
  | lookUp i path previous next ih =>
    have hstate : (host.lookUp i path previous x).2.2 = x.2 := rfl
    rw [Work.run, Work.calls, ih, hstate]
  | call i argument next ih =>
    rw [Work.run, Work.calls, receivedBy_cons]
    cases hhook : functions[i]?.bind HostFunction.hook? with
    | none =>
      obtain ⟨answer, -, hcall⟩ :=
        compileHost_call_other site entry includePaths importers hooks hhook argument x
      simp only [host, hcall]
      exact ih answer x
    | some hook =>
      obtain ⟨k, j⟩ := hook
      have hcall := compileHost_call_hook site entry includePaths importers hooks hhook argument x
      simp only [host, hcall]
      exact ih _ _
  | note event next ih => exact ih x

end Host

/-! ## The value at which a compilation ends -/

/-- The declaration to whose hook a value is passed. -/
def HookValue.declaration? (files : List SheetFile) (call : HookValue) : Option Declaration :=
  files[call.file]?.bind fun file => file.declarations[call.declaration]?

/-- The type for which a value is refused that is passed to the hook of a declaration. -/
def HookValue.refusal? [ColorNames] (pipeline : Pipeline) (files : List SheetFile)
    (call : HookValue) : Option Text :=
  (call.declaration? files).bind fun _ => refusedType? (capturedForm pipeline call.native)

section Refusals

variable [ColorNames] {pipeline : Pipeline} {files : List SheetFile}

theorem length_captureHooks (k j : Nat) (native : Native) (states : List Captures) :
    (captureHooks pipeline files k j native states).2.length = states.length := by
  unfold captureHooks
  split
  · exact List.length_set
  · rfl

/-- A hook refuses a value for its type, whatever has been captured before. -/
theorem captureHooks_answer (pipeline : Pipeline) {states : List Captures}
    (hlength : states.length = files.length) (k j : Nat) (native : Native) :
    let answer := (captureHooks pipeline files k j native states).1
    let refusal? := HookValue.refusal? pipeline files ⟨k, j, native⟩
    (refusal?.isSome ∧ ∃ message, answer = .ok (some message)) ∨
      refusal? = none ∧ ∀ message, answer ≠ .ok (some message) := by
  intro answer refusal?
  cases hfile : files[k]? with
  | none =>
    refine .inr ⟨by simp [refusal?, HookValue.refusal?, HookValue.declaration?, hfile], ?_⟩
    simp [answer, captureHooks, hfile]
  | some file =>
    obtain ⟨c, hc⟩ : ∃ c, states[k]? = some c := by
      have hlt : k < files.length := (List.getElem?_eq_some_iff.mp hfile).1
      exact ⟨_, List.getElem?_eq_getElem (hlength ▸ hlt)⟩
    have hanswer : answer = (c.call pipeline file.declarations j native).1 := by
      simp [answer, captureHooks, hfile, hc]
    have hrefusal : refusal? = file.declarations[j]?.bind fun _ =>
        refusedType? (capturedForm pipeline native) := by
      simp [refusal?, HookValue.refusal?, HookValue.declaration?, hfile]
    rw [hanswer, hrefusal]
    cases hd : file.declarations[j]? with
    | none => exact .inr ⟨rfl, by simp [Captures.call, hd]⟩
    | some d =>
      rw [Option.bind_some]
      obtain ⟨value, hform, hcall⟩ | ⟨t, cause, hform, hcall⟩ | ⟨e, hform, hnone, hcall⟩ :=
        call_cases pipeline hd native c
      · exact .inr ⟨by rw [hform]; rfl, by simp [hcall]⟩
      · exact .inl ⟨by rw [hform]; rfl, _, by rw [hcall]⟩
      · exact .inr ⟨hnone, by simp [hcall]⟩

omit [ColorNames] in
theorem Work.FailsAtOnce.run {α σ : Type} {work : Work α} (h : work.FailsAtOnce) (host : Host σ)
    (s : σ) :
    work.calls host s = [] ∧ ∃ message, (work.run host s).outcome = .error (.compile message) := by
  induction h with
  | fail message => exact ⟨rfl, message, rfl⟩
  | note event _ ih => exact ih

/-- A value that a hook refuses is the last one that a hook receives, the first one that is refused,
and the end of the compilation. -/
def EndsAtRefusal {α : Type} (pipeline : Pipeline) (files : List SheetFile)
    (received : List HookValue) (outcome : Except Failure α) : Prop :=
  ∀ call ∈ received, (call.refusal? pipeline files).isSome →
    (∃ before, received = before ++ [call] ∧
      ∀ earlier ∈ before, earlier.refusal? pipeline files = none) ∧
    ∃ message, outcome = .error (.compile message)

namespace EndsAtRefusal

variable {α : Type} {outcome : Except Failure α} {received : List HookValue} {first : HookValue}

theorem nil : EndsAtRefusal pipeline files [] outcome := fun _ hcall => nomatch hcall

theorem last (hfails : ∃ message, outcome = .error (.compile message)) :
    EndsAtRefusal pipeline files [first] outcome := by
  intro call hmem _
  obtain rfl := List.mem_singleton.mp hmem
  exact ⟨⟨[], rfl, by simp⟩, hfails⟩

theorem cons (hnone : first.refusal? pipeline files = none)
    (h : EndsAtRefusal pipeline files received outcome) :
    EndsAtRefusal pipeline files (first :: received) outcome := by
  intro call hmem hsome
  rcases List.mem_cons.mp hmem with rfl | hmem
  · rw [hnone] at hsome
    exact nomatch hsome
  · obtain ⟨⟨before, rfl, hbefore⟩, hfails⟩ := h call hmem hsome
    refine ⟨⟨first :: before, rfl, ?_⟩, hfails⟩
    intro earlier hearlier
    rcases List.mem_cons.mp hearlier with rfl | hin
    · exact hnone
    · exact hbefore earlier hin

end EndsAtRefusal

/-- A compiler that a refusal ends passes no value to a hook after one that is refused. -/
theorem endsAtRefusal_run {α : Type} {work : Work α} (hwork : work.RefusesAtOnce) (site : Site)
    (entry : Text) (includePaths : List Text) (importers : List Importer)
    (functions : List HostFunction) {x : ImportRecord × List Captures}
    (hlength : x.2.length = files.length) :
    let host := compileHost site entry includePaths importers functions
      (captureHooks pipeline files)
    EndsAtRefusal pipeline files (receivedBy functions (work.calls host x))
      (work.run host x).outcome := by
  intro host
  induction hwork generalizing x with
  | done a => exact .nil
  | fail e => exact .nil
  | lookUp i path previous _ ih =>
    rw [Work.run, Work.calls]
    exact ih _ hlength
  | @call i argument next hrefused _ ih =>
    rw [Work.run, Work.calls, receivedBy_cons]
    cases hhook : functions[i]?.bind HostFunction.hook? with
    | none =>
      obtain ⟨answer, hanswer, hcall⟩ := compileHost_call_other site entry includePaths importers
        (captureHooks pipeline files) hhook argument x
      simp only [host, hcall]
      exact ih answer hanswer hlength
    | some hook =>
      obtain ⟨k, j⟩ := hook
      let states := (captureHooks pipeline files k j argument x.2).2
      have hstates : states.length = files.length := by rw [length_captureHooks, hlength]
      have hcall := compileHost_call_hook site entry includePaths importers
        (captureHooks pipeline files) hhook argument x
      rcases captureHooks_answer pipeline hlength k j argument with
        ⟨-, message, hanswer⟩ | ⟨hnone, hanswer⟩
      · -- the compiler is told of the refusal and makes no further call
        obtain ⟨hcalls, hfails⟩ := (hrefused message).run host (x.1, states)
        simp only [host, hcall, hanswer] at hcalls hfails ⊢
        rw [hcalls]
        exact .last hfails
      · simp only [host, hcall]
        exact .cons hnone (ih _ hanswer (x := (x.1, states)) hstates)
  | note event _ ih => exact ih hlength

omit [ColorNames] in
theorem mem_callsOf {k : Nat} {calls : List HookValue} {x : Nat × Native} :
    x ∈ callsOf k calls ↔ (⟨k, x.1, x.2⟩ : HookValue) ∈ calls := by
  rw [callsOf, List.mem_filterMap]
  constructor
  · rintro ⟨call, hcall, h⟩
    split_ifs at h with hk
    obtain rfl := Option.some.inj h
    subst hk
    exact hcall
  · exact fun hcall => ⟨_, hcall, if_pos rfl⟩

/-- A file remembers a refusal of one of its hooks. -/
theorem refusal?_of_failure {calls : List HookValue} {t : Text}
    (h : firstRefusal (captureAll pipeline files calls) = some t) :
    ∃ call ∈ calls, call.refusal? pipeline files = some t := by
  obtain ⟨c, hc, hfailure⟩ := List.exists_of_findSome?_eq_some h
  rw [captureAll_eq] at hc
  obtain ⟨k, hk, rfl⟩ := List.mem_mapIdx.mp hc
  rw [SheetFile.failure_capture] at hfailure
  obtain ⟨x, hx, hrefused⟩ := List.exists_of_findSome?_eq_some hfailure
  refine ⟨_, mem_callsOf.mp hx, ?_⟩
  rw [HookValue.refusal?, HookValue.declaration?, List.getElem?_eq_getElem hk, Option.bind_some]
  exact hrefused

/-- A refusal is remembered. -/
theorem failure_of_refusal? {calls : List HookValue} {call : HookValue} (hcall : call ∈ calls)
    (hrefused : (call.refusal? pipeline files).isSome) :
    (firstRefusal (captureAll pipeline files calls)).isSome := by
  rw [Option.isSome_iff_ne_none, firstRefusal, Ne, List.findSome?_eq_none_iff]
  intro hnone
  obtain ⟨k, j, native⟩ := call
  cases hfile : files[k]? with
  | none => simp [HookValue.refusal?, HookValue.declaration?, hfile] at hrefused
  | some file =>
    have hcaptured : file.capture pipeline (callsOf k calls) ∈ captureAll pipeline files calls := by
      obtain ⟨hk, rfl⟩ := List.getElem?_eq_some_iff.mp hfile
      rw [captureAll_eq]
      exact List.mem_mapIdx.mpr ⟨k, hk, rfl⟩
    have hfailure := hnone _ hcaptured
    rw [SheetFile.failure_capture, List.findSome?_eq_none_iff] at hfailure
    have hkept := hfailure (j, native) (mem_callsOf.mpr hcall)
    rw [HookValue.refusal?, HookValue.declaration?, hfile, Option.bind_some] at hrefused
    rw [refusedBy] at hkept
    rw [hkept] at hrefused
    exact Bool.false_ne_true hrefused

/-- When the last value is the only one that is refused, its type is the one that is reported. -/
theorem firstRefusal_of_last {before : List HookValue} {call : HookValue} {t : Text}
    (hbefore : ∀ earlier ∈ before, earlier.refusal? pipeline files = none)
    (hcall : call.refusal? pipeline files = some t) :
    firstRefusal (captureAll pipeline files (before ++ [call])) = some t := by
  have hmem : call ∈ before ++ [call] := by simp
  obtain ⟨t', ht'⟩ := Option.isSome_iff_exists.mp
    (failure_of_refusal? hmem (by rw [hcall]; rfl))
  obtain ⟨refused, hrefused, htype⟩ := refusal?_of_failure ht'
  rcases List.mem_append.mp hrefused with hin | hin
  · rw [hbefore refused hin] at htype
    exact nomatch htype
  · obtain rfl := List.mem_singleton.mp hin
    rw [ht', ← htype, hcall]

end Refusals

/-! ## What an extraction reports -/

section Preparation

variable [ColorNames] (site : Site) (compiler : Compiler) (p : Preparation)

/-- The second compilation leaves the hooks as the values that they receive do. -/
theorem hooks_compile :
    (p.compile site compiler).hooks = captureAll p.pipeline p.files (p.received site compiler) := by
  unfold Preparation.compile Preparation.received StyleVars.compile
  cases compileRequest site p.job with
  | error e => rfl
  | ok request => exact run_hooks ..

/-- In the second compilation as well a refused value is the last one that a hook receives. -/
theorem endsAtRefusal_compile (hcompiler : ∀ request, (compiler request).RefusesAtOnce) :
    EndsAtRefusal p.pipeline p.files (p.received site compiler)
      (p.compile site compiler).recorded.outcome := by
  unfold Preparation.received Preparation.compile StyleVars.compile
  cases compileRequest site p.job with
  | error e => exact .nil
  | ok request =>
    intro call hcall hrefused
    obtain ⟨hlast, message, hfails⟩ := endsAtRefusal_run (hcompiler request.2.2) site request.1
      request.2.1 p.job.importers (p.job.functions.map Prod.snd)
      (x := (.start request.1, p.files.map fun _ => .empty)) (List.length_map _) call hcall hrefused
    refine ⟨hlast, message, ?_⟩
    dsimp only
    rw [hfails]
    rfl

end Preparation

/-- An extraction whose payload is finished in the given way, from the pipeline and the payload of
the variables. -/
def extractWith [ColorNames] (finish : Pipeline → Data → Except Failure Data) (site : Site)
    (registry : Registry) (compiler : Compiler) (sheets : SourceSet) (job : SheetJob)
    (specs : List PluginSpec) : Recorded Data := do
  let prepared ← prepare site registry sheets job specs
  let run := prepared.compile site compiler
  Recorded.tell run.recorded.events
  let _ ← secondOutcome run.hooks run.recorded.outcome
  let payload ← collectPayload prepared.files run.hooks
  finish prepared.pipeline payload

section Extract

variable [ColorNames] {site : Site} {registry : Registry} {compiler : Compiler}
  {sheets : SourceSet} {job : SheetJob} {specs : List PluginSpec} {p : Preparation}

/-- An extraction finishes its payload by its plugins. -/
theorem extract_eq_extractWith (patience : Patience) :
    extract site registry compiler patience sheets job specs =
      extractWith (fun pipeline => pipeline.runOnPayload patience) site registry compiler sheets
        job specs := by
  cases patience <;> rfl

/-- When the second compilation fails, nothing is left to be finished. -/
theorem extractWith_of_error (hp : (prepare site registry sheets job specs).outcome = .ok p)
    {e : Failure} (he : secondOutcome (p.compile site compiler).hooks
      (p.compile site compiler).recorded.outcome = .error e)
    (finish : Pipeline → Data → Except Failure Data) :
    extractWith finish site registry compiler sheets job specs =
      ⟨(prepare site registry sheets job specs).events ++
        (p.compile site compiler).recorded.events, .error e⟩ := by
  simp [extractWith, Bind.bind, Recorded.bind, hp, he, Recorded.tell, liftM, monadLift,
    MonadLift.monadLift, Recorded.lift]

/-- With a compiler that a refusal ends, an extraction in which a hook receives a value with an
unsupported type fails for the first such type in that value, with the failure of the second
compilation as the cause, and whatever its payload would have been finished by. When no hook fails,
the failure of the second compilation is that of the extraction. -/
theorem extract_refused (hcompiler : ∀ request, (compiler request).RefusesAtOnce)
    (hp : (prepare site registry sheets job specs).outcome = .ok p) :
    let second := (p.compile site compiler).recorded
    let events := (prepare site registry sheets job specs).events ++ second.events
    (∀ patience, extract site registry compiler patience sheets job specs =
      extractWith (fun pipeline => pipeline.runOnPayload patience) site registry compiler sheets
        job specs) ∧
    (∀ call ∈ p.received site compiler, ∀ t cause, (call.declaration? p.files).isSome →
      call.native.structured = .error (.unsupportedType t cause) →
        call.native.unsupportedTypes.head? = some t ∧
        ∃ message, second.outcome = .error (.compile message) ∧
          ∀ finish, extractWith finish site registry compiler sheets job specs =
            ⟨events, .error (.unsupportedType t (some message))⟩) ∧
    ∀ message, second.outcome = .error (.compile message) →
      (∀ call ∈ p.received site compiler, (call.declaration? p.files).isSome →
        (capturedForm p.pipeline call.native).isOk) →
      ∀ finish, extractWith finish site registry compiler sheets job specs =
        ⟨events, .error (.compile message)⟩ := by
  intro second events
  refine ⟨extract_eq_extractWith, ?_, ?_⟩
  · intro call hcall t cause hdeclared hvalue
    refine ⟨((Native.blames_structured call.native).first hvalue).1, ?_⟩
    have hrefusal : call.refusal? p.pipeline p.files = some t := by
      obtain ⟨d, hd⟩ := Option.isSome_iff_exists.mp hdeclared
      rw [HookValue.refusal?, hd, Option.bind_some, capturedForm, hvalue]
      rfl
    obtain ⟨⟨before, hreceived, hbefore⟩, message, hmessage⟩ :=
      endsAtRefusal_compile site compiler p hcompiler call hcall (by rw [hrefusal]; rfl)
    have hfirst : firstRefusal (p.compile site compiler).hooks = some t := by
      rw [hooks_compile, hreceived]
      exact firstRefusal_of_last hbefore hrefusal
    refine ⟨message, hmessage, extractWith_of_error hp ?_⟩
    rw [hmessage, secondOutcome, hfirst]
  · intro message hmessage hkept
    have hnone : firstRefusal (p.compile site compiler).hooks = none := by
      rw [hooks_compile, Option.eq_none_iff_forall_ne_some]
      intro t ht
      obtain ⟨call, hcall, hrefusal⟩ := refusal?_of_failure ht
      obtain ⟨d, hd, hrefused⟩ := Option.bind_eq_some_iff.mp hrefusal
      obtain ⟨cause, hform⟩ := refusedType?_eq_some_iff.mp hrefused
      have hok := hkept call hcall (by rw [hd]; rfl)
      rw [hform] at hok
      exact nomatch hok
    refine extractWith_of_error hp ?_
    change secondOutcome _ second.outcome = _
    rw [hmessage, secondOutcome, hnone]

end Extract

/-- A sheet with three variables, of which the second one has a value that cannot be captured. -/
def refusedSheets : SourceSet :=
  ⟨"/work/main.scss".toText, ["/work/main.scss".toText],
    [("/work/main.scss".toText, "$a: 1;\n$b: 2;\n$c: 3;\n".toText)]⟩

/-- A site without files. -/
def emptySite : Site := ⟨.ofFiles [], .alone (.ofText "/work".toText) (.ofText "/root".toText)⟩

/-- A compiler in whose values two are of an unsupported type. -/
def refusingCompiler : Compiler :=
  lineCompiler emptySite [("$b".toText, [.list
    [.null, .map [(.unsupported "second".toText, .unsupported "first".toText)]] .comma false])]

section Samples

open CssColors

theorem extract_refusedSheets :
    (∀ request, (refusingCompiler request).RefusesAtOnce) ∧
    ∃ p, (prepare emptySite [] refusedSheets .default []).outcome = .ok p ∧
      (∃ call ∈ p.received emptySite refusingCompiler, (call.declaration? p.files).isSome ∧
        ∃ cause, call.native.structured = .error (.unsupportedType "first".toText cause)) ∧
      ∃ message, ∀ patience,
        (extract emptySite [] refusingCompiler patience refusedSheets .default []).outcome =
          .error (.unsupportedType "first".toText (some message)) := by
  obtain ⟨hok, hcheck⟩ : (prepare emptySite [] refusedSheets .default []).outcome.isOk ∧
      ∀ p ∈ (prepare emptySite [] refusedSheets .default []).outcome.toOption,
        ∃ call ∈ p.received emptySite refusingCompiler, (call.declaration? p.files).isSome ∧
          refusedType? call.native.structured = some "first".toText := by
    decide +kernel
  obtain ⟨p, hp⟩ := Except.exists_eq_ok hok
  obtain ⟨call, hcall, hdeclared, hrefused⟩ := hcheck p (by rw [hp]; rfl)
  obtain ⟨cause, hvalue⟩ := refusedType?_eq_some_iff.mp hrefused
  have hcompiler : ∀ request, (refusingCompiler request).RefusesAtOnce :=
    lineCompiler_refusesAtOnce emptySite _
  obtain ⟨hextract, hrefusals, -⟩ := extract_refused hcompiler hp
  obtain ⟨-, message, -, hfinish⟩ := hrefusals call hcall _ cause hdeclared hvalue
  refine ⟨hcompiler, p, hp, ⟨call, hcall, hdeclared, cause, hvalue⟩, message, ?_⟩
  intro patience
  exact congrArg Recorded.outcome ((hextract patience).trans (hfinish _))

end Samples

end StyleVars
