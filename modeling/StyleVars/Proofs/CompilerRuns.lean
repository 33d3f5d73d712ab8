import StyleVars.Proofs.HookNames
import StyleVars.Proofs.MergedVariables

/-!
# What passes between a compiler and its host

The exchanges of a run are the answers to its imports and its calls of functions. What each exchange
preserves holds at the end of the run (`Keeps.run`), whatever the compiler makes of a failure of its
host. The hooks of a compilation see its calls alone (`Hooks.Keeps.compile`), and they have kept a
value for exactly the declarations whose hooks took one (`HoldsTaken`).
-/

namespace StyleVars

/-! ## Exchanges -/

/-- What passes between a compiler and its host: the files that an import is answered with, or a
call of a function, with the message if the value is refused. -/
inductive Exchange
  | served (files : List Served)
  | called (function : Nat) (refusal : Option Text)

/-- The exchange of an import, none when the host fails. -/
def Exchange.ofLookUp : Except Failure (Option (List Served)) → List Exchange
  | .ok files => [.served (files.getD [])]
  | .error _ => []

/-- The exchange of a call, none when the host fails. -/
def Exchange.ofCall (function : Nat) : Except Failure (Option Text) → List Exchange
  | .ok refusal => [.called function refusal]
  | .error _ => []

/-- The exchanges of a course with its host, in order. -/
def Work.exchanges {α σ : Type} (host : Host σ) : Work α → σ → List Exchange
  | .done _, _ => []
  | .fail _, _ => []
  | .lookUp i path previous next, s =>
    let (answer, s') := host.lookUp i path previous s
    Exchange.ofLookUp answer ++ exchanges host (next answer) s'
  | .call i argument next, s =>
    let (answer, s') := host.call i argument s
    Exchange.ofCall i answer ++ exchanges host (next answer) s'
  | .note _ next, s => exchanges host next s

/-- Every exchange with the host preserves what holds of the exchanges so far and the state. -/
structure Host.Keeps {σ : Type} (host : Host σ) (P : List Exchange → σ → Prop) : Prop where
  served : ∀ {past s s' i path previous answer}, P past s →
    host.lookUp i path previous s = (answer, s') → P (past ++ Exchange.ofLookUp answer) s'
  called : ∀ {past s s' i argument answer}, P past s →
    host.call i argument s = (answer, s') → P (past ++ Exchange.ofCall i answer) s'

/-- What every exchange preserves holds at the end of a run. -/
theorem Host.Keeps.run {α σ : Type} {host : Host σ} {P : List Exchange → σ → Prop}
    (hkeeps : host.Keeps P) (work : Work α) {past : List Exchange} {s : σ} (h : P past s) :
    P (past ++ work.exchanges host s) (work.run host s).state := by
  induction work generalizing past s with
  | done a =>
    rw [Work.exchanges, List.append_nil]
    exact h
  | fail e =>
    rw [Work.exchanges, List.append_nil]
    exact h
  | lookUp i path previous next ih =>
    rw [Work.run, Work.exchanges, ← List.append_assoc]
    exact ih _ (hkeeps.served h rfl)
  | call i argument next ih =>
    rw [Work.run, Work.exchanges, ← List.append_assoc]
    exact ih _ (hkeeps.called h rfl)
  | note event next ih => exact ih h

/-! ## The hooks of a compilation -/

/-- The hooks that took a value, as the file and the declaration each of them is for. -/
def takenHooks (functions : List HostFunction) (past : List Exchange) : List (Nat × Nat) :=
  past.filterMap fun
    | .called i none => functions[i]?.bind HostFunction.hook?
    | _ => none

/-- The exchanges of a compilation with its host. -/
def compileExchanges {σ : Type} (site : Site) (compiler : Compiler) (job : SheetJob)
    (hooks : Hooks σ) (s : σ) : List Exchange :=
  match compileRequest site job with
  | .error _ => []
  | .ok (entry, includePaths, request) =>
    (compiler request).exchanges
      (compileHost site entry includePaths job.importers (job.functions.map Prod.snd) hooks)
      (.start entry, s)

/-- What holds of the hooks that took a value and of the state of the hooks is preserved whenever a
hook takes another one, refuses it or fails. -/
structure Hooks.Keeps {σ : Type} (hooks : Hooks σ) (P : List (Nat × Nat) → σ → Prop) : Prop where
  taken : ∀ {past s s' file declaration argument}, P past s →
    hooks file declaration argument s = (.ok none, s') → P (past ++ [(file, declaration)]) s'
  notTaken : ∀ {past s s' file declaration argument answer}, P past s → answer ≠ .ok none →
    hooks file declaration argument s = (answer, s') → P past s'

section Hooks

variable {σ : Type} {hooks : Hooks σ} {P : List (Nat × Nat) → σ → Prop}

theorem takenHooks_append_lookUp (functions : List HostFunction) (past : List Exchange)
    (answer : Except Failure (Option (List Served))) :
    takenHooks functions (past ++ Exchange.ofLookUp answer) = takenHooks functions past := by
  cases answer <;> simp [takenHooks, Exchange.ofLookUp]

theorem takenHooks_append_taken (functions : List HostFunction) (past : List Exchange) (i : Nat) :
    takenHooks functions (past ++ Exchange.ofCall i (.ok none)) =
      takenHooks functions past ++ (functions[i]?.bind HostFunction.hook?).toList := by
  cases h : functions[i]?.bind HostFunction.hook? <;> simp [takenHooks, Exchange.ofCall, h]

theorem takenHooks_append_notTaken (functions : List HostFunction) (past : List Exchange) (i : Nat)
    {answer : Except Failure (Option Text)} (h : answer ≠ .ok none) :
    takenHooks functions (past ++ Exchange.ofCall i answer) = takenHooks functions past := by
  rcases answer with e | _ | message
  · simp [Exchange.ofCall]
  · exact absurd rfl h
  · simp [takenHooks, Exchange.ofCall]

/-- A function that is no hook changes nothing. -/
theorem takenHooks_append_other {functions : List HostFunction} {i : Nat}
    (h : functions[i]?.bind HostFunction.hook? = none) (past : List Exchange)
    (answer : Except Failure (Option Text)) :
    takenHooks functions (past ++ Exchange.ofCall i answer) = takenHooks functions past := by
  by_cases htaken : answer = .ok none
  · rw [htaken, takenHooks_append_taken, h, Option.toList_none, List.append_nil]
  · exact takenHooks_append_notTaken functions past i htaken

/-- An import leaves the hooks alone, and so does every function that is none. -/
theorem Hooks.Keeps.host (hkeeps : hooks.Keeps P) (site : Site) (entry : Text)
    (includePaths : List Text) (importers : List Importer) (functions : List HostFunction) :
    (compileHost site entry includePaths importers functions hooks).Keeps fun past s =>
      P (takenHooks functions past) s.2 where
  served := by
    intro past s s' i path previous answer h hanswer
    rw [takenHooks_append_lookUp]
    have hstate : s'.2 = s.2 := congrArg (fun x => x.2.2) hanswer.symm
    rwa [hstate]
  called := by
    intro past s s' i argument answer h hanswer
    simp only [compileHost] at hanswer
    cases hfunction : functions[i]? with
    | none =>
      rw [hfunction] at hanswer
      obtain ⟨-, rfl⟩ := Prod.mk.inj hanswer
      rw [takenHooks_append_other (by rw [hfunction]; rfl)]
      exact h
    | some function =>
      cases function with
      | custom f =>
        -- a function of the caller never sees the state of the hooks
        rw [hfunction] at hanswer
        obtain ⟨-, rfl⟩ := Prod.mk.inj hanswer
        rw [takenHooks_append_other (by rw [hfunction]; rfl)]
        exact h
      | hook file declaration =>
        rw [hfunction] at hanswer
        rcases hhook : hooks file declaration argument s.2 with ⟨reply, after⟩
        simp only [hhook] at hanswer
        obtain ⟨rfl, rfl⟩ := Prod.mk.inj hanswer
        by_cases htaken : reply = .ok none
        · subst htaken
          rw [takenHooks_append_taken, hfunction, Option.bind_some]
          exact hkeeps.taken h hhook
        · rw [takenHooks_append_notTaken functions past i htaken]
          exact hkeeps.notTaken h htaken hhook

/-- The calls of a compilation alone decide about the state of the hooks. -/
theorem Hooks.Keeps.compile (hkeeps : hooks.Keeps P) (site : Site) (compiler : Compiler)
    (job : SheetJob) {s : σ} (h : P [] s) :
    P (takenHooks (job.functions.map Prod.snd) (compileExchanges site compiler job hooks s))
      (StyleVars.compile site compiler job hooks s).hooks := by
  unfold StyleVars.compile compileExchanges
  rcases compileRequest site job with e | ⟨entry, includePaths, request⟩
  · exact h
  · have hstart : P (takenHooks (job.functions.map Prod.snd) [])
        (ImportRecord.start entry, s).2 := h
    exact (hkeeps.host site entry includePaths job.importers (job.functions.map Prod.snd)).run
      (compiler request) hstart

end Hooks

/-! ## The values that the hooks keep -/

/-- A hook that takes a value keeps it in the place of its declaration. -/
theorem Captures.call_taken [ColorNames] {pipeline : Pipeline} {declarations : List Declaration}
    {index : Nat} {native : Native} {c c' : Captures}
    (h : c.call pipeline declarations index native = (.ok none, c')) :
    declarations[index]? = none ∧ c' = c ∨
      ∃ d value, declarations[index]? = some d ∧ c'.slots = Keyed.put index ⟨d, value⟩ c.slots := by
  unfold Captures.call at h
  split at h
  · rename_i hnone
    exact .inl ⟨hnone, (Prod.mk.inj h).2.symm⟩
  · rename_i d hd
    split at h
    · rename_i value hvalue
      obtain ⟨-, rfl⟩ := Prod.mk.inj h
      exact .inr ⟨d, value, hd, rfl⟩
    · simp at h
    · simp at h

/-- A hook that does not take a value leaves those it has. -/
theorem Captures.call_notTaken [ColorNames] {pipeline : Pipeline} {declarations : List Declaration}
    {index : Nat} {native : Native} {c c' : Captures} {answer : Except Failure (Option Text)}
    (hanswer : answer ≠ .ok none)
    (h : c.call pipeline declarations index native = (answer, c')) : c'.slots = c.slots := by
  unfold Captures.call at h
  split at h
  · exact absurd (Prod.mk.inj h).1.symm hanswer
  · split at h
    · exact absurd (Prod.mk.inj h).1.symm hanswer
    · obtain ⟨-, rfl⟩ := Prod.mk.inj h
      rfl
    · obtain ⟨-, rfl⟩ := Prod.mk.inj h
      rfl

/-- The hooks have kept one value for each declaration whose hook took one, and no other. -/
structure HoldsTaken (files : List SheetFile) (taken : List (Nat × Nat))
    (states : List Captures) : Prop where
  length : states.length = files.length
  nodup : ∀ c ∈ states, (Keyed.keys c.slots).Nodup
  slots : ∀ {i file c}, files[i]? = some file → states[i]? = some c → ∀ j,
    (Keyed.get? j c.slots).map Captured.declaration =
      if (i, j) ∈ taken then file.declarations[j]? else none

theorem HoldsTaken.start (files : List SheetFile) :
    HoldsTaken files [] (files.map fun _ => Captures.empty) where
  length := List.length_map _
  nodup := by simp [Captures.empty, Keyed.keys]
  slots := by
    intro i file c hfile hc j
    rw [List.getElem?_map, hfile, Option.map_some] at hc
    rw [← Option.some.inj hc]
    simp [Captures.empty, Keyed.get?]

/-- The values of one file are replaced. -/
theorem HoldsTaken.set {files : List SheetFile} {taken taken' : List (Nat × Nat)}
    {states : List Captures} (h : HoldsTaken files taken states) {k : Nat} {c' : Captures}
    (hnodup : (Keyed.keys c'.slots).Nodup)
    (hothers : ∀ i, i ≠ k → ∀ j, (i, j) ∈ taken' ↔ (i, j) ∈ taken)
    (hslots : ∀ {file}, files[k]? = some file → ∀ j,
      (Keyed.get? j c'.slots).map Captured.declaration =
        if (k, j) ∈ taken' then file.declarations[j]? else none) :
    HoldsTaken files taken' (states.set k c') where
  length := by rw [List.length_set, h.length]
  nodup := by
    intro c hc
    obtain hc | rfl := List.mem_or_eq_of_mem_set hc
    · exact h.nodup c hc
    · exact hnodup
  slots := by
    intro i file c hfile hc j
    by_cases hi : i = k
    · subst hi
      rw [List.getElem?_set_self'] at hc
      obtain ⟨-, -, rfl⟩ := Option.map_eq_some_iff.mp hc
      exact hslots hfile j
    · rw [List.getElem?_set_ne (Ne.symm hi)] at hc
      rw [h.slots hfile hc j]
      simp only [hothers i hi j]

/-- The hooks of the files keep the values they take. -/
theorem captureHooks_keeps [ColorNames] (pipeline : Pipeline) (files : List SheetFile) :
    (captureHooks pipeline files).Keeps (HoldsTaken files) where
  taken := by
    intro taken states states' k index native h hanswer
    rcases hfile : files[k]? with _ | file
    · -- no file has this number, so that nothing is said about the hook
      have hstates : states' = states := by
        simp only [captureHooks, hfile] at hanswer
        exact (Prod.mk.inj hanswer).2.symm
      rw [hstates]
      refine ⟨h.length, h.nodup, ?_⟩
      intro i f c hf hc j
      have hne : i ≠ k := by
        rintro rfl
        simp [hfile] at hf
      rw [h.slots hf hc j]
      simp [hne]
    · obtain ⟨c, hc⟩ : ∃ c, states[k]? = some c := by
        have hlt : k < files.length := (List.getElem?_eq_some_iff.mp hfile).1
        exact ⟨_, List.getElem?_eq_getElem (h.length ▸ hlt)⟩
      simp only [captureHooks, hfile, hc] at hanswer
      obtain ⟨hcall, rfl⟩ := Prod.mk.inj hanswer
      have hcall' : c.call pipeline file.declarations index native =
          (.ok none, (c.call pipeline file.declarations index native).2) := Prod.ext hcall rfl
      refine h.set (Captures.nodup_call (h.nodup c (List.mem_of_getElem? hc)) ..) ?_ ?_
      · intro i hi j
        simp [hi]
      · intro f hf j
        obtain rfl : file = f := Option.some.inj (hfile.symm.trans hf)
        have hbefore := h.slots hfile hc j
        -- a hook without a declaration takes a value and keeps nothing
        obtain ⟨hnone, heq⟩ | ⟨d, value, hd, heq⟩ := Captures.call_taken hcall'
        · rw [heq, hbefore]
          by_cases hj : j = index
          · subst hj
            simp [hnone]
          · simp [hj]
        · rw [heq, Keyed.get?_put]
          by_cases hj : index = j
          · subst hj
            simp [hd]
          · rw [if_neg hj, hbefore]
            simp [Ne.symm hj]
  notTaken := by
    intro taken states states' k index native answer h hne hanswer
    simp only [captureHooks] at hanswer
    rcases hfile : files[k]? with _ | file
    · rw [hfile] at hanswer
      exact absurd (Prod.mk.inj hanswer).1.symm hne
    · rcases hc : states[k]? with _ | c
      · rw [hfile, hc] at hanswer
        exact absurd (Prod.mk.inj hanswer).1.symm hne
      · simp only [hfile, hc] at hanswer
        obtain ⟨hcall, rfl⟩ := Prod.mk.inj hanswer
        have heq := Captures.call_notTaken hne (Prod.ext hcall rfl :
          c.call pipeline file.declarations index native =
            (answer, (c.call pipeline file.declarations index native).2))
        refine h.set (Captures.nodup_call (h.nodup c (List.mem_of_getElem? hc)) ..) ?_ ?_
        · intro i _ j
          exact Iff.rfl
        · intro f hf j
          obtain rfl : file = f := Option.some.inj (hfile.symm.trans hf)
          rw [heq]
          exact h.slots hfile hc j

end StyleVars
