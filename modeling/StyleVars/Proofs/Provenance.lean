import StyleVars.Compile.LineCompiler
import StyleVars.Proofs.InlinedLines
import StyleVars.Proofs.PayloadSites
import StyleVars.Value.CssColors

/-!
# When the provenance is complete

A payload lists the declarations whose hooks took a value in the second compilation, and nothing is
missing exactly when all of them did (`render_complete_iff`). With a compiler that runs the calls it
processes nothing is missing if it comes to every included file: because the inlined imports lead
there from the entry, or because an importer serves the instrumented text.

The inliner looks a file up by the spelling of its import, and may take another one than the
compiler has loaded. The file that was loaded is then neither inlined nor served, and its
declarations are missing (`shadowed_incomplete`).
-/

namespace StyleVars

/-! ## What the second compilation processes -/

/-- The text of a file that an importer serves; without one the compiler reads the file. -/
def Served.text? (site : Site) (file : Served) : Option Text :=
  file.source.or (site.disk.read site.place (.ofText file.name)).toOption

namespace Preparation

variable [ColorNames] (site : Site) (compiler : Compiler) (p : Preparation)

/-- The exchanges of the second compilation with its host. -/
def exchanges : List Exchange :=
  compileExchanges site compiler p.job (captureHooks p.pipeline p.files)
    (p.files.map fun _ => Captures.empty)

/-- The texts that the second compilation processes. -/
def texts : List Text :=
  p.job.data.toList ++ (exchanges site compiler p).flatMap fun
    | .served files => files.filterMap (Served.text? site)
    | .called .. => []

/-- The names of the functions that took a value, as the compiler is told of them. -/
def calledNames : List Text :=
  match HostFunction.heads p.job.functions with
  | .ok heads => (exchanges site compiler p).filterMap fun
    | .called i none => heads[i]?.map fun head => normalizeName head.name
    | _ => none
  | .error _ => []

/-- The call of a hook stands on a line of a text that the second compilation processes. -/
def Processes (x : HookedDeclaration) : Prop :=
  ∃ text ∈ texts site compiler p, x.call ∈ Text.splitOn '\n' text

instance (x : HookedDeclaration) : Decidable (Processes site compiler p x) :=
  inferInstanceAs (Decidable (∃ text ∈ texts site compiler p, x.call ∈ Text.splitOn '\n' text))

/-- The second compilation comes to a file: it processes the instrumented text of the file, or that
text is inlined into the text of the entry and none of its imports reaches into the calls of the
hooks. -/
def Reaches (file : SheetFile) : Prop :=
  file.instrumented ∈ texts site compiler p ∨
    file.CallsApart ∧ ∃ entry includePaths, p.job.file = some entry ∧
      p.job.includePaths.mapM site.place.normalText = .ok includePaths ∧
        Relation.ReflTransGen (Inlines site.place (knownSources p.files) includePaths)
          entry file.name

/-- A hook took a value in the second compilation. -/
def Calls (x : HookedDeclaration) : Prop := x.identifier ∈ calledNames site compiler p

instance (x : HookedDeclaration) : Decidable (Calls site compiler p x) :=
  inferInstanceAs (Decidable (x.identifier ∈ calledNames site compiler p))

/-- The compiler runs every call of a hook that stands on a line of a text it processes. -/
def RunsCalls : Prop :=
  ∀ x ∈ hookedDeclarations p.files, Processes site compiler p x → Calls site compiler p x

instance : Decidable (RunsCalls site compiler p) :=
  inferInstanceAs (Decidable (∀ x ∈ hookedDeclarations p.files,
    Processes site compiler p x → Calls site compiler p x))

end Preparation

/-! ## The declarations of the included files -/

/-- The sites of the declarations of a variable, file by file in the order of the source. -/
def declaredSites (name : Text) (sources : Keyed Text Text) : List Provenance :=
  ((sources.flatMap fun source => (declarations source.2).map (source.1, ·)).filter
    fun d => d.2.name = name).map fun d => .ofDeclaration d.1 d.2

/-- A payload lists for every variable all of its declarations, in order and each of them once. -/
def Data.IsComplete (payload : Data) (sources : Keyed Text Text) : Prop :=
  ∀ name, payload.declarationsFor name = (declaredSites name sources).map Provenance.toData

theorem flatMap_mapIdx {α β γ : Type} {xs : List α} {f : Nat → α → β} {g : β → List γ}
    {k : α → List γ} (h : ∀ i x, g (f i x) = k x) : (xs.mapIdx f).flatMap g = xs.flatMap k := by
  induction xs generalizing f with
  | nil => rfl
  | cons x xs ih =>
    rw [List.mapIdx_cons, List.flatMap_cons, List.flatMap_cons, h, ih fun i y => h (i + 1) y]

theorem map_hookedDeclarations (sources : Keyed Text Text) :
    (hookedDeclarations (sheetFiles sources)).map (fun x => (x.file.name, x.declaration)) =
      sources.flatMap fun source => (declarations source.2).map (source.1, ·) := by
  rw [hookedDeclarations, List.map_flatMap, sheetFiles]
  apply flatMap_mapIdx
  intro i source
  rw [List.map_eq_iff]
  intro j
  rw [List.getElem?_mapIdx, List.getElem?_map, Option.map_map, SheetFile.ofSource]
  rfl

theorem declaredSites_eq (name : Text) (sources : Keyed Text Text) :
    declaredSites name sources =
      ((hookedDeclarations (sheetFiles sources)).filter fun x => x.declaration.name = name).map
        HookedDeclaration.site := by
  rw [declaredSites, ← map_hookedDeclarations, List.filter_map, List.map_map]
  rfl

/-! ## The files that the second compilation comes to -/

theorem mem_hookedDeclarations {sources : Keyed Text Text} {x : HookedDeclaration}
    (h : x ∈ hookedDeclarations (sheetFiles sources)) :
    x.file ∈ sheetFiles sources ∧ x.call ∈ x.file.hookCalls ∧ IsVariable x.declaration.name := by
  obtain ⟨file, hfile, hx⟩ := List.mem_flatMap.mp h
  obtain ⟨i, hi, rfl⟩ := List.mem_mapIdx.mp hx
  obtain ⟨j, hj, hsource⟩ := List.mem_mapIdx.mp hfile
  refine ⟨hfile, List.mem_mapIdx.mpr ⟨i, hi, rfl⟩, ?_⟩
  subst hsource
  exact declaration_name (List.getElem_mem hi)

/-- The calls of the hooks of a file that the second compilation comes to stand on lines of the
texts that it processes. -/
theorem Preparation.Reaches.processes [ColorNames] {site : Site} {compiler : Compiler}
    {sheets : SourceSet} {job : SheetJob} {p : Preparation}
    (hprepared : IsPrepared site sheets job p)
    {sources : Keyed Text Text} (hsources : includedSources site sheets job.data = .ok sources)
    {x : HookedDeclaration} (hx : x ∈ hookedDeclarations (sheetFiles sources))
    (h : p.Reaches site compiler x.file) : p.Processes site compiler x := by
  obtain ⟨hfile, hcall, hvariable⟩ := mem_hookedDeclarations hx
  obtain ⟨n, hn, hline⟩ := SheetFile.hasLine_drop hcall
  have hnewline : CodePoint.char '\n' ∉ x.call := newline_notMem_hookCall hvariable
  rcases h with htext | ⟨hapart, entry, includePaths, hentry, hpaths, hpath⟩
  · have hwhole : HasLine x.call x.file.instrumented :=
      hline.trans (List.drop_suffix n _).isInfix
    exact ⟨_, htext, hwhole.mem_splitOn hnewline⟩
  · obtain ⟨entry', includePaths', text, hentry', hpaths', hdata, htext⟩ := hprepared.data
    obtain rfl := Option.some.inj (hentry.symm.trans hentry')
    obtain rfl := Except.ok.inj (hpaths.symm.trans hpaths')
    have hknown := get?_knownSources (keys_includedSources hsources).2 hfile
    rw [hprepared.files_eq hsources] at htext hpath
    -- the calls stand behind the last import, so that no import is spliced into them
    have hbehind := drop_infix_inlineWithin htext hpath hknown fun rule hrule =>
      Nat.le_of_lt_succ (hn ▸ hapart rule hrule)
    have hinlined : HasLine x.call text := hline.trans hbehind
    refine ⟨text, ?_, hinlined.mem_splitOn hnewline⟩
    rw [Preparation.texts, hdata]
    exact List.mem_append_left _ (Option.mem_toList.mpr rfl)

/-! ## What a payload lists -/

section Render

variable [ColorNames] {site : Site} {registry : Registry} {compiler : Compiler}
  {patience : Patience} {job : SheetJob} {sheets : SourceSet} {p : Preparation}

omit [ColorNames] in
/-- The compiler is told of the functions of a compilation that succeeds. -/
theorem heads_of_compile {σ : Type} {hooks : Hooks σ} {s : σ} {compiled : Compiled}
    (h : (compile site compiler job hooks s).recorded.outcome = .ok compiled) :
    ∃ heads, HostFunction.heads job.functions = .ok heads := by
  rcases hrequest : compileRequest site job with e | request
  · simp [compile, hrequest, Recorded.fail] at h
  · rw [compileRequest] at hrequest
    split_ifs at hrequest
    · obtain ⟨-, ⟨⟩, -⟩ := Except.bind_eq_ok.mp hrequest
    · simp only [Except.bind_eq_ok] at hrequest
      obtain ⟨-, -, -, -, heads, hheads, -⟩ := hrequest
      exact ⟨heads, hheads⟩

/-- The functions that the compiler knows by the identifiers of hooks are the hooks. -/
theorem mem_calledNames_iff (hown : ∀ entry ∈ job.functions, OwnFunction entry)
    (hprepared : IsPrepared site sheets job p) {heads : List FunctionHead}
    (hheads : HostFunction.heads p.job.functions = .ok heads) (file declaration : Nat) :
    hookIdentifier file declaration ∈ p.calledNames site compiler ↔
      (file, declaration) ∈
        takenHooks (p.job.functions.map Prod.snd) (p.exchanges site compiler) := by
  have hall := Except.mapM_eq_ok.mp hheads
  -- the compiler is told of the functions in their order, so an index means the same to both
  have hname : ∀ i : Nat, heads[i]?.map (fun head => normalizeName head.name) =
      some (hookIdentifier file declaration) ↔
        (p.job.functions.map Prod.snd)[i]?.bind HostFunction.hook? = some (file, declaration) := by
    intro i
    have hi := congrArg (·[i]?) hall
    simp only [List.getElem?_map] at hi ⊢
    rcases hentry : p.job.functions[i]? with _ | entry
    · rw [hentry, Option.map_none, eq_comm, Option.map_eq_none_iff] at hi
      simp [hi]
    · rw [hentry, Option.map_some, eq_comm] at hi
      obtain ⟨head, hhead, heq⟩ := Option.map_eq_some_iff.mp hi
      rw [hhead, Option.map_some, Option.some.injEq, Option.map_some, Option.bind_some]
      exact normalizeName_head_iff hown hprepared.functions (List.mem_of_getElem? hentry) heq.symm
        file declaration
  rw [Preparation.calledNames, hheads, takenHooks, List.mem_filterMap, List.mem_filterMap]
  refine exists_congr fun exchange => and_congr_right fun _ => ?_
  rcases exchange with files | ⟨i, _ | message⟩
  · simp
  · exact hname i
  · simp

/-- The payload of an extraction lists the declarations whose hooks took a value. -/
theorem declarationsFor_extract (hown : ∀ entry ∈ job.functions, OwnFunction entry)
    {payload : Data}
    (hextract : (extract site registry compiler patience sheets job []).outcome = .ok payload) :
    ∃ sources p, includedSources site sheets job.data = .ok sources ∧
      (prepare site registry sheets job []).outcome = .ok p ∧ p.files = sheetFiles sources ∧
      ∀ name, payload.declarationsFor name =
        ((hookedDeclarations (sheetFiles sources)).filter fun x =>
          x.declaration.name = name ∧ p.Calls site compiler x).map fun x => x.site.toData := by
  obtain ⟨p, compiled, hp, hcompiled, rfl⟩ := extract_eq_ok hextract
  have hprepared := isPrepared_of_prepare hp
  obtain ⟨sources, hsources, hfiles⟩ := hprepared.files
  refine ⟨sources, p, hsources, hp, hfiles, fun name => ?_⟩
  have hholds : HoldsTaken p.files
      (takenHooks (p.job.functions.map Prod.snd) (p.exchanges site compiler))
      (p.compile site compiler).hooks :=
    (captureHooks_keeps p.pipeline p.files).compile site compiler p.job (.start p.files)
  obtain ⟨heads, hheads⟩ := heads_of_compile hcompiled
  have hcalled : ∀ x : HookedDeclaration, x.hook ∈
      takenHooks (p.job.functions.map Prod.snd) (p.exchanges site compiler) ↔
        p.Calls site compiler x :=
    fun x => (mem_calledNames_iff hown hprepared hheads x.file.index x.number).symm
  rw [hfiles] at hholds
  rw [hfiles, declarationsFor_collectVariables hholds]
  simp only [hcalled]

omit [ColorNames] in
/-- A part of the declarations is all that is listed exactly when it is all of them. -/
theorem isComplete_iff {payload : Data} {sources : Keyed Text Text} {P : HookedDeclaration → Prop}
    [DecidablePred P]
    (h : ∀ name, payload.declarationsFor name =
      ((hookedDeclarations (sheetFiles sources)).filter fun x =>
        x.declaration.name = name ∧ P x).map fun x => x.site.toData) :
    payload.IsComplete sources ↔ ∀ x ∈ hookedDeclarations (sheetFiles sources), P x := by
  constructor
  · intro hcomplete x hx
    have hall := hcomplete x.declaration.name
    rw [h, declaredSites_eq] at hall
    -- both lists are taken from the same declarations, so that they have one length
    have hlength := congrArg List.length hall
    have hsplit : (hookedDeclarations (sheetFiles sources)).filter (fun y =>
        y.declaration.name = x.declaration.name ∧ P y) =
          ((hookedDeclarations (sheetFiles sources)).filter fun y =>
            y.declaration.name = x.declaration.name).filter fun y => P y := by
      rw [List.filter_filter]
      apply List.filter_congr
      intro y _
      rw [Bool.decide_and, Bool.and_comm]
    rw [hsplit, List.length_map, List.length_map, List.length_map,
      List.length_filter_eq_length_iff] at hlength
    exact of_decide_eq_true (hlength x (List.mem_filter.mpr ⟨hx, decide_eq_true rfl⟩))
  · intro hall name
    rw [h, declaredSites_eq, List.map_map]
    have hsame : (hookedDeclarations (sheetFiles sources)).filter (fun x =>
        x.declaration.name = name ∧ P x) =
          (hookedDeclarations (sheetFiles sources)).filter fun x => x.declaration.name = name :=
      List.filter_congr fun x hx => by simp [hall x hx]
    rw [hsame]
    rfl

/-- A render lists the declarations of the included files whose hooks took a value, in the order of
the files and of their sources and each of them once. Nothing is missing exactly when every hook
took a value; when the compiler runs no calls but those it processes, exactly when it processes all
of them. Nothing is missing if the second compilation comes to every included file. -/
theorem render_complete_iff {compiled : Compiled} {payload : Data}
    (hown : ∀ entry ∈ job.functions, OwnFunction entry)
    (hruns : ∀ p, (prepare site registry compiled.sources job []).outcome = .ok p →
      p.RunsCalls site compiler)
    (hrender : (render site registry compiler patience job []).outcome = .ok (compiled, payload)) :
    ∃ entry sources p, compiledFiles site.place compiled.sources = .ok (entry, Keyed.keys sources) ∧
      includedSources site compiled.sources job.data = .ok sources ∧
      (prepare site registry compiled.sources job []).outcome = .ok p ∧
      (∀ name, payload.declarationsFor name =
        ((hookedDeclarations (sheetFiles sources)).filter fun x =>
          x.declaration.name = name ∧ p.Calls site compiler x).map fun x => x.site.toData) ∧
      (payload.IsComplete sources ↔
        ∀ x ∈ hookedDeclarations (sheetFiles sources), p.Calls site compiler x) ∧
      ((∀ x ∈ hookedDeclarations (sheetFiles sources),
          p.Calls site compiler x → p.Processes site compiler x) →
        (payload.IsComplete sources ↔
          ∀ x ∈ hookedDeclarations (sheetFiles sources), p.Processes site compiler x)) ∧
      ((∀ x ∈ hookedDeclarations (sheetFiles sources),
          p.Reaches site compiler x.file ∨ p.Processes site compiler x) →
        payload.IsComplete sources) := by
  obtain ⟨-, hextract⟩ := render_eq_ok hrender
  obtain ⟨sources, p, hsources, hp, hfiles, hlisted⟩ := declarationsFor_extract hown hextract
  obtain ⟨⟨entry, hentry⟩, -⟩ := keys_includedSources hsources
  have hcalls : ∀ x ∈ hookedDeclarations (sheetFiles sources),
      p.Processes site compiler x → p.Calls site compiler x := by
    rw [← hfiles]
    exact hruns p hp
  have hcomplete := isComplete_iff hlisted
  refine ⟨entry, sources, p, hentry, hsources, hp, hlisted, hcomplete, ?_, ?_⟩
  · intro hothers
    rw [hcomplete]
    exact ⟨fun h x hx => hothers x hx (h x hx), fun h x hx => hcalls x hx (h x hx)⟩
  · intro hall
    refine hcomplete.mpr fun x hx => hcalls x hx ?_
    rcases hall x hx with hreaches | hprocesses
    · exact hreaches.processes (isPrepared_of_prepare hp) hsources hx
    · exact hprocesses

end Render

/-! ## A compiler that reads line by line -/

/-- What is prepared for the second compilation of a job without plugins. -/
def preparation? [ColorNames] (site : Site) (compiler : Compiler) (job : SheetJob) :
    Option Preparation :=
  (compile site compiler job noHooks ()).recorded.outcome.toOption.bind fun compiled =>
    (prepare site [] compiled.sources job []).outcome.toOption

theorem preparation?_eq [ColorNames] {site : Site} {compiler : Compiler} {job : SheetJob}
    {patience : Patience} {compiled : Compiled} {payload : Data} {p : Preparation}
    (hrender : (render site [] compiler patience job []).outcome = .ok (compiled, payload))
    (hp : (prepare site [] compiled.sources job []).outcome = .ok p) :
    preparation? site compiler job = some p := by
  obtain ⟨hcompiled, -⟩ := render_eq_ok hrender
  rw [preparation?, hcompiled, Except.toOption, Option.bind_some, hp, Except.toOption]

/-- A site with files of ASCII characters. -/
def asciiSite (files : List (Text × String)) : Site :=
  ⟨.ofFiles (files.map fun (name, source) => (name, source.toList.map Char.toNat)),
    .alone (.ofText "/work".toText) (.ofText "/root".toText)⟩

/-- The variables of the samples have the value one. -/
def sampleCompiler (site : Site) : Compiler :=
  lineCompiler site [("$a".toText, [.number (.ofQuotient 1 1) []]),
    ("$b".toText, [.number (.ofQuotient 1 1) []])]

/-- A job with a function of the caller. -/
def sampleJob : SheetJob :=
  { SheetJob.default with
    file := some "/work/main.scss".toText
    functions := [("double($x)".toText, .custom (.plain ["x".toText]))] }

/-- A sheet that imports another one. -/
def importingSite : Site :=
  asciiSite [("/work/main.scss".toText, "@import \"b\";\n$a: 1;\n"),
    ("/work/_b.scss".toText, "$b: 1;\n$a: 1 !default;\n")]

theorem sampleJob_own : ∀ entry ∈ sampleJob.functions, OwnFunction entry := by
  intro entry hentry
  obtain rfl := List.mem_singleton.mp hentry
  refine ⟨rfl, ?_⟩
  intro head hhead file declaration heq
  obtain rfl : (⟨"double".toText, ["$x".toText]⟩ : FunctionHead) = head := Except.ok.inj hhead
  have hfirst : (hookIdentifier file declaration).head? = some (.char 's') := rfl
  rw [← heq] at hfirst
  exact absurd hfirst (by decide)

/-- What holds of the preparation of a job holds of what its render has prepared. -/
theorem forall_prepare [ColorNames] {site : Site} {compiler : Compiler} {job : SheetJob}
    {patience : Patience} {compiled : Compiled} {payload : Data} {P : Preparation → Prop}
    (hrender : (render site [] compiler patience job []).outcome = .ok (compiled, payload))
    (h : ∀ p ∈ preparation? site compiler job, P p) :
    ∀ p, (prepare site [] compiled.sources job []).outcome = .ok p → P p := by
  intro p hp
  exact h p (preparation?_eq hrender hp)

section Samples

open CssColors

theorem render_complete_importingSite :
    ∃ compiled payload sources,
      (∀ entry ∈ sampleJob.functions, OwnFunction entry) ∧
      (∀ p, (prepare importingSite [] compiled.sources sampleJob []).outcome = .ok p →
        p.RunsCalls importingSite (sampleCompiler importingSite)) ∧
      (render importingSite [] (sampleCompiler importingSite) .none sampleJob []).outcome =
        .ok (compiled, payload) ∧
      includedSources importingSite compiled.sources sampleJob.data = .ok sources ∧
      payload.IsComplete sources := by
  obtain ⟨hok, hcheck⟩ : (render importingSite [] (sampleCompiler importingSite) .none sampleJob
        []).outcome.isOk ∧
      ∀ p ∈ preparation? importingSite (sampleCompiler importingSite) sampleJob,
        p.RunsCalls importingSite (sampleCompiler importingSite) ∧
          ∀ x ∈ hookedDeclarations p.files,
            p.Processes importingSite (sampleCompiler importingSite) x := by
    decide +kernel
  obtain ⟨⟨compiled, payload⟩, hrender⟩ := Except.exists_eq_ok hok
  have hruns := forall_prepare hrender fun p hp => (hcheck p hp).1
  have hprocesses := forall_prepare hrender fun p hp => (hcheck p hp).2
  obtain ⟨entry, sources, p, -, hsources, hp, -, -, -, hcomplete⟩ :=
    render_complete_iff sampleJob_own hruns hrender
  refine ⟨compiled, payload, sources, sampleJob_own, hruns, hrender, hsources, ?_⟩
  rw [← (isPrepared_of_prepare hp).files_eq hsources] at hcomplete
  exact hcomplete fun x hx => .inr (hprocesses p hp x hx)

/-- The spelling of the second import fits the file that the first one has loaded. -/
def shadowedSite : Site :=
  asciiSite [("/work/main.scss".toText, "@import \"x/index\";\n@import \"x\";\n"),
    ("/work/x.scss".toText, "$a: 1;\n"), ("/work/x/_index.scss".toText, "$b: 1;\n")]

/-- The compiler runs all calls that it comes to, and yet the payload is not complete. -/
theorem shadowed_incomplete :
    ∃ compiled payload sources,
      (∀ entry ∈ sampleJob.functions, OwnFunction entry) ∧
      (∀ p, (prepare shadowedSite [] compiled.sources sampleJob []).outcome = .ok p →
        p.RunsCalls shadowedSite (sampleCompiler shadowedSite)) ∧
      (render shadowedSite [] (sampleCompiler shadowedSite) .none sampleJob []).outcome =
        .ok (compiled, payload) ∧
      includedSources shadowedSite compiled.sources sampleJob.data = .ok sources ∧
      payload.declarationsFor "$a".toText = [] ∧
      (∃ d ∈ declaredSites "$a".toText sources, d.file = "/work/x.scss".toText) ∧
      ¬payload.IsComplete sources := by
  obtain ⟨hok, hcheck⟩ : (render shadowedSite [] (sampleCompiler shadowedSite) .none sampleJob
        []).outcome.isOk ∧
      ∀ p ∈ preparation? shadowedSite (sampleCompiler shadowedSite) sampleJob,
        p.RunsCalls shadowedSite (sampleCompiler shadowedSite) ∧
          (∀ x ∈ hookedDeclarations p.files, ¬(x.declaration.name = "$a".toText ∧
            p.Calls shadowedSite (sampleCompiler shadowedSite) x)) ∧
          ∃ x ∈ hookedDeclarations p.files, x.declaration.name = "$a".toText ∧
            x.file.name = "/work/x.scss".toText := by
    decide +kernel
  obtain ⟨⟨compiled, payload⟩, hrender⟩ := Except.exists_eq_ok hok
  have hruns := forall_prepare hrender fun p hp => (hcheck p hp).1
  have hmissing := forall_prepare hrender fun p hp => (hcheck p hp).2.1
  have hdeclared := forall_prepare hrender fun p hp => (hcheck p hp).2.2
  obtain ⟨sources, p, hsources, hp, hfiles, hlisted⟩ :=
    declarationsFor_extract sampleJob_own (render_eq_ok hrender).2
  have hnone : payload.declarationsFor "$a".toText = [] := by
    rw [hlisted, List.map_eq_nil_iff, List.filter_eq_nil_iff, ← hfiles]
    intro x hx
    rw [decide_eq_true_eq]
    exact hmissing p hp x hx
  have hsome : ∃ d ∈ declaredSites "$a".toText sources, d.file = "/work/x.scss".toText := by
    obtain ⟨x, hx, hname, hfile⟩ := hdeclared p hp
    rw [hfiles] at hx
    rw [declaredSites_eq]
    exact ⟨x.site, List.mem_map_of_mem (List.mem_filter.mpr ⟨hx, decide_eq_true hname⟩), hfile⟩
  refine ⟨compiled, payload, sources, sampleJob_own, hruns, hrender, hsources, hnone, hsome, ?_⟩
  intro hcomplete
  obtain ⟨d, hd, -⟩ := hsome
  have hnil := hcomplete "$a".toText
  rw [hnone, eq_comm, List.map_eq_nil_iff] at hnil
  rw [hnil] at hd
  exact nomatch hd

end Samples

end StyleVars
