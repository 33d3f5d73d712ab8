import StyleVars.Extract.Run
import StyleVars.Proofs.KeyedLists
import StyleVars.Proofs.Outcomes

/-!
# The included files of an extraction

The files that took part in the compilation, each once and in the order in which they were first
loaded, are read and instrumented (`prepare_eq_ok`). An extraction that succeeds has prepared and
carried out the second compilation, and its payload is that of the values captured there
(`extract_eq_ok`).
-/

namespace StyleVars

/-- The included files of a compilation with the sources that their declarations are read from. -/
def includedSources (site : Site) (sheets : SourceSet) (data : Option Text) :
    Except Failure (Keyed Text Text) := do
  let (entry, included) ← compiledFiles site.place sheets
  (sheetTexts site included entry data sheets.texts).outcome

/-- There is one source for each included file, in the order of the files, which differ. -/
theorem keys_includedSources {site : Site} {sheets : SourceSet} {data : Option Text}
    {sources : Keyed Text Text} (h : includedSources site sheets data = .ok sources) :
    (∃ entry, compiledFiles site.place sheets = .ok (entry, Keyed.keys sources)) ∧
      (Keyed.keys sources).Nodup := by
  rw [includedSources, Except.bind_eq_ok] at h
  obtain ⟨⟨entry, included⟩, hincluded, h⟩ := h
  -- the included files have been collected without repetition, as the sources are
  have honce : included.foldl Keyed.insertNew [] = included := by
    rw [compiledFiles] at hincluded
    simp only [Except.bind_eq_ok] at hincluded
    obtain ⟨name, -, files, -, hfiles⟩ := hincluded
    obtain ⟨-, rfl⟩ := Prod.mk.inj (Except.ok.inj hfiles)
    exact Keyed.foldl_insertNew_collected [] (name :: files)
  simp only [sheetTexts, Recorded.bind_eq_ok, Recorded.outcome_mapM] at h
  obtain ⟨known, -, texts, htexts, -, -, hsources⟩ := h
  obtain rfl := Except.ok.inj hsources
  have hnames : texts.map Prod.fst = included := by
    refine Except.map_of_mapM_eq_ok ?_ htexts
    intro file text htext
    split at htext
    · obtain rfl := Except.ok.inj htext
      rfl
    · obtain ⟨read, -, hread⟩ := Recorded.bind_eq_ok.mp htext
      obtain rfl := Except.ok.inj hread
      rfl
  rw [Keyed.keys_ofList, hnames]
  refine ⟨⟨entry, ?_⟩, Keyed.nodup_foldl_insertNew included⟩
  rw [honce]
  exact hincluded

/-- Sources as files with their declarations. -/
def sheetFiles (sources : Keyed Text Text) : List SheetFile :=
  sources.mapIdx fun i source => .ofSource source.1 i source.2

theorem readSources_outcome (index : Nat) (sources : Keyed Text Text) :
    (readSources index sources).outcome =
      .ok (sources.mapIdx fun i source => .ofSource source.1 (index + i) source.2) := by
  induction sources generalizing index with
  | nil => rfl
  | cons source rest ih =>
    obtain ⟨name, text⟩ := source
    rw [readSources, Recorded.bind_eq_ok]
    refine ⟨(), rfl, ?_⟩
    rw [Recorded.bind_eq_ok]
    refine ⟨_, ih (index + 1), ?_⟩
    simp only [List.mapIdx_cons, Nat.add_zero, Nat.add_assoc, Nat.add_comm 1]
    rfl

/-- The instrumented text of each file is known by its name. -/
theorem get?_knownSources {sources : Keyed Text Text} (h : (Keyed.keys sources).Nodup)
    {file : SheetFile} (hfile : file ∈ sheetFiles sources) :
    Keyed.get? file.name (knownSources (sheetFiles sources)) = some file.instrumented := by
  have hkeys : Keyed.keys (knownSources (sheetFiles sources)) = Keyed.keys sources := by
    rw [Keyed.keys, knownSources, List.map_map, Keyed.keys, List.map_eq_iff]
    intro i
    rw [sheetFiles, List.getElem?_mapIdx, List.getElem?_map, Option.map_map]
    rfl
  refine Keyed.get?_of_mem ?_ (List.mem_map_of_mem hfile)
  rw [hkeys]
  exact h

/-- What is known when the second compilation of an extraction without plugins is prepared. -/
structure IsPrepared (site : Site) (sheets : SourceSet) (job : SheetJob) (p : Preparation) :
    Prop where
  pipeline : p.pipeline = []
  files : ∃ sources, includedSources site sheets job.data = .ok sources ∧
    p.files = sheetFiles sources
  functions : hostFunctions p.files job.functions = .ok p.job.functions
  data : ∃ entry includePaths text, p.job.file = some entry ∧
    p.job.includePaths.mapM site.place.normalText = .ok includePaths ∧ p.job.data = some text ∧
      (inlineImports site.place (knownSources p.files) includePaths entry).outcome = .ok text

theorem IsPrepared.files_eq {site : Site} {sheets : SourceSet} {job : SheetJob} {p : Preparation}
    (h : IsPrepared site sheets job p) {sources : Keyed Text Text}
    (hsources : includedSources site sheets job.data = .ok sources) :
    p.files = sheetFiles sources := by
  obtain ⟨sources', hsources', hfiles⟩ := h.files
  obtain rfl := Except.ok.inj (hsources.symm.trans hsources')
  exact hfiles

/-- The failure of the second compilation is that of the extraction. -/
theorem secondOutcome_eq_ok {α : Type} {captures : List Captures} {outcome : Except Failure α}
    {a : α} (h : secondOutcome captures outcome = .ok a) : outcome = .ok a := by
  unfold secondOutcome at h
  split at h
  · split at h <;> simp at h
  · exact h

variable [ColorNames]

/-- What has been done when the second compilation is prepared. -/
theorem prepare_eq_ok {site : Site} {registry : Registry} {sheets : SourceSet} {job : SheetJob}
    {specs : List PluginSpec} {p : Preparation}
    (h : (prepare site registry sheets job specs).outcome = .ok p) :
    Pipeline.ofSpecs registry specs = .ok p.pipeline ∧
    (∃ sources, includedSources site sheets job.data = .ok sources ∧
      p.files = sheetFiles sources) ∧
    hostFunctions p.files job.functions = .ok p.job.functions ∧
    ∃ entry includePaths text, p.job.file = some entry ∧
      p.job.includePaths.mapM site.place.normalText = .ok includePaths ∧ p.job.data = some text ∧
        (inlineImports site.place (knownSources p.files) includePaths entry).outcome =
          .ok text := by
  rw [prepare, Recorded.bind_eq_ok] at h
  obtain ⟨pipeline, hpipeline, h⟩ := h
  rw [Recorded.bind_eq_ok] at h
  obtain ⟨⟨entry, included⟩, hincluded, h⟩ := h
  rw [Recorded.bind_eq_ok] at h
  obtain ⟨-, -, h⟩ := h
  cases hindented : included.find? isIndented with
  | some file =>
    simp only [hindented, Recorded.bind_eq_ok] at h
    obtain ⟨-, ⟨⟩, -⟩ := h
  | none =>
    simp only [hindented, Recorded.bind_eq_ok] at h
    obtain ⟨sources, hsources, files, hfiles, includePaths, hpaths, data, hdata, functions,
      hfunctions, hp⟩ := h
    rw [readSources_outcome] at hfiles
    obtain rfl := Except.ok.inj hfiles
    obtain rfl := Except.ok.inj hp
    refine ⟨hpipeline, ⟨sources, ?_, ?_⟩, hfunctions, entry, includePaths, data, rfl, hpaths, rfl,
      hdata⟩
    · rw [includedSources, Except.bind_eq_ok]
      exact ⟨_, hincluded, hsources⟩
    · simp only [Nat.zero_add, sheetFiles]

theorem isPrepared_of_prepare {site : Site} {registry : Registry} {sheets : SourceSet}
    {job : SheetJob} {p : Preparation}
    (h : (prepare site registry sheets job []).outcome = .ok p) :
    IsPrepared site sheets job p := by
  obtain ⟨hpipeline, hfiles, hfunctions, hdata⟩ := prepare_eq_ok h
  exact ⟨(Except.ok.inj hpipeline).symm, hfiles, hfunctions, hdata⟩

/-- The second compilation of an extraction. -/
def Preparation.compile (site : Site) (compiler : Compiler) (p : Preparation) :
    CompileRun (List Captures) :=
  StyleVars.compile site compiler p.job (captureHooks p.pipeline p.files)
    (p.files.map fun _ => Captures.empty)

/-! ## The plugins and what comes before them -/

section Extract

variable (site : Site) (registry : Registry) (compiler : Compiler) (sheets : SourceSet)
  (job : SheetJob) (specs : List PluginSpec)

/-- What an extraction does before it comes to its plugins: the pipeline, and the payload of the
variables. -/
def handedToPlugins : Recorded (Pipeline × Data) := do
  let prepared ← prepare site registry sheets job specs
  let run := prepared.compile site compiler
  Recorded.tell run.recorded.events
  let _ ← secondOutcome run.hooks run.recorded.outcome
  let payload ← collectPayload prepared.files run.hooks
  return (prepared.pipeline, payload)

theorem extractAtOnce_eq_bind :
    extractAtOnce site registry compiler sheets job specs =
      handedToPlugins site registry compiler sheets job specs >>= fun handed =>
        .lift (handed.1.runAtOnce handed.2) := by
  simp only [handedToPlugins, bind_assoc, pure_bind]
  rfl

theorem extractAwaiting_eq_bind :
    extractAwaiting site registry compiler sheets job specs =
      handedToPlugins site registry compiler sheets job specs >>= fun handed =>
        .lift (handed.1.runAwaiting handed.2) := by
  simp only [handedToPlugins, bind_assoc, pure_bind]
  rfl

theorem extract_eq_bind (patience : Patience) :
    extract site registry compiler patience sheets job specs =
      handedToPlugins site registry compiler sheets job specs >>= fun handed =>
        .lift (handed.1.runOnPayload patience handed.2) := by
  cases patience with
  | none => exact extractAtOnce_eq_bind ..
  | waits => exact extractAwaiting_eq_bind ..

end Extract

theorem extract_eq_ok {site : Site} {registry : Registry} {compiler : Compiler}
    {patience : Patience} {sheets : SourceSet} {job : SheetJob} {payload : Data}
    (h : (extract site registry compiler patience sheets job []).outcome = .ok payload) :
    ∃ p compiled, (prepare site registry sheets job []).outcome = .ok p ∧
      (p.compile site compiler).recorded.outcome = .ok compiled ∧
      payload = (collectVariables p.files (p.compile site compiler).hooks).payload := by
  rw [extract_eq_bind] at h
  simp only [handedToPlugins, collectPayload, Recorded.bind_eq_ok] at h
  obtain ⟨handed, ⟨p, hp, -, -, compiled, hcompiled, _, ⟨-, -, hvars⟩, hhanded⟩, hpayload⟩ := h
  refine ⟨p, compiled, hp, secondOutcome_eq_ok hcompiled, ?_⟩
  obtain rfl := Except.ok.inj hvars
  obtain rfl := Except.ok.inj hhanded
  have hpipeline := (isPrepared_of_prepare hp).pipeline
  rw [hpipeline, Recorded.outcome_lift, Pipeline.runOnPayload_nil] at hpayload
  exact (Except.ok.inj hpayload).symm

theorem render_eq_ok {site : Site} {registry : Registry} {compiler : Compiler}
    {patience : Patience} {job : SheetJob} {specs : List PluginSpec} {compiled : Compiled}
    {payload : Data}
    (h : (render site registry compiler patience job specs).outcome = .ok (compiled, payload)) :
    (compile site compiler job noHooks ()).recorded.outcome = .ok compiled ∧
      (extract site registry compiler patience compiled.sources job specs).outcome =
        .ok payload := by
  cases patience
  all_goals
    simp only [render, renderAtOnce, renderAwaiting, Recorded.bind_eq_ok] at h
    obtain ⟨first, hfirst, vars, hvars, heq⟩ := h
    obtain ⟨rfl, rfl⟩ := Prod.mk.inj (Except.ok.inj heq)
    exact ⟨hfirst, hvars⟩

end StyleVars
