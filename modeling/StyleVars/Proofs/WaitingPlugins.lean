import StyleVars.Plugin.Installed
import StyleVars.Proofs.RefusedValues
import StyleVars.Value.CssColors

/-!
# Callers that wait

Extracting and rendering, and the run of a payload through the plugins, are written once for callers
that cannot wait and once for those that wait. The two forms come to the plugins in the same way,
and go through them alike up to the first plugin that answers later: there the one stops and the
other goes on from the answer (`extract_waits`).
-/

namespace StyleVars

/-! ## Pipelines that are followed -/

/-- The plugins that were asked, each with the payload that it was asked for, and what came of it.
-/
structure PluginRun where
  asked : List (Plugin × Data)
  outcome : Except Failure Data

/-- A run before which a plugin has been asked. -/
def PluginRun.behind (run : PluginRun) (plugin : Plugin) (payload : Data) : PluginRun :=
  ⟨(plugin, payload) :: run.asked, run.outcome⟩

/-- A plugin that answers later: what stands before it and after it, the payload that it was asked
for, and its answer. -/
structure LaterAnswer where
  before : Pipeline
  plugin : Plugin
  after : Pipeline
  received : Data
  outcome : Except Failure Data

namespace Pipeline

/-- The run for a caller that cannot wait, with a record of the plugins that are asked. -/
def followAtOnce : Pipeline → Data → PluginRun
  | [], payload => ⟨[], .ok payload⟩
  | plugin :: rest, payload =>
    match plugin.onPayload payload with
    | .ok (.ready result) => (followAtOnce rest result).behind plugin payload
    | .ok (.later _) => ⟨[(plugin, payload)], .error (.answersLater plugin.name)⟩
    | .error e => ⟨[(plugin, payload)], .error e⟩

/-- The run for a caller that waits, with a record of the plugins that are asked. -/
def followAwaiting : Pipeline → Data → PluginRun
  | [], payload => ⟨[], .ok payload⟩
  | plugin :: rest, payload =>
    match plugin.onPayload payload with
    | .ok (.ready result) => (followAwaiting rest result).behind plugin payload
    | .ok (.later (.ok result)) => (followAwaiting rest result).behind plugin payload
    | .ok (.later (.error e)) => ⟨[(plugin, payload)], .error e⟩
    | .error e => ⟨[(plugin, payload)], .error e⟩

/-- The record is of the very run. -/
theorem outcome_followAtOnce (pipeline : Pipeline) (payload : Data) :
    (pipeline.followAtOnce payload).outcome = pipeline.runAtOnce payload := by
  induction pipeline generalizing payload with
  | nil => rfl
  | cons plugin rest ih =>
    rw [followAtOnce, runAtOnce]
    rcases plugin.onPayload payload with e | result | outcome
    · rfl
    · exact ih result
    · rfl

theorem outcome_followAwaiting (pipeline : Pipeline) (payload : Data) :
    (pipeline.followAwaiting payload).outcome = pipeline.runAwaiting payload := by
  induction pipeline generalizing payload with
  | nil => rfl
  | cons plugin rest ih =>
    rw [followAwaiting, runAwaiting]
    rcases plugin.onPayload payload with e | result | e | result
    · rfl
    · exact ih result
    · rfl
    · exact ih result

/-- All plugins answer at once, and the last answer is the given one. -/
inductive Passes : Pipeline → Data → Data → Prop
  | nil (payload : Data) : Passes [] payload payload
  | cons {plugin : Plugin} {rest : Pipeline} {payload result received : Data}
      (hanswer : plugin.onPayload payload = .ok (.ready result))
      (hrest : Passes rest result received) : Passes (plugin :: rest) payload received

/-- The first plugin that answers later. -/
structure AnswersLater (pipeline : Pipeline) (payload : Data) (x : LaterAnswer) : Prop where
  split : pipeline = x.before ++ x.plugin :: x.after
  passes : x.before.Passes payload x.received
  later : x.plugin.onPayload x.received = .ok (.later x.outcome)

/-- Plugins that answer at once are all asked, by either kind of caller, and the others after them.
-/
theorem Passes.follow_append {before : Pipeline} {payload received : Data}
    (h : before.Passes payload received) (after : Pipeline) :
    ∃ asked : List (Plugin × Data), asked.map Prod.fst = before ∧
      (before ++ after).followAtOnce payload =
        ⟨asked ++ (after.followAtOnce received).asked, (after.followAtOnce received).outcome⟩ ∧
      (before ++ after).followAwaiting payload =
        ⟨asked ++ (after.followAwaiting received).asked,
          (after.followAwaiting received).outcome⟩ := by
  induction h with
  | nil payload => exact ⟨[], rfl, rfl, rfl⟩
  | @cons plugin rest payload result received hanswer hrest ih =>
    obtain ⟨asked, hasked, honce, hawaiting⟩ := ih
    refine ⟨(plugin, payload) :: asked, ?_, ?_, ?_⟩
    · rw [List.map_cons, hasked]
    · simp only [List.cons_append, followAtOnce, hanswer, honce, PluginRun.behind]
    · simp only [List.cons_append, followAwaiting, hanswer, hawaiting, PluginRun.behind]

variable {pipeline : Pipeline} {payload : Data} {x : LaterAnswer}

/-- A plugin in front that answers at once does not change which plugin answers later. -/
theorem AnswersLater.cons {first : Plugin} {result : Data}
    (hanswer : first.onPayload payload = .ok (.ready result)) (h : pipeline.AnswersLater result x) :
    AnswersLater (first :: pipeline) payload { x with before := first :: x.before } where
  split := congrArg (first :: ·) h.split
  passes := .cons hanswer h.passes
  later := h.later

/-- Where no plugin that is asked answers later, it makes no difference whether the caller waits. -/
theorem followAwaiting_eq_followAtOnce (h : ∀ x, ¬pipeline.AnswersLater payload x) :
    pipeline.followAwaiting payload = pipeline.followAtOnce payload := by
  induction pipeline generalizing payload with
  | nil => rfl
  | cons first rest ih =>
    rw [followAwaiting, followAtOnce]
    cases hanswer : first.onPayload payload with
    | error e => rfl
    | ok reply =>
      cases reply with
      | later outcome =>
        exact absurd ⟨rfl, .nil payload, hanswer⟩ (h ⟨[], first, rest, payload, outcome⟩)
      | ready result =>
        have hrest : followAwaiting rest result = followAtOnce rest result :=
          ih fun x hlater => h _ (hlater.cons hanswer)
        dsimp only
        rw [hrest]

/-- At the first plugin that answers later, a caller that cannot wait stops, and one that waits goes
on from the answer through the other plugins. -/
theorem AnswersLater.follow (h : pipeline.AnswersLater payload x) :
    (pipeline.followAtOnce payload).asked.map Prod.fst = x.before ++ [x.plugin] ∧
    (pipeline.followAtOnce payload).outcome = .error (.answersLater x.plugin.name) ∧
    (pipeline.followAwaiting payload).asked = (pipeline.followAtOnce payload).asked ++
      (x.outcome.map fun result => (x.after.followAwaiting result).asked).toOption.getD [] ∧
    (pipeline.followAwaiting payload).outcome = x.outcome >>= x.after.runAwaiting := by
  obtain ⟨asked, hasked, honce, hawaiting⟩ := h.passes.follow_append (x.plugin :: x.after)
  rw [h.split, honce, hawaiting, followAtOnce, followAwaiting, h.later]
  refine ⟨by rw [List.map_append, hasked]; rfl, rfl, ?_⟩
  cases x.outcome with
  | error e => exact ⟨(List.append_nil _).symm, rfl⟩
  | ok result =>
    exact ⟨by simp [PluginRun.behind, Except.map, Except.toOption], outcome_followAwaiting ..⟩

end Pipeline

/-! ## Extractions and renders -/

section Extract

variable [ColorNames] {site : Site} {registry : Registry} {compiler : Compiler}
  {sheets : SourceSet} {job : SheetJob} {specs : List PluginSpec}

/-- The plugins are those that are described. -/
theorem ofSpecs_of_handed {pipeline : Pipeline} {payload : Data}
    (h : (handedToPlugins site registry compiler sheets job specs).outcome =
      .ok (pipeline, payload)) : Pipeline.ofSpecs registry specs = .ok pipeline := by
  simp only [handedToPlugins, Recorded.bind_eq_ok] at h
  obtain ⟨p, hp, _, -, _, -, _, -, hhanded⟩ := h
  obtain ⟨rfl, -⟩ := Prod.mk.inj (Except.ok.inj hhanded)
  exact (prepare_eq_ok hp).1

theorem extractAtOnce_eq_follow :
    extractAtOnce site registry compiler sheets job specs =
      handedToPlugins site registry compiler sheets job specs >>= fun handed =>
        .lift (handed.1.followAtOnce handed.2).outcome := by
  simp only [extractAtOnce_eq_bind, Pipeline.outcome_followAtOnce]

theorem extractAwaiting_eq_follow :
    extractAwaiting site registry compiler sheets job specs =
      handedToPlugins site registry compiler sheets job specs >>= fun handed =>
        .lift (handed.1.followAwaiting handed.2).outcome := by
  simp only [extractAwaiting_eq_bind, Pipeline.outcome_followAwaiting]

variable (site registry compiler sheets job specs) in
/-- An extraction comes to its plugins, and the first of them that answers later is the given one.
-/
def MeetsLater (x : LaterAnswer) : Prop :=
  ∃ pipeline payload, (handedToPlugins site registry compiler sheets job specs).outcome =
    .ok (pipeline, payload) ∧ pipeline.AnswersLater payload x

section Later

variable {pipeline : Pipeline} {payload : Data} {x : LaterAnswer}
  (hhanded : (handedToPlugins site registry compiler sheets job specs).outcome =
    .ok (pipeline, payload))
  (hlater : pipeline.AnswersLater payload x)

include hhanded hlater

theorem extractAtOnce_of_later :
    extractAtOnce site registry compiler sheets job specs =
      ⟨(handedToPlugins site registry compiler sheets job specs).events,
        .error (.answersLater x.plugin.name)⟩ := by
  rw [extractAtOnce_eq_follow, Recorded.bind_of_ok hhanded]
  simp only [Recorded.lift, List.append_nil, hlater.follow.2.1]

theorem extractAwaiting_of_later :
    extractAwaiting site registry compiler sheets job specs =
      ⟨(handedToPlugins site registry compiler sheets job specs).events,
        x.outcome >>= x.after.runAwaiting⟩ := by
  rw [extractAwaiting_eq_follow, Recorded.bind_of_ok hhanded]
  simp only [Recorded.lift, List.append_nil, hlater.follow.2.2.2]

end Later

/-- Where no plugin answers later, the forms of an extraction have one outcome and one record. -/
theorem extractAwaiting_eq (h : ∀ x, ¬MeetsLater site registry compiler sheets job specs x) :
    extractAwaiting site registry compiler sheets job specs =
      extractAtOnce site registry compiler sheets job specs := by
  rw [extractAwaiting_eq_follow, extractAtOnce_eq_follow]
  refine Recorded.bind_congr fun handed hhanded => ?_
  rw [Pipeline.followAwaiting_eq_followAtOnce fun x hlater => h x ⟨_, _, hhanded, hlater⟩]

/-- An extraction comes to its plugins in the same way in both of its forms, whatever happens before
it does. If no plugin that is asked answers later, the forms have one outcome and one record. At the
first one that does, the form for callers that cannot wait stops with a failure that names it, after
the plugins before it and no other; the form for callers that wait goes on from the answer through
the remaining plugins. All of this holds of the two forms of a render as well. -/
theorem extract_waits :
    extractAtOnce site registry compiler sheets job specs =
      (handedToPlugins site registry compiler sheets job specs >>= fun handed =>
        .lift (handed.1.followAtOnce handed.2).outcome) ∧
    extractAwaiting site registry compiler sheets job specs =
      (handedToPlugins site registry compiler sheets job specs >>= fun handed =>
        .lift (handed.1.followAwaiting handed.2).outcome) ∧
    ((∀ x, ¬MeetsLater site registry compiler sheets job specs x) →
      extractAwaiting site registry compiler sheets job specs =
        extractAtOnce site registry compiler sheets job specs) ∧
    (∀ pipeline payload x,
      (handedToPlugins site registry compiler sheets job specs).outcome = .ok (pipeline, payload) →
      pipeline.AnswersLater payload x →
        Pipeline.ofSpecs registry specs = .ok (x.before ++ x.plugin :: x.after) ∧
        extractAtOnce site registry compiler sheets job specs =
          ⟨(handedToPlugins site registry compiler sheets job specs).events,
            .error (.answersLater x.plugin.name)⟩ ∧
        (pipeline.followAtOnce payload).asked.map Prod.fst = x.before ++ [x.plugin] ∧
        extractAwaiting site registry compiler sheets job specs =
          ⟨(handedToPlugins site registry compiler sheets job specs).events,
            x.outcome >>= x.after.runAwaiting⟩ ∧
        (pipeline.followAwaiting payload).asked = (pipeline.followAtOnce payload).asked ++
          (x.outcome.map fun result => (x.after.followAwaiting result).asked).toOption.getD []) ∧
    ((∀ compiled x, (compile site compiler job noHooks ()).recorded.outcome = .ok compiled →
        ¬MeetsLater site registry compiler compiled.sources job specs x) →
      renderAwaiting site registry compiler job specs =
        renderAtOnce site registry compiler job specs) ∧
    ∀ compiled x, (compile site compiler job noHooks ()).recorded.outcome = .ok compiled →
      MeetsLater site registry compiler compiled.sources job specs x →
        (renderAtOnce site registry compiler job specs).outcome =
          .error (.answersLater x.plugin.name) ∧
        (renderAwaiting site registry compiler job specs).outcome =
          (x.outcome >>= x.after.runAwaiting).map fun payload => (compiled, payload) := by
  refine ⟨extractAtOnce_eq_follow, extractAwaiting_eq_follow, extractAwaiting_eq, ?_, ?_, ?_⟩
  · intro pipeline payload x hhanded hlater
    obtain ⟨hasked, -, hmore, -⟩ := hlater.follow
    refine ⟨?_, extractAtOnce_of_later hhanded hlater, hasked,
      extractAwaiting_of_later hhanded hlater, hmore⟩
    rw [ofSpecs_of_handed hhanded, hlater.split]
  · intro hnever
    refine Recorded.bind_congr fun compiled hcompiled => ?_
    rw [extractAwaiting_eq fun x => hnever compiled x hcompiled]
  · rintro compiled x hcompiled ⟨pipeline, payload, hhanded, hlater⟩
    have honce := extractAtOnce_of_later hhanded hlater
    have hawaiting := extractAwaiting_of_later hhanded hlater
    constructor
    · rw [renderAtOnce, Recorded.bind_of_ok hcompiled, honce]
      rfl
    · rw [renderAwaiting, compileAwaiting, Recorded.bind_of_ok hcompiled, hawaiting]
      cases x.outcome >>= x.after.runAwaiting <;> rfl

end Extract

section Samples

open CssColors

/-- A text with one variable. -/
def awaitedJob : SheetJob := { SheetJob.default with data := some "$a: 1;\n".toText }

/-- The plugin in the middle has to be waited for. -/
def awaitedPlugins : Pipeline := [.serialize [], .awaiting [], .shout []]

/-- The plugin in the middle wraps the payload that it is asked for. -/
def awaitedAnswer (payload : Data) : LaterAnswer :=
  ⟨[.serialize []], .awaiting [], [.shout []], payload,
    .ok (.ofFields [("wrapped".toText, payload)])⟩

theorem extract_awaitedPlugins :
    let specs := awaitedPlugins.map PluginSpec.plugin
    let compiler := lineCompiler emptySite []
    ∃ compiled payload, (compile emptySite compiler awaitedJob noHooks ()).recorded.outcome =
        .ok compiled ∧
      MeetsLater emptySite [] compiler compiled.sources awaitedJob specs (awaitedAnswer payload) ∧
      (extractAtOnce emptySite [] compiler compiled.sources awaitedJob specs).outcome =
        .error (.answersLater "awaiting".toText) ∧
      (extractAwaiting emptySite [] compiler compiled.sources awaitedJob specs).outcome =
        .ok (.ofFields [("wrapped".toText, payload), ("shout".toText, .mapping [])]) ∧
      (renderAtOnce emptySite [] compiler awaitedJob specs).outcome =
        .error (.answersLater "awaiting".toText) ∧
      (renderAwaiting emptySite [] compiler awaitedJob specs).outcome =
        .ok (compiled, .ofFields [("wrapped".toText, payload), ("shout".toText, .mapping [])]) := by
  intro specs compiler
  obtain ⟨hok, hcheck⟩ :
      (compile emptySite compiler awaitedJob noHooks ()).recorded.outcome.isOk ∧
      ∀ compiled ∈ (compile emptySite compiler awaitedJob noHooks ()).recorded.outcome.toOption,
        (handedToPlugins emptySite [] compiler compiled.sources awaitedJob specs).outcome.isOk := by
    decide +kernel
  obtain ⟨compiled, hcompiled⟩ := Except.exists_eq_ok hok
  obtain ⟨⟨pipeline, payload⟩, hhanded⟩ :=
    Except.exists_eq_ok (hcheck compiled (by rw [hcompiled]; rfl))
  obtain rfl : awaitedPlugins = pipeline := Except.ok.inj (ofSpecs_of_handed hhanded)
  have hlater : awaitedPlugins.AnswersLater payload (awaitedAnswer payload) :=
    ⟨rfl, .cons rfl (.nil payload), rfl⟩
  have hmeets : MeetsLater emptySite [] compiler compiled.sources awaitedJob specs
      (awaitedAnswer payload) := ⟨_, payload, hhanded, hlater⟩
  obtain ⟨-, -, -, hextract, -, hrender⟩ :=
    @extract_waits _ emptySite [] compiler compiled.sources awaitedJob specs
  obtain ⟨-, hstops, -, hgoes, -⟩ := hextract _ _ _ hhanded hlater
  obtain ⟨honce, hawaiting⟩ := hrender compiled _ hcompiled hmeets
  exact ⟨compiled, payload, hcompiled, hmeets, congrArg Recorded.outcome hstops,
    congrArg Recorded.outcome hgoes, honce, hawaiting⟩

end Samples

end StyleVars
