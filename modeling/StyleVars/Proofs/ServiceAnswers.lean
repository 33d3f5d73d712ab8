import StyleVars.Proofs.Outcomes
import StyleVars.Proofs.KeyedLists
import StyleVars.Service.Plain.Framework
import StyleVars.Service.Respond

/-!
# What a service's answers give

A framework writes the variables of an answer in JSON, which has no numbers but finite ones: the
others are written as nothing (`Service.WrittenAs`). What the service relies on is that the
documents of refusals and of answers are of this kind (`Service.Framework.WritesJson`), and the
plain framework keeps to that (`Service.Plain.writesJson_framework`).
-/

namespace StyleVars.Service

/-- What is read back from the JSON text of a value. A number that is not finite is written as
nothing, and the entries of a mapping have texts for names. -/
inductive WrittenAs : Data → Data → Prop
  | null : WrittenAs .null .null
  | bool (b : Bool) : WrittenAs (.bool b) (.bool b)
  | int (n : Int) : WrittenAs (.int n) (.int n)
  | real {x : Binary64} (hfinite : x.isFinite) : WrittenAs (.real x) (.real x)
  | lost {x : Binary64} (hlost : ¬x.isFinite) : WrittenAs (.real x) .null
  | text (t : Text) : WrittenAs (.text t) (.text t)
  | list {items read : List Data} (hlength : read.length = items.length)
      (hitems : ∀ pair ∈ items.zip read, WrittenAs pair.1 pair.2) :
      WrittenAs (.list items) (.list read)
  | mapping {entries : Data.Entries} {fields : List (Text × Data)}
      (origin : Text × Data → Data.Key × Data) (horigin : ∀ field ∈ fields, origin field ∈ entries)
      (hfields : ∀ field ∈ fields, WrittenAs (origin field).2 field.2) :
      WrittenAs (.mapping entries) (.ofFields fields)

/-- A framework writes documents in JSON. A refusal tells a text, and an answer gives a text and
what is written of the variables. -/
structure Framework.WritesJson (framework : Framework) : Prop where
  refuse : ∀ {status : Nat} {detail : Text} {d : Data},
    (framework.refuse status detail).body = some d →
      ∃ told, d = .ofFields [("detail".toText, .text told)]
  answer : ∀ {css : Text} {vars d : Data} {response : Response},
    framework.answer css vars = .ok response → response.body = some d →
      ∃ css' vars', d = .ofFields [("css".toText, .text css'), ("vars".toText, vars')] ∧
        WrittenAs vars vars'

/-- The document of the response to an extraction is that of an answer or that of a refusal. -/
theorem Framework.WritesJson.extracted {framework : Framework} (hwrites : framework.WritesJson)
    {css : Text} {vars d : Data} (h : (framework.extracted css vars).body = some d) :
    (∃ told, d = .ofFields [("detail".toText, .text told)]) ∨
    ∃ css' vars', d = .ofFields [("css".toText, .text css'), ("vars".toText, vars')] ∧
      WrittenAs vars vars' := by
  unfold Framework.extracted at h
  split at h
  · next hanswer => exact .inr (hwrites.answer hanswer h)
  · exact .inl (hwrites.refuse h)

/-! ## The plain framework -/

namespace Plain

theorem writtenText_eq_ok {t t' : Text} (h : writtenText t = .ok t') : t' = t := by
  unfold writtenText at h
  split at h
  · exact (Except.ok.inj h).symm
  · cases h

mutual

theorem writtenAs_of_written {depth : Nat} {d d' : Data} (h : written depth d = .ok d') :
    WrittenAs d d' := by
  unfold written at h
  split_ifs at h with hdepth
  match d with
  | .null => exact Except.ok.inj h ▸ .null
  | .bool b => exact Except.ok.inj h ▸ .bool b
  | .int n => exact Except.ok.inj h ▸ .int n
  | .real x =>
    obtain rfl := Except.ok.inj h
    split_ifs with hfinite
    · exact .real hfinite
    · exact .lost hfinite
  | .text t =>
    obtain ⟨t', ht, rfl⟩ := Except.map_eq_ok.mp h
    exact writtenText_eq_ok ht ▸ .text t
  | .list items =>
    obtain ⟨items', hitems, rfl⟩ := Except.map_eq_ok.mp h
    obtain ⟨hlength, hwritten⟩ := writtenAs_of_writtenItems hitems
    exact .list hlength hwritten
  | .mapping entries =>
    obtain ⟨fields, hfields, h⟩ := Except.bind_eq_ok.mp h
    obtain rfl := Except.ok.inj h
    have : Nonempty (Data.Key × Data) := ⟨(.null, .null)⟩
    choose! origin horigin hwritten using writtenAs_of_writtenEntries hfields
    -- of the fields with one name the last one is kept
    have hkept : ∀ field ∈ Keyed.ofList fields, field ∈ fields := by
      intro field hfield
      obtain ⟨before, after, rfl, -⟩ := Keyed.mem_ofList_iff.mp hfield
      simp
    exact .mapping origin (fun field hfield => horigin field (hkept field hfield))
      fun field hfield => hwritten field (hkept field hfield)

theorem writtenAs_of_writtenItems {depth : Nat} {items items' : List Data}
    (h : writtenItems depth items = .ok items') :
    items'.length = items.length ∧ ∀ pair ∈ items.zip items', WrittenAs pair.1 pair.2 := by
  match items with
  | [] =>
    obtain rfl := Except.ok.inj h
    exact ⟨rfl, nofun⟩
  | d :: rest =>
    obtain ⟨item, hitem, h⟩ := Except.bind_eq_ok.mp h
    obtain ⟨others, hothers, h⟩ := Except.bind_eq_ok.mp h
    obtain rfl := Except.ok.inj h
    obtain ⟨hlength, hwritten⟩ := writtenAs_of_writtenItems hothers
    refine ⟨congrArg (· + 1) hlength, ?_⟩
    rw [List.zip_cons_cons]
    exact List.forall_mem_cons.mpr ⟨writtenAs_of_written hitem, hwritten⟩

theorem writtenAs_of_writtenEntries {depth : Nat} {entries : List (Data.Key × Data)}
    {fields : List (Text × Data)} (h : writtenEntries depth entries = .ok fields) :
    ∀ field ∈ fields, ∃ entry, entry ∈ entries ∧ WrittenAs entry.2 field.2 := by
  match entries with
  | [] =>
    obtain rfl := Except.ok.inj h
    exact nofun
  | (key, d) :: rest =>
    obtain ⟨name, -, h⟩ := Except.bind_eq_ok.mp h
    obtain ⟨value, hvalue, h⟩ := Except.bind_eq_ok.mp h
    obtain ⟨others, hothers, h⟩ := Except.bind_eq_ok.mp h
    obtain rfl := Except.ok.inj h
    refine List.forall_mem_cons.mpr ⟨⟨_, List.mem_cons_self, writtenAs_of_written hvalue⟩, ?_⟩
    intro field hfield
    obtain ⟨entry, hentry, hwritten⟩ := writtenAs_of_writtenEntries hothers field hfield
    exact ⟨entry, List.mem_cons_of_mem _ hentry, hwritten⟩

end

theorem exists_detail_of_refusal {status : Nat} {t : Text} {d : Data}
    (h : (refusal status (.text t)).body = some d) :
    ∃ told, d = .ofFields [("detail".toText, .text told)] := by
  unfold refusal at h
  split at h <;> obtain rfl := Option.some.inj h <;> exact ⟨_, rfl⟩

/-- Whatever its description of the service is, the plain framework writes documents in JSON. -/
theorem writesJson_framework (description : Data) : (framework description).WritesJson where
  refuse := exists_detail_of_refusal
  answer := by
    intro css vars d response hanswer hbody
    change answer css vars = .ok response at hanswer
    unfold answer at hanswer
    dsimp only at hanswer
    split at hanswer
    · next document hdocument =>
      obtain rfl := Except.ok.inj hanswer
      obtain rfl := Option.some.inj hbody
      obtain ⟨css', -, hdocument⟩ := Except.bind_eq_ok.mp hdocument
      obtain ⟨vars', hvars, hdocument⟩ := Except.bind_eq_ok.mp hdocument
      obtain rfl := Except.ok.inj hdocument
      exact ⟨css', vars', rfl, writtenAs_of_written hvars⟩
    · cases hanswer

end Plain

end StyleVars.Service
