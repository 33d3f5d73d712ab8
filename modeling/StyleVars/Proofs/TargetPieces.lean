import StyleVars.Proofs.WrittenParts

/-!
# The pieces between the commas of an import

What stands behind the keyword of an import is cut at its commas (`Cuts`), and its targets are the
pieces without the white space around them (`Cuts.splitTargets`). Written one behind the other with
a comma and a space between them, the targets are found again (`splitTargets_joined`). With a
semicolon behind them, others are (`splitTargets_append_semicolon`).
-/

namespace StyleVars
namespace TargetSplit

/-! ## Texts without a comma that separates targets -/

/-- The quote that is open and the parentheses opened less those closed. -/
abbrev Nesting := Option CodePoint × Int

/-- With `a` open, the character belongs to the current target and leaves `b` open. -/
def Takes (a : Nesting) (c : CodePoint) (b : Nesting) : Prop :=
  ∀ done current, step ⟨done, current, a.1, a.2⟩ c = ⟨done, c :: current, b.1, b.2⟩

/-- With `a` open, the whole text belongs to the current target and leaves `b` open. -/
inductive Uncut : Nesting → Text → Nesting → Prop
  | nil {a : Nesting} : Uncut a [] a
  | cons {a m b : Nesting} {c : CodePoint} {t : Text} (hc : Takes a c m) (ht : Uncut m t b) :
    Uncut a (c :: t) b

variable {a b m : Nesting} {c : CodePoint} {t u : Text}

theorem Takes.unique (h : Takes a c b) (h' : Takes a c m) : b = m := by
  have heq := (h [] []).symm.trans (h' [] [])
  exact Prod.ext (congrArg quote heq) (congrArg depth heq)

/-- A character belongs to the current target or is a comma that ends it. -/
theorem takes_or_cut (c : CodePoint) (a : Nesting) :
    (∃ b, Takes a c b) ∨ c = ',' ∧ a = (none, 0) := by
  obtain ⟨_ | q, depth⟩ := a
  · by_cases hquote : c = '"' ∨ c = '\x27'
    · exact .inl ⟨(some c, depth), fun _ _ => if_pos hquote⟩
    by_cases hopen : c = '('
    · exact .inl ⟨(none, depth + 1), fun _ _ => by simp [step, hopen]⟩
    by_cases hclose : c = ')'
    · exact .inl ⟨(none, depth - 1), fun _ _ => by simp [step, hclose]⟩
    by_cases hcut : c = ',' ∧ depth = 0
    · exact .inr ⟨hcut.1, by rw [hcut.2]⟩
    · exact .inl ⟨(none, depth), fun _ _ => by
        simp only [step, if_neg hquote, if_neg hopen, if_neg hclose, if_neg hcut]⟩
  · exact .inl ⟨(if c = q then none else some q, depth), fun _ _ => rfl⟩

/-- White space leaves open what is open. -/
theorem takes_blank (hc : isBlank c) (ha : ∀ q ∈ a.1, isBlank q = false) : Takes a c a := by
  have hne : ∀ d : CodePoint, isBlank d = false → c ≠ d := fun d hd => CodePoint.ne_of_class hc hd
  obtain ⟨_ | q, depth⟩ := a
  · intro done current
    simp [step, hne '"' (by decide), hne '\x27' (by decide), hne '(' (by decide),
      hne ')' (by decide), hne ',' (by decide)]
  · intro done current
    simp [step, hne q (ha q rfl)]

/-- The only quotes that are opened are visible. -/
theorem Takes.visible (h : Takes a c b) (ha : ∀ q ∈ a.1, isBlank q = false) :
    ∀ q ∈ b.1, isBlank q = false := by
  have hstep := h [] []
  obtain ⟨_ | r, depth⟩ := a
  · intro q hq
    have hquote := congrArg quote hstep
    simp only [step] at hquote
    split_ifs at hquote with hc
    · obtain rfl : c = q := Option.some.inj (hquote.trans hq)
      obtain rfl | rfl := hc <;> decide
    all_goals exact absurd (hquote.trans hq) (by simp)
  · intro q hq
    have hquote : (if c = r then none else some r) = b.1 := congrArg quote hstep
    rw [← hquote] at hq
    split_ifs at hq
    · exact absurd hq (by simp)
    · exact ha q hq

namespace Uncut

theorem foldl (h : Uncut a t b) (done : List Text) (current : Text) :
    t.foldl step ⟨done, current, a.1, a.2⟩ = ⟨done, t.reverse ++ current, b.1, b.2⟩ := by
  induction h generalizing current with
  | nil => rfl
  | cons hc ht ih => rw [List.foldl_cons, hc, ih, List.reverse_cons, List.append_assoc]; rfl

theorem append (h : Uncut a t m) (h' : Uncut m u b) : Uncut a (t ++ u) b := by
  induction h with
  | nil => exact h'
  | cons hc ht ih => exact .cons hc (ih h')

theorem split (h : Uncut a (t ++ u) b) : ∃ m, Uncut a t m ∧ Uncut m u b := by
  induction t generalizing a with
  | nil => exact ⟨a, .nil, h⟩
  | cons c t ih =>
    cases h with
    | cons hc ht =>
      obtain ⟨m, ht', hu⟩ := ih ht
      exact ⟨m, .cons hc ht', hu⟩

theorem visible (h : Uncut a t b) (ha : ∀ q ∈ a.1, isBlank q = false) :
    ∀ q ∈ b.1, isBlank q = false := by
  induction h with
  | nil => exact ha
  | cons hc ht ih => exact ih (hc.visible ha)

theorem eq_of_blank (h : Uncut a t b) (ht : ∀ c ∈ t, isBlank c)
    (ha : ∀ q ∈ a.1, isBlank q = false) : b = a := by
  induction h with
  | nil => rfl
  | cons hc h ih =>
    obtain rfl := hc.unique (takes_blank (ht _ List.mem_cons_self) ha)
    exact ih (fun d hd => ht d (List.mem_cons_of_mem _ hd)) ha

/-- White space around a text belongs to the same target and changes nothing. -/
theorem strip (h : Uncut (none, 0) t b) : Uncut (none, 0) (Text.strip t) b := by
  obtain ⟨lead, gap, ht, hlead, hgap⟩ := Text.exists_strip t
  rw [ht] at h
  obtain ⟨m, hm, h⟩ := h.split
  obtain rfl := hm.eq_of_blank hlead (by simp)
  obtain ⟨m', hm', h⟩ := h.split
  obtain rfl := h.eq_of_blank hgap (hm'.visible (by simp))
  exact hm'

end Uncut

/-- A text belongs to the current target up to the first comma that ends it. -/
theorem uncut_or_exists_cut (t : Text) (a : Nesting) :
    (∃ b, Uncut a t b) ∨
      ∃ p rest, t = p ++ CodePoint.char ',' :: rest ∧ Uncut a p (none, 0) := by
  induction t generalizing a with
  | nil => exact .inl ⟨a, .nil⟩
  | cons c t ih =>
    rcases takes_or_cut c a with ⟨m, hc⟩ | ⟨rfl, rfl⟩
    · rcases ih m with ⟨b, ht⟩ | ⟨p, rest, rfl, hp⟩
      · exact .inl ⟨b, .cons hc ht⟩
      · exact .inr ⟨c :: p, rest, rfl, .cons hc hp⟩
    · exact .inr ⟨[], t, rfl, .nil⟩

end TargetSplit

/-! ## Pieces -/

open TargetSplit

/-- The pieces of a text between the commas that separate targets. -/
inductive Cuts : Text → List Text → Prop
  | last {t : Text} {b : Nesting} (h : Uncut (none, 0) t b) : Cuts t [t]
  | cons {p t : Text} {ps : List Text} (hp : Uncut (none, 0) p (none, 0)) (h : Cuts t ps) :
    Cuts (p ++ CodePoint.char ',' :: t) (p :: ps)

theorem exists_cuts (t : Text) : ∃ ps, Cuts t ps := by
  induction hn : t.length using Nat.strongRecOn generalizing t with
  | ind n ih =>
    rcases uncut_or_exists_cut t (none, 0) with ⟨b, h⟩ | ⟨p, rest, rfl, hp⟩
    · exact ⟨[t], .last h⟩
    · obtain ⟨ps, hps⟩ := ih rest.length (by simp [← hn]; omega) rest rfl
      exact ⟨p :: ps, .cons hp hps⟩

/-- What is left of the pieces without the white space around them. -/
def strippedPieces (ps : List Text) : List Text := (ps.map Text.strip).filter (· ≠ [])

variable {t : Text} {ps : List Text}

theorem strippedPieces_cons (p : Text) (ps : List Text) :
    strippedPieces (p :: ps) =
      if Text.strip p = [] then strippedPieces ps else Text.strip p :: strippedPieces ps := by
  rw [strippedPieces, List.map_cons, List.filter_cons]
  by_cases hp : Text.strip p = [] <;> simp [hp, strippedPieces]

theorem Cuts.finish (h : Cuts t ps) (done : List Text) :
    (t.foldl step ⟨done, [], none, 0⟩).finish = done ++ ps.map Text.strip := by
  induction h generalizing done with
  | @last t b h =>
    rw [h.foldl]
    simp [TargetSplit.finish]
  | @cons p t ps hp h ih =>
    have hcomma : step ⟨done, p.reverse ++ [], none, 0⟩ ',' =
        ⟨done ++ [Text.strip p], [], none, 0⟩ := by
      have hcut : step ⟨done, p.reverse ++ [], none, 0⟩ ',' =
          ⟨done ++ [Text.strip (p.reverse ++ []).reverse], [], none, 0⟩ := rfl
      rw [hcut, List.append_nil, List.reverse_reverse]
    rw [List.foldl_append, hp.foldl, List.foldl_cons, hcomma, ih]
    simp

theorem Cuts.splitTargets (h : Cuts t ps) : splitTargets t = strippedPieces ps := by
  rw [StyleVars.splitTargets, h.finish]
  rfl

theorem getLast?_of_mem_splitTargets {raw : Text} (h : raw ∈ splitTargets t) :
    ∃ c, raw.getLast? = some c ∧ isBlank c = false := by
  obtain ⟨ps, hps⟩ := exists_cuts t
  rw [hps.splitTargets] at h
  obtain ⟨hraw, hne⟩ := List.mem_filter.mp h
  obtain ⟨p, -, rfl⟩ := List.mem_map.mp hraw
  exact Text.getLast?_strip (by simpa using hne)

/-! ## Targets written again -/

theorem uncut_space : Uncut (none, 0) [CodePoint.char ' '] (none, 0) :=
  .cons (takes_blank (by decide) (by simp)) .nil

/-- With a comma and a space between them, the stripped pieces are cut apart again. -/
theorem Cuts.joined (h : Cuts t ps) :
    strippedPieces ps = [] ∨
      Cuts (CodePoint.char ' ' :: Text.join ", ".toText (strippedPieces ps))
        ((strippedPieces ps).map (CodePoint.char ' ' :: ·)) := by
  induction h with
  | @last t b h =>
    rw [strippedPieces_cons]
    split_ifs
    · exact .inl rfl
    · exact .inr (.last (uncut_space.append h.strip))
  | @cons p t ps hp h ih =>
    rw [strippedPieces_cons]
    split_ifs
    · exact ih
    · refine .inr ?_
      rcases hraws : strippedPieces ps with _ | ⟨raw, raws⟩
      · exact .last (uncut_space.append hp.strip)
      · rw [hraws] at ih
        have hrest := ih.resolve_left (by simp)
        have hjoin : CodePoint.char ' ' :: Text.join ", ".toText (Text.strip p :: raw :: raws) =
            ([CodePoint.char ' '] ++ Text.strip p) ++ CodePoint.char ',' ::
              (CodePoint.char ' ' :: Text.join ", ".toText (raw :: raws)) := by
          simp [Text.join, String.toText]
        rw [hjoin]
        exact .cons (uncut_space.append hp.strip) hrest

/-- The targets of an import, written again, are its targets. -/
theorem splitTargets_joined (h : splitTargets t ≠ []) :
    splitTargets (CodePoint.char ' ' :: Text.join ", ".toText (splitTargets t)) =
      splitTargets t := by
  obtain ⟨ps, hps⟩ := exists_cuts t
  rw [hps.splitTargets] at h ⊢
  rw [(hps.joined.resolve_left h).splitTargets, strippedPieces, List.map_map]
  have hstrip : (strippedPieces ps).map (Text.strip ∘ (CodePoint.char ' ' :: ·)) =
      strippedPieces ps := by
    refine (List.map_congr_left fun raw hraw => ?_).trans (List.map_id _)
    obtain ⟨p, -, rfl⟩ := List.mem_map.mp (List.mem_filter.mp hraw).1
    exact (Text.strip_cons_blank (by decide) _).trans (Text.strip_strip p)
  rw [hstrip]
  exact List.filter_eq_self.mpr fun raw hraw => (List.mem_filter.mp hraw).2

/-- What is still to be read goes on with the current target, whatever becomes of it. -/
theorem exists_finish_foldl (u : Text) (done : List Text) (current : Text) (a : Nesting) :
    ∃ w raws, (u.foldl step ⟨done, current, a.1, a.2⟩).finish =
      done ++ Text.strip (current.reverse ++ w) :: raws := by
  induction u generalizing done current a with
  | nil => exact ⟨[], [], by simp [TargetSplit.finish]⟩
  | cons c u ih =>
    rcases takes_or_cut c a with ⟨m, hc⟩ | ⟨rfl, rfl⟩
    · obtain ⟨w, raws, h⟩ := ih done (c :: current) m
      exact ⟨c :: w, raws, by rw [List.foldl_cons, hc, h]; simp⟩
    · obtain ⟨w, raws, h⟩ := ih (done ++ [Text.strip current.reverse]) [] (none, 0)
      have hcut : step ⟨done, current, none, 0⟩ ',' =
          ⟨done ++ [Text.strip current.reverse], [], none, 0⟩ := rfl
      exact ⟨[], Text.strip w :: raws, by rw [List.foldl_cons, hcut, h]; simp⟩

/-- A semicolon never separates targets, so that it belongs to one of them. -/
theorem splitTargets_append_semicolon (t u : Text) :
    splitTargets (t ++ CodePoint.char ';' :: u) ≠ splitTargets t := by
  rw [splitTargets, splitTargets, List.foldl_append]
  obtain ⟨done, current, quote, depth⟩ := t.foldl step ⟨[], [], none, 0⟩
  obtain ⟨m, hm⟩ := (takes_or_cut ';' (quote, depth)).resolve_right fun h => absurd h.1 (by decide)
  obtain ⟨w, raws, hfinish⟩ := exists_finish_foldl u done (.char ';' :: current) m
  rw [List.foldl_cons, hm, hfinish, TargetSplit.finish, List.filter_append, List.filter_append,
    Ne, List.append_cancel_left_eq, List.reverse_cons, List.append_assoc, List.singleton_append]
  have hne := Text.strip_append_ne (c := ';') (by decide) current.reverse w
  have hvisible : Text.strip (current.reverse ++ CodePoint.char ';' :: w) ≠ [] := by
    rw [Text.strip_append_visible (by decide)]
    simp
  intro heq
  rw [List.filter_cons_of_pos (by simpa using hvisible)] at heq
  by_cases hcurrent : Text.strip current.reverse = []
  · simp [hcurrent] at heq
  · rw [List.filter_cons_of_pos (by simpa using hcurrent), List.cons.injEq] at heq
    exact hne heq.1

end StyleVars
