import StyleVars.Journal

/-!
# Computations that succeed

A computation that succeeds has succeeded in each of its steps. These lemmas take it apart.
-/

namespace StyleVars

variable {ε α β : Type}

theorem Except.exists_eq_ok {x : Except ε α} (h : x.isOk) : ∃ a, x = .ok a := by
  cases x with
  | error e => exact nomatch h
  | ok a => exact ⟨a, rfl⟩

theorem Except.isOk_bind {x : Except ε α} {f : α → Except ε β} (hx : x.isOk)
    (hf : ∀ a, (f a).isOk) : (x >>= f).isOk := by
  obtain ⟨a, rfl⟩ := Except.exists_eq_ok hx
  exact hf a

theorem Except.bind_eq_ok {x : Except ε α} {f : α → Except ε β} {b : β} :
    (x >>= f) = .ok b ↔ ∃ a, x = .ok a ∧ f a = .ok b := by
  cases x with
  | error e => simp [bind, Except.bind]
  | ok a => simp [bind, Except.bind]

theorem Except.map_eq_ok {x : Except ε α} {f : α → β} {b : β} :
    x.map f = .ok b ↔ ∃ a, x = .ok a ∧ f a = b := by
  cases x with
  | error e => simp [Except.map]
  | ok a => simp [Except.map]

theorem Recorded.bind_eq_ok {x : Recorded α} {f : α → Recorded β} {b : β} :
    (x >>= f).outcome = .ok b ↔ ∃ a, x.outcome = .ok a ∧ (f a).outcome = .ok b := by
  rw [Recorded.outcome_bind]
  exact Except.bind_eq_ok

theorem Recorded.bind_of_ok {x : Recorded α} {a : α} (h : x.outcome = .ok a)
    (f : α → Recorded β) : x >>= f = ⟨x.events ++ (f a).events, (f a).outcome⟩ := by
  change Recorded.bind x f = _
  rw [Recorded.bind, h]

theorem Recorded.bind_congr {x : Recorded α} {f g : α → Recorded β}
    (h : ∀ a, x.outcome = .ok a → f a = g a) : x >>= f = x >>= g := by
  change Recorded.bind x f = Recorded.bind x g
  unfold Recorded.bind
  cases hx : x.outcome with
  | error e => rfl
  | ok a => simp only [h a hx]

/-- A computation over a list succeeds when it does for each element, the results in order. -/
theorem Except.mapM_eq_ok {f : α → Except ε β} {xs : List α} {ys : List β} :
    xs.mapM f = .ok ys ↔ xs.map f = ys.map .ok := by
  induction xs generalizing ys with
  | nil =>
    rw [List.mapM_nil]
    cases ys with
    | nil => simp [pure, Except.pure]
    | cons y ys => simp [pure, Except.pure]
  | cons x xs ih =>
    rw [List.mapM_cons, Except.bind_eq_ok]
    cases ys with
    | nil => simp [Except.bind_eq_ok, pure, Except.pure]
    | cons y ys =>
      simp only [Except.bind_eq_ok, ih, List.map_cons, List.cons.injEq, pure, Except.pure,
        Except.ok.injEq]
      constructor
      · rintro ⟨a, ha, bs, hbs, rfl, rfl⟩
        exact ⟨ha, hbs⟩
      · rintro ⟨ha, hbs⟩
        exact ⟨y, ha, ys, hbs, rfl, rfl⟩

/-- A computation over a list fails with the first failure of an element. -/
theorem Except.mapM_eq_error {f : α → Except ε β} {xs : List α} {e : ε} :
    xs.mapM f = .error e ↔
      ∃ before x after, xs = before ++ x :: after ∧ f x = .error e ∧
        ∀ earlier ∈ before, (f earlier).isOk := by
  induction xs with
  | nil => simp [pure, Except.pure]
  | cons x xs ih =>
    rw [List.mapM_cons]
    cases hx : f x with
    | error e' =>
      change Except.error e' = Except.error e ↔ _
      rw [Except.error.injEq]
      constructor
      · rintro rfl
        exact ⟨[], x, xs, rfl, hx, by simp⟩
      · rintro ⟨before, y, after, hxs, hy, hbefore⟩
        cases before with
        | nil =>
          obtain ⟨rfl, -⟩ := List.cons.inj hxs
          exact Except.error.inj (hx.symm.trans hy)
        | cons z before =>
          obtain ⟨rfl, -⟩ := List.cons.inj hxs
          have hok := hbefore x List.mem_cons_self
          rw [hx] at hok
          exact nomatch hok
    | ok y =>
      have hrest : (do let ys ← xs.mapM f; pure (y :: ys)) = Except.error e ↔
          xs.mapM f = .error e := by
        cases xs.mapM f <;> simp [bind, Except.bind, pure, Except.pure]
      refine hrest.trans (ih.trans ?_)
      constructor
      · rintro ⟨before, z, after, rfl, hz, hbefore⟩
        refine ⟨x :: before, z, after, rfl, hz, ?_⟩
        intro earlier hearlier
        rcases List.mem_cons.mp hearlier with rfl | hmem
        · rw [hx]
          rfl
        · exact hbefore earlier hmem
      · rintro ⟨before, z, after, hxs, hz, hbefore⟩
        cases before with
        | nil =>
          obtain ⟨rfl, -⟩ := List.cons.inj hxs
          exact nomatch hx.symm.trans hz
        | cons w before =>
          obtain ⟨rfl, rfl⟩ := List.cons.inj hxs
          exact ⟨before, z, after, rfl, hz,
            fun earlier hearlier => hbefore earlier (List.mem_cons_of_mem _ hearlier)⟩

/-- When each result tells the element it is for, the results tell the list. -/
theorem Except.map_of_mapM_eq_ok {f : α → Except ε β} {g : β → α}
    (hg : ∀ x y, f x = .ok y → g y = x) {xs : List α} {ys : List β} (h : xs.mapM f = .ok ys) :
    ys.map g = xs := by
  rw [Except.mapM_eq_ok] at h
  induction xs generalizing ys with
  | nil =>
    obtain rfl := List.map_eq_nil_iff.mp h.symm
    rfl
  | cons x xs ih =>
    obtain ⟨y, ys, rfl, hy, hys⟩ := List.map_eq_cons_iff.mp h.symm
    rw [List.map_cons, hg x y hy.symm, ih hys.symm]

theorem Recorded.id_map (x : Recorded α) : id <$> x = x := by
  rcases x with ⟨events, e | a⟩
  · rfl
  · simp [Functor.map, Recorded.bind, Recorded.ok]

theorem Recorded.bind_assoc {γ : Type} (x : Recorded α) (f : α → Recorded β) (g : β → Recorded γ) :
    x >>= f >>= g = x >>= fun a => f a >>= g := by
  rcases x with ⟨events, e | a⟩
  · rfl
  · rcases hf : f a with ⟨more, e | b⟩
    · simp [Bind.bind, Recorded.bind, hf]
    · simp [Bind.bind, Recorded.bind, hf, List.append_assoc]

instance : LawfulMonad Recorded :=
  .mk' Recorded Recorded.id_map (fun _ _ => by simp [bind, pure, Recorded.bind, Recorded.ok])
    Recorded.bind_assoc

/-- The outcome of a recorded computation over a list does not depend on the records. -/
theorem Recorded.outcome_mapM (f : α → Recorded β) (xs : List α) :
    (xs.mapM f).outcome = xs.mapM fun x => (f x).outcome := by
  induction xs with
  | nil => rfl
  | cons x xs ih =>
    rw [List.mapM_cons, List.mapM_cons, Recorded.outcome_bind]
    simp only [Recorded.outcome_bind, ih]
    rfl

end StyleVars
