import StyleVars.Text.Blank
import Mathlib.Data.List.Basic
import Mathlib.Data.List.TakeWhile
import Mathlib.Tactic.SplitIfs

/-!
# Stripped texts

What is stripped from a text is white space, and what is left starts and ends with visible
characters (`Text.exists_strip`, `Text.strip_spec`). White space put around a text changes nothing
of that (`Text.strip_blank_append`, `Text.strip_append_of_blank`), and a visible character keeps
what stands between it and another one (`Text.strip_append_cons`).
-/

namespace StyleVars

/-! ## Classes of characters -/

theorem CodePoint.ne_of_class {p : CodePoint → Bool} {c d : CodePoint} (h : p c)
    (hd : p d = false) : c ≠ d := by
  rintro rfl
  exact absurd (h.symm.trans hd) Bool.noConfusion

namespace Text

variable {gap t : Text} {c : CodePoint}

theorem notMem_of_class {p : CodePoint → Bool} (h : ∀ c ∈ t, p c) (hc : p c = false) : c ∉ t :=
  fun hmem => CodePoint.ne_of_class (h c hmem) hc rfl

/-! ## Visible ends -/

theorem dropWhile_isBlank (hhead : ∀ c ∈ t.head?, isBlank c = false) : t.dropWhile isBlank = t := by
  cases t with
  | nil => rfl
  | cons c rest => exact List.dropWhile_cons_of_neg (by simp [hhead c (by simp)])

theorem dropWhile_isBlank_append (hc : isBlank c = false) (t w : Text) :
    (t ++ c :: w).dropWhile isBlank = t.dropWhile isBlank ++ c :: w := by
  rw [List.dropWhile_append]
  split_ifs with hempty
  · rw [List.isEmpty_iff.mp hempty, List.nil_append, List.dropWhile_cons_of_neg (by simp [hc])]
  · rfl

theorem strip_eq_stripRight_dropWhile (t : Text) : strip t = stripRight (t.dropWhile isBlank) := rfl

/-- A text that starts with a visible character is stripped at its end only. -/
theorem strip_eq_stripRight (hhead : ∀ c ∈ t.head?, isBlank c = false) :
    strip t = stripRight t := by
  rw [strip_eq_stripRight_dropWhile, dropWhile_isBlank hhead]

theorem stripRight_eq_self (hlast : ∀ c ∈ t.getLast?, isBlank c = false) : stripRight t = t := by
  unfold stripRight trimRight
  rw [dropWhile_isBlank (by rwa [List.head?_reverse]), List.reverse_reverse]

/-- Only white space at its ends is stripped from a text. -/
theorem strip_eq_self (hhead : ∀ c ∈ t.head?, isBlank c = false)
    (hlast : ∀ c ∈ t.getLast?, isBlank c = false) : strip t = t := by
  rw [strip_eq_stripRight hhead, stripRight_eq_self hlast]

theorem stripRight_append_cons (hc : isBlank c = false) (t w : Text) :
    stripRight (t ++ c :: w) = t ++ c :: stripRight w := by
  unfold stripRight trimRight
  rw [List.reverse_append, List.reverse_cons, List.append_assoc, List.singleton_append,
    dropWhile_isBlank_append hc]
  simp

theorem strip_append_visible (hc : isBlank c = false) (t w : Text) :
    strip (t ++ c :: w) = t.dropWhile isBlank ++ c :: stripRight w := by
  rw [strip_eq_stripRight_dropWhile, dropWhile_isBlank_append hc, stripRight_append_cons hc]

/-- Stripping a text does not reach past a visible character in it. -/
theorem strip_append_cons (hhead : ∀ d ∈ t.head?, isBlank d = false) (hc : isBlank c = false)
    (w : Text) : strip (t ++ c :: w) = t ++ c :: stripRight w := by
  rw [strip_append_visible hc, dropWhile_isBlank hhead]

/-- A word of visible characters at the end is not stripped, but what stands before it is. -/
theorem strip_append_word {word : Text} (hword : ∀ c ∈ word, isBlank c = false)
    (hne : word ≠ []) (t : Text) : ∃ u, strip (t ++ word) = u ++ word ∧ stripRight u = strip t := by
  refine ⟨t.dropWhile isBlank, ?_, rfl⟩
  obtain ⟨c, rest, rfl⟩ := List.exists_cons_of_ne_nil hne
  rw [strip_eq_stripRight_dropWhile, dropWhile_isBlank_append (hword c List.mem_cons_self)]
  refine stripRight_eq_self fun d hd => hword d (List.mem_of_getLast? ?_)
  rwa [List.getLast?_append_of_ne_nil _ hne] at hd

/-- A text that ends with a visible character is stripped at its start only. -/
theorem strip_of_getLast? (hlast : t.getLast? = some c) (hc : isBlank c = false) :
    ∃ lead, t = lead ++ strip t ∧ (∀ b ∈ lead, isBlank b) ∧ (strip t).getLast? = some c := by
  obtain ⟨u, rfl⟩ := List.getLast?_eq_some_iff.mp hlast
  have hstrip : strip (u ++ [c]) = u.dropWhile isBlank ++ [c] := by
    rw [strip_eq_stripRight_dropWhile, dropWhile_isBlank_append hc,
      stripRight_eq_self (by simpa using hc)]
  refine ⟨u.takeWhile isBlank, ?_, List.all_eq_true.mp List.all_takeWhile, ?_⟩
  · rw [hstrip, ← List.append_assoc, List.takeWhile_append_dropWhile]
  · rw [hstrip, List.getLast?_concat]

/-! ## White space at the ends -/

theorem strip_blank_append (h : ∀ c ∈ gap, isBlank c) (t : Text) : strip (gap ++ t) = strip t := by
  rw [strip_eq_stripRight_dropWhile, List.dropWhile_append_of_pos h]
  rfl

theorem strip_cons_blank (h : isBlank c) (t : Text) : strip (c :: t) = strip t := by
  rw [strip_eq_stripRight_dropWhile, List.dropWhile_cons_of_pos h]
  rfl

theorem stripRight_append_of_blank (h : ∀ c ∈ gap, isBlank c) (t : Text) :
    stripRight (t ++ gap) = stripRight t := by
  unfold stripRight trimRight
  rw [List.reverse_append, List.dropWhile_append_of_pos fun c hc => h c (List.mem_reverse.mp hc)]

theorem strip_append_of_blank (h : ∀ c ∈ gap, isBlank c) (t : Text) :
    strip (t ++ gap) = strip t := by
  rw [strip_eq_stripRight_dropWhile, strip_eq_stripRight_dropWhile, List.dropWhile_append]
  split_ifs with hempty
  · rw [List.isEmpty_iff.mp hempty, List.dropWhile_eq_nil_iff.mpr h]
  · exact stripRight_append_of_blank h _

/-- What is stripped from the end of a text is the white space there. -/
theorem stripRight_spec (t : Text) :
    ∃ gap, t = stripRight t ++ gap ∧ (∀ c ∈ gap, isBlank c) ∧
      ∀ c ∈ (stripRight t).getLast?, isBlank c = false := by
  refine ⟨(t.reverse.takeWhile isBlank).reverse, ?_, fun c hc => ?_, fun c hc => ?_⟩
  · rw [stripRight, trimRight, ← List.reverse_append, List.takeWhile_append_dropWhile,
      List.reverse_reverse]
  · exact List.all_eq_true.mp List.all_takeWhile c (List.mem_reverse.mp hc)
  · have hnot := List.head?_dropWhile_not isBlank t.reverse
    rw [stripRight, trimRight, List.getLast?_reverse] at hc
    rw [Option.mem_def.mp hc] at hnot
    exact hnot

theorem strip_stripRight (t : Text) : strip (stripRight t) = strip t := by
  obtain ⟨gap, ht, hgap, -⟩ := stripRight_spec t
  conv_rhs => rw [ht]
  exact (strip_append_of_blank hgap _).symm

/-- A text that starts with a visible character is followed, once it is stripped, by the white space
that has been stripped from its end. -/
theorem strip_spec (hhead : ∀ c ∈ t.head?, isBlank c = false) :
    ∃ gap, t = strip t ++ gap ∧ (∀ c ∈ gap, isBlank c) ∧
      ∀ c ∈ (strip t).getLast?, isBlank c = false := by
  rw [strip_eq_stripRight hhead]
  exact stripRight_spec t

theorem strip_cons_ne_nil (hc : isBlank c = false) (t : Text) : strip (c :: t) ≠ [] := by
  have hstrip := strip_append_cons (t := []) (by simp) hc t
  rw [List.nil_append, List.nil_append] at hstrip
  simp [hstrip]

/-- Any text is what is left of it without the white space at its ends, between white space. -/
theorem exists_strip (t : Text) :
    ∃ before after, t = before ++ (strip t ++ after) ∧ (∀ c ∈ before, isBlank c) ∧
      ∀ c ∈ after, isBlank c := by
  obtain ⟨after, ht, hafter, -⟩ := stripRight_spec (t.dropWhile isBlank)
  refine ⟨t.takeWhile isBlank, after, ?_, List.all_eq_true.mp List.all_takeWhile, hafter⟩
  rw [strip_eq_stripRight_dropWhile, ← ht, List.takeWhile_append_dropWhile]

/-- What is left of a text without the white space at its ends ends with a visible character. -/
theorem getLast?_strip (hne : strip t ≠ []) :
    ∃ c, (strip t).getLast? = some c ∧ isBlank c = false := by
  obtain ⟨-, -, -, hlast⟩ := stripRight_spec (t.dropWhile isBlank)
  rw [← strip_eq_stripRight_dropWhile] at hlast
  have hsome := List.getLast?_eq_some_getLast hne
  exact ⟨_, hsome, hlast _ hsome⟩

theorem strip_strip (t : Text) : strip (strip t) = strip t := by
  obtain ⟨gap, ht, -, hlast⟩ := stripRight_spec (t.dropWhile isBlank)
  rw [← strip_eq_stripRight_dropWhile] at ht hlast
  refine strip_eq_self (fun c hc => ?_) hlast
  have hhead := List.head?_dropWhile_not isBlank t
  rw [ht, List.head?_append, Option.mem_def.mp hc] at hhead
  exact hhead

/-- A visible character behind a text stays when the whole is stripped. -/
theorem strip_append_ne (hc : isBlank c = false) (t w : Text) :
    strip (t ++ c :: w) ≠ strip t := by
  intro heq
  rw [strip_append_visible hc, strip_eq_stripRight_dropWhile] at heq
  obtain ⟨gap, ht, -⟩ := stripRight_spec (t.dropWhile isBlank)
  rw [← heq] at ht
  have hlength := congrArg List.length ht
  simp only [List.length_append, List.length_cons] at hlength
  omega

/-- What is stripped starts with a visible character. -/
theorem head?_of_strip_eq_self (h : strip t = t) : ∀ c ∈ t.head?, isBlank c = false := by
  intro c hc
  obtain ⟨rest, rfl⟩ := List.head?_eq_some_iff.mp hc
  by_contra hblank
  have hshort : (strip (c :: rest)).length ≤ rest.length := by
    rw [strip_cons_blank (by simpa using hblank), strip, trimEnds, List.length_reverse]
    refine (List.dropWhile_sublist _).length_le.trans ?_
    rw [List.length_reverse]
    exact (List.dropWhile_sublist _).length_le
  rw [h, List.length_cons] at hshort
  omega

end Text
end StyleVars
