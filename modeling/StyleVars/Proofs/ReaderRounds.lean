import StyleVars.Proofs.StatementSpans
import Mathlib.Logic.Function.Iterate

/-!
# Reading in rounds

Between two comments, strings and interpolations a reader can go over each of them at once instead
of character by character. Such a reader goes on in rounds, each of which moves it forward
(`RoundReader.round_bounds`), so that it comes to the end of every text; a backslash there may
take it one past the end. It finds the statements that the reader of single characters finds
(`RoundReader.run_initial`).
-/

namespace StyleVars

/-! ## What is gone over at once -/

/-- The offset of the line feed that ends a comment. -/
def lineCommentEnd (text : Text) (index : Nat) : Nat :=
  if h : index < text.length then
    if text[index] = '\n' then index else lineCommentEnd text (index + 1)
  else text.length
termination_by text.length - index

/-- The offset behind the star and the slash that end a comment. -/
def blockCommentEnd (text : Text) (index : Nat) : Nat :=
  if h : index < text.length then
    if text[index] = '*' ∧ text[index + 1]? = some (.char '/') then index + 2
    else blockCommentEnd text (index + 1)
  else text.length
termination_by text.length - index

/-- The offset behind the quote that ends a string, or that of the line feed that does. A backslash
hides the character behind it, even where there is none. -/
def stringEndFrom (text : Text) (quote : CodePoint) (index : Nat) : Nat :=
  if h : index < text.length then
    if text[index] = '\\' then stringEndFrom text quote (index + 2)
    else if text[index] = quote then index + 1
    else if text[index] = '\n' then index
    else stringEndFrom text quote (index + 1)
  else index
termination_by text.length - index

/-- The end of the string whose quote stands at the offset. -/
def stringEnd (text : Text) (index : Nat) : Nat :=
  match text[index]? with
  | some quote => stringEndFrom text quote (index + 1)
  | none => index

theorem stringEnd_eq {text : Text} {index : Nat} {quote : CodePoint}
    (hquote : text[index]? = some quote) :
    stringEnd text index = stringEndFrom text quote (index + 1) := by
  rw [stringEnd, hquote]

/-- A comment goes on behind a character that is no line feed. -/
theorem lineCommentEnd_succ {text : Text} {index : Nat} {c : CodePoint}
    (hc : text[index]? = some c) (hne : c ≠ '\n') :
    lineCommentEnd text index = lineCommentEnd text (index + 1) := by
  obtain ⟨h, rfl⟩ := List.getElem?_eq_some_iff.mp hc
  rw [lineCommentEnd, dif_pos h, if_neg hne]

theorem stringEndFrom_bounds (text : Text) (quote : CodePoint) (index : Nat) :
    index ≤ stringEndFrom text quote index ∧
      stringEndFrom text quote index ≤ max index (text.length + 1) := by
  fun_induction stringEndFrom text quote index with
  | case1 index h hbackslash ih => omega
  | case2 index h hbackslash hquote => omega
  | case3 index h hbackslash hquote hline => omega
  | case4 index h hbackslash hquote hline ih => omega
  | case5 index h => omega

/-- A string is left behind its quote, at most one past the end of the text. -/
theorem stringEnd_bounds {text : Text} {index : Nat} (h : index < text.length) :
    index < stringEnd text index ∧ stringEnd text index ≤ text.length + 1 := by
  obtain ⟨hlower, hupper⟩ := stringEndFrom_bounds text text[index] (index + 1)
  rw [stringEnd_eq (List.getElem?_eq_getElem h)]
  constructor
  · exact hlower
  · exact hupper.trans (Nat.max_le.mpr ⟨by omega, Nat.le_refl _⟩)

example : stringEnd "\"a\\".toText 0 = 4 := by cbv

/-- The offset behind the brace that ends an interpolation in which that many braces are open. -/
def interpolationEndFrom (text : Text) (braces : Int) (index : Nat) : Nat :=
  if h : index < text.length then
    if text[index] = '\x7b' then interpolationEndFrom text (braces + 1) (index + 1)
    else if text[index] = '\x7d' then
      if braces = 1 then index + 1 else interpolationEndFrom text (braces - 1) (index + 1)
    else if text[index] = '"' ∨ text[index] = '\x27' then
      interpolationEndFrom text braces (stringEnd text index)
    else interpolationEndFrom text braces (index + 1)
  else index
termination_by text.length - index
decreasing_by
  all_goals
    have hstring := (stringEnd_bounds h).1
    omega

/-- The end of the interpolation whose number sign stands at the offset. -/
def interpolationEnd (text : Text) (index : Nat) : Nat := interpolationEndFrom text 0 index

theorem interpolationEndFrom_bounds (text : Text) (braces : Int) (index : Nat) :
    index ≤ interpolationEndFrom text braces index ∧
      (index < text.length → index < interpolationEndFrom text braces index) ∧
      interpolationEndFrom text braces index ≤ max index (text.length + 1) := by
  fun_induction interpolationEndFrom text braces index with
  | case1 braces index h hopen ih => omega
  | case2 index h hopen hclose => omega
  | case3 braces index h hopen hclose hbraces ih => omega
  | case4 braces index h hopen hclose hquote ih =>
    have hstring := stringEnd_bounds h
    omega
  | case5 braces index h hopen hclose hquote ih => omega
  | case6 braces index h => omega

theorem interpolationEnd_bounds {text : Text} {index : Nat} (h : index < text.length) :
    index < interpolationEnd text index ∧ interpolationEnd text index ≤ text.length + 1 := by
  obtain ⟨-, hlower, hupper⟩ := interpolationEndFrom_bounds text 0 index
  refine ⟨hlower h, hupper.trans (Nat.max_le.mpr ⟨by omega, Nat.le_refl _⟩)⟩

theorem lineCommentEnd_bounds {text : Text} {index : Nat} (hle : index ≤ text.length) :
    index ≤ lineCommentEnd text index ∧ lineCommentEnd text index ≤ text.length := by
  fun_induction lineCommentEnd text index with
  | case1 index h hline => omega
  | case2 index h hline ih =>
    have hrest := ih h
    omega
  | case3 index h => omega

theorem blockCommentEnd_bounds {text : Text} {index : Nat} (hle : index ≤ text.length) :
    index ≤ blockCommentEnd text index ∧ blockCommentEnd text index ≤ text.length := by
  fun_induction blockCommentEnd text index with
  | case1 index h hend =>
    have hslash := (List.getElem?_eq_some_iff.mp hend.2).1
    omega
  | case2 index h hend ih =>
    have hrest := ih h
    omega
  | case3 index h => omega

/-! ## Rounds -/

/-- A reader between two rounds, in code: the offset it has come to, the first offset of the open
statement, the open parentheses, and for each open block whether its body is always run. -/
structure RoundReader where
  index : Nat
  start : Option Nat
  parens : Nat
  blocks : List Bool
  deriving DecidableEq

/-- The character in front of the offset is a colon. -/
def behindColon (text : Text) (index : Nat) : Bool :=
  index ≠ 0 && text[index - 1]? = some (.char ':')

namespace RoundReader

/-- Before the first character. -/
def initial : RoundReader := ⟨0, none, 0, []⟩

/-- The text of the open statement so far. -/
def heldText (text : Text) (r : RoundReader) : Text :=
  match r.start with
  | some start => Text.strip (text.extract start r.index)
  | none => []

/-- The open statement, when it has any text, with the given end. -/
def emit (text : Text) (r : RoundReader) (stop : Nat) : List Statement :=
  match r.start with
  | none => []
  | some start =>
    if r.heldText text = [] then []
    else [⟨r.heldText text, start, stop, r.blocks.length, r.blocks.all id⟩]

/-- Opens a statement at the offset unless one is open. -/
def opened (r : RoundReader) : RoundReader := { r with start := some (r.start.getD r.index) }

/-- Goes over a visible character of code and what belongs to it; a statement is open. -/
def readCode (text : Text) (r : RoundReader) (c : CodePoint) (next : Option CodePoint) :
    RoundReader × List Statement :=
  if c = '"' ∨ c = '\x27' then ({ r with index := stringEnd text r.index }, [])
  else if c = '#' ∧ next = some (.char '\x7b') then
    ({ r with index := interpolationEnd text r.index }, [])
  else if c = '(' then ({ r with index := r.index + 1, parens := r.parens + 1 }, [])
  else if c = ')' then ({ r with index := r.index + 1, parens := r.parens - 1 }, [])
  else if r.parens = 0 ∧ c = ';' then
    ({ r with index := r.index + 1, start := none }, r.emit text (r.index + 1))
  else if r.parens = 0 ∧ c = '\x7b' then
    ({ r with
        index := r.index + 1
        start := none
        blocks := alwaysRun (r.heldText text) :: r.blocks }, [])
  else if r.parens = 0 ∧ c = '\x7d' then
    ({ r with index := r.index + 1, start := none, blocks := r.blocks.tail },
      r.emit text r.index)
  else ({ r with index := r.index + 1 }, [])

/-- Goes over a comment, a string, an interpolation or a single character. Gives the statement that
it closes, if any. -/
def round (text : Text) (r : RoundReader) : RoundReader × List Statement :=
  match text[r.index]? with
  | none => (r, [])
  | some c =>
    let next := text[r.index + 1]?
    if c = '/' ∧ next = some (.char '/') ∧ behindColon text r.index = false then
      ({ r with index := lineCommentEnd text r.index }, [])
    else if c = '/' ∧ next = some (.char '*') then
      ({ r with index := blockCommentEnd text (r.index + 2) }, [])
    else if isBlank c then ({ r with index := r.index + 1 }, [])
    else r.opened.readCode text c next

variable {text : Text} {r : RoundReader}

theorem readCode_bounds (r : RoundReader) (h : r.index < text.length) (c : CodePoint)
    (next : Option CodePoint) :
    r.index < (r.readCode text c next).1.index ∧
      (r.readCode text c next).1.index ≤ text.length + 1 := by
  unfold readCode
  split_ifs
  · exact stringEnd_bounds h
  · exact interpolationEnd_bounds h
  all_goals
    constructor
    · exact Nat.lt_succ_self r.index
    · exact Nat.succ_le_succ (Nat.le_of_lt h)

/-- A round moves the reader forward, at most one past the end of the text. -/
theorem round_bounds (h : r.index < text.length) :
    r.index < (r.round text).1.index ∧ (r.round text).1.index ≤ text.length + 1 := by
  rw [round, List.getElem?_eq_getElem h]
  simp only
  split_ifs with hline hblock hblank
  · -- the slash is no line feed
    have hslash : lineCommentEnd text r.index = lineCommentEnd text (r.index + 1) :=
      lineCommentEnd_succ (List.getElem?_eq_getElem h) (by rw [hline.1]; decide)
    have hbounds : r.index + 1 ≤ lineCommentEnd text (r.index + 1) ∧
        lineCommentEnd text (r.index + 1) ≤ text.length := lineCommentEnd_bounds h
    show r.index < lineCommentEnd text r.index ∧ lineCommentEnd text r.index ≤ text.length + 1
    omega
  · have hstar := (List.getElem?_eq_some_iff.mp hblock.2).1
    have hbounds : r.index + 2 ≤ blockCommentEnd text (r.index + 2) ∧
        blockCommentEnd text (r.index + 2) ≤ text.length := blockCommentEnd_bounds hstar
    show r.index < blockCommentEnd text (r.index + 2) ∧
      blockCommentEnd text (r.index + 2) ≤ text.length + 1
    omega
  · show r.index < r.index + 1 ∧ r.index + 1 ≤ text.length + 1
    omega
  · exact r.opened.readCode_bounds h _ _

/-- The statements of the rest of a text; the end of the text closes the last one. -/
def run (text : Text) (r : RoundReader) : List Statement :=
  if r.index < text.length then (r.round text).2 ++ run text (r.round text).1
  else r.emit text text.length
termination_by text.length - r.index
decreasing_by
  have hround := (r.round_bounds ‹_›).1
  omega

end RoundReader

/-! ## What the reader of single characters does meanwhile -/

namespace Scanner

variable {text : Text} {s : Scanner} {index middle stop : Nat} {mode : Mode}

/-- The reader comes from one offset of the text to another one, where it goes on in the given mode,
and closes no statement on the way. -/
def GoesOver (s : Scanner) (text : Text) (index stop : Nat) (mode : Mode) : Prop :=
  s.scan (text.drop index) = (s.took (text.extract index stop) mode).scan (text.drop stop)

namespace GoesOver

/-- At the end of the text the mode does not matter. -/
theorem of_end (hindex : text.length ≤ index) (hstop : text.length ≤ stop) (mode : Mode) :
    s.GoesOver text index stop mode := by
  have hnil : text.extract index stop = [] := by
    rw [List.extract_eq_take_drop, List.drop_eq_nil_of_le hindex, List.take_nil]
  rw [GoesOver, hnil, List.drop_eq_nil_of_le hindex, List.drop_eq_nil_of_le hstop]
  obtain ⟨offset, own, pending, parens, blocks⟩ := s
  cases pending <;> rfl

theorem trans {m : Mode} (h : s.GoesOver text index middle m)
    (h' : (s.took (text.extract index middle) m).GoesOver text middle stop mode)
    (hindex : index ≤ middle) (hmiddle : middle ≤ stop) : s.GoesOver text index stop mode := by
  rw [GoesOver, h, h', took_took, text.extract_append_extract hindex hmiddle]

/-- A character that closes nothing. -/
theorem single {c : CodePoint} (hc : text[index]? = some c)
    (hstep : s.step c text[index + 1]? = (s.took [c] mode, [])) :
    s.GoesOver text index (index + 1) mode := by
  obtain ⟨hlt, hget⟩ := List.getElem?_eq_some_iff.mp hc
  rw [GoesOver, Text.extract_single hc, List.drop_eq_getElem_cons hlt, hget, scan,
    List.head?_drop, hstep]
  rfl

theorem cons {c : CodePoint} {m : Mode} (hc : text[index]? = some c)
    (hstep : s.step c text[index + 1]? = (s.took [c] m, []))
    (h : (s.took [c] m).GoesOver text (index + 1) stop mode) (hstop : index < stop) :
    s.GoesOver text index stop mode := by
  refine (single hc hstep).trans ?_ (Nat.le_succ index) hstop
  rw [Text.extract_single hc]
  exact h

/-- Before a character that is read alike in both, the mode may be another one. -/
theorem of_step_eq {c : CodePoint} (hc : text[index]? = some c)
    (hstep : s.step c text[index + 1]? =
      ({ s with mode := mode } : Scanner).step c text[index + 1]?) :
    s.GoesOver text index index mode := by
  obtain ⟨hlt, hget⟩ := List.getElem?_eq_some_iff.mp hc
  have hnone : s.took (text.extract index index) mode = { s with mode := mode } := by
    rw [List.extract_eq_take_drop, Nat.sub_self, List.take_zero]
    exact took_nil ({ s with mode := mode } : Scanner)
  rw [GoesOver, hnone, List.drop_eq_getElem_cons hlt, hget, scan, scan, List.head?_drop, hstep]

end GoesOver

/-- The line feed that ends a comment is also white space of code. -/
theorem goesOver_lineComment (hmode : s.mode = .lineComment) (text : Text) (index : Nat) :
    s.GoesOver text index (lineCommentEnd text index) (.code false) := by
  fun_induction lineCommentEnd text index generalizing s with
  | case1 index h hline =>
    have hc : text[index]? = some (.char '\n') := by rw [List.getElem?_eq_getElem h, hline]
    refine .of_step_eq hc ?_
    simp only [step, hmode]
    rfl
  | case2 index h hline ih =>
    have hc : text[index]? = some text[index] := List.getElem?_eq_getElem h
    have hstep : s.step text[index] text[index + 1]? = (s.took [text[index]] .lineComment, []) := by
      simp [step, hmode, hline, pass_eq_took]
    exact .cons hc hstep (ih rfl) (lineCommentEnd_bounds h).1
  | case3 index h => exact .of_end (Nat.le_of_not_lt h) (Nat.le_refl _) _

/-- Behind a star, a comment goes on as before unless a slash follows. -/
theorem goesOver_blockComment {index : Nat} (hmode : s.mode = .blockComment .inside ∨
      s.mode = .blockComment .star ∧ text[index]? ≠ some (.char '/')) :
    s.GoesOver text index (blockCommentEnd text index) (.code false) := by
  fun_induction blockCommentEnd text index generalizing s with
  | case1 index h hend =>
    have hc : text[index]? = some (.char '*') := by rw [List.getElem?_eq_getElem h, hend.1]
    have hstep : s.step '*' text[index + 1]? = (s.took ['*'] (.blockComment .star), []) := by
      rcases hmode with hmode | ⟨hmode, -⟩ <;> simp [step, hmode, pass_eq_took]
    have hslash : (s.took ['*'] (.blockComment .star)).GoesOver text (index + 1) (index + 1 + 1)
        (.code false) := .single hend.2 rfl
    exact .cons hc hstep hslash (by omega)
  | case2 index h hend ih =>
    have hc : text[index]? = some text[index] := List.getElem?_eq_getElem h
    have hlt := (blockCommentEnd_bounds (Nat.succ_le_of_lt h)).1
    by_cases hstar : text[index] = '*'
    · have hstep : s.step text[index] text[index + 1]? =
          (s.took [text[index]] (.blockComment .star), []) := by
        rcases hmode with hmode | ⟨hmode, -⟩ <;> simp [step, hmode, hstar, pass_eq_took]
      exact .cons hc hstep (ih (.inr ⟨rfl, fun hslash => hend ⟨hstar, hslash⟩⟩)) hlt
    · have hstep : s.step text[index] text[index + 1]? =
          (s.took [text[index]] (.blockComment .inside), []) := by
        rcases hmode with hmode | ⟨hmode, hslash⟩
        · simp [step, hmode, hstar, pass_eq_took]
        · rw [hc, Ne, Option.some.injEq] at hslash
          simp [step, hmode, hstar, hslash, pass_eq_took]
      exact .cons hc hstep (ih (.inl rfl)) hlt
  | case3 index h => exact .of_end (Nat.le_of_not_lt h) (Nat.le_refl _) _

/-- The line feed that ends a string is read alike behind it. -/
theorem goesOver_quoted {quote : CodePoint} {within : Option Nat}
    (hmode : s.mode = .quoted quote false within) (text : Text) (index : Nat) :
    s.GoesOver text index (stringEndFrom text quote index) (afterString within) := by
  fun_induction stringEndFrom text quote index generalizing s with
  | case1 index h hbackslash ih =>
    have hc : text[index]? = some text[index] := List.getElem?_eq_getElem h
    have hbounds := (stringEndFrom_bounds text quote (index + 2)).1
    have hstep : s.step text[index] text[index + 1]? =
        (s.took [text[index]] (.quoted quote true within), []) := by
      simp [step, hmode, hbackslash, pass_eq_took]
    refine .cons hc hstep ?_ (by omega)
    by_cases hnext : index + 1 < text.length
    · exact .cons (List.getElem?_eq_getElem hnext) rfl (ih rfl) (by omega)
    · exact .of_end (Nat.le_of_not_lt hnext) (by omega) _
  | case2 index h hbackslash hquote =>
    refine .single (List.getElem?_eq_getElem h) ?_
    rw [hquote] at hbackslash ⊢
    simp [step, hmode, hbackslash, pass_eq_took]
  | case3 index h hbackslash hquote hline =>
    have hc : text[index]? = some (.char '\n') := by rw [List.getElem?_eq_getElem h, hline]
    have hstep : s.step '\n' text[index + 1]? = (s.pass '\n' (afterString within), []) := by
      simp [step, hmode]
    refine .of_step_eq hc (hstep.trans ?_)
    cases within <;> rfl
  | case4 index h hbackslash hquote hline ih =>
    have hbounds := (stringEndFrom_bounds text quote (index + 1)).1
    refine .cons (List.getElem?_eq_getElem h) ?_ (ih rfl) (by omega)
    simp [step, hmode, hbackslash, hquote, hline, pass_eq_took]
  | case5 index h => exact .of_end (Nat.le_of_not_lt h) (Nat.le_of_not_lt h) _

theorem goesOver_interpolation {braces : Int} {opened : Nat} (hbraces : braces = opened)
    (hpos : 1 ≤ opened) (hmode : s.mode = .interpolation opened) (text : Text) (index : Nat) :
    s.GoesOver text index (interpolationEndFrom text braces index) (.code false) := by
  fun_induction interpolationEndFrom text braces index generalizing s opened with
  | case1 braces index h hopen ih =>
    have hbounds := (interpolationEndFrom_bounds text (braces + 1) (index + 1)).1
    have hmore : braces + 1 = ((opened + 1 : Nat) : Int) := by omega
    refine .cons (List.getElem?_eq_getElem h) ?_ (ih hmore (by omega) rfl) (by omega)
    simp [step, hmode, hopen, pass_eq_took]
  | case2 index h hopen hclose =>
    refine .single (List.getElem?_eq_getElem h) ?_
    have hlast : opened ≤ 1 := by omega
    simp [step, hmode, hclose, hlast, pass_eq_took]
  | case3 braces index h hopen hclose hmore ih =>
    have hbounds := (interpolationEndFrom_bounds text (braces - 1) (index + 1)).1
    have hnot : ¬opened ≤ 1 := by omega
    have hfewer : braces - 1 = ((opened - 1 : Nat) : Int) := by omega
    refine .cons (List.getElem?_eq_getElem h) ?_ (ih hfewer (by omega) rfl) (by omega)
    simp [step, hmode, hclose, hnot, pass_eq_took]
  | case4 braces index h hopen hclose hquote ih =>
    have hbounds := stringEnd_bounds h
    have hrest := (interpolationEndFrom_bounds text braces (stringEnd text index)).1
    have hbehind : (s.took [text[index]] (.quoted text[index] false (some opened))).GoesOver text
        (index + 1) (stringEnd text index) (afterString (some opened)) := by
      rw [stringEnd_eq (List.getElem?_eq_getElem h)]
      exact goesOver_quoted rfl text (index + 1)
    have hstring : s.GoesOver text index (stringEnd text index) (.interpolation opened) := by
      refine .cons (List.getElem?_eq_getElem h) ?_ hbehind hbounds.1
      simp [step, hmode, hopen, hclose, hquote, pass_eq_took]
    exact hstring.trans (ih hbraces hpos rfl) (Nat.le_of_lt hbounds.1) hrest
  | case5 braces index h hopen hclose hquote ih =>
    have hbounds := (interpolationEndFrom_bounds text braces (index + 1)).1
    refine .cons (List.getElem?_eq_getElem h) ?_ (ih hbraces hpos rfl) (by omega)
    rw [not_or] at hquote
    simp [step, hmode, hopen, hclose, hquote, pass_eq_took]
  | case6 braces index h => exact .of_end (Nat.le_of_not_lt h) (Nat.le_of_not_lt h) _

end Scanner

/-! ## What stands in front of the places that are gone to -/

section Ends

variable {text : Text} {index : Nat}

theorem behindColon_succ {c : CodePoint} (hc : text[index]? = some c) :
    behindColon text (index + 1) = decide (c = ':') := by
  simp [behindColon, hc]

/-- A slash there is no line feed. -/
theorem getElem?_lineCommentEnd (text : Text) (index : Nat) :
    text[lineCommentEnd text index]? ≠ some (.char '/') := by
  fun_induction lineCommentEnd text index with
  | case1 index h hline => simp [List.getElem?_eq_getElem h, hline]
  | case2 index h hline ih => exact ih
  | case3 index h => simp

theorem behindColon_blockCommentEnd (h : text[blockCommentEnd text index]? = some (.char '/')) :
    behindColon text (blockCommentEnd text index) = false := by
  fun_induction blockCommentEnd text index with
  | case1 index hlt hend => exact behindColon_succ hend.2
  | case2 index hlt hend ih => exact ih h
  | case3 index hlt => simp at h

theorem behindColon_stringEndFrom {quote : CodePoint} (hquote : quote ≠ ':')
    (h : text[stringEndFrom text quote index]? = some (.char '/')) :
    behindColon text (stringEndFrom text quote index) = false := by
  fun_induction stringEndFrom text quote index with
  | case1 index hlt hbackslash ih => exact ih h
  | case2 index hlt hbackslash hend =>
    rw [behindColon_succ (List.getElem?_eq_getElem hlt), hend]
    exact decide_eq_false hquote
  | case3 index hlt hbackslash hend hline =>
    rw [List.getElem?_eq_getElem hlt, hline] at h
    exact absurd h (by decide)
  | case4 index hlt hbackslash hend hline ih => exact ih h
  | case5 index hlt => rw [List.getElem?_eq_none (Nat.le_of_not_lt hlt)] at h; exact nomatch h

theorem behindColon_interpolationEndFrom {braces : Int}
    (h : text[interpolationEndFrom text braces index]? = some (.char '/')) :
    behindColon text (interpolationEndFrom text braces index) = false := by
  fun_induction interpolationEndFrom text braces index with
  | case1 braces index hlt hopen ih => exact ih h
  | case2 index hlt hopen hclose =>
    rw [behindColon_succ (List.getElem?_eq_getElem hlt), hclose]
    rfl
  | case3 braces index hlt hopen hclose hmore ih => exact ih h
  | case4 braces index hlt hopen hclose hquote ih => exact ih h
  | case5 braces index hlt hopen hclose hquote ih => exact ih h
  | case6 braces index hlt =>
    rw [List.getElem?_eq_none (Nat.le_of_not_lt hlt)] at h
    exact nomatch h

/-- An interpolation starts with its number sign and one brace. -/
theorem interpolationEnd_eq (hsign : text[index]? = some (.char '#'))
    (hbrace : text[index + 1]? = some (.char '\x7b')) :
    interpolationEnd text index = interpolationEndFrom text 1 (index + 1 + 1) := by
  obtain ⟨hlt, hget⟩ := List.getElem?_eq_some_iff.mp hsign
  obtain ⟨hlt', hget'⟩ := List.getElem?_eq_some_iff.mp hbrace
  rw [interpolationEnd, interpolationEndFrom, dif_pos hlt, hget, if_neg (by decide),
    if_neg (by decide), if_neg (by decide), interpolationEndFrom, dif_pos hlt', hget', if_pos rfl]
  rfl

end Ends

/-! ## Both readers find the same statements -/

namespace RoundReader

/-- The reader of single characters stands where the other one does and holds the same. -/
structure Agrees (text : Text) (r : RoundReader) (s : Scanner) : Prop where
  offset : s.offset = min r.index text.length
  pending : s.pending = r.start.map fun start => ⟨start, (text.extract start r.index).reverse⟩
  start_le : ∀ start ∈ r.start, start ≤ r.index
  parens : s.parens = r.parens
  blocks : s.blocks = r.blocks

/-- The same between two rounds, where the reader of single characters is in code. In front of a
slash it knows of the colon behind which that stands. -/
structure Meets (text : Text) (r : RoundReader) (s : Scanner) : Prop extends r.Agrees text s where
  code : r.index < text.length → ∃ afterColon, s.mode = .code afterColon ∧
    (text[r.index]? = some (.char '/') → behindColon text r.index = afterColon)

variable {text : Text} {r : RoundReader} {s : Scanner}

namespace Agrees

theorem heldText (h : r.Agrees text s) : s.heldText = r.heldText text := by
  rw [Scanner.heldText, RoundReader.heldText, h.pending]
  cases r.start with
  | none => rfl
  | some start => simp

theorem emit (h : r.Agrees text s) (stop : Nat) : s.emit stop = r.emit text stop := by
  rw [Scanner.emit, RoundReader.emit, h.heldText, h.pending, h.blocks]
  cases r.start <;> rfl

theorem opened (h : r.Agrees text s) (hlt : r.index < text.length) :
    r.opened.Agrees text s.opened := by
  have hoffset : s.offset = r.index := h.offset.trans (Nat.min_eq_left (Nat.le_of_lt hlt))
  refine ⟨h.offset, ?_, ?_, h.parens, h.blocks⟩
  · rw [Scanner.opened_pending, h.pending, hoffset]
    cases hstart : r.start <;> simp [RoundReader.opened, hstart]
  · intro start hstart
    obtain rfl := Option.some.inj hstart
    cases hstart : r.start with
    | none => exact Nat.le_refl r.index
    | some start => exact h.start_le start hstart

/-- Over what is gone over at once, the statement that is open takes in what stands there. -/
theorem took (h : r.Agrees text s) {stop : Nat} (hle : r.index ≤ stop) (mode : Mode) :
    ({ r with index := stop } : RoundReader).Agrees text
      (s.took (text.extract r.index stop) mode) := by
  refine ⟨?_, ?_, fun start hstart => (h.start_le start hstart).trans hle, h.parens, h.blocks⟩
  · have hlength : (text.extract r.index stop).length = min stop text.length - r.index := by
      rw [List.extract_eq_take_drop, List.length_take, List.length_drop]
      omega
    have hoffset := h.offset
    show s.offset + (text.extract r.index stop).length = min stop text.length
    omega
  · rw [Scanner.took_pending, h.pending, Option.map_map]
    refine Option.map_congr fun start hstart => ?_
    simp only [Function.comp_apply, Pending.mk.injEq, true_and]
    rw [← List.reverse_append, text.extract_append_extract (h.start_le start hstart) hle]

/-- Where the reader of single characters comes back to code. -/
theorem meets (h : r.Agrees text s) {stop : Nat} {b : Bool} (hle : r.index ≤ stop)
    (hover : s.GoesOver text r.index stop (.code b))
    (hb : text[stop]? = some (.char '/') → behindColon text stop = b) :
    ∃ s', ({ r with index := stop } : RoundReader).Meets text s' ∧
      s.scan (text.drop r.index) = s'.scan (text.drop stop) :=
  ⟨_, ⟨h.took hle (.code b), fun _ => ⟨b, rfl, hb⟩⟩, hover⟩

theorem pass (h : r.Agrees text s) {c : CodePoint} (hc : text[r.index]? = some c) (mode : Mode) :
    ({ r with index := r.index + 1 } : RoundReader).Agrees text (s.pass c mode) := by
  have htook := h.took (Nat.le_succ r.index) mode
  rw [Text.extract_single hc] at htook
  exact htook

/-- A single character of code. -/
theorem pass_code (h : r.Agrees text s) {c : CodePoint} (hc : text[r.index]? = some c) :
    ({ r with index := r.index + 1 } : RoundReader).Meets text (s.pass c (.code (c = ':'))) :=
  ⟨h.pass hc _, fun _ => ⟨_, rfl, fun _ => behindColon_succ hc⟩⟩

/-- A character that ends a statement, or opens or closes a block. -/
theorem closed (h : r.Agrees text s) {c : CodePoint} (hc : text[r.index]? = some c)
    (hcolon : c ≠ ':') (blocks : List Bool) :
    ({ r with index := r.index + 1, start := none, blocks := blocks } : RoundReader).Meets text
      ({ s with blocks := blocks } : Scanner).closed := by
  have hlt := (List.getElem?_eq_some_iff.mp hc).1
  refine ⟨⟨?_, rfl, nofun, h.parens, rfl⟩, fun _ => ⟨false, rfl, fun _ => ?_⟩⟩
  · have hoffset := h.offset
    show s.offset + 1 = min (r.index + 1) text.length
    omega
  · rw [behindColon_succ hc]
    exact decide_eq_false hcolon

theorem readCode (h : r.Agrees text s) {c : CodePoint} (hc : text[r.index]? = some c) :
    ∃ s', (r.readCode text c text[r.index + 1]?).1.Meets text s' ∧
      (s.readCode c text[r.index + 1]?).2 ++
          (s.readCode c text[r.index + 1]?).1.scan (text.drop (r.index + 1)) =
        (r.readCode text c text[r.index + 1]?).2 ++
          s'.scan (text.drop (r.readCode text c text[r.index + 1]?).1.index) := by
  have hlt := (List.getElem?_eq_some_iff.mp hc).1
  obtain ⟨offset, mode, pending, parens, blocks⟩ := s
  obtain rfl : offset = r.index := h.offset.trans (Nat.min_eq_left (Nat.le_of_lt hlt))
  obtain rfl : parens = r.parens := h.parens
  obtain rfl : blocks = r.blocks := h.blocks
  simp only [Scanner.readCode, RoundReader.readCode, h.heldText, h.emit]
  split_ifs with hquote hsign hopen hclose hend hbrace hbrace'
  · have hcolon : c ≠ ':' := by rcases hquote with rfl | rfl <;> decide
    have hbounds := (stringEndFrom_bounds text c (r.index + 1)).1
    have hover : (Scanner.pass ⟨r.index, mode, pending, r.parens, r.blocks⟩ c
        (.quoted c false none)).GoesOver text (r.index + 1) (stringEndFrom text c (r.index + 1))
          (Scanner.afterString none) := Scanner.goesOver_quoted rfl text _
    simp only [stringEnd_eq hc]
    exact (h.pass hc (.quoted c false none)).meets hbounds hover
      (behindColon_stringEndFrom hcolon)
  · rw [hsign.1] at hc ⊢
    have hbounds := (interpolationEndFrom_bounds text 1 (r.index + 1 + 1)).1
    simp only [interpolationEnd_eq hc hsign.2]
    have hle : r.index + 1 ≤ interpolationEndFrom text 1 (r.index + 1 + 1) := by omega
    refine (h.pass hc (.interpolation 0)).meets hle ?_ behindColon_interpolationEndFrom
    exact .cons (m := .interpolation 1) hsign.2 rfl
      (Scanner.goesOver_interpolation (by rfl) (Nat.le_refl 1) rfl text _) hbounds
  · obtain rfl := hopen
    have hparens : ({ r with parens := r.parens + 1 } : RoundReader).Agrees text
        ⟨r.index, mode, pending, r.parens + 1, r.blocks⟩ :=
      ⟨h.offset, h.pending, h.start_le, rfl, rfl⟩
    exact ⟨_, hparens.pass_code hc, rfl⟩
  · obtain rfl := hclose
    have hparens : ({ r with parens := r.parens - 1 } : RoundReader).Agrees text
        ⟨r.index, mode, pending, r.parens - 1, r.blocks⟩ :=
      ⟨h.offset, h.pending, h.start_le, rfl, rfl⟩
    exact ⟨_, hparens.pass_code hc, rfl⟩
  · refine ⟨_, h.closed hc ?_ r.blocks, rfl⟩
    rw [hend.2]
    decide
  · refine ⟨_, h.closed hc ?_ _, rfl⟩
    rw [hbrace.2]
    decide
  · refine ⟨_, h.closed hc ?_ _, rfl⟩
    rw [hbrace'.2]
    decide
  · exact ⟨_, h.pass_code hc, rfl⟩

end Agrees

/-- Over a round, the reader of single characters comes to where the other one does, and finds the
same. -/
theorem Meets.round (h : r.Meets text s) (hlt : r.index < text.length) :
    ∃ s', (r.round text).1.Meets text s' ∧
      s.scan (text.drop r.index) =
        (r.round text).2 ++ s'.scan (text.drop (r.round text).1.index) := by
  obtain ⟨b, hmode, hcolon⟩ := h.code hlt
  have hc : text[r.index]? = some text[r.index] := List.getElem?_eq_getElem hlt
  have hscan : s.scan (text.drop r.index) =
      (s.step text[r.index] text[r.index + 1]?).2 ++
        (s.step text[r.index] text[r.index + 1]?).1.scan (text.drop (r.index + 1)) := by
    rw [List.drop_eq_getElem_cons hlt, Scanner.scan, List.head?_drop]
  rw [hscan, RoundReader.round, hc]
  unfold Scanner.step
  rw [hmode]
  simp only
  -- whether a slash stands behind a colon is asked of the text or of the mode
  have hline : (text[r.index] = '/' ∧ text[r.index + 1]? = some (.char '/') ∧ b = false) ↔
      (text[r.index] = '/' ∧ text[r.index + 1]? = some (.char '/') ∧
        behindColon text r.index = false) := by
    refine and_congr_right fun hslash => ?_
    rw [hcolon (by rw [hc, hslash])]
  simp only [hline]
  split_ifs with hcomment hblock hblank
  · have hend : lineCommentEnd text r.index = lineCommentEnd text (r.index + 1) :=
      lineCommentEnd_succ hc (by rw [hcomment.1]; decide)
    simp only [hend]
    exact (h.toAgrees.pass hc .lineComment).meets (lineCommentEnd_bounds hlt).1
      (Scanner.goesOver_lineComment rfl text _)
      fun hslash => absurd hslash (getElem?_lineCommentEnd text _)
  · have hstar := (List.getElem?_eq_some_iff.mp hblock.2).1
    have hbounds : r.index + 1 + 1 ≤ blockCommentEnd text (r.index + 2) :=
      (blockCommentEnd_bounds hstar).1
    refine (h.toAgrees.pass hc (.blockComment .opening)).meets (Nat.le_of_succ_le hbounds) ?_
      behindColon_blockCommentEnd
    exact .cons (m := .blockComment .inside) hblock.2 rfl
      (Scanner.goesOver_blockComment (.inl rfl)) hbounds
  · have hnot : text[r.index] ≠ ':' := CodePoint.ne_of_class hblank (by decide)
    refine ⟨_, h.toAgrees.pass_code hc, ?_⟩
    simp [hnot]
  · exact (h.toAgrees.opened hlt).readCode hc

/-- From there on, the readers find the same statements. -/
theorem Meets.run (h : r.Meets text s) : s.scan (text.drop r.index) = r.run text := by
  fun_induction RoundReader.run text r generalizing s with
  | case1 r hlt ih =>
    obtain ⟨s', hmeets, hscan⟩ := h.round hlt
    rw [hscan, ih hmeets]
  | case2 r hlt =>
    have hle := Nat.le_of_not_lt hlt
    rw [List.drop_eq_nil_of_le hle, Scanner.scan, h.toAgrees.emit, h.offset, Nat.min_eq_right hle]

/-- Read in rounds or character by character, a text has the same statements. -/
theorem run_initial (text : Text) : initial.run text = statements text := by
  have hmeets : initial.Meets text Scanner.start :=
    ⟨⟨(Nat.zero_min _).symm, rfl, nofun, rfl, rfl⟩, fun _ => ⟨false, rfl, fun _ => rfl⟩⟩
  exact hmeets.run.symm

/-- There are no more rounds than characters. -/
theorem le_index_iterate_round (text : Text) (n : Nat) :
    min n text.length ≤ ((fun r => (RoundReader.round text r).1)^[n] initial).index := by
  induction n with
  | zero => exact Nat.zero_le _
  | succ n ih =>
    rw [Function.iterate_succ_apply']
    generalize (fun r => (RoundReader.round text r).1)^[n] initial = r at ih ⊢
    by_cases hlt : r.index < text.length
    · have hround := (round_bounds hlt).1
      omega
    · have hround : (r.round text).1 = r := by
        rw [RoundReader.round, List.getElem?_eq_none (Nat.le_of_not_lt hlt)]
      rw [hround]
      omega

end RoundReader

/-- The statements of every text, however malformed, stand in it one behind the other, and are found
in rounds that all move forward: over strings and interpolations too, which may end one past the
text. What stands in the places of its imports makes it up again. -/
theorem statements_tile (text : Text) :
    (∀ r : RoundReader, r.index < text.length → r.index < (r.round text).1.index) ∧
    (∀ index < text.length,
      (index < stringEnd text index ∧ stringEnd text index ≤ text.length + 1) ∧
        index < interpolationEnd text index ∧ interpolationEnd text index ≤ text.length + 1) ∧
    text.length ≤
      ((fun r => (RoundReader.round text r).1)^[text.length] RoundReader.initial).index ∧
    RoundReader.initial.run text = statements text ∧
    (∀ s ∈ statements text, s.StandsIn text) ∧
    (statements text).Pairwise (fun s t => s.stop ≤ t.start) ∧
    (spliceFrom text (fun rule => pure (text.extract rule.start rule.stop)) 0
      (imports text)).outcome = .ok text := by
  have hrounds := RoundReader.le_index_iterate_round text text.length
  rw [Nat.min_self] at hrounds
  exact ⟨fun r h => (RoundReader.round_bounds h).1,
    fun index h => ⟨stringEnd_bounds h, interpolationEnd_bounds h⟩, hrounds,
    RoundReader.run_initial text, fun s hs => standsIn_of_mem_statements hs,
    pairwise_statements text, outcome_spliceFrom_extract text⟩

/-- A stray brace, a parenthesis and a string that nothing closes, and a backslash at the end. -/
def unfinishedText : Text := "@import 'a'; \x7d $b: (2; @import \"c\\".toText

theorem statements_tile_unfinishedText :
    (statements unfinishedText).map (fun s => (s.start, s.stop)) = [(0, 12), (15, 34)] ∧
    (∀ s ∈ statements unfinishedText, s.StandsIn unfinishedText) ∧
    0 < (RoundReader.initial.round unfinishedText).1.index ∧
    31 < stringEnd unfinishedText 31 ∧ stringEnd unfinishedText 31 ≤ 35 := by
  obtain ⟨hround, hends, -, -, hstands, -⟩ := statements_tile unfinishedText
  have hlength : unfinishedText.length = 34 := by decide +kernel
  have hround' := hround .initial (hlength ▸ Nat.zero_lt_succ 33)
  have hstring := (hends 31 (by omega)).1
  rw [hlength] at hstring
  exact ⟨by decide +kernel, hstands, hround', hstring⟩

end StyleVars
