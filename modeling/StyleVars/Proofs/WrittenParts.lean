import StyleVars.Proofs.DeclarationTexts
import StyleVars.Proofs.NestedCode
import StyleVars.Sheet.Import
import Mathlib.Data.List.Forall2

/-!
# Parts of statements as they are written

Flags stand behind an expression in any order and any letter case (`readFlags_written`), paths in
quotes behind the keyword of imports with commas between them (`TargetsText.splitTargets`). White
space stands around them or not; what is read of them does not depend on it.
-/

namespace StyleVars

/-! ## Characters of words -/

theorem isNameChar_of_isAlpha {c : CodePoint} (h : c.isAlpha) : isNameChar c := by
  cases c with
  | surrogate n => simp [CodePoint.isAlpha, CodePoint.char?] at h
  | char c =>
    have halpha : c.isAlpha := by simpa [CodePoint.isAlpha, CodePoint.char?] using h
    have hle : c.val ≤ 'Z'.val ∨ c.val ≤ 'z'.val :=
      (Bool.or_eq_true_iff.mp halpha).imp (fun hupper => (of_decide_eq_true hupper).2)
        fun hlower => of_decide_eq_true (Bool.and_eq_true_iff.mp hlower).2
    have hsmall : c.toNat < 128 := by
      rw [UInt32.le_iff_toNat_le, UInt32.le_iff_toNat_le] at hle
      rcases hle with hle | hle
      · exact lt_of_le_of_lt hle (by decide)
      · exact lt_of_le_of_lt hle (by decide)
    have halphanum : (CodePoint.char c).isAlphanum := by
      simp [CodePoint.isAlphanum, CodePoint.char?, Char.isAlphanum, halpha]
    simp [isNameChar, isWord, CodePoint.toNat, hsmall, halphanum]

theorem isNameChar_of_isNameStart {c : CodePoint} (h : isNameStart c) : isNameChar c := by
  simp only [isNameStart, Bool.or_eq_true, decide_eq_true_eq] at h
  rcases h with (halpha | rfl) | rfl
  · exact isNameChar_of_isAlpha halpha
  · decide
  · decide

theorem CodePoint.toLower_of_not_isAlpha {c : CodePoint} (h : c.isAlpha = false) :
    c.toLower = c := by
  cases c with
  | surrogate n => rfl
  | char c =>
    have halpha : c.isAlpha = false := by simpa [isAlpha, char?] using h
    have hupper : ¬(c.val ≥ 'A'.val ∧ c.val ≤ 'Z'.val) :=
      of_decide_eq_false (Bool.or_eq_false_iff.mp halpha).1
    exact congrArg CodePoint.char (dif_neg hupper)

/-- The character means nothing by itself, nor behind a slash or a number sign. -/
def isQuiet (c : CodePoint) : Bool := isPlain c && c ≠ '*'

/-- The character is quiet and visible. -/
def isSolid (c : CodePoint) : Bool := isQuiet c && !isBlank c

theorem isQuiet_of_isBlank {c : CodePoint} (h : isBlank c) : isQuiet c := by
  have hne : ∀ d : CodePoint, isBlank d = false → c ≠ d := fun d hd => CodePoint.ne_of_class h hd
  simp only [isQuiet, isPlain, Bool.and_eq_true, ne_eq, decide_eq_true_eq]
  exact ⟨⟨⟨⟨⟨⟨⟨⟨⟨hne _ (by decide), hne _ (by decide)⟩, hne _ (by decide)⟩, hne _ (by decide)⟩,
    hne _ (by decide)⟩, hne _ (by decide)⟩, hne _ (by decide)⟩, hne _ (by decide)⟩,
    hne _ (by decide)⟩, hne _ (by decide)⟩

/-- Nothing is opened by a character with a quiet one behind it. -/
theorem opensWith_of_isQuiet (c : CodePoint) {d : CodePoint} (hd : isQuiet d) :
    opensWith c (some d) = false := by
  have hne : ∀ e : CodePoint, isQuiet e = false → d ≠ e := fun e he => CodePoint.ne_of_class hd he
  simp [opensWith, hne '/' (by decide), hne '*' (by decide), hne '\x7b' (by decide)]

theorem isSolid_of_isNameChar {c : CodePoint} (h : isNameChar c) : isSolid c := by
  have hblank : isBlank c = false := by
    by_contra hblank
    rw [not_isNameChar_of_isBlank (by simpa using hblank)] at h
    exact Bool.false_ne_true h
  have hstar : c ≠ '*' := CodePoint.ne_of_class h (by decide)
  simp [isSolid, isQuiet, isPlain_of_isNameChar h, hstar, hblank]

theorem isSolid_of_toLower {c : CodePoint} (h : isSolid c.toLower) : isSolid c := by
  by_cases halpha : c.isAlpha
  · exact isSolid_of_isNameChar (isNameChar_of_isAlpha halpha)
  · rwa [CodePoint.toLower_of_not_isAlpha (by simpa using halpha)] at h

theorem isSolid_of_map_toLower {word flag : Text} (h : word.map CodePoint.toLower = flag)
    (hflag : ∀ c ∈ flag, isSolid c) : ∀ c ∈ word, isSolid c := by
  intro c hc
  refine isSolid_of_toLower (hflag _ ?_)
  rw [← h]
  exact List.mem_map_of_mem hc

theorem isSolid_of_matchesLetter {letter c : CodePoint} (h : matchesLetter letter c)
    (hletter : isSolid letter) : isSolid c := by
  simp only [matchesLetter, Bool.or_eq_true, Bool.and_eq_true, decide_eq_true_eq] at h
  rcases h with rfl | ⟨-, rfl | rfl⟩
  · exact isSolid_of_toLower hletter
  · decide
  · decide

theorem quiet_of_isSolid {t : Text} (h : ∀ c ∈ t, isSolid c) : ∀ c ∈ t, isQuiet c := by
  intro c hc
  have hsolid := h c hc
  rw [isSolid, Bool.and_eq_true] at hsolid
  exact hsolid.1

theorem visible_of_isSolid {t : Text} (h : ∀ c ∈ t, isSolid c) : ∀ c ∈ t, isBlank c = false := by
  intro c hc
  have hsolid := h c hc
  rw [isSolid, Bool.and_eq_true, Bool.not_eq_true'] at hsolid
  exact hsolid.2

namespace Code

variable {inside : Bool} {next : Option CodePoint} {a b t : Text}

theorem of_quiet (h : ∀ c ∈ t, isQuiet c) : Code inside next t := by
  refine .of_loose fun c hc => ?_
  have hquiet := h c hc
  simp only [isQuiet, isPlain, ne_eq, Bool.and_eq_true, decide_eq_true_eq] at hquiet
  simp [isLoose, hquiet]

theorem of_blank (h : ∀ c ∈ t, isBlank c) : Code inside next t :=
  .of_quiet fun c hc => isQuiet_of_isBlank (h c hc)

theorem append_quiet (ha : Code inside none a) (hb : ∀ c ∈ b, isQuiet c) :
    Code inside none (a ++ b) := by
  cases b with
  | nil => rwa [List.append_nil]
  | cons d b =>
    have hd := hb d List.mem_cons_self
    exact .append (ha.of_next fun c _ => opensWith_of_isQuiet c hd) (.of_quiet hb)

end Code

/-! ## Flags -/

/-- Flags as they are written behind an expression: in any order and any letter case, with white
space before them or without. -/
inductive FlagsText : Flags → Text → Prop
  | none : FlagsText ⟨false, false⟩ []
  | default {flags : Flags} {t gap word : Text} (h : FlagsText flags t)
    (hgap : ∀ c ∈ gap, isBlank c) (hword : word.map CodePoint.toLower = "!default".toText) :
    FlagsText { flags with default := true } (t ++ gap ++ word)
  | isGlobal {flags : Flags} {t gap word : Text} (h : FlagsText flags t)
    (hgap : ∀ c ∈ gap, isBlank c) (hword : word.map CodePoint.toLower = "!global".toText) :
    FlagsText { flags with isGlobal := true } (t ++ gap ++ word)

/-- The flags that one of two declarations has. -/
def Flags.union (a b : Flags) : Flags := ⟨a.default || b.default, a.isGlobal || b.isGlobal⟩

/-- Flags behind others. -/
theorem FlagsText.append {a b : Flags} {s t : Text} (hs : FlagsText a s) (ht : FlagsText b t) :
    FlagsText (a.union b) (s ++ t) := by
  induction ht with
  | none => simpa [Flags.union] using hs
  | @default flags t gap word h hgap hword ih =>
    have hmore := FlagsText.default ih hgap hword
    simpa [Flags.union] using hmore
  | @isGlobal flags t gap word h hgap hword ih =>
    have hmore := FlagsText.isGlobal ih hgap hword
    simpa [Flags.union] using hmore

/-- An expression that does not end in a flag. -/
def IsUnflagged (expression : Text) : Prop :=
  dropFlag? "!default".toText expression = none ∧ dropFlag? "!global".toText expression = none

instance (expression : Text) : Decidable (IsUnflagged expression) :=
  inferInstanceAs (Decidable (_ ∧ _))

theorem isSolid_defaultFlag : ∀ c ∈ "!default".toText, isSolid c := by decide

theorem isSolid_globalFlag : ∀ c ∈ "!global".toText, isSolid c := by decide

theorem dropFlag?_append {flag u word : Text} (hword : word.map CodePoint.toLower = flag) :
    dropFlag? flag (u ++ word) = some (Text.stripRight u) := by
  have hlength : word.length = flag.length := by rw [← hword, List.length_map]
  have hsize : (u ++ word).length - flag.length = u.length := by
    rw [List.length_append, hlength, Nat.add_sub_cancel]
  unfold dropFlag?
  simp only [hsize, List.drop_left, List.take_left]
  exact if_pos ⟨by rw [List.length_append]; omega, hword⟩

theorem dropFlag?_append_global {u word : Text}
    (hword : word.map CodePoint.toLower = "!global".toText) :
    dropFlag? "!default".toText (u ++ word) = none := by
  have hne : word ≠ [] := by
    rintro rfl
    exact absurd hword (by decide)
  unfold dropFlag?
  rw [if_neg]
  rintro ⟨hle, heq⟩
  -- the two flags end with different letters
  have hlast := congrArg List.getLast? heq
  rw [List.getLast?_map, List.getLast?_drop, if_neg, List.getLast?_append_of_ne_nil _ hne,
    ← List.getLast?_map, hword] at hlast
  · exact absurd hlast (by decide)
  · have hflag : 0 < "!default".toText.length := by decide
    omega

/-- A flag at the end is cut off with the white space before it. -/
theorem Text.strip_append_flag {flag word gap : Text} (hword : word.map CodePoint.toLower = flag)
    (hflag : flag ≠ [] ∧ ∀ c ∈ flag, isSolid c) (hgap : ∀ c ∈ gap, isBlank c) (t : Text) :
    ∃ u, strip (t ++ gap ++ word) = u ++ word ∧ stripRight u = strip t ∧
      (strip t).length < (u ++ word).length := by
  have hne : word ≠ [] := by
    rintro rfl
    exact hflag.1 hword.symm
  obtain ⟨u, hu, hshort⟩ :=
    strip_append_word (visible_of_isSolid (isSolid_of_map_toLower hword hflag.2)) hne (t ++ gap)
  rw [strip_append_of_blank hgap] at hshort
  refine ⟨u, hu, hshort, ?_⟩
  have hle : (stripRight u).length ≤ u.length := by
    rw [stripRight, trimRight, List.length_reverse]
    exact (List.dropWhile_sublist _).length_le.trans_eq List.length_reverse
  have hword' := List.length_pos_iff.mpr hne
  rw [← hshort, List.length_append]
  omega

/-- The flags behind an expression are dropped one by one, the last one first. -/
theorem dropFlags_strip {expression t : Text} {flags : Flags} (h : FlagsText flags t)
    (hstrip : Text.strip expression = expression) (hunflagged : IsUnflagged expression)
    (others : Flags) {count : Nat} (hcount : (Text.strip (expression ++ t)).length ≤ count) :
    dropFlags count others (Text.strip (expression ++ t)) =
      (expression, ⟨others.default || flags.default, others.isGlobal || flags.isGlobal⟩) := by
  induction h generalizing others count with
  | none =>
    rw [List.append_nil, hstrip, Bool.or_false, Bool.or_false]
    cases count with
    | zero => rfl
    | succ count =>
      rw [dropFlags.eq_def]
      simp only [hunflagged.1, hunflagged.2]
  | @default flags t gap word h hgap hword ih =>
    obtain ⟨u, hu, hshort, hlength⟩ := Text.strip_append_flag hword
      ⟨by decide, isSolid_defaultFlag⟩ hgap (expression ++ t)
    rw [← List.append_assoc, ← List.append_assoc, hu] at hcount ⊢
    obtain ⟨count, rfl⟩ := Nat.exists_eq_succ_of_ne_zero (n := count) (by omega)
    rw [dropFlags.eq_def]
    simp only [dropFlag?_append hword]
    rw [hshort, ih _ (by omega)]
    simp
  | @isGlobal flags t gap word h hgap hword ih =>
    obtain ⟨u, hu, hshort, hlength⟩ := Text.strip_append_flag hword
      ⟨by decide, isSolid_globalFlag⟩ hgap (expression ++ t)
    rw [← List.append_assoc, ← List.append_assoc, hu] at hcount ⊢
    obtain ⟨count, rfl⟩ := Nat.exists_eq_succ_of_ne_zero (n := count) (by omega)
    rw [dropFlags.eq_def]
    simp only [dropFlag?_append_global hword, dropFlag?_append hword]
    rw [hshort, ih _ (by omega)]
    simp

/-- An expression and its flags, with any white space around. -/
theorem readFlags_written {before expression t after : Text} {flags : Flags}
    (h : FlagsText flags t) (hstrip : Text.strip expression = expression)
    (hunflagged : IsUnflagged expression) (hbefore : ∀ c ∈ before, isBlank c)
    (hafter : ∀ c ∈ after, isBlank c) :
    readFlags (before ++ expression ++ t ++ after) = (expression, flags) := by
  have hvalue : Text.strip (before ++ expression ++ t ++ after) = Text.strip (expression ++ t) := by
    rw [Text.strip_append_of_blank hafter, List.append_assoc, Text.strip_blank_append hbefore]
  unfold readFlags
  simp only [hvalue]
  rw [dropFlags_strip h hstrip hunflagged _ (Nat.le_refl _), Bool.false_or, Bool.false_or]

theorem readFlags_stripRight (value : Text) :
    readFlags (Text.stripRight value) = readFlags value := by
  rw [readFlags, Text.strip_stripRight]
  rfl

theorem FlagsText.isQuiet {flags : Flags} {t : Text} (h : FlagsText flags t) :
    ∀ c ∈ t, isQuiet c := by
  have hmore : ∀ t gap word : Text, (∀ c ∈ t, StyleVars.isQuiet c) → (∀ c ∈ gap, isBlank c) →
      (∀ c ∈ word, isSolid c) → ∀ c ∈ t ++ gap ++ word, StyleVars.isQuiet c := by
    intro t gap word ht hgap hword c hc
    rw [List.mem_append, List.mem_append] at hc
    rcases hc with (hc | hc) | hc
    · exact ht c hc
    · exact isQuiet_of_isBlank (hgap c hc)
    · exact quiet_of_isSolid hword c hc
  induction h with
  | none => simp
  | default h hgap hword ih =>
    exact hmore _ _ _ ih hgap (isSolid_of_map_toLower hword isSolid_defaultFlag)
  | isGlobal h hgap hword ih =>
    exact hmore _ _ _ ih hgap (isSolid_of_map_toLower hword isSolid_globalFlag)

/-- The flags with a space before each of them. -/
def Flags.print (flags : Flags) : Text :=
  (if flags.default then " !default".toText else []) ++
    (if flags.isGlobal then " !global".toText else [])

theorem Flags.flagsText_print (flags : Flags) : FlagsText flags flags.print := by
  have hspace : ∀ c ∈ [CodePoint.char ' '], isBlank c := by decide
  have hdefault : FlagsText ⟨true, false⟩ ([] ++ [.char ' '] ++ "!default".toText) :=
    .default .none hspace rfl
  have hglobal : ∀ {flags t}, FlagsText flags t →
      FlagsText { flags with isGlobal := true } (t ++ " !global".toText) := by
    intro flags t h
    have hword : "!global".toText.map CodePoint.toLower = "!global".toText := rfl
    have hglobal := FlagsText.isGlobal h hspace hword
    rwa [List.append_assoc] at hglobal
  obtain ⟨isDefault, isGlobal⟩ := flags
  cases isDefault <;> cases isGlobal
  · exact .none
  · exact hglobal .none
  · exact hdefault
  · exact hglobal hdefault

/-! ## Targets of imports -/

/-- A path in quotes. -/
structure QuotedPath where
  quote : CodePoint
  path : Text
  deriving DecidableEq

namespace QuotedPath

/-- The path with its quotes. -/
def text (q : QuotedPath) : Text := q.quote :: (q.path ++ [q.quote])

/-- The target of an import that has the path. -/
def target (q : QuotedPath) : ImportTarget :=
  ⟨q.text, if isPlainImport q.path then none else some q.path⟩

/-- There are no quotes, backslashes and line feeds in the path. -/
def IsProper (q : QuotedPath) : Prop :=
  (q.quote = '"' ∨ q.quote = '\x27') ∧
    ∀ c ∈ q.path, c ≠ '"' ∧ c ≠ '\x27' ∧ c ≠ '\\' ∧ c ≠ '\n'

instance (q : QuotedPath) : Decidable q.IsProper := inferInstanceAs (Decidable (_ ∧ _))

theorem ofRaw_text {q : QuotedPath} (h : q.IsProper) : ImportTarget.ofRaw q.text = q.target := by
  have hunquoted : unquoted? q.text = some q.path := by
    simp [unquoted?, text, h.1]
  rw [ImportTarget.ofRaw, hunquoted, target]
  cases hplain : isPlainImport q.path <;> simp [Option.filter, hplain]

theorem ne_quote {q : QuotedPath} (h : q.IsProper) : ∀ c ∈ q.path, c ≠ q.quote := by
  intro c hc
  obtain ⟨hdouble, hsingle, -⟩ := h.2 c hc
  obtain hq | hq := h.1
  · rwa [hq]
  · rwa [hq]

theorem isBlank_quote {q : QuotedPath} (h : q.IsProper) : isBlank q.quote = false := by
  obtain hq | hq := h.1 <;> rw [hq] <;> decide

theorem strip_text {q : QuotedPath} (h : q.IsProper) : Text.strip q.text = q.text := by
  refine Text.strip_eq_self ?_ ?_
  · simpa [text] using isBlank_quote h
  · simpa [text, List.getLast?_cons] using isBlank_quote h

theorem code {q : QuotedPath} (h : q.IsProper) (next : Option CodePoint) :
    Code false next q.text := by
  have hbody : ∀ t : Text, (∀ c ∈ t, c ≠ q.quote ∧ c ≠ '\\' ∧ c ≠ '\n') → QuotedBody q.quote t := by
    intro t ht
    induction t with
    | nil => exact .nil
    | cons c rest ih =>
      exact .char (ht c List.mem_cons_self) (ih fun d hd => ht d (List.mem_cons_of_mem _ hd))
  exact .quoted h.1 (hbody q.path fun c hc => ⟨ne_quote h c hc, (h.2 c hc).2.2⟩) .nil

end QuotedPath

/-- Paths in quotes as they are written behind a keyword, commas between them and white space around
them or not. -/
inductive TargetsText : List QuotedPath → Text → Prop
  | single {q : QuotedPath} {gap : Text} (hgap : ∀ c ∈ gap, isBlank c) :
    TargetsText [q] (gap ++ q.text)
  | cons {q : QuotedPath} {others : List QuotedPath} {gap gap' t : Text}
    (hgap : ∀ c ∈ gap, isBlank c) (hgap' : ∀ c ∈ gap', isBlank c) (h : TargetsText others t) :
    TargetsText (q :: others) (gap ++ q.text ++ gap' ++ CodePoint.char ',' :: t)

namespace TargetSplit

theorem foldl_quoted {quote : CodePoint} {body : Text} (hbody : ∀ c ∈ body, c ≠ quote)
    (done : List Text) (current : Text) (depth : Int) :
    body.foldl step ⟨done, current, some quote, depth⟩ =
      ⟨done, body.reverse ++ current, some quote, depth⟩ := by
  induction body generalizing current with
  | nil => rfl
  | cons c rest ih =>
    have hstep : step ⟨done, current, some quote, depth⟩ c =
        ⟨done, c :: current, some quote, depth⟩ := by
      simp [step, hbody c List.mem_cons_self]
    rw [List.foldl_cons, hstep, ih fun d hd => hbody d (List.mem_cons_of_mem _ hd)]
    simp

theorem foldl_text {q : QuotedPath} (h : q.IsProper) (done : List Text) (current : Text)
    (depth : Int) : q.text.foldl step ⟨done, current, none, depth⟩ =
      ⟨done, q.text.reverse ++ current, none, depth⟩ := by
  have hopen : step ⟨done, current, none, depth⟩ q.quote =
      ⟨done, q.quote :: current, some q.quote, depth⟩ := by
    simp [step, h.1]
  rw [QuotedPath.text, List.foldl_cons, hopen, List.foldl_append,
    foldl_quoted (QuotedPath.ne_quote h)]
  simp [step]

theorem foldl_blank {gap : Text} (hgap : ∀ c ∈ gap, isBlank c) (done : List Text) (current : Text)
    (depth : Int) : gap.foldl step ⟨done, current, none, depth⟩ =
      ⟨done, gap.reverse ++ current, none, depth⟩ := by
  induction gap generalizing current with
  | nil => rfl
  | cons c rest ih =>
    have hne : ∀ d : CodePoint, isBlank d = false → c ≠ d :=
      fun d hd => CodePoint.ne_of_class (hgap c List.mem_cons_self) hd
    have hstep : step ⟨done, current, none, depth⟩ c = ⟨done, c :: current, none, depth⟩ := by
      simp [step, hne '"' (by decide), hne '\x27' (by decide), hne '(' (by decide),
        hne ')' (by decide), hne ',' (by decide)]
    rw [List.foldl_cons, hstep, ih fun d hd => hgap d (List.mem_cons_of_mem _ hd)]
    simp

end TargetSplit

/-- A written list of paths is split into the paths. -/
theorem TargetsText.splitTargets {paths : List QuotedPath} {t : Text} (h : TargetsText paths t)
    (hproper : ∀ q ∈ paths, q.IsProper) :
    StyleVars.splitTargets t = paths.map QuotedPath.text := by
  have hstrip : ∀ q : QuotedPath, q.IsProper → ∀ gap gap' : Text, (∀ c ∈ gap, isBlank c) →
      (∀ c ∈ gap', isBlank c) →
      Text.strip (gap'.reverse ++ (q.text.reverse ++ (gap.reverse ++ []))).reverse = q.text := by
    intro q hq gap gap' hgap hgap'
    simp only [List.append_nil, List.reverse_append, List.reverse_reverse]
    rw [Text.strip_append_of_blank hgap', Text.strip_blank_append hgap, q.strip_text hq]
  have hfinish : ∀ done : List Text,
      (t.foldl TargetSplit.step ⟨done, [], none, 0⟩).finish =
        done ++ paths.map QuotedPath.text := by
    induction h with
    | @single q gap hgap =>
      intro done
      have hq := hproper q (by simp)
      rw [List.foldl_append, TargetSplit.foldl_blank hgap, TargetSplit.foldl_text hq,
        TargetSplit.finish]
      have hone := hstrip q hq gap [] hgap (by simp)
      simp only [List.reverse_nil, List.nil_append] at hone
      rw [hone]
      rfl
    | @cons q others gap gap' t hgap hgap' h ih =>
      intro done
      have hq := hproper q (by simp)
      have hcomma : ∀ current, TargetSplit.step ⟨done, current, none, 0⟩ ',' =
          ⟨done ++ [Text.strip current.reverse], [], none, 0⟩ := fun _ => rfl
      rw [List.foldl_append, List.foldl_append, List.foldl_append, TargetSplit.foldl_blank hgap,
        TargetSplit.foldl_text hq, TargetSplit.foldl_blank hgap', List.foldl_cons, hcomma,
        hstrip q hq gap gap' hgap hgap', ih fun r hr => hproper r (List.mem_cons_of_mem _ hr)]
      simp
  unfold StyleVars.splitTargets
  rw [hfinish, List.nil_append, List.filter_eq_self]
  intro raw hraw
  obtain ⟨q, -, rfl⟩ := List.mem_map.mp hraw
  simp [QuotedPath.text]

theorem TargetsText.code {paths : List QuotedPath} {t : Text} (h : TargetsText paths t)
    (hproper : ∀ q ∈ paths, q.IsProper) (next : Option CodePoint) : Code false next t := by
  induction h with
  | single hgap => exact .append (.of_blank hgap) (QuotedPath.code (hproper _ (by simp)) _)
  | @cons q others gap gap' t hgap hgap' h ih =>
    have hcomma : Code false next (CodePoint.char ',' :: t) :=
      .char (by decide) (by simp [opensWith])
        (ih fun r hr => hproper r (List.mem_cons_of_mem _ hr))
    refine .append (.append (.append ?_ ?_) ?_) hcomma
    · exact .of_blank hgap
    · exact QuotedPath.code (hproper q (by simp)) _
    · exact .of_blank hgap'

/-- A written list of paths ends with a quote, and no word character starts it. -/
theorem TargetsText.ends {paths : List QuotedPath} {t : Text} (h : TargetsText paths t)
    (hproper : ∀ q ∈ paths, q.IsProper) :
    (∃ c, t.head? = some c ∧ isWord c = false) ∧ ∃ c, t.getLast? = some c ∧ isBlank c = false := by
  have hfirst : ∀ q : QuotedPath, q.IsProper → ∀ gap : Text, (∀ c ∈ gap, isBlank c) → ∀ rest,
      ∃ c, (gap ++ q.text ++ rest).head? = some c ∧ isWord c = false := by
    intro q hq gap hgap rest
    cases gap with
    | nil => exact ⟨q.quote, rfl, by obtain h | h := hq.1 <;> rw [h] <;> decide⟩
    | cons c gap =>
      have hname := not_isNameChar_of_isBlank (hgap c List.mem_cons_self)
      simp only [isNameChar, Bool.or_eq_false_iff] at hname
      exact ⟨c, rfl, hname.1⟩
  induction h with
  | @single q gap hgap =>
    have hq := hproper q (by simp)
    refine ⟨by simpa using hfirst q hq gap hgap [], q.quote, ?_, QuotedPath.isBlank_quote hq⟩
    simp [QuotedPath.text, List.getLast?_append, List.getLast?_cons]
  | @cons q others gap gap' t hgap hgap' h ih =>
    obtain ⟨-, c, hc, hblank⟩ := ih fun r hr => hproper r (List.mem_cons_of_mem _ hr)
    have hhead := hfirst q (hproper q (by simp)) gap hgap (gap' ++ CodePoint.char ',' :: t)
    rw [← List.append_assoc] at hhead
    refine ⟨hhead, c, ?_, hblank⟩
    simp [List.getLast?_append, List.getLast?_cons, hc]

/-! ## The keyword of imports -/

/-- The keyword `@import` in any letter case. -/
def IsImportKeyword (word : Text) : Prop :=
  List.Forall₂ (fun letter c => matchesLetter letter c) "@import".toText word

instance : DecidablePred IsImportKeyword := fun word =>
  decidable_of_iff
    ("@import".toText.length = word.length ∧
      ∀ x ∈ "@import".toText.zip word, matchesLetter x.1 x.2) <| by
    rw [IsImportKeyword, List.forall₂_iff_zip]
    exact and_congr_right fun _ => Prod.forall

/-- The keyword is found where it stands. -/
theorem afterImport?_append {word rest : Text} (hword : IsImportKeyword word)
    (hrest : (rest.head?.map isWord).getD false = false) :
    afterImport? (word ++ rest) = some rest := by
  obtain ⟨hlength, hzip⟩ := List.forall₂_iff_zip.mp hword
  unfold afterImport?
  simp only [hlength, List.take_left, List.drop_left]
  exact if_pos ⟨trivial, List.all_eq_true.mpr fun _ hx => hzip hx, hrest⟩

/-- Where there is a keyword, it is found; where it is found, there is one. -/
theorem exists_keyword_of_afterImport? {t rest : Text} (h : afterImport? t = some rest) :
    ∃ word, IsImportKeyword word ∧ t = word ++ rest := by
  unfold afterImport? at h
  simp only at h
  split_ifs at h with hkeyword
  obtain ⟨hlength, hzip, -⟩ := hkeyword
  rw [Option.some.injEq] at h
  refine ⟨t.take "@import".toText.length, ?_, ?_⟩
  · refine List.forall₂_iff_zip.mpr ⟨hlength.symm, fun {a b} hab => ?_⟩
    exact List.all_eq_true.mp hzip (a, b) hab
  · rw [← h, List.take_append_drop]

theorem IsImportKeyword.isSolid {word : Text} (h : IsImportKeyword word) :
    ∀ c ∈ word, isSolid c := by
  have hkeyword : ∀ c ∈ "@import".toText, StyleVars.isSolid c := by decide
  unfold IsImportKeyword at h
  generalize "@import".toText = keyword at h hkeyword
  induction h with
  | nil => simp
  | @cons letter c letters word hletter h ih =>
    rw [List.forall_mem_cons] at hkeyword ⊢
    exact ⟨isSolid_of_matchesLetter hletter hkeyword.1, ih hkeyword.2⟩

/-- The keyword starts with an at sign and not with a dollar sign. -/
theorem IsImportKeyword.exists_cons {word : Text} (h : IsImportKeyword word) :
    ∃ c rest, word = c :: rest ∧ c ≠ '$' := by
  obtain ⟨c, rest, hc, -, rfl⟩ := List.forall₂_cons_left_iff.mp h
  refine ⟨c, rest, rfl, ?_⟩
  rintro rfl
  exact absurd hc (by decide)

end StyleVars
