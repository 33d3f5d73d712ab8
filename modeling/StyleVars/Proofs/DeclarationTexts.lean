import StyleVars.Proofs.HookNames
import StyleVars.Proofs.StatementTexts

/-!
# Texts of declarations

Names of variables are plain text without white space, so that the text of a declaration can be told
from its parts, and a text that declares nothing goes on declaring nothing when more follows it on
another line.
-/

namespace StyleVars

/-! ## Names -/

theorem isPlain_of_isNameChar {c : CodePoint} (h : isNameChar c) : isPlain c := by
  have hne : ∀ d : CodePoint, isNameChar d = false → c ≠ d := fun d hd => CodePoint.ne_of_class h hd
  simp only [isPlain, Bool.and_eq_true, ne_eq, decide_eq_true_eq]
  exact ⟨⟨⟨⟨⟨⟨⟨⟨hne _ (by decide), hne _ (by decide)⟩, hne _ (by decide)⟩, hne _ (by decide)⟩,
    hne _ (by decide)⟩, hne _ (by decide)⟩, hne _ (by decide)⟩, hne _ (by decide)⟩,
    hne _ (by decide)⟩

/-- The first and the last number of each run of white space characters. -/
def blankRanges : List (Nat × Nat) :=
  [(9, 13), (28, 32), (0x85, 0x85), (0xA0, 0xA0), (0x1680, 0x1680), (0x2000, 0x200A),
    (0x2028, 0x2029), (0x202F, 0x202F), (0x205F, 0x205F), (0x3000, 0x3000)]

theorem mem_blankRanges {c : CodePoint} (h : isBlank c) :
    ∃ b ∈ blankRanges, b.1 ≤ c.toNat ∧ c.toNat ≤ b.2 := by
  simp only [isBlank, Bool.or_eq_true, Bool.and_eq_true, decide_eq_true_eq] at h
  simp only [blankRanges, List.mem_cons, List.not_mem_nil, or_false, exists_eq_or_imp,
    exists_eq_left]
  generalize c.toNat = n at h
  omega

theorem CodePoint.eq_of_toNat {c : CodePoint} {n : Nat} (h : c.toNat = n) (hn : n < 0x80) :
    c = .char (Char.ofNat n) := by
  cases c with
  | char c =>
    have hc : c.toNat = n := h
    rw [← hc, Char.ofNat_toNat]
  | surrogate k =>
    simp only [CodePoint.toNat] at h
    omega

theorem not_isNameChar_of_isBlank {c : CodePoint} (h : isBlank c) : isNameChar c = false := by
  by_cases hascii : c.toNat < 0x80
  · have hall : ∀ n < 0x80, isBlank (.char (Char.ofNat n)) →
        isNameChar (.char (Char.ofNat n)) = false := by
      decide
    rw [CodePoint.eq_of_toNat rfl hascii] at h ⊢
    exact hall _ hascii h
  · -- beyond the first characters, no run of white space meets a run of letters
    have hapart : blankRanges.all fun b =>
        wordRanges.all fun w => b.2.blt w.1 || w.2.blt b.1 := by
      decide +kernel
    obtain ⟨b, hb, hfirst, hlast⟩ := mem_blankRanges h
    have hhyphen : c ≠ '-' := by
      rintro rfl
      exact hascii (by decide)
    simp only [isNameChar, isWord, hascii, if_false, hhyphen, decide_false, Bool.or_false, inRanges,
      List.any_eq_false, Bool.and_eq_true, decide_eq_true_eq]
    rintro w hw ⟨hw₁, hw₂⟩
    have hwb := List.all_eq_true.mp (List.all_eq_true.mp hapart b hb) w hw
    simp only [Bool.or_eq_true, Nat.blt_eq] at hwb
    omega

/-- The text is the name of a variable, the dollar sign in front. -/
def IsVariable (t : Text) : Prop :=
  ∃ name : Text, t = CodePoint.char '$' :: name ∧ ∀ c ∈ name, isNameChar c

theorem declared?_name {t name value : Text} (h : declared? t = some (name, value)) :
    IsVariable name := by
  unfold declared? at h
  split at h
  · rename_i rest
    simp only at h
    split_ifs at h with hstart
    split at h
    · simp only [Option.some.injEq, Prod.mk.injEq] at h
      exact ⟨rest.takeWhile isNameChar, h.1.symm, List.all_eq_true.mp List.all_takeWhile⟩
    · simp at h
  · simp at h

theorem IsVariable.isPlain {t : Text} (h : IsVariable t) {c : CodePoint} (hc : c ∈ t) :
    isPlain c := by
  obtain ⟨name, rfl, hname⟩ := h
  obtain rfl | hc := List.mem_cons.mp hc
  · decide
  · exact isPlain_of_isNameChar (hname c hc)

/-! ## What a statement declares -/

/-- The name, the expression and the flags of the declaration that a statement makes. -/
def Reading.declared? (r : Reading) : Option (Text × Text × Flags) :=
  (StyleVars.declared? r.text).bind fun (name, value) =>
    let (expression, flags) := readFlags value
    if 0 < r.depth ∧ ¬(flags.isGlobal ∧ r.unconditional) then none
    else some (name, expression, flags)

/-- Apart from its position, a declaration depends on the reading of its statement alone. -/
theorem Statement.declaration?_eq (text : Text) (s : Statement) :
    s.declaration? text =
      s.reading.declared?.map fun (name, expression, flags) =>
        ⟨name, expression, flags, .ofOffset text s.start⟩ := by
  unfold Statement.declaration? Reading.declared? Statement.reading
  cases declared? s.text with
  | none => rfl
  | some parts =>
    simp only [Option.bind_some]
    split_ifs <;> rfl

/-- What is told of declarations apart from their positions depends on the readings of their
statements alone. -/
theorem map_declaration? {α : Type} (f : Text × Text × Flags → α) (text : Text)
    (found : List Statement) :
    (found.filterMap (Statement.declaration? text)).map
        (fun d => f (d.name, d.expression, d.flags)) =
      (found.map Statement.reading).filterMap fun r => r.declared?.map f := by
  rw [List.map_filterMap, List.filterMap_map]
  refine List.filterMap_congr fun s _ => ?_
  rw [Statement.declaration?_eq, Option.map_map]
  rfl

/-- What a declaration takes from its statement. -/
theorem Statement.declaration?_spec {text : Text} {s : Statement} {d : Declaration}
    (h : s.declaration? text = some d) :
    ∃ value, declared? s.text = some (d.name, value) ∧
      readFlags value = (d.expression, d.flags) ∧ d.position = .ofOffset text s.start := by
  unfold Statement.declaration? at h
  obtain ⟨⟨name, value⟩, hdeclared, h⟩ := Option.bind_eq_some_iff.mp h
  simp only at h
  split_ifs at h
  obtain rfl := Option.some.inj h
  exact ⟨value, hdeclared, rfl, rfl⟩

theorem declaration_name {source : Text} {d : Declaration} (h : d ∈ declarations source) :
    IsVariable d.name := by
  obtain ⟨s, -, hs⟩ := List.mem_filterMap.mp h
  obtain ⟨value, hdeclared, -⟩ := Statement.declaration?_spec hs
  exact declared?_name hdeclared

/-- Where a run of characters ends within a list, it ends there whatever follows the list. -/
theorem dropWhile_append_of_cons {p : CodePoint → Bool} {xs after : Text} {d : CodePoint}
    (h : xs.dropWhile p = d :: after) (ys : Text) :
    (xs ++ ys).dropWhile p = d :: (after ++ ys) ∧ (xs ++ ys).takeWhile p = xs.takeWhile p := by
  have hlength : (xs.takeWhile p).length ≠ xs.length := by
    intro heq
    have hsum := congrArg List.length (List.takeWhile_append_dropWhile (p := p) (l := xs))
    rw [List.length_append, heq, h, List.length_cons] at hsum
    omega
  constructor
  · rw [List.dropWhile_append, h]
    rfl
  · rw [List.takeWhile_append, if_neg hlength]

theorem exists_dropWhile_isBlank {t : Text} (hne : t ≠ [])
    (hlast : ∀ c ∈ t.getLast?, isBlank c = false) :
    ∃ c rest, t.dropWhile isBlank = c :: rest := by
  apply List.exists_cons_of_ne_nil
  intro hnil
  obtain ⟨l, hl⟩ := Option.ne_none_iff_exists'.mp (mt List.getLast?_eq_none_iff.mp hne)
  have hblank := List.dropWhile_eq_nil_iff.mp hnil l (List.mem_of_getLast? hl)
  rw [hlast l hl] at hblank
  exact Bool.false_ne_true hblank

/-- A text that declares nothing does not declare anything when a name follows it behind some white
space. -/
theorem declared?_append_eq_none {t gap w : Text} (hne : t ≠ [])
    (hlast : ∀ c ∈ t.getLast?, isBlank c = false) (hgap : gap ≠ []) (hblank : ∀ c ∈ gap, isBlank c)
    (h : declared? t = none) : declared? (t ++ (gap ++ CodePoint.char '$' :: w)) = none := by
  obtain ⟨c, rest, rfl⟩ := List.exists_cons_of_ne_nil hne
  obtain ⟨b, gap, rfl⟩ := List.exists_cons_of_ne_nil hgap
  have hskip : (b :: gap ++ CodePoint.char '$' :: w).dropWhile isBlank =
      CodePoint.char '$' :: w := by
    rw [List.dropWhile_append_of_pos hblank]
    rfl
  by_cases hc : c = .char '$'
  · subst hc
    by_cases hall : ∀ c ∈ rest, isNameChar c
    · -- the name ends where the white space starts
      have hb : isNameChar b = false := not_isNameChar_of_isBlank (hblank b (by simp))
      have hdrop : (rest ++ (b :: gap ++ CodePoint.char '$' :: w)).dropWhile isNameChar =
          b :: gap ++ CodePoint.char '$' :: w := by
        rw [List.dropWhile_append_of_pos hall]
        exact List.dropWhile_cons_of_neg (by simp [hb])
      simp only [List.cons_append, declared?] at hdrop hskip ⊢
      rw [hdrop, hskip]
      split_ifs <;> rfl
    · -- what follows the name is there already
      obtain ⟨d, after, hafter⟩ : ∃ d after, rest.dropWhile isNameChar = d :: after := by
        exact List.exists_cons_of_ne_nil fun hnil => hall (List.dropWhile_eq_nil_iff.mp hnil)
      have hend : ∀ l ∈ (d :: after).getLast?, isBlank l = false := by
        have hsplit := List.takeWhile_append_dropWhile (p := isNameChar) (l := rest)
        rw [hafter] at hsplit
        intro l hl
        refine hlast l ?_
        rw [← hsplit, ← List.cons_append, List.getLast?_append, Option.mem_def.mp hl]
        rfl
      obtain ⟨e, more, hmore⟩ := exists_dropWhile_isBlank (List.cons_ne_nil d after) hend
      obtain ⟨hdrop, hname⟩ := dropWhile_append_of_cons hafter (b :: gap ++ CodePoint.char '$' :: w)
      obtain ⟨hvalue, -⟩ := dropWhile_append_of_cons hmore (b :: gap ++ CodePoint.char '$' :: w)
      simp only [List.cons_append] at hdrop hname hvalue
      simp only [declared?, hafter, hmore] at h
      simp only [declared?, List.cons_append, hname, hdrop, hvalue]
      split_ifs at h ⊢
      · split
        · rename_i value heq
          rw [(List.cons.inj heq).1] at h
          simp at h
        · rfl
      · rfl
  · unfold declared?
    split
    · rename_i heq
      exact absurd (List.cons.inj heq).1 hc
    · rfl

/-- An expression that ends as no flag does is none with a flag. -/
theorem dropFlag?_of_last (flag : Text) {e : Text} {c : CodePoint} (hne : flag ≠ [])
    (hlast : e.getLast? = some c) (hflag : flag.getLast? ≠ some c.toLower) :
    dropFlag? flag e = none := by
  unfold dropFlag?
  rw [if_neg]
  rintro ⟨-, heq⟩
  refine hflag ?_
  have hlong : ¬e.length ≤ e.length - flag.length := by
    intro hle
    rw [List.drop_eq_nil_of_le hle] at heq
    exact hne heq.symm
  rw [← heq, List.getLast?_map, List.getLast?_drop, if_neg hlong, hlast]
  rfl

/-- An expression that ends with a parenthesis has no flags. -/
theorem readFlags_of_paren {value e : Text} (hstrip : Text.strip value = e)
    (hlast : e.getLast? = some (.char ')')) : readFlags value = (e, ⟨false, false⟩) := by
  -- neither flag ends the expression, however many may still be read
  have hdrops : ∀ count, dropFlags count ⟨false, false⟩ e = (e, ⟨false, false⟩) := by
    intro count
    cases count with
    | zero => rfl
    | succ count =>
      rw [dropFlags.eq_def]
      simp only [dropFlag?_of_last "!default".toText (by decide) hlast (by decide),
        dropFlag?_of_last "!global".toText (by decide) hlast (by decide)]
  unfold readFlags
  rw [hstrip]
  exact hdrops _

/-! ## Calls of hooks -/

/-- The call of the hook of a declaration, as an expression. -/
def hookExpression (file declaration : Nat) (name : Text) : Text :=
  hookIdentifier file declaration ++ CodePoint.char '(' :: (name ++ [CodePoint.char ')'])

/-- The statement that calls a hook, as it is read. -/
def hookReading (file declaration : Nat) (name : Text) : Reading :=
  ⟨"$sassvars-capture: ".toText ++ hookExpression file declaration name, 0, true⟩

theorem hookCall_eq (file declaration : Nat) (name : Text) :
    hookCall file declaration name =
      (hookReading file declaration name).text ++ [CodePoint.char ';'] := by
  simp only [hookCall, hookReading, hookExpression, List.append_assoc, List.cons_append,
    String.toText]
  rfl

theorem isPlain_of_mem_hookIdentifier {file declaration : Nat} {c : CodePoint}
    (h : c ∈ hookIdentifier file declaration) : isPlain c :=
  isPlain_of_isNameChar (isNameChar_of_mem_hookIdentifier h)

theorem Kept.hookReading (file declaration : Nat) {name : Text} (h : IsVariable name) :
    Kept (hookReading file declaration name).text := by
  have hvariable : Kept "$sassvars-capture: ".toText := .of_plain (by decide)
  have hidentifier : Kept (hookIdentifier file declaration) :=
    .of_plain fun c hc => isPlain_of_mem_hookIdentifier hc
  exact hvariable.append (hidentifier.append (Kept.of_plain fun c hc => h.isPlain hc).parenthesized)

/-- A call has characters of names and a few more. -/
theorem mem_hookCall {file declaration : Nat} {name : Text} (h : IsVariable name) {c : CodePoint}
    (hc : c ∈ hookCall file declaration name) : isNameChar c ∨ c ∈ "$: ();".toText := by
  obtain ⟨rest, rfl, hrest⟩ := h
  have hvariable : ∀ d ∈ "$sassvars-capture: ".toText, isNameChar d ∨ d ∈ "$: ();".toText := by
    decide
  have hend : ∀ d ∈ ");".toText, d ∈ "$: ();".toText := by decide
  simp only [hookCall, List.mem_append, List.mem_cons] at hc
  rcases hc with ((hc | hc) | rfl | rfl | hc) | hc
  · exact hvariable c hc
  · exact .inl (isNameChar_of_mem_hookIdentifier hc)
  · exact .inr (by decide)
  · exact .inr (by decide)
  · exact .inl (hrest c hc)
  · exact .inr (hend c hc)

/-- A call has neither quotes nor braces. -/
theorem harmless_of_mem_hookCall {file declaration : Nat} {name : Text} (h : IsVariable name)
    {c : CodePoint} (hc : c ∈ hookCall file declaration name) :
    c ≠ '"' ∧ c ≠ '\x27' ∧ c ≠ '\x7b' ∧ c ≠ '\x7d' := by
  have hothers : ∀ d ∈ "$: ();".toText, d ≠ '"' ∧ d ≠ '\x27' ∧ d ≠ '\x7b' ∧ d ≠ '\x7d' := by
    decide
  rcases mem_hookCall h hc with hname | hother
  · have hplain := isPlain_of_isNameChar hname
    simp only [isPlain, ne_eq, Bool.and_eq_true, decide_eq_true_eq] at hplain
    exact ⟨hplain.1.1.1.1.1.1.1.1, hplain.1.1.1.1.1.1.1.2, hplain.1.1.2, hplain.1.2⟩
  · exact hothers c hother

/-- A call has no line breaks. -/
theorem newline_notMem_hookCall {file declaration : Nat} {name : Text} (h : IsVariable name) :
    CodePoint.char '\n' ∉ hookCall file declaration name := by
  intro hmem
  rcases mem_hookCall h hmem with hname | hother
  · exact absurd hname (by decide)
  · exact absurd hother (by decide)

theorem getLast?_hookExpression (file declaration : Nat) (name : Text) :
    (hookExpression file declaration name).getLast? = some (.char ')') := by
  rw [hookExpression, List.getLast?_append]
  simp [List.getLast?_cons]

/-- A call of a hook, put between two statements, is one statement. -/
theorem settles_hookCall (file declaration : Nat) {name : Text} (h : IsVariable name) :
    Settles (hookCall file declaration name) [hookReading file declaration name] := by
  have hkept := Kept.hookReading file declaration h
  have hhead : (hookReading file declaration name).text.head? = some (.char '$') := rfl
  have hlast : (hookReading file declaration name).text.getLast? = some (.char ')') := by
    rw [hookReading, List.getLast?_append, getLast?_hookExpression]
    rfl
  rw [hookCall_eq]
  refine hkept.settles hhead (by decide) (by decide) (Text.strip_eq_self ?_ ?_)
  · rw [hhead]
    decide
  · rw [hlast]
    decide

/-- It declares the variable that captures values, and its expression calls the hook. -/
theorem declared?_hookReading (file declaration : Nat) (name : Text) :
    (hookReading file declaration name).declared? =
      some ("$sassvars-capture".toText, hookExpression file declaration name, ⟨false, false⟩) := by
  have hdeclared : declared? (hookReading file declaration name).text =
      some ("$sassvars-capture".toText,
        CodePoint.char ' ' :: hookExpression file declaration name) := rfl
  have hstrip : Text.strip (CodePoint.char ' ' :: hookExpression file declaration name) =
      hookExpression file declaration name := by
    rw [Text.strip_cons_blank (by decide)]
    have hhead : (hookExpression file declaration name).head? = some (.char 's') := rfl
    refine Text.strip_eq_self ?_ ?_
    · rw [hhead]
      decide
    · rw [getLast?_hookExpression]
      decide
  rw [Reading.declared?, hdeclared, Option.bind_some]
  simp only [readFlags_of_paren hstrip (getLast?_hookExpression file declaration name)]
  rfl

/-- The call of a hook is not an import. -/
theorem import?_of_hookReading {s : Statement} {file declaration : Nat} {name : Text}
    (h : s.reading = hookReading file declaration name) : s.import? = none := by
  have htext : s.text = (hookReading file declaration name).text := congrArg Reading.text h
  have hafter : afterImport? (hookReading file declaration name).text = none := rfl
  unfold Statement.import?
  rw [htext, hafter]
  split_ifs <;> rfl

end StyleVars
