import StyleVars.Proofs.FirstStatements

/-!
# Comments in declarations

The reader passes over a comment, but the comment stays in the text of its statement. Between the
name of a declaration and the colon it keeps the statement from being one, and behind the expression
it hides the flags in front of it: only those behind the comment are read (`commented_spec`). Where
no flag stands in front of it, it changes the expression alone.
-/

namespace StyleVars

/-- A declaration without comments up to its flags: a name, white space, the colon, white space and
a balanced expression that does not end in a flag. -/
structure PlainDeclaration where
  name : Text
  before : Text
  after : Text
  expression : Text
  isName : Clause.IsName name
  before_blank : ∀ c ∈ before, isBlank c
  after_blank : ∀ c ∈ after, isBlank c
  code : ColonCode false true none (after ++ expression)
  stripped : Text.strip expression = expression
  unflagged : IsUnflagged expression

namespace PlainDeclaration

variable (d : PlainDeclaration)

/-- The name and the white space behind it. -/
def head : Text := d.name ++ d.before

/-- The declaration as it is written. -/
def text : Text := d.head ++ CodePoint.char ':' :: (d.after ++ d.expression)

end PlainDeclaration

/-! ## Code around a comment -/

theorem ColonCode.append_quiet {inside afterColon : Bool} {next : Option CodePoint} {a b : Text}
    (ha : ColonCode inside afterColon none a) (hb : ∀ c ∈ b, isQuiet c)
    (hlast : ∀ c ∈ (a ++ b).getLast?, opensWith c next = false) :
    ColonCode inside afterColon next (a ++ b) := by
  cases b with
  | nil =>
    rw [List.append_nil] at hlast ⊢
    exact ha.of_next hlast
  | cons d b =>
    have hd := hb d List.mem_cons_self
    exact .append (ha.of_next fun c _ => opensWith_of_isQuiet c hd) (.of_code (.of_quiet hb))

/-- Code with a comment in it stays in its statement. -/
theorem takesIn_commented {a b body : Text} (ha : ColonCode false false (some (.char '/')) a)
    (hbody : ¬[CodePoint.char '*', .char '/'] <:+: body)
    (hb : ColonCode false false (some (.char ';')) b) :
    (Scanner.between 0 []).opened.TakesIn (a ++ blockComment body ++ b) := by
  obtain ⟨m, hread⟩ := Scanner.reads_colonCode ha (s := (Scanner.between 0 []).opened) rfl
    (by simp) nofun
  have hcomment := Scanner.reads_comment (s := (Scanner.between 0 []).opened.took a (.code m)) rfl
    hbody (b.head?.or (some (.char ';')))
  rw [Scanner.takesIn_append (hread.took_append hcomment)]
  exact Scanner.reads_colonCode hb rfl (by simp) nofun

/-! ## What is declared -/

/-- The declaration of a statement on its own, with white space around it or not. -/
theorem declared?_strip {name before value : Text} (hname : Clause.IsName name)
    (hbefore : ∀ c ∈ before, isBlank c) :
    (Reading.mk (Text.strip (name ++ before ++ CodePoint.char ':' :: value)) 0 true).declared? =
      some (name, readFlags value) := by
  rw [hname.strip_append (by decide), Reading.declared?, Clause.declared?_written hname hbefore,
    Option.bind_some]
  simp only [readFlags_stripRight]
  rfl

/-- A comment behind a name keeps a statement from being a declaration. -/
theorem declared?_strip_comment {name before w : Text} (hname : Clause.IsName name)
    (hbefore : ∀ c ∈ before, isBlank c) :
    (Reading.mk (Text.strip (name ++ before ++ CodePoint.char '/' :: w)) 0 true).declared? =
      none := by
  rw [hname.strip_append (by decide), Reading.declared?,
    Clause.declared?_name_append hname hbefore (by decide)]
  rfl

/-- No flag stands at the end of a comment. -/
theorem isUnflagged_of_slash {e : Text} (h : e.getLast? = some (.char '/')) : IsUnflagged e :=
  ⟨dropFlag?_of_last _ (by decide) h (by decide), dropFlag?_of_last _ (by decide) h (by decide)⟩

/-- Of the flags around a comment, those behind it are read; the others stay in the expression. -/
theorem readFlags_comment {flags : Flags} {after e body back tail : Text}
    (hback : FlagsText flags back) (hafter : ∀ c ∈ after, isBlank c)
    (htail : ∀ c ∈ tail, isBlank c) :
    readFlags (after ++ (e ++ blockComment body) ++ back ++ tail) =
      (Text.strip (e ++ blockComment body), flags) := by
  have hlast : (e ++ blockComment body).getLast? = some (.char '/') := by
    simp [blockComment, List.getLast?_append, List.getLast?_cons]
  -- white space at the start of `e` is left out with the one before it
  obtain ⟨lead, hlead, hblank, hend⟩ := Text.strip_of_getLast? hlast (by decide)
  generalize e ++ blockComment body = commented at hlead hend ⊢
  have hstrip : Text.strip (Text.strip commented) = Text.strip commented := by
    conv_rhs => rw [hlead]
    exact (Text.strip_blank_append hblank _).symm
  have hread := readFlags_written hback hstrip (isUnflagged_of_slash hend)
    (List.forall_mem_append.mpr ⟨hafter, hblank⟩) htail
  rwa [List.append_assoc after, ← hlead] at hread

namespace PlainDeclaration

variable (d : PlainDeclaration)

theorem code_head (next : Option CodePoint) : Code false next d.head :=
  d.isName.code_append (fun c hc => isQuiet_of_isBlank (d.before_blank c hc)) next

theorem code_text : ColonCode false false none d.text :=
  .append (.of_code (d.code_head _)) (.char (by decide) (by simp [opensBehind])
    (by simpa using d.code))

theorem starts (w : Text) : StartsVisibly (d.head ++ w) := by
  obtain ⟨first, rest, hname, -⟩ := d.isName
  exact ⟨'$', by rw [head, hname]; rfl, by decide, by decide⟩

section Flags

variable {flags frontFlags backFlags : Flags} {front back gap tail body : Text}

theorem isQuiet_of_parts {a b : Text} (ha : ∀ c ∈ a, isQuiet c) (hb : ∀ c ∈ b, isBlank c) :
    ∀ c ∈ a ++ b, isQuiet c := fun c hc =>
  (List.mem_append.mp hc).elim (ha c) fun hc => isQuiet_of_isBlank (hb c hc)

/-- Without comments, a declaration is read with all its flags. -/
theorem content_plain (hflags : FlagsText flags front) (htail : ∀ c ∈ tail, isBlank c) (t : Text) :
    (declarations (d.text ++ (front ++ tail) ++ CodePoint.char ';' :: t)).map
        Declaration.content =
      (d.name, d.expression, flags) :: (declarations t).map Declaration.content := by
  have hcode : ColonCode false false (some (.char ';')) (d.text ++ (front ++ tail)) :=
    d.code_text.append_quiet (isQuiet_of_parts hflags.isQuiet htail) (by simp [opensWith])
  have hline : d.text ++ (front ++ tail) =
      d.name ++ d.before ++ CodePoint.char ':' :: (d.after ++ d.expression ++ front ++ tail) := by
    simp [text, head]
  have hstart : StartsVisibly (d.text ++ (front ++ tail)) := by
    rw [text, List.append_assoc]
    exact d.starts _
  have htakes : (Scanner.between 0 []).opened.TakesIn (d.text ++ (front ++ tail)) :=
    Scanner.reads_colonCode hcode rfl (by simp) fun hinside => absurd hinside Bool.false_ne_true
  rw [declarations_of_takesIn hstart htakes, hline, declared?_strip d.isName d.before_blank,
    readFlags_written hflags d.stripped d.unflagged d.after_blank htail]
  rfl

/-- With a comment behind the expression, the flags behind the comment are read. -/
theorem content_commented (hfront : FlagsText frontFlags front) (hback : FlagsText backFlags back)
    (hgap : ∀ c ∈ gap, isBlank c) (htail : ∀ c ∈ tail, isBlank c)
    (hbody : ¬[CodePoint.char '*', .char '/'] <:+: body)
    (hslash : (d.text ++ (front ++ gap)).getLast? ≠ some (.char '/')) (t : Text) :
    (declarations (d.text ++ (front ++ gap) ++ blockComment body ++ (back ++ tail) ++
        CodePoint.char ';' :: t)).map Declaration.content =
      (d.name, Text.strip (d.expression ++ (front ++ gap) ++ blockComment body), backFlags) ::
        (declarations t).map Declaration.content := by
  have hcode : ColonCode false false (some (.char '/')) (d.text ++ (front ++ gap)) := by
    refine d.code_text.append_quiet (isQuiet_of_parts hfront.isQuiet hgap) fun c hc => ?_
    have hne : c ≠ '/' := fun heq => hslash (heq ▸ hc)
    simp [opensWith, hne]
  have hcode' : ColonCode false false (some (.char ';')) (back ++ tail) :=
    .of_code (.of_quiet (isQuiet_of_parts hback.isQuiet htail))
  have hline : d.text ++ (front ++ gap) ++ blockComment body ++ (back ++ tail) =
      d.name ++ d.before ++ CodePoint.char ':' :: (d.after ++
        (d.expression ++ (front ++ gap) ++ blockComment body) ++ back ++ tail) := by
    simp [text, head]
  have hstart : StartsVisibly
      (d.text ++ (front ++ gap) ++ blockComment body ++ (back ++ tail)) := by
    rw [text, List.append_assoc, List.append_assoc, List.append_assoc]
    exact d.starts _
  rw [declarations_of_takesIn hstart (takesIn_commented hcode hbody hcode'), hline,
    declared?_strip d.isName d.before_blank, readFlags_comment hback d.after_blank htail]
  rfl

/-- With a comment in front of the colon, nothing is declared. -/
theorem content_headCommented (hflags : FlagsText flags front) (hgap : ∀ c ∈ gap, isBlank c)
    (htail : ∀ c ∈ tail, isBlank c) (hbody : ¬[CodePoint.char '*', .char '/'] <:+: body)
    (t : Text) :
    (declarations (d.head ++ blockComment body ++ (gap ++ CodePoint.char ':' ::
        (d.after ++ d.expression ++ (front ++ tail))) ++ CodePoint.char ';' :: t)).map
        Declaration.content =
      (declarations t).map Declaration.content := by
  have hvalue : ColonCode false true (some (.char ';'))
      (d.after ++ d.expression ++ (front ++ tail)) :=
    d.code.append_quiet (isQuiet_of_parts hflags.isQuiet htail) (by simp [opensWith])
  have hcode : ColonCode false false (some (.char ';'))
      (gap ++ CodePoint.char ':' :: (d.after ++ d.expression ++ (front ++ tail))) :=
    .append (.of_code (.of_blank hgap)) (.char (by decide) (by simp [opensBehind])
      (by simpa using hvalue))
  have hstart : StartsVisibly (d.head ++ blockComment body ++ (gap ++ CodePoint.char ':' ::
      (d.after ++ d.expression ++ (front ++ tail)))) := by
    rw [List.append_assoc]
    exact d.starts _
  have hcomment : d.head ++ blockComment body ++ (gap ++ CodePoint.char ':' ::
      (d.after ++ d.expression ++ (front ++ tail))) =
      d.name ++ d.before ++ CodePoint.char '/' :: ((blockComment body).tail ++ (gap ++
        CodePoint.char ':' :: (d.after ++ d.expression ++ (front ++ tail)))) := by
    simp [head, blockComment]
  rw [declarations_of_takesIn hstart
    (takesIn_commented (.of_code (d.code_head _)) hbody hcode), hcomment,
    declared?_strip_comment d.isName d.before_blank]
  rfl

end Flags
end PlainDeclaration

theorem Flags.union_eq_right_iff {a b : Flags} :
    a.union b = b ↔ (a.default → b.default) ∧ (a.isGlobal → b.isGlobal) := by
  obtain ⟨ad, ag⟩ := a
  obtain ⟨bd, bg⟩ := b
  cases ad <;> cases ag <;> cases bd <;> cases bg <;> decide

/-- A declaration without comments is read with all its flags. With a comment behind its expression
it is read with those flags that stand behind the comment, which are the same ones exactly when each
flag in front of the comment is repeated behind it. With a comment in front of its colon it is no
declaration. What follows is read alike. -/
theorem commented_spec (d : PlainDeclaration) {frontFlags backFlags : Flags}
    {front back gap tail body : Text} (hfront : FlagsText frontFlags front)
    (hback : FlagsText backFlags back) (hgap : ∀ c ∈ gap, isBlank c) (htail : ∀ c ∈ tail, isBlank c)
    (hbody : ¬[CodePoint.char '*', .char '/'] <:+: body)
    (hslash : (d.text ++ (front ++ gap)).getLast? ≠ some (.char '/')) (t : Text) :
    (declarations (d.text ++ (front ++ back ++ tail) ++ CodePoint.char ';' :: t)).map
          Declaration.content =
        (d.name, d.expression, frontFlags.union backFlags) ::
          (declarations t).map Declaration.content ∧
      (declarations (d.text ++ (front ++ gap) ++ blockComment body ++ (back ++ tail) ++
            CodePoint.char ';' :: t)).map Declaration.content =
        (d.name, Text.strip (d.expression ++ (front ++ gap) ++ blockComment body), backFlags) ::
          (declarations t).map Declaration.content ∧
      (frontFlags.union backFlags = backFlags ↔
        (frontFlags.default → backFlags.default) ∧ (frontFlags.isGlobal → backFlags.isGlobal)) ∧
      (declarations (d.head ++ blockComment body ++ (gap ++ CodePoint.char ':' ::
            (d.after ++ d.expression ++ (front ++ back ++ tail))) ++ CodePoint.char ';' :: t)).map
          Declaration.content =
        (declarations t).map Declaration.content := by
  have hflags := hfront.append hback
  exact ⟨d.content_plain hflags htail t, d.content_commented hfront hback hgap htail hbody hslash t,
    Flags.union_eq_right_iff, d.content_headCommented hflags hgap htail hbody t⟩

/-- The declaration `$a: 1`. -/
def samplePlain : PlainDeclaration where
  name := "$a".toText
  before := []
  after := " ".toText
  expression := "1".toText
  isName := ⟨'a', [], rfl, by decide, by simp⟩
  before_blank := by simp
  after_blank := by decide
  code := .of_code (.of_quiet (by decide))
  stripped := by decide
  unflagged := by decide

theorem commented_samplePlain :
    FlagsText ⟨true, false⟩ " !default".toText ∧ FlagsText ⟨false, true⟩ " !global".toText ∧
      (∀ c ∈ " ".toText, isBlank c) ∧ ¬[CodePoint.char '*', .char '/'] <:+: " c; ".toText ∧
      (samplePlain.text ++ (" !default".toText ++ " ".toText)).getLast? ≠ some (.char '/') ∧
      (declarations "$a: 1 !default !global ;$b: 2;".toText).map Declaration.content =
        [("$a".toText, "1".toText, ⟨true, true⟩), ("$b".toText, "2".toText, ⟨false, false⟩)] ∧
      (declarations "$a: 1 !default /* c; */ !global ;$b: 2;".toText).map Declaration.content =
        [("$a".toText, "1 !default /* c; */".toText, ⟨false, true⟩),
          ("$b".toText, "2".toText, ⟨false, false⟩)] ∧
      (declarations "$a/* c; */ : 1 !default !global ;$b: 2;".toText).map Declaration.content =
        [("$b".toText, "2".toText, ⟨false, false⟩)] := by
  have hblank : ∀ c ∈ " ".toText, isBlank c := by decide
  have hdefault : FlagsText ⟨true, false⟩ " !default".toText :=
    @FlagsText.default _ [] " ".toText "!default".toText .none hblank rfl
  have hglobal : FlagsText ⟨false, true⟩ " !global".toText :=
    @FlagsText.isGlobal _ [] " ".toText "!global".toText .none hblank rfl
  have hbody : ¬[CodePoint.char '*', .char '/'] <:+: " c; ".toText := by decide
  have hslash : (samplePlain.text ++ (" !default".toText ++ " ".toText)).getLast? ≠
      some (.char '/') := by decide
  obtain ⟨hplain, hcommented, -, hhead⟩ := commented_spec samplePlain hdefault hglobal hblank hblank
    hbody hslash "$b: 2;".toText
  have hrest : (declarations "$b: 2;".toText).map Declaration.content =
      [("$b".toText, "2".toText, ⟨false, false⟩)] := by decide
  rw [hrest] at hplain hcommented hhead
  exact ⟨hdefault, hglobal, hblank, hbody, hslash, hplain, hcommented, hhead⟩

/-- A comment behind the flag hides it, and one behind the name hides the declaration. -/
theorem declarations_hiddenFlag :
    declarations "$a: 1 !default;".toText =
        [⟨"$a".toText, "1".toText, ⟨true, false⟩, ⟨1, 1, 0⟩⟩] ∧
      declarations "$a: 1 !default /* c */;".toText =
        [⟨"$a".toText, "1 !default /* c */".toText, ⟨false, false⟩, ⟨1, 1, 0⟩⟩] ∧
      declarations "$a: 1;".toText = [⟨"$a".toText, "1".toText, ⟨false, false⟩, ⟨1, 1, 0⟩⟩] ∧
      declarations "$a/* c */: 1;".toText = [] := by
  refine ⟨by decide, by decide, by decide, by decide⟩

end StyleVars
