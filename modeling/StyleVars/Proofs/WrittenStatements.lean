import StyleVars.Proofs.WrittenParts

/-!
# Statements as they are written

A clause can be written in many ways: with white space between its parts, with its flags in any
order, with keywords in any letter case (`Clause.Written`). In each of them it is code that stays in
one statement (`Clause.Written.code`), and it is read as what it is (`Clause.Written.readsAs`).
-/

namespace StyleVars

/-! ## What a statement imports -/

/-- The targets of the import that a statement makes. -/
def Reading.targets? (r : Reading) : Option (List ImportTarget) :=
  if r.unconditional then
    (afterImport? r.text).bind fun rest =>
      match splitTargets rest with
      | [] => none
      | raws => some (raws.map ImportTarget.ofRaw)
  else none

/-- Apart from its place, an import depends on the reading of its statement alone. -/
theorem Statement.map_import? (s : Statement) :
    s.import?.map ImportRule.targets = s.reading.targets? := by
  unfold Statement.import? Reading.targets? Statement.reading
  simp only
  split_ifs
  · cases afterImport? s.text with
    | none => rfl
    | some rest =>
      simp only [Option.bind_some]
      cases splitTargets rest <;> rfl
  · rfl

theorem declared?_of_head {t : Text} (h : t.head? ≠ some (.char '$')) : declared? t = none := by
  unfold declared?
  split
  · exact absurd rfl h
  · rfl

/-! ## Clauses -/

/-- A statement that neither opens nor closes a block. -/
inductive Clause
  | declaration (name expression : Text) (flags : Flags)
  | imports (paths : List QuotedPath)
  | other (text : Text)
  deriving DecidableEq

namespace Clause

/-- The text is the name of a variable that can be declared. -/
def IsName (t : Text) : Prop :=
  ∃ first rest, t = CodePoint.char '$' :: first :: rest ∧ isNameStart first ∧
    ∀ c ∈ rest, isNameChar c

/-- The parts of the clause are what they stand for, without white space around them: expressions
and other statements are properly nested code, an expression ends in no flag, and other statements
are neither declarations nor imports. -/
def IsProper : Clause → Prop
  | declaration name expression _ =>
    IsName name ∧ Code false none expression ∧ Text.strip expression = expression ∧
      IsUnflagged expression
  | imports paths => paths ≠ [] ∧ ∀ q ∈ paths, q.IsProper
  | other text =>
    text ≠ [] ∧ Code false none text ∧ Text.strip text = text ∧
      text.head? ≠ some (.char '$') ∧ ∀ word rest, text = word ++ rest → ¬IsImportKeyword word

/-- The clause as it is written, the white space behind it included. -/
inductive Written : Clause → Text → Prop
  | declaration {name expression flagsText before after tail : Text} {flags : Flags}
    (hflags : FlagsText flags flagsText) (hbefore : ∀ c ∈ before, isBlank c)
    (hafter : ∀ c ∈ after, isBlank c) (htail : ∀ c ∈ tail, isBlank c) :
    Written (.declaration name expression flags)
      (name ++ before ++ CodePoint.char ':' :: (after ++ expression ++ flagsText ++ tail))
  | imports {paths : List QuotedPath} {word t tail : Text} (hword : IsImportKeyword word)
    (htargets : TargetsText paths t) (htail : ∀ c ∈ tail, isBlank c) :
    Written (.imports paths) (word ++ t ++ tail)
  | other {text tail : Text} (htail : ∀ c ∈ tail, isBlank c) : Written (.other text) (text ++ tail)

/-- What the clause declares inside of the given blocks: nothing that is seen from outside unless it
sets a variable of the whole sheet and every block is always run. -/
def declared (blocks : List Bool) : Clause → Option (Text × Text × Flags)
  | declaration name expression flags =>
    if blocks = [] ∨ (flags.isGlobal ∧ blocks.all id) then some (name, expression, flags) else none
  | _ => none

/-- The targets of the import that the clause makes inside of the given blocks. -/
def imported (blocks : List Bool) : Clause → Option (List ImportTarget)
  | imports paths => if blocks.all id then some (paths.map QuotedPath.target) else none
  | _ => none

theorem IsName.isSolid {t : Text} (h : IsName t) : ∀ c ∈ t, isSolid c := by
  obtain ⟨first, rest, rfl, hfirst, hrest⟩ := h
  refine List.forall_mem_cons.mpr ⟨by decide, List.forall_mem_cons.mpr ⟨?_, fun c hc => ?_⟩⟩
  · exact isSolid_of_isNameChar (isNameChar_of_isNameStart hfirst)
  · exact isSolid_of_isNameChar (hrest c hc)

/-- A name and quiet characters behind it are code. -/
theorem IsName.code_append {t tail : Text} (h : IsName t) (htail : ∀ c ∈ tail, isQuiet c)
    (next : Option CodePoint) : Code false next (t ++ tail) :=
  .of_quiet fun c hc => (List.mem_append.mp hc).elim (quiet_of_isSolid h.isSolid c) (htail c)

/-- Behind a name and white space, a colon alone makes a declaration. -/
theorem declared?_name_append {name before value : Text} {d : CodePoint} (hname : IsName name)
    (hbefore : ∀ c ∈ before, isBlank c) (hd : isNameChar d = false ∧ isBlank d = false) :
    StyleVars.declared? (name ++ before ++ d :: value) =
      if d = ':' then some (name, value) else none := by
  obtain ⟨first, rest, rfl, hfirst, hrest⟩ := hname
  have hnames : ∀ c ∈ first :: rest, isNameChar c :=
    List.forall_mem_cons.mpr ⟨isNameChar_of_isNameStart hfirst, hrest⟩
  -- the name ends at white space or at the character behind it
  have hend : ∀ c ∈ (before ++ d :: value).head?, isNameChar c = false := by
    cases before with
    | nil => simpa using hd.1
    | cons c before => simpa using not_isNameChar_of_isBlank (hbefore c List.mem_cons_self)
  obtain ⟨e, more, hmore⟩ : ∃ e more, before ++ d :: value = e :: more :=
    List.exists_cons_of_ne_nil (by simp)
  have he : ¬isNameChar e := by simpa [hmore] using hend
  have htake : (first :: rest ++ e :: more).takeWhile isNameChar = first :: rest := by
    rw [List.takeWhile_append_of_pos hnames, List.takeWhile_cons_of_neg he, List.append_nil]
  have hdrop : (first :: rest ++ e :: more).dropWhile isNameChar = e :: more := by
    rw [List.dropWhile_append_of_pos hnames, List.dropWhile_cons_of_neg he]
  have hbehind : (e :: more).dropWhile isBlank = d :: value := by
    rw [← hmore, List.dropWhile_append_of_pos hbefore, List.dropWhile_cons_of_neg (by simp [hd.2])]
  rw [List.append_assoc, hmore, List.cons_append, StyleVars.declared?, htake, hdrop, hbehind]
  simp only [List.head?_cons, Option.map_some, Option.getD_some, hfirst, if_true]
  by_cases hcolon : d = ':'
  · rw [hcolon]
    rfl
  · rw [if_neg hcolon]
    split
    · rename_i heq
      exact absurd (List.cons.inj heq).1 hcolon
    · rfl

/-- A declaration is read as its name, its expression and its flags. -/
theorem declared?_written {name before value : Text} (hname : IsName name)
    (hbefore : ∀ c ∈ before, isBlank c) :
    StyleVars.declared? (name ++ before ++ CodePoint.char ':' :: value) = some (name, value) :=
  declared?_name_append hname hbefore (by decide)

/-- Behind a visible character, a statement with a name is stripped at its end only. -/
theorem IsName.strip_append {name before w : Text} {d : CodePoint} (hname : IsName name)
    (hd : isBlank d = false) :
    Text.strip (name ++ before ++ d :: w) = name ++ before ++ d :: Text.stripRight w := by
  obtain ⟨first, rest, rfl, -⟩ := hname
  rw [Text.strip_eq_stripRight (by simp; decide), Text.stripRight_append_cons hd]

/-- A clause is read as what it is in the given blocks. -/
structure ReadsAs (c : Clause) (blocks : List Bool) (text : Text) : Prop where
  declared : Reading.declared? ⟨text, blocks.length, blocks.all id⟩ = c.declared blocks
  imported : Reading.targets? ⟨text, blocks.length, blocks.all id⟩ = c.imported blocks

theorem readsAs_declaration {name expression flagsText before after tail : Text} {flags : Flags}
    (h : (declaration name expression flags).IsProper) (hflags : FlagsText flags flagsText)
    (hbefore : ∀ c ∈ before, isBlank c) (hafter : ∀ c ∈ after, isBlank c)
    (htail : ∀ c ∈ tail, isBlank c) (blocks : List Bool) :
    (declaration name expression flags).ReadsAs blocks
      (Text.strip
        (name ++ before ++ CodePoint.char ':' :: (after ++ expression ++ flagsText ++ tail))) := by
  obtain ⟨hname, -, hstrip, hunflagged⟩ := h
  have hread := readFlags_written hflags hstrip hunflagged hafter htail
  generalize after ++ expression ++ flagsText ++ tail = value at hread ⊢
  rw [hname.strip_append (by decide)]
  rw [← readFlags_stripRight] at hread
  constructor
  · rw [Reading.declared?, declared?_written hname hbefore, Option.bind_some]
    simp only [hread, Clause.declared]
    by_cases hseen : flags.isGlobal ∧ blocks.all id
    · simp only [hseen, and_self, not_true_eq_false, and_false, or_true, if_true, if_false]
    · cases blocks with
      | nil => simp
      | cons b blocks =>
        simp only [hseen, List.length_cons, Nat.zero_lt_succ, not_false_iff, and_self, if_true,
          reduceCtorEq, or_self, if_false]
  · have hnone : afterImport? (name ++ before ++ CodePoint.char ':' :: Text.stripRight value) =
        none := by
      refine Option.eq_none_iff_forall_ne_some.mpr fun rest hafter' => ?_
      obtain ⟨word, hword, heq⟩ := exists_keyword_of_afterImport? hafter'
      obtain ⟨c, more, rfl, hc⟩ := hword.exists_cons
      obtain ⟨first, others, rfl, -⟩ := hname
      exact hc (List.cons.inj heq).1.symm
    simp only [Reading.targets?, hnone, Option.bind_none, ite_self, Clause.imported]

theorem readsAs_imports {paths : List QuotedPath} {word t tail : Text}
    (h : (imports paths).IsProper) (hword : IsImportKeyword word) (htargets : TargetsText paths t)
    (htail : ∀ c ∈ tail, isBlank c) (blocks : List Bool) :
    (imports paths).ReadsAs blocks (Text.strip (word ++ t ++ tail)) := by
  obtain ⟨hne, hproper⟩ := h
  obtain ⟨⟨first, hfirst, hfirst'⟩, last, hlast, hlast'⟩ := htargets.ends hproper
  obtain ⟨c, rest, hc, hdollar⟩ := hword.exists_cons
  have htext : Text.strip (word ++ t ++ tail) = word ++ t := by
    rw [Text.strip_append_of_blank htail]
    refine Text.strip_eq_self ?_ ?_
    · have hvisible := visible_of_isSolid hword.isSolid
      simpa [hc] using hvisible c (by simp [hc])
    · simpa [List.getLast?_append, hlast] using hlast'
  rw [htext]
  constructor
  · have hnone : declared? (word ++ t) = none := by
      refine declared?_of_head ?_
      simpa [hc] using hdollar
    simp [Reading.declared?, hnone, Clause.declared]
  · have hraws : (paths.map QuotedPath.text).map ImportTarget.ofRaw =
        paths.map QuotedPath.target := by
      rw [List.map_map]
      exact List.map_congr_left fun q hq => q.ofRaw_text (hproper q hq)
    have hafter : afterImport? (word ++ t) = some t :=
      afterImport?_append hword (by simpa [hfirst] using hfirst')
    simp only [Reading.targets?, hafter, Option.bind_some, htargets.splitTargets hproper,
      Clause.imported]
    split_ifs with hall
    · rw [← hraws]
      cases paths with
      | nil => exact absurd rfl hne
      | cons q paths => rfl
    · rfl

theorem readsAs_other {text tail : Text} (h : (other text).IsProper)
    (htail : ∀ c ∈ tail, isBlank c) (blocks : List Bool) :
    (other text).ReadsAs blocks (Text.strip (text ++ tail)) := by
  obtain ⟨-, -, hstrip, hdollar, hkeyword⟩ := h
  rw [Text.strip_append_of_blank htail, hstrip]
  constructor
  · simp [Reading.declared?, declared?_of_head hdollar, Clause.declared]
  · have hnone : afterImport? text = none := by
      refine Option.eq_none_iff_forall_ne_some.mpr fun rest hafter => ?_
      obtain ⟨word, hword, heq⟩ := exists_keyword_of_afterImport? hafter
      exact hkeyword word rest heq hword
    simp [Reading.targets?, hnone, Clause.imported]

namespace Written

variable {c : Clause} {t : Text}

theorem readsAs (h : c.Written t) (hproper : c.IsProper) (blocks : List Bool) :
    c.ReadsAs blocks (Text.strip t) := by
  cases h with
  | declaration hflags hbefore hafter htail =>
    exact readsAs_declaration hproper hflags hbefore hafter htail blocks
  | imports hword htargets htail => exact readsAs_imports hproper hword htargets htail blocks
  | other htail => exact readsAs_other hproper htail blocks

/-- A clause starts with a visible character. -/
theorem head (h : c.Written t) (hproper : c.IsProper) :
    ∃ d rest, t = d :: rest ∧ isBlank d = false := by
  cases h with
  | @declaration name expression flagsText before after tail flags hflags hbefore hafter htail =>
    obtain ⟨⟨first, rest, rfl, -⟩, -⟩ := hproper
    exact ⟨'$', _, rfl, by decide⟩
  | @imports paths word t tail hword htargets htail =>
    obtain ⟨d, rest, rfl, -⟩ := hword.exists_cons
    exact ⟨d, _, rfl, visible_of_isSolid hword.isSolid d (by simp)⟩
  | @other text tail htail =>
    obtain ⟨hne, -, hstrip, -⟩ := hproper
    obtain ⟨d, rest, rfl⟩ := List.exists_cons_of_ne_nil hne
    exact ⟨d, rest ++ tail, rfl, Text.head?_of_strip_eq_self hstrip d rfl⟩

/-- A written clause is code in which nothing ends a statement. -/
theorem code (h : c.Written t) (hproper : c.IsProper) : Code false none t := by
  have hquiet : ∀ t : Text, (∀ c ∈ t, isBlank c) → ∀ c ∈ t, isQuiet c :=
    fun t ht c hc => isQuiet_of_isBlank (ht c hc)
  cases h with
  | @declaration name expression flagsText before after tail flags hflags hbefore hafter htail =>
    obtain ⟨hname, hcode, -⟩ := hproper
    have hvalue : Code false none (after ++ expression ++ flagsText ++ tail) := by
      rw [List.append_assoc, List.append_assoc, ← List.append_assoc expression]
      exact .append (.of_blank hafter) ((hcode.append_quiet hflags.isQuiet).append_quiet
        (hquiet tail htail))
    exact ((Code.of_quiet (quiet_of_isSolid hname.isSolid)).append (.of_blank hbefore)).append
      (.char (by decide) (by simp [opensWith]) hvalue)
  | @imports paths word t tail hword htargets htail =>
    have hkeyword : Code false (t.head?.or none) word := .of_quiet (quiet_of_isSolid hword.isSolid)
    exact (hkeyword.append (htargets.code hproper.2 none)).append_quiet (hquiet tail htail)
  | @other text tail htail => exact hproper.2.1.append_quiet (hquiet tail htail)

end Written

/-! ## One way to write a clause -/

/-- Paths in quotes, each behind a space, with commas between them. -/
def printPaths : List QuotedPath → Text
  | [] => []
  | [q] => .char ' ' :: q.text
  | q :: others => .char ' ' :: (q.text ++ .char ',' :: printPaths others)

/-- The clause with a space between its parts. -/
def print : Clause → Text
  | declaration name expression flags =>
    name ++ .char ':' :: .char ' ' :: (expression ++ flags.print)
  | imports paths => "@import".toText ++ printPaths paths
  | other text => text

theorem targetsText_printPaths {paths : List QuotedPath} (h : paths ≠ []) :
    TargetsText paths (printPaths paths) := by
  have hspace : ∀ c ∈ [CodePoint.char ' '], isBlank c := by decide
  have hnone : ∀ c ∈ ([] : Text), isBlank c := by simp
  induction paths with
  | nil => exact absurd rfl h
  | cons q others ih =>
    cases others with
    | nil => exact .single hspace
    | cons r others =>
      have hothers := ih (List.cons_ne_nil r others)
      simpa [printPaths] using TargetsText.cons (q := q) hspace hnone hothers

/-- Every proper clause can be written. -/
theorem written_print {c : Clause} (h : c.IsProper) : c.Written c.print := by
  have hspace : ∀ c ∈ [CodePoint.char ' '], isBlank c := by decide
  have hnone : ∀ c ∈ ([] : Text), isBlank c := by simp
  cases c with
  | declaration name expression flags =>
    have hwritten : (Clause.declaration name expression flags).Written _ :=
      .declaration flags.flagsText_print hnone hspace hnone
    simpa [print] using hwritten
  | imports paths =>
    have hword : IsImportKeyword "@import".toText := by decide
    simpa [print] using Written.imports hword (targetsText_printPaths h.1) hnone
  | other text =>
    have hwritten : (Clause.other text).Written _ := .other hnone
    simpa [print] using hwritten

end Clause
end StyleVars
