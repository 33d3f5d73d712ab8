import StyleVars.Proofs.FirstStatements

/-!
# Strings with interpolations

An interpolation in a string may hold strings again, of either quote and to any depth (`IsString`).
The reader looks for the closing quote alone, so what it takes for the string may end within an
interpolation. Whether a string stays in the statement of a declaration is up to the string alone
(`statements_string_iff`); it does when no interpolation of it holds its own quote or a line feed,
however deep the other strings in there nest.
-/

namespace StyleVars

/-! ## The grammar of strings -/

mutual

/-- What stands between the quotes of a string: plain characters, characters behind a backslash, and
interpolations. When it is `separate`, they hold neither the quote of the string nor a line feed. -/
inductive StringBody : Bool → CodePoint → Text → Prop
  | nil {separate : Bool} {quote : CodePoint} : StringBody separate quote []
  | char {separate : Bool} {quote c : CodePoint} {rest : Text}
    (hc : c ≠ quote ∧ c ≠ '\\' ∧ c ≠ '\n') (hsign : c = '#' → rest.head? ≠ some (.char '\x7b'))
    (h : StringBody separate quote rest) : StringBody separate quote (c :: rest)
  | escape {separate : Bool} {quote c : CodePoint} {rest : Text}
    (h : StringBody separate quote rest) : StringBody separate quote ('\\' :: c :: rest)
  | interpolation {separate : Bool} {quote : CodePoint} {inner rest : Text}
    (hinner : InnerText inner) (hown : separate → quote ∉ inner ∧ CodePoint.char '\n' ∉ inner)
    (h : StringBody separate quote rest) :
    StringBody separate quote ('#' :: '\x7b' :: (inner ++ .char '\x7d' :: rest))

/-- What an interpolation holds: text without quotes and braces, and strings of either quote. -/
inductive InnerText : Text → Prop
  | nil : InnerText []
  | char {c : CodePoint} {rest : Text} (hc : c ≠ '"' ∧ c ≠ '\x27' ∧ c ≠ '\x7b' ∧ c ≠ '\x7d')
    (h : InnerText rest) : InnerText (c :: rest)
  | string {quote : CodePoint} {body rest : Text} (hquote : quote = '"' ∨ quote = '\x27')
    (hbody : StringBody false quote body) (h : InnerText rest) :
    InnerText (quote :: (body ++ quote :: rest))

end

/-- A string with interpolations in its quotes. -/
def IsString (separate : Bool) (t : Text) : Prop :=
  ∃ (quote : CodePoint) (body : Text), (quote = '"' ∨ quote = '\x27') ∧
    t = quote :: (body ++ [quote]) ∧ StringBody separate quote body

/-- The own quote of the string stands within it, and behind the quote and some code a semicolon. -/
def EndsWithin (t : Text) : Prop :=
  ∃ (quote : CodePoint) (held code rest : Text), (quote = '"' ∨ quote = '\x27') ∧
    t = quote :: (held ++ quote :: (code ++ CodePoint.char ';' :: rest)) ∧
    QuotedBody quote held ∧ Code false (some (.char ';')) code

/-! ## How the reader takes strings -/

theorem ne_quote_of_isQuote {quote c : CodePoint} (hquote : quote = '"' ∨ quote = '\x27')
    (hc : c ≠ '"' ∧ c ≠ '\x27') : c ≠ quote := by
  obtain rfl | rfl := hquote
  · exact hc.1
  · exact hc.2

/-- An interpolation without the quote of the string and without line feeds is nothing special in
it. Backslashes in the interpolation do not reach past the brace that closes it. -/
theorem QuotedBody.of_inner {quote : CodePoint} {rest : Text}
    (hquote : quote = '"' ∨ quote = '\x27') (h : QuotedBody quote rest) :
    ∀ {inner : Text}, quote ∉ inner → CodePoint.char '\n' ∉ inner →
      QuotedBody quote (inner ++ .char '\x7d' :: rest)
  | [], _, _ => .char ⟨ne_quote_of_isQuote hquote (by decide), by decide, by decide⟩ h
  | c :: inner, hown, hline => by
    rw [List.mem_cons, not_or] at hown hline
    by_cases hc : c = '\\'
    · subst hc
      cases inner with
      | nil => exact .escape h
      | cons d inner =>
        rw [List.mem_cons, not_or] at hown hline
        exact .escape (of_inner hquote h hown.2.2 hline.2.2)
    · exact .char ⟨Ne.symm hown.1, hc, Ne.symm hline.1⟩ (of_inner hquote h hown.2 hline.2)

/-- A string whose interpolations are separate is one for the reader. -/
theorem StringBody.quotedBody : ∀ {separate : Bool} {quote : CodePoint} {body : Text},
    StringBody separate quote body → separate → quote = '"' ∨ quote = '\x27' →
      QuotedBody quote body
  | _, _, _, .nil, _, _ => .nil
  | _, _, _, .char hc _ h, hseparate, hquote => .char hc (quotedBody h hseparate hquote)
  | _, _, _, .escape h, hseparate, hquote => .escape (quotedBody h hseparate hquote)
  | _, _, _, .interpolation _ hown h, hseparate, hquote => by
    obtain ⟨hquoted, hline⟩ := hown hseparate
    have hrest := QuotedBody.of_inner hquote (quotedBody h hseparate hquote) hquoted hline
    refine .char ⟨ne_quote_of_isQuote hquote (by decide), by decide, by decide⟩ ?_
    exact .char ⟨ne_quote_of_isQuote hquote (by decide), by decide, by decide⟩ hrest

theorem IsString.startsVisibly {separate : Bool} {t : Text} (h : IsString separate t) :
    StartsVisibly t := by
  obtain ⟨quote, body, hquote, rfl, -⟩ := h
  refine ⟨quote, rfl, ?_⟩
  obtain rfl | rfl := hquote <;> decide

theorem IsString.strip_append {separate : Bool} {t : Text} (h : IsString separate t) {a : Text}
    (ha : StartsVisibly (a ++ t)) : Text.strip (a ++ t) = a ++ t := by
  obtain ⟨quote, body, hquote, rfl, -⟩ := h
  obtain ⟨c, hc, hblank, -⟩ := ha
  refine Text.strip_eq_self (fun d hd => by rwa [← Option.mem_unique hc hd]) ?_
  have hlast : (a ++ quote :: (body ++ [quote])).getLast? = some quote := by
    simp [List.getLast?_append, List.getLast?_cons]
  rw [hlast]
  obtain rfl | rfl := hquote <;> decide

/-- A string whose interpolations are separate is properly nested for the reader. -/
theorem IsString.code {t : Text} (h : IsString true t) (next : Option CodePoint) :
    Code false next t := by
  obtain ⟨quote, body, hquote, rfl, hbody⟩ := h
  exact .quoted hquote (hbody.quotedBody rfl hquote) .nil

/-- So is every other string in which the reader finds properly nested code between two quotes. -/
theorem IsString.isWhole_of_code {separate : Bool} {t : Text} (h : IsString separate t)
    (hcode : Code false (some (.char ';')) t) : IsWhole t := by
  rw [isWhole_iff h.startsVisibly (h.strip_append (a := []) h.startsVisibly)]
  exact Scanner.reads_code hcode ⟨false, rfl⟩ (by simp) nofun

/-- The first statement ends with the semicolon behind the inner quote. -/
theorem EndsWithin.not_isWhole {t : Text} (h : EndsWithin t) : ¬IsWhole t := by
  obtain ⟨quote, held, code, rest, hquote, rfl, hheld, hcode⟩ := h
  intro hwhole
  have hcode' : Code false (some (.char ';')) (quote :: (held ++ quote :: code)) :=
    .quoted hquote hheld hcode
  have hstart : StartsVisibly (quote :: (held ++ quote :: code)) := by
    refine ⟨quote, rfl, ?_⟩
    obtain rfl | rfl := hquote <;> decide
  have hfirst := statements_of_takesIn hstart
    (Scanner.reads_code hcode' ⟨false, rfl⟩ (by simp) nofun) (rest ++ ";\n".toText)
  have htext : quote :: (held ++ quote :: (code ++ CodePoint.char ';' :: rest)) ++ ";\n".toText =
      quote :: (held ++ quote :: code) ++ CodePoint.char ';' :: (rest ++ ";\n".toText) := by
    simp
  rw [IsWhole, htext, hfirst, List.cons.injEq] at hwhole
  have hstop := congrArg Statement.stop hwhole.1
  simp at hstop

/-! ## Declarations of strings -/

theorem reads_declarationHead {name : Text} (hname : Clause.IsName name)
    (next : Option CodePoint) :
    (Scanner.between 0 []).opened.Reads next (name ++ ": ".toText)
      ((Scanner.between 0 []).opened.took (name ++ ": ".toText) (.code false)) := by
  have hcode : Code false (some (.char ' ')) (name ++ ":".toText) :=
    hname.code_append (by decide) _
  obtain ⟨b, hread⟩ := Scanner.reads_code hcode
    (s := (Scanner.between 0 []).opened) ⟨false, rfl⟩ (by simp) nofun
  have hspace : ((Scanner.between 0 []).opened.took (name ++ ":".toText) (.code b)).step ' ' next =
      (((Scanner.between 0 []).opened.took (name ++ ":".toText) (.code b)).took [' ']
        (.code false), []) := rfl
  have hall := hread.took_append (.single hspace)
  rwa [List.append_assoc] at hall

/-- What stands in front of the value of a declaration does not matter to it. -/
theorem takesIn_declaration_iff {name t : Text} (hname : Clause.IsName name) :
    (Scanner.between 0 []).opened.TakesIn (name ++ ": ".toText ++ t) ↔
      (Scanner.between 0 []).opened.TakesIn t := by
  rw [Scanner.takesIn_append (reads_declarationHead hname _)]
  constructor
  · exact fun h => h.congr (by simp) (Nat.zero_le _) rfl rfl (by simp)
  · exact fun h => h.congr (by simp) (Nat.le_refl 0) rfl rfl (by simp)

/-- A string, with whatever interpolations, is the value of a declaration that ends behind it, and
what follows is read as it is alone, exactly when the string by itself is one statement. It is when
the reader, which ends a string at the next quote, finds properly nested code between the strings:
there is none when the interpolations are separate. It is not when it finds a semicolon there. -/
theorem statements_string_iff {name s : Text} (hname : Clause.IsName name)
    (hs : IsString false s) (t : Text) :
    (statements (name ++ ": ".toText ++ s ++ ";\n".toText ++ t) =
          ⟨name ++ ": ".toText ++ s, 0, (name ++ ": ".toText ++ s).length + 1, 0, true⟩ ::
            (statements t).map
              (Statement.moved (name ++ ": ".toText ++ s ++ ";\n".toText).length) ↔
        IsWhole s) ∧
      (IsString true s → Code false (some (.char ';')) s) ∧
      (Code false (some (.char ';')) s → IsWhole s) ∧ (EndsWithin s → ¬IsWhole s) := by
  refine ⟨?_, fun h => h.code _, hs.isWhole_of_code, EndsWithin.not_isWhole⟩
  have hstart : StartsVisibly (name ++ ": ".toText ++ s) := by
    obtain ⟨first, rest, rfl, -⟩ := hname
    exact ⟨'$', rfl, by decide, by decide⟩
  have htext : name ++ ": ".toText ++ s ++ ";\n".toText ++ t =
      name ++ ": ".toText ++ s ++ CodePoint.char ';' :: .char '\n' :: t := by
    simp [String.toText]
  have hlength : (name ++ ": ".toText ++ s ++ ";\n".toText).length =
      (name ++ ": ".toText ++ s).length + 2 := by
    rw [List.length_append]
    rfl
  rw [htext, hlength, statements_line_iff hstart (hs.strip_append hstart),
    takesIn_declaration_iff hname,
    isWhole_iff hs.startsVisibly (hs.strip_append (a := []) hs.startsVisibly)]

/-- A semicolon in a string in an interpolation. -/
def nestedString : Text := "\"a#\x7b\x27b;\x27\x7d\"".toText

theorem statements_nestedString :
    Clause.IsName "$n".toText ∧ IsString false nestedString ∧ IsWhole nestedString ∧
      statements ("$n: ".toText ++ nestedString ++ ";\n$b: 1;\n".toText) =
        [⟨"$n: ".toText ++ nestedString, 0, 15, 0, true⟩, ⟨"$b: 1".toText, 16, 22, 0, true⟩] := by
  have hname : Clause.IsName "$n".toText := ⟨'n', [], rfl, by decide, by simp⟩
  have hinner : InnerText "\x27b;\x27".toText :=
    @InnerText.string '\x27' "b;".toText [] (.inr rfl)
      (.char (by decide) (by decide) (.char (by decide) (by decide) .nil)) .nil
  have hstring : IsString false nestedString :=
    ⟨'"', "a#\x7b\x27b;\x27\x7d".toText, .inl rfl, rfl,
      .char (by decide) (by decide) (.interpolation hinner nofun .nil)⟩
  have hwhole : IsWhole nestedString := by decide
  have hstatements :=
    (statements_string_iff hname hstring "$b: 1;\n".toText).1.mpr hwhole
  exact ⟨hname, hstring, hwhole, hstatements⟩

/-- A semicolon between two strings for the reader, which stands in a string in an interpolation. -/
def brokenString : Text := "\"#\x7b\";\"\x7d\"".toText

/-- It ends the declaration of the string. -/
theorem brokenString_statements :
    IsString false brokenString ∧
      statements ("$n: ".toText ++ brokenString ++ ";\n$b: 1;\n".toText) =
        [⟨"$n: \"#\x7b\"".toText, 0, 9, 0, true⟩, ⟨"\"\x7d\"".toText, 9, 13, 0, true⟩,
          ⟨"$b: 1".toText, 14, 20, 0, true⟩] := by
  have hinner : InnerText "\";\"".toText :=
    @InnerText.string '"' ";".toText [] (.inl rfl) (.char (by decide) (by decide) .nil) .nil
  exact ⟨⟨'"', "#\x7b\";\"\x7d".toText, .inl rfl, rfl, .interpolation hinner nofun .nil⟩,
    by decide⟩

end StyleVars
