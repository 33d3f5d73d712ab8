import StyleVars.Proofs.FirstStatements

/-!
# Addresses without quotes

An address may stand in parentheses without quotes, as in `url(http://example.com/x.png)`. Its
semicolons and slashes belong to the value of a declaration exactly when every two slashes in it
stand behind a colon (`declarations_address_iff`). Two slashes elsewhere open a comment, which hides
the parenthesis, and the statement goes on in the next lines.
-/

namespace StyleVars

/-- A character of an address: a word character or one of a few signs. -/
def isAddressChar (c : CodePoint) : Bool := isWord c || "-.~:/?&=%@+,;".toText.contains c

/-- Two slashes in the text do not stand behind a colon; `prev` is the character in front of it. -/
def HasBareSlashes (prev : Option CodePoint) (t : Text) : Prop :=
  ∃ before after, t = before ++ CodePoint.char '/' :: .char '/' :: after ∧
    before.getLast?.or prev ≠ some (.char ':')

/-! ## Two slashes -/

theorem not_hasBareSlashes_nil (prev : Option CodePoint) : ¬HasBareSlashes prev [] := by
  rintro ⟨before, after, heq, -⟩
  simp at heq

/-- The slashes are the first two characters, or they stand behind the first one. -/
theorem hasBareSlashes_cons {prev : Option CodePoint} {c : CodePoint} {rest : Text} :
    HasBareSlashes prev (c :: rest) ↔
      c = '/' ∧ rest.head? = some (.char '/') ∧ prev ≠ some (.char ':') ∨
        HasBareSlashes (some c) rest := by
  constructor
  · rintro ⟨before, after, heq, hcolon⟩
    cases before with
    | nil =>
      obtain ⟨rfl, rfl⟩ := List.cons.inj heq
      exact .inl ⟨rfl, rfl, hcolon⟩
    | cons d before =>
      obtain ⟨rfl, rfl⟩ := List.cons.inj heq
      refine .inr ⟨before, after, rfl, ?_⟩
      simpa [List.getLast?_cons] using hcolon
  · rintro (⟨rfl, hslash, hcolon⟩ | ⟨before, after, rfl, hcolon⟩)
    · obtain ⟨after, rfl⟩ := List.head?_eq_some_iff.mp hslash
      exact ⟨[], after, rfl, hcolon⟩
    · refine ⟨c :: before, after, rfl, ?_⟩
      simpa [List.getLast?_cons] using hcolon

instance decidableHasBareSlashes : (prev : Option CodePoint) → (t : Text) →
    Decidable (HasBareSlashes prev t)
  | prev, [] => isFalse (not_hasBareSlashes_nil prev)
  | _, c :: rest =>
    have := decidableHasBareSlashes (some c) rest
    decidable_of_iff _ hasBareSlashes_cons.symm

/-! ## Reading an address -/

theorem isLoose_of_isAddressChar {c : CodePoint} (h : isAddressChar c) : isLoose true c := by
  have hne : ∀ d : CodePoint, isAddressChar d = false → c ≠ d := fun d hd =>
    CodePoint.ne_of_class h hd
  simp [isLoose, hne '"' (by decide), hne '\x27' (by decide), hne '(' (by decide),
    hne ')' (by decide)]

/-- Only two slashes of an address can open a comment. -/
theorem opensBehind_of_address {prev : Option CodePoint} {c : CodePoint} {rest : Text}
    (hc : isAddressChar c) (hrest : ∀ d ∈ rest, isAddressChar d)
    (hbare : ¬(c = '/' ∧ rest.head? = some (.char '/') ∧ prev ≠ some (.char ':'))) :
    opensBehind (prev = some (.char ':')) c (rest.head?.or (some (.char ')'))) = false := by
  have hsign : c ≠ '#' := CodePoint.ne_of_class hc (by decide)
  cases rest with
  | nil => simp [opensBehind, hsign]
  | cons d rest =>
    have hstar : d ≠ '*' := CodePoint.ne_of_class (hrest d List.mem_cons_self) (by decide)
    have hcolon : c = '/' → d = '/' → prev = some (.char ':') := by
      rintro rfl rfl
      exact not_not.mp fun hprev => hbare ⟨rfl, rfl, hprev⟩
    simpa [opensBehind, hsign, hstar] using fun hc hprev hd => hprev (hcolon hc hd)

/-- In parentheses, an address whose slashes stand behind colons is code. -/
theorem ColonCode.of_address {prev : Option CodePoint} {u : Text} (hu : ∀ c ∈ u, isAddressChar c)
    (hbare : ¬HasBareSlashes prev u) :
    ColonCode true (prev = some (.char ':')) (some (.char ')')) u := by
  induction u generalizing prev with
  | nil => exact .nil
  | cons c rest ih =>
    rw [hasBareSlashes_cons, not_or] at hbare
    obtain ⟨hc, hrest⟩ := List.forall_mem_cons.mp hu
    exact .char (isLoose_of_isAddressChar hc) (opensBehind_of_address hc hrest hbare.1)
      (by simpa using ih hrest hbare.2)

namespace Scanner

/-- In parentheses, two slashes of an address that do not stand behind a colon open a comment. -/
theorem reads_bareSlashes {prev : Option CodePoint} {u : Text} (hu : ∀ c ∈ u, isAddressChar c)
    (hbare : HasBareSlashes prev u) {s : Scanner}
    (hmode : s.mode = .code (prev = some (.char ':'))) (hpending : s.pending ≠ none)
    (hparens : 0 < s.parens) : s.Reads (some (.char ')')) u (s.took u .lineComment) := by
  induction u generalizing prev s with
  | nil => exact absurd hbare (not_hasBareSlashes_nil prev)
  | cons c rest ih =>
    obtain ⟨hc, hrest⟩ := List.forall_mem_cons.mp hu
    by_cases hopen : c = '/' ∧ rest.head? = some (.char '/') ∧ prev ≠ some (.char ':')
    · -- the comment is opened here and goes on in the address
      obtain ⟨rfl, hslash, hprev⟩ := hopen
      have hline : CodePoint.char '\n' ∉ rest := Text.notMem_of_class hrest (by decide)
      refine Reads.took_cons (m := .lineComment) ?_ (reads_lineComment rfl hline _)
      simp [step, hmode, hslash, hprev, pass_eq_took]
    · have hstep := step_of_loose hmode hpending (fun _ => hparens)
        (isLoose_of_isAddressChar hc) (opensBehind_of_address hc hrest hopen)
      have hbare' := (hasBareSlashes_cons.mp hbare).resolve_left hopen
      exact Reads.took_cons hstep (ih hrest hbare' (by simp) (by simpa using hpending) hparens)

end Scanner

/-! ## What flags leave of an expression -/

theorem dropFlag?_spec {flag e shorter : Text} {c : CodePoint} (h : dropFlag? flag e = some shorter)
    (hflag : c.toLower ∉ flag) (hc : isBlank c = false) :
    ∃ dropped, e = shorter ++ dropped ∧ c ∉ dropped := by
  unfold dropFlag? at h
  simp only at h
  split_ifs at h with hword
  obtain rfl := Option.some.inj h
  obtain ⟨gap, hsplit, hgap, -⟩ := Text.stripRight_spec (e.take (e.length - flag.length))
  refine ⟨gap ++ e.drop (e.length - flag.length), ?_, fun hmem => ?_⟩
  · rw [← List.append_assoc, ← hsplit, List.take_append_drop]
  · obtain hmem | hmem := List.mem_append.mp hmem
    · exact Text.notMem_of_class hgap hc hmem
    · rw [← hword.2] at hflag
      exact hflag (List.mem_map_of_mem hmem)

/-- Behind what is left of an expression there were only flags and white space. -/
theorem dropFlags_spec (count : Nat) (flags : Flags) (e : Text) {c : CodePoint}
    (hdefault : c.toLower ∉ "!default".toText) (hglobal : c.toLower ∉ "!global".toText)
    (hc : isBlank c = false) :
    ∃ dropped, e = (dropFlags count flags e).1 ++ dropped ∧ c ∉ dropped := by
  induction count generalizing flags e with
  | zero => exact ⟨[], by simp [dropFlags], List.not_mem_nil⟩
  | succ count ih =>
    have hmore : ∀ (flag shorter : Text) (others : Flags), dropFlag? flag e = some shorter →
        c.toLower ∉ flag →
          ∃ dropped, e = (dropFlags count others shorter).1 ++ dropped ∧ c ∉ dropped := by
      intro flag shorter others hflag hnot
      obtain ⟨last, heq, hlast⟩ := dropFlag?_spec hflag hnot hc
      obtain ⟨dropped, hdropped, hnone⟩ := ih others shorter
      refine ⟨dropped ++ last, ?_, fun hmem => (List.mem_append.mp hmem).elim hnone hlast⟩
      rw [← List.append_assoc, ← hdropped, heq]
    rw [dropFlags.eq_def]
    simp only
    split
    · exact hmore _ _ _ ‹_› hdefault
    · split
      · exact hmore _ _ _ ‹_› hglobal
      · exact ⟨[], by simp, List.not_mem_nil⟩

theorem readFlags_spec (value : Text) {c : CodePoint}
    (hdefault : c.toLower ∉ "!default".toText) (hglobal : c.toLower ∉ "!global".toText)
    (hc : isBlank c = false) :
    ∃ dropped, Text.strip value = (readFlags value).1 ++ dropped ∧ c ∉ dropped :=
  dropFlags_spec _ _ _ hdefault hglobal hc

/-! ## Declarations with an address -/

section AddressLine

variable {name u : Text}

/-- A declaration of an address, up to its semicolon. -/
def addressLine (name u : Text) : Text :=
  name ++ CodePoint.char ':' :: (" url(".toText ++ u ++ [CodePoint.char ')'])

theorem addressLine_starts (hname : Clause.IsName name) : StartsVisibly (addressLine name u) := by
  obtain ⟨first, rest, rfl, -⟩ := hname
  exact ⟨'$', rfl, by decide, by decide⟩

theorem newline_notMem_addressLine (hname : Clause.IsName name) (hu : ∀ c ∈ u, isAddressChar c) :
    CodePoint.char '\n' ∉ addressLine name u := by
  intro hmem
  simp only [addressLine, List.mem_append, List.mem_cons, List.not_mem_nil, or_false] at hmem
  rcases hmem with hmem | hmem | (hmem | hmem) | hmem
  · exact absurd (hname.isSolid _ hmem) (by decide)
  · exact absurd hmem (by decide)
  · exact absurd hmem (by decide)
  · exact absurd (hu _ hmem) (by decide)
  · exact absurd hmem (by decide)

theorem strip_addressLine (hname : Clause.IsName name) :
    Text.strip (addressLine name u) = addressLine name u := by
  obtain ⟨c, hc, hblank, -⟩ := addressLine_starts (u := u) hname
  have hlast : (addressLine name u).getLast? = some (.char ')') := by
    simp [addressLine, List.getLast?_append, List.getLast?_cons]
  refine Text.strip_eq_self (fun d hd => ?_) ?_
  · rwa [← Option.mem_unique hc hd]
  · rw [hlast]
    decide

/-- What stands in front of the address is code. -/
theorem code_addressHead (hname : Clause.IsName name) (next : Option CodePoint) :
    Code false next (name ++ ": url".toText) :=
  hname.code_append (by decide) next

theorem addressLine_eq (name u : Text) :
    addressLine name u =
      name ++ ": url".toText ++ CodePoint.char '(' :: (u ++ [CodePoint.char ')']) := by
  rw [addressLine, List.append_assoc, List.append_assoc]
  rfl

/-- The declaration stays open up to its semicolon when all slashes stand behind colons. -/
theorem takesIn_addressLine (hname : Clause.IsName name) (hu : ∀ c ∈ u, isAddressChar c)
    (hbare : ¬HasBareSlashes none u) :
    (Scanner.between 0 []).opened.TakesIn (addressLine name u) := by
  have hcode : ColonCode false false (some (.char ';')) (addressLine name u) := by
    rw [addressLine_eq]
    exact .append (.of_code (code_addressHead hname _)) (.parens (.of_address hu hbare) .nil)
  exact Scanner.reads_colonCode hcode rfl (by simp) nofun

/-- Where two slashes do not stand behind a colon, the comment that they open hides the parenthesis
that closes the address and the semicolon. -/
theorem reads_hiddenEnd (hname : Clause.IsName name) (hu : ∀ c ∈ u, isAddressChar c)
    (hbare : HasBareSlashes none u) :
    ∃ e, (Scanner.between 0 []).opened.Reads (some (.char '\n'))
        (addressLine name u ++ [CodePoint.char ';']) e ∧
      e.pending = some ⟨0, (addressLine name u ++ [CodePoint.char ';']).reverse⟩ := by
  obtain ⟨b, hhead⟩ := Scanner.reads_code (code_addressHead hname (some (.char '(')))
    (s := (Scanner.between 0 []).opened) ⟨false, rfl⟩ (by simp) nofun
  let before : Scanner := (Scanner.between 0 []).opened.took (name ++ ": url".toText) (.code b)
  let inside : Scanner :=
    ({ before with parens := before.parens + 1 } : Scanner).took ['('] (.code false)
  have hopen : before.step '(' ((u ++ ");".toText).head?.or (some (.char '\n'))) = (inside, []) :=
    Scanner.step_openParen rfl (by simp [before]) _
  have haddress : inside.Reads (some (.char ')')) u (inside.took u .lineComment) :=
    Scanner.reads_bareSlashes hu hbare rfl (by simp [inside, before]) (Nat.succ_pos _)
  have hcomment : (inside.took u .lineComment).Reads (some (.char '\n')) ");".toText
      ((inside.took u .lineComment).took ");".toText .lineComment) :=
    Scanner.reads_lineComment rfl (by decide) _
  have hread := hhead.append ((Scanner.Reads.single hopen).append (haddress.append hcomment))
  have hline : name ++ ": url".toText ++ ([CodePoint.char '('] ++ (u ++ ");".toText)) =
      addressLine name u ++ [CodePoint.char ';'] := by
    simp [addressLine_eq, String.toText]
  rw [hline] at hread
  refine ⟨_, hread, ?_⟩
  rw [← hline]
  simp [inside, before, Scanner.between]

/-- Then the statement goes on behind its semicolon. -/
theorem text_of_bareSlashes (hname : Clause.IsName name) (hu : ∀ c ∈ u, isAddressChar c)
    (hbare : HasBareSlashes none u) {t : Text} {found : Statement}
    (hfound : found ∈ statements (addressLine name u ++ CodePoint.char ';' :: .char '\n' :: t))
    (hstart : found.start = 0) :
    ∃ w, found.text = addressLine name u ++ CodePoint.char ';' :: w := by
  obtain ⟨c, hc, hblank, hslash⟩ := addressLine_starts (u := u) hname
  obtain ⟨rest, hrest⟩ := List.head?_eq_some_iff.mp hc
  obtain ⟨e, hread, hpending⟩ := reads_hiddenEnd hname hu hbare
  have hstarts : StartsVisibly (addressLine name u ++ [CodePoint.char ';']) :=
    ⟨c, by rw [hrest]; rfl, hblank, hslash⟩
  have hread' := (hstarts.reads_opened_iff _ _).mp hread
  have hsettled : e.Settled := hread'.advance ▸ (Scanner.between_settled 0 []).advance _ _
  have hmem : found ∈ (Scanner.between 0 []).scan
      (addressLine name u ++ [CodePoint.char ';'] ++ CodePoint.char '\n' :: t) := by
    rw [List.append_assoc]
    exact hfound
  rw [Scanner.scan_append, List.head?_cons, hread'.closedIn, hread'.advance] at hmem
  obtain ⟨w, -, -, htext⟩ := hsettled.text_of_mem_scan hpending (Nat.zero_le _) hmem hstart
  rw [List.reverse_reverse, List.append_assoc] at htext
  have hhead : ∀ d ∈ (addressLine name u).head?, isBlank d = false := fun d hd => by
    rwa [← Option.mem_unique hc hd]
  exact ⟨_, htext.trans (Text.strip_append_cons hhead (by decide) w)⟩

theorem declared?_addressLine (hname : Clause.IsName name) (w : Text) :
    declared? (addressLine name u ++ w) =
      some (name, " url(".toText ++ u ++ [CodePoint.char ')'] ++ w) := by
  have hnone : ∀ c ∈ ([] : Text), isBlank c := by simp
  have heq : addressLine name u ++ w = name ++ [] ++
      CodePoint.char ':' :: (" url(".toText ++ u ++ [CodePoint.char ')'] ++ w) := by
    simp [addressLine]
  rw [heq]
  exact Clause.declared?_written hname hnone

/-- The value of the declaration, without the space in front of it. -/
theorem strip_addressValue (u w : Text) :
    Text.strip (" url(".toText ++ u ++ [CodePoint.char ')'] ++ w) =
      Text.strip ("url(".toText ++ u ++ ")".toText ++ w) :=
  Text.strip_cons_blank (by decide) _

theorem head_address (u : Text) :
    ∀ c ∈ ("url(".toText ++ u ++ ")".toText).head?, isBlank c = false := by
  have hhead : ("url(".toText ++ u ++ ")".toText).head? = some (.char 'u') := rfl
  rw [hhead]
  decide

/-- An expression that a semicolon follows is read with it. -/
theorem expression_of_semicolon {s : Statement} {text w : Text} {d : Declaration}
    (hname : Clause.IsName name) (htext : s.text = addressLine name u ++ CodePoint.char ';' :: w)
    (h : s.declaration? text = some d) : d.expression ≠ "url(".toText ++ u ++ ")".toText := by
  intro hexpression
  obtain ⟨value, hdeclared, hflags, -⟩ := Statement.declaration?_spec h
  rw [htext, declared?_addressLine hname, Option.some.injEq, Prod.mk.injEq] at hdeclared
  obtain ⟨dropped, hdropped, hnone⟩ :=
    readFlags_spec value (c := ';') (by decide) (by decide) (by decide)
  rw [hflags, hexpression, ← hdeclared.2, strip_addressValue] at hdropped
  rw [Text.strip_append_cons (head_address u) (by decide), List.append_cancel_left_eq] at hdropped
  exact hnone (hdropped ▸ List.mem_cons_self)

theorem declaration?_addressLine (hname : Clause.IsName name) (text : Text) (stop : Nat) :
    (Statement.mk (addressLine name u) 0 stop 0 true).declaration? text =
      some ⟨name, "url(".toText ++ u ++ ")".toText, ⟨false, false⟩, .ofOffset text 0⟩ := by
  have hdeclared := declared?_addressLine (u := u) hname []
  rw [List.append_nil, List.append_nil] at hdeclared
  have hlast : ("url(".toText ++ u ++ ")".toText).getLast? = some (.char ')') :=
    List.getLast?_concat
  have hstrip := strip_addressValue u []
  rw [List.append_nil, List.append_nil,
    Text.strip_eq_self (head_address u) (by rw [hlast]; decide)] at hstrip
  simp only [Statement.declaration?, hdeclared, Option.bind_some, readFlags_of_paren hstrip hlast]
  rfl

end AddressLine

/-- A declaration of an address is read as it stands, and what follows it as it is alone, exactly
when every two slashes of the address stand behind a colon. -/
theorem declarations_address_iff {name u : Text} (hname : Clause.IsName name)
    (hu : ∀ c ∈ u, isAddressChar c) (t : Text) :
    declarations (name ++ ": url(".toText ++ u ++ ");\n".toText ++ t) =
        ⟨name, "url(".toText ++ u ++ ")".toText, ⟨false, false⟩, .start⟩ ::
          (declarations t).map
            (Declaration.lowered (name ++ ": url(".toText ++ u ++ ");\n".toText).length) ↔
      ¬HasBareSlashes none u := by
  have htext : name ++ ": url(".toText ++ u ++ ");\n".toText ++ t =
      addressLine name u ++ CodePoint.char ';' :: .char '\n' :: t := by
    simp [addressLine, String.toText]
  have hlength : (name ++ ": url(".toText ++ u ++ ");\n".toText).length =
      (addressLine name u ++ [CodePoint.char ';']).length + 1 := by
    simp [addressLine, String.toText]
    omega
  rw [htext, hlength]
  constructor
  · intro h hbare
    obtain ⟨found, hfound, hdeclaration⟩ := List.mem_filterMap.mp (h ▸ List.mem_cons_self)
    -- the first declaration would come from the statement that goes on
    obtain ⟨-, -, -, hposition⟩ := Statement.declaration?_spec hdeclaration
    have hstart : found.start = 0 := by
      have hcursor := congrArg Position.cursor hposition
      rw [Position.ofOffset_cursor, List.length_append, List.length_cons] at hcursor
      change 0 = _ at hcursor
      omega
    obtain ⟨w, hw⟩ := text_of_bareSlashes hname hu hbare hfound hstart
    exact expression_of_semicolon hname hw hdeclaration rfl
  · intro hbare
    have hfirst := (statements_line_iff (addressLine_starts hname) (strip_addressLine hname) t).mpr
      (takesIn_addressLine hname hu hbare)
    have hline : CodePoint.char '\n' ∉ addressLine name u ++ [CodePoint.char ';'] := by
      simp [newline_notMem_addressLine hname hu]
    have hrest := declarations_of_statements (t := t) hline (by simpa using hfirst)
    rw [declaration?_addressLine hname, Position.ofOffset_zero, List.append_assoc] at hrest
    exact hrest

/-- Two slashes behind the colon of a scheme hide nothing. -/
theorem declarations_schemeAddress :
    Clause.IsName "$v".toText ∧ (∀ c ∈ "http://example.com/x.png".toText, isAddressChar c) ∧
      ¬HasBareSlashes none "http://example.com/x.png".toText ∧
      declarations "$v: url(http://example.com/x.png);\n$b: 1;\n".toText =
        [⟨"$v".toText, "url(http://example.com/x.png)".toText, ⟨false, false⟩, ⟨1, 1, 0⟩⟩,
          ⟨"$b".toText, "1".toText, ⟨false, false⟩, ⟨2, 1, 35⟩⟩] := by
  have hname : Clause.IsName "$v".toText := ⟨'v', [], rfl, by decide, by simp⟩
  have hu : ∀ c ∈ "http://example.com/x.png".toText, isAddressChar c := by decide
  have hbare : ¬HasBareSlashes none "http://example.com/x.png".toText := by decide
  have hdeclarations := (declarations_address_iff hname hu "$b: 1;\n".toText).mpr hbare
  have hrest : declarations "$b: 1;\n".toText =
      [⟨"$b".toText, "1".toText, ⟨false, false⟩, ⟨1, 1, 0⟩⟩] := by decide
  rw [hrest] at hdeclarations
  exact ⟨hname, hu, hbare, hdeclarations⟩

/-- The third slash of this address hides the declaration on the next line. -/
theorem declarations_fileAddress :
    (∀ c ∈ "file:///x.png".toText, isAddressChar c) ∧
      declarations "$b: 1;\n".toText =
        [⟨"$b".toText, "1".toText, ⟨false, false⟩, ⟨1, 1, 0⟩⟩] ∧
      declarations "$v: url(file:///x.png);\n$b: 1;\n".toText =
        [⟨"$v".toText, "url(file:///x.png);\n$b: 1;".toText, ⟨false, false⟩, ⟨1, 1, 0⟩⟩] := by
  refine ⟨by decide, by decide, by decide +kernel⟩

end StyleVars
