import StyleVars.Data.Json
import StyleVars.Proofs.HookNames
import Mathlib.Tactic.SplitIfs

/-!
# JSON texts

The grammar of JSON texts (`IsJsonText`), given by its own rules and not by a reader or a writer:
numbers have no words like `NaN`. The text that is written for a value is one of the grammar exactly
when all numbers in the value are finite (`isJsonText_json_iff`).
-/

namespace StyleVars

namespace JsonText

/-! ## The grammar -/

/-- White space between the parts of a text. -/
def IsSpace (t : Text) : Prop := ∀ c ∈ t, c ∈ " \t\n\r".toText

/-- Digits, one at least. -/
def IsDigits (t : Text) : Prop := t ≠ [] ∧ ∀ c ∈ t, c.isDigit

/-- A whole number, which has no zero before other digits. -/
def IsWhole (t : Text) : Prop := t = [.char '0'] ∨ IsDigits t ∧ t.head? ≠ some (.char '0')

/-- A fraction, or none. -/
def IsFraction (t : Text) : Prop :=
  t = [] ∨ ∃ digits, IsDigits digits ∧ t = .char '.' :: digits

/-- An exponent, or none. -/
def IsExponent (t : Text) : Prop :=
  t = [] ∨ ∃ mark sign digits, mark ∈ "eE".toText ∧ (sign = [] ∨ sign = "+".toText ∨
    sign = "-".toText) ∧ IsDigits digits ∧ t = mark :: sign ++ digits

/-- A number without a sign. -/
def IsUnsigned (t : Text) : Prop :=
  ∃ whole fraction exponent, IsWhole whole ∧ IsFraction fraction ∧ IsExponent exponent ∧
    t = whole ++ fraction ++ exponent

/-- A number. -/
def IsNumber (t : Text) : Prop :=
  ∃ sign size, (sign = [] ∨ sign = "-".toText) ∧ IsUnsigned size ∧ t = sign ++ size

/-- What stands between the quotes of a string. -/
inductive IsInner : Text → Prop
  | nil : IsInner []
  | plain {c : CodePoint} {rest : Text} (hchar : c.isSurrogate = false) (hprints : 32 ≤ c.toNat)
      (hquote : c ≠ '"') (hescape : c ≠ '\\') (hrest : IsInner rest) : IsInner (c :: rest)
  | escape {c : CodePoint} {rest : Text} (hc : c ∈ "\"\\/bfnrt".toText) (hrest : IsInner rest) :
      IsInner (.char '\\' :: c :: rest)
  | unit {digits rest : Text} (hlength : digits.length = 4)
      (hdigits : ∀ c ∈ digits, (Text.hexDigit? c).isSome) (hrest : IsInner rest) :
      IsInner (.char '\\' :: .char 'u' :: digits ++ rest)

/-- A string. -/
def IsString (t : Text) : Prop := ∃ inner, IsInner inner ∧ t = .char '"' :: inner ++ [.char '"']

/-- What stands before a value between brackets: nothing in a list, and a name with a colon in a
mapping. -/
inductive IsLead : Bool → Text → Prop
  | item : IsLead false []
  | name {before name after : Text} (hbefore : IsSpace before) (hname : IsString name)
      (hafter : IsSpace after) : IsLead true (before ++ name ++ after ++ [.char ':'])

mutual

/-- A value. -/
inductive IsValue : Text → Prop
  | word {t : Text} (h : t = "null".toText ∨ t = "true".toText ∨ t = "false".toText) : IsValue t
  | number {t : Text} (h : IsNumber t) : IsValue t
  | string {t : Text} (h : IsString t) : IsValue t
  | list {inner : Text} (h : IsInside false inner) : IsValue (.char '[' :: inner ++ [.char ']'])
  | mapping {inner : Text} (h : IsInside true inner) :
      IsValue (.char '\x7b' :: inner ++ [.char '\x7d'])

/-- What stands between the brackets of a list, or between the braces of a mapping, whose values are
named. -/
inductive IsInside : Bool → Text → Prop
  | space {named : Bool} {t : Text} (h : IsSpace t) : IsInside named t
  | parts {named : Bool} {t : Text} (h : IsParts named t) : IsInside named t

/-- Values with commas between them, one at least. -/
inductive IsParts : Bool → Text → Prop
  | last {named : Bool} {lead before value after : Text} (hlead : IsLead named lead)
      (hbefore : IsSpace before) (hvalue : IsValue value) (hafter : IsSpace after) :
      IsParts named (lead ++ before ++ value ++ after)
  | more {named : Bool} {lead before value after rest : Text} (hlead : IsLead named lead)
      (hbefore : IsSpace before) (hvalue : IsValue value) (hafter : IsSpace after)
      (hrest : IsParts named rest) :
      IsParts named (lead ++ before ++ value ++ after ++ .char ',' :: rest)

end

end JsonText

open JsonText

/-- A text that holds one value. -/
def IsJsonText (t : Text) : Prop :=
  ∃ before value after, IsSpace before ∧ IsValue value ∧ IsSpace after ∧
    t = before ++ value ++ after

namespace JsonText

/-! ## Integers -/

theorem isDigits_ofNat (n : Nat) : IsDigits (Text.ofNat n) :=
  ⟨by simp [Text.ofNat, Nat.toDigits_ne_nil], fun _ => Text.isDigit_of_mem_ofNat⟩

theorem head?_toDigits {n : Nat} (hn : n ≠ 0) : (Nat.toDigits 10 n).head? ≠ some '0' := by
  induction n using Nat.strongRecOn with
  | ind n ih =>
    rw [Nat.toDigits_eq_if (by decide)]
    split_ifs with hlt
    · simpa using hn
    · have htens := ih (n / 10) (by omega) (by omega)
      rwa [List.head?_append_of_ne_nil _ Nat.toDigits_ne_nil]

theorem head?_ofNat {n : Nat} (hn : n ≠ 0) : (Text.ofNat n).head? ≠ some (.char '0') := by
  intro h
  rw [Text.ofNat, List.head?_map, Option.map_eq_some_iff] at h
  obtain ⟨c, hc, heq⟩ := h
  obtain rfl := CodePoint.char.inj heq
  exact head?_toDigits hn hc

theorem isUnsigned_ofNat (n : Nat) : IsUnsigned (Text.ofNat n) := by
  refine ⟨Text.ofNat n, [], [], ?_, .inl rfl, .inl rfl, by simp⟩
  by_cases hn : n = 0
  · subst hn
    exact .inl rfl
  · exact .inr ⟨isDigits_ofNat n, head?_ofNat hn⟩

theorem isNumber_ofInt (n : Int) : IsNumber (Text.ofInt n) := by
  cases n with
  | ofNat n => exact ⟨[], Text.ofNat n, .inl rfl, isUnsigned_ofNat n, rfl⟩
  | negSucc n => exact ⟨_, Text.ofNat (n + 1), .inr rfl, isUnsigned_ofNat (n + 1), rfl⟩

/-! ## Other numbers -/

theorem nearestRank_zero (den : Nat) : Binary64.nearestRank 0 den = 0 := by
  unfold Binary64.nearestRank Binary64.roundHalfEven
  simp only [Nat.zero_div, Nat.log2_zero, Nat.zero_sub, Nat.zero_mul, Nat.zero_mod, Nat.mul_zero,
    Nat.shiftLeft_zero, Nat.zero_add, Nat.not_lt_zero, if_false, ite_self]

theorem digits_ne_zero {d : Decimal} (h : d.nearestRank ≠ 0) : d.digits ≠ 0 := by
  intro hzero
  apply h
  unfold Decimal.nearestRank
  split_ifs
  · rw [hzero, Nat.zero_mul, Nat.zero_mul, nearestRank_zero]
  · rw [hzero, Nat.zero_mul, nearestRank_zero]

theorem nearestRank_of_choice {rank : Nat} {below above d : Decimal} {p : Prop} [Decidable p]
    (h : (match decide (below.nearestRank = rank), decide (above.nearestRank = rank) with
      | true, true => if p then some below else some above
      | true, false => some below
      | false, true => some above
      | false, false => none) = some d) : d.nearestRank = rank := by
  split at h
  · next hbelow habove =>
    split_ifs at h <;> obtain rfl := Option.some.inj h
    · exact of_decide_eq_true hbelow
    · exact of_decide_eq_true habove
  · next hbelow _ =>
    obtain rfl := Option.some.inj h
    exact of_decide_eq_true hbelow
  · next _ habove =>
    obtain rfl := Option.some.inj h
    exact of_decide_eq_true habove
  · exact nomatch h

theorem nearestRank_of_ofDigitCount? {rank count : Nat} {d : Decimal}
    (h : Decimal.ofDigitCount? rank count = some d) : d.nearestRank = rank := by
  -- Unfolded without its arguments: with them the kernel would compute with the powers of ten.
  generalize hf : Decimal.ofDigitCount? = f at h
  delta Decimal.ofDigitCount? at hf
  subst hf
  exact nearestRank_of_choice h

/-- The decimal of a positive magnitude has digits other than zero, if it is one that reads back. -/
theorem shortest_cases {rank : Nat} (hrank : rank ≠ 0) :
    Decimal.shortest rank = ⟨0, 0⟩ ∨ (Decimal.shortest rank).digits ≠ 0 := by
  rw [Decimal.shortest]
  cases h : (List.range 17).findSome? fun n => Decimal.ofDigitCount? rank (n + 1) with
  | none => exact .inl rfl
  | some d =>
    obtain ⟨n, -, hd⟩ := List.exists_of_findSome?_eq_some h
    refine .inr (digits_ne_zero ?_)
    rw [Option.getD_some, nearestRank_of_ofDigitCount? hd]
    exact hrank

theorem trimRight_cons {p : CodePoint → Bool} {c : CodePoint} (hc : p c = false) (t : Text) :
    Text.trimRight p (c :: t) = c :: Text.trimRight p t := by
  rw [Text.trimRight, List.reverse_cons, List.dropWhile_append, Text.trimRight]
  split_ifs with hempty
  · rw [List.isEmpty_iff.mp hempty, List.dropWhile_cons_of_neg (by simp [hc])]
    rfl
  · rw [List.reverse_append]
    rfl

theorem mem_of_mem_trimRight {p : CodePoint → Bool} {c : CodePoint} {t : Text}
    (h : c ∈ Text.trimRight p t) : c ∈ t := by
  rw [Text.trimRight, List.mem_reverse] at h
  exact List.mem_reverse.mp ((List.dropWhile_sublist p).subset h)

theorem isDigits_zero : IsDigits [.char '0'] := ⟨List.cons_ne_nil _ _, by decide⟩

theorem isDigits_replicate_append (n : Nat) {t : Text} (h : IsDigits t) :
    IsDigits (List.replicate n (.char '0') ++ t) := by
  refine ⟨by simp [h.1], fun c hc => ?_⟩
  rcases List.mem_append.mp hc with hzero | ht
  · rw [List.eq_of_mem_replicate hzero]
    rfl
  · exact h.2 c ht

theorem isUnsigned_point {whole digits : Text} (hwhole : IsWhole whole)
    (hdigits : IsDigits digits) : IsUnsigned (whole ++ .char '.' :: digits) :=
  ⟨whole, _, [], hwhole, .inr ⟨digits, hdigits, rfl⟩, .inl rfl, by simp⟩

theorem isUnsigned_zero : IsUnsigned "0.0".toText := isUnsigned_point (.inl rfl) isDigits_zero

theorem isExponent_signed (negative : Prop) [Decidable negative] {digits : Text}
    (hdigits : IsDigits digits) :
    IsExponent (.char 'e' :: (if negative then .char '-' else .char '+') :: digits) := by
  refine .inr ⟨.char 'e', [if negative then .char '-' else .char '+'], digits, by decide, ?_,
    hdigits, rfl⟩
  by_cases hnegative : negative
  · exact .inr (.inr (by rw [if_pos hnegative]; rfl))
  · exact .inr (.inl (by rw [if_neg hnegative]; rfl))

/-- The digits of a magnitude, the first of which is not zero, make a number wherever its point
stands. -/
theorem isUnsigned_magnitude (style : NumberStyle) {c : CodePoint} {rest : Text} (hc : c.isDigit)
    (hzero : c ≠ .char '0') (hrest : ∀ d ∈ rest, d.isDigit) (leading : Int) :
    IsUnsigned (style.magnitude (c :: rest) leading) := by
  have hwhole {t : Text} (ht : ∀ d ∈ t, d.isDigit) : IsWhole (c :: t) :=
    .inr ⟨⟨List.cons_ne_nil _ _, List.forall_mem_cons.mpr ⟨hc, ht⟩⟩, by simpa using hzero⟩
  unfold NumberStyle.magnitude
  by_cases hplace : style.leastPositional ≤ leading ∧ leading < style.leastScientific
  · rw [if_pos hplace]
    by_cases hsmall : leading < 0
    · -- the point stands before all digits
      rw [if_pos hsmall]
      have hdigits := isDigits_replicate_append ((-leading).toNat - 1)
        ⟨List.cons_ne_nil _ _, List.forall_mem_cons.mpr ⟨hc, hrest⟩⟩
      simpa [String.toText] using isUnsigned_point (.inl rfl) hdigits
    · -- it stands among them or behind them
      rw [if_neg hsmall]
      have hpadded : ∀ d ∈ rest.take leading.toNat ++
          List.replicate (leading.toNat + 1 - (c :: rest).length) (.char '0'), d.isDigit := by
        intro d hd
        rcases List.mem_append.mp hd with htaken | hpadding
        · exact hrest d (List.mem_of_mem_take htaken)
        · rw [List.eq_of_mem_replicate hpadding]
          rfl
      have hfraction : IsDigits (if (rest.drop leading.toNat).isEmpty then [.char '0']
          else rest.drop leading.toNat) := by
        split_ifs with hempty
        · exact isDigits_zero
        · exact ⟨fun hnil => hempty (List.isEmpty_iff.mpr hnil),
            fun d hd => hrest d (List.mem_of_mem_drop hd)⟩
      simpa using isUnsigned_point (hwhole hpadded) hfraction
  · -- it stands behind the first one, and there is an exponent
    rw [if_neg hplace]
    have hfraction : IsFraction (if rest.isEmpty then [] else .char '.' :: rest) := by
      split_ifs with hempty
      · exact .inl rfl
      · exact .inr ⟨rest, ⟨fun hnil => hempty (List.isEmpty_iff.mpr hnil), hrest⟩, rfl⟩
    have hexponent := isExponent_signed (leading < 0) (isDigits_replicate_append
      (style.exponentWidth - (Text.ofNat leading.natAbs).length) (isDigits_ofNat leading.natAbs))
    exact ⟨[c], _, _, hwhole (by simp), hfraction, hexponent, by simp⟩

theorem isNumber_render {x : Binary64} (h : x.isFinite) :
    IsNumber (Data.jsonNumbers.render x) := by
  cases x with
  | nan => exact nomatch h
  | infinite negative => exact nomatch h
  | finite negative rank =>
    refine ⟨if negative then [.char '-'] else [], _, ?_, ?_, rfl⟩
    · cases negative
      · exact .inl rfl
      · exact .inr rfl
    by_cases hrank : rank.val = 0
    · rw [if_pos hrank]
      exact isUnsigned_zero
    rw [if_neg hrank]
    dsimp only
    rcases shortest_cases hrank with hnone | hdigits
    · rw [hnone]
      exact isUnsigned_zero
    · have hhead := head?_ofNat hdigits
      have hall := (isDigits_ofNat (Decimal.shortest rank).digits).2
      cases htext : Text.ofNat (Decimal.shortest rank).digits with
      | nil => exact absurd htext (isDigits_ofNat _).1
      | cons c rest =>
        rw [htext] at hhead hall
        obtain ⟨hc, hrest⟩ := List.forall_mem_cons.mp hall
        have hzero : c ≠ .char '0' := by simpa using hhead
        rw [trimRight_cons (by simpa using hzero)]
        exact isUnsigned_magnitude _ hc hzero (fun d hd => hrest d (mem_of_mem_trimRight hd)) _

/-! ## Strings -/

theorem isSome_hexDigit?_digitChar : ∀ d < 16, (Text.hexDigit? (.char d.digitChar)).isSome := by
  decide

theorem isSome_hexDigit?_of_mem_toDigits {n : Nat} {c : Char} (h : c ∈ Nat.toDigits 16 n) :
    (Text.hexDigit? (.char c)).isSome := by
  induction n using Nat.strongRecOn with
  | ind n ih =>
    rw [Nat.toDigits_eq_if (by decide)] at h
    split_ifs at h with hlt
    · rw [List.mem_singleton.mp h]
      exact isSome_hexDigit?_digitChar n hlt
    · rcases List.mem_append.mp h with hrest | hlast
      · exact ih (n / 16) (by omega) hrest
      · rw [List.mem_singleton.mp hlast]
        exact isSome_hexDigit?_digitChar _ (Nat.mod_lt _ (by decide))

theorem length_hex {n : Nat} (hn : n < 0x10000) : (Text.hex 4 n).length = 4 := by
  have hlength : (Nat.toDigits 16 n).length ≤ 4 :=
    (Nat.length_toDigits_le_iff (by decide) (by decide)).mpr hn
  rw [Text.hex, List.length_append, List.length_replicate, List.length_map]
  omega

theorem isSome_hexDigit?_of_mem_hex {width n : Nat} {c : CodePoint} (h : c ∈ Text.hex width n) :
    (Text.hexDigit? c).isSome := by
  rcases List.mem_append.mp h with hzero | hdigit
  · rw [List.eq_of_mem_replicate hzero]
    rfl
  · obtain ⟨d, hd, rfl⟩ := List.mem_map.mp hdigit
    exact isSome_hexDigit?_of_mem_toDigits hd

theorem IsInner.unitEscape {n : Nat} (hn : n < 0x10000) {rest : Text} (hrest : IsInner rest) :
    IsInner (Text.unitEscape n ++ rest) :=
  .unit (length_hex hn) (fun _ => isSome_hexDigit?_of_mem_hex) hrest

theorem IsInner.jsonEscape {c : CodePoint} {escaped rest : Text}
    (h : Text.jsonEscape? c = some escaped) (hrest : IsInner rest) : IsInner (escaped ++ rest) := by
  unfold Text.jsonEscape? at h
  dsimp only at h
  split_ifs at h with _ _ _ _ _ _ _ hsmall <;> obtain rfl := Option.some.inj h
  iterate 7 exact .escape (by decide) hrest
  exact .unitEscape (by omega) hrest

theorem CodePoint.toNat_lt (c : CodePoint) : c.toNat < 0x110000 := by
  cases c with
  | char c => exact c.valid.elim (fun h => Nat.lt_trans h (by decide)) fun h => h.2
  | surrogate n => exact Nat.lt_trans (Nat.add_lt_add_left n.isLt _) (by decide)

theorem IsInner.jsonUnits {c : CodePoint} {rest : Text} (h : Text.jsonEscape? c = none)
    (hrest : IsInner rest) : IsInner (Text.jsonUnits c ++ rest) := by
  have hbound := CodePoint.toNat_lt c
  unfold Text.jsonUnits
  dsimp only
  split_ifs with hascii hunit
  · unfold Text.jsonEscape? at h
    dsimp only at h
    split_ifs at h with hquote hescape _ _ _ _ _ hsmall
    refine .plain ?_ (by omega) hquote hescape hrest
    cases c with
    | char c => rfl
    | surrogate n =>
      simp only [CodePoint.toNat] at hascii
      omega
  · exact .unitEscape hunit hrest
  · rw [List.append_assoc]
    exact .unitEscape (by omega) (.unitEscape (by omega) hrest)

theorem isString_jsonString (t : Text) : IsString (Text.jsonString t) := by
  refine ⟨_, ?_, rfl⟩
  induction t with
  | nil => exact .nil
  | cons c rest ih =>
    rw [List.flatMap_cons]
    cases h : Text.jsonEscape? c with
    | none => exact .jsonUnits h ih
    | some escaped => exact .jsonEscape h ih

/-! ## Values -/

theorem isSpace_nil : IsSpace [] := fun _ h => nomatch h

theorem isSpace_blank : IsSpace [.char ' '] := by simp [IsSpace, String.toText]

theorem isSpace_newLine (level : Nat) : IsSpace (Data.newLine level) := by
  intro c hc
  rcases List.mem_cons.mp hc with rfl | hblank
  · decide
  · rw [List.eq_of_mem_replicate hblank]
    decide

theorem isLead_json {before : Text} (hbefore : IsSpace before) (k : Data.Key) :
    IsLead true (before ++ k.json ++ [.char ':']) := by
  simpa [Data.Key.json] using IsLead.name hbefore (isString_jsonString k.jsonName) isSpace_nil

mutual

theorem isValue_jsonAt (level : Nat) : ∀ {d : Data}, d.allFinite → IsValue (d.jsonAt level)
  | .null, _ => .word (.inl rfl)
  | .bool true, _ => .word (.inr (.inl rfl))
  | .bool false, _ => .word (.inr (.inr rfl))
  | .int n, _ => .number (isNumber_ofInt n)
  | .real x, h => .number (isNumber_render h)
  | .text t, _ => .string (isString_jsonString t)
  | .list [], _ => .list (.space isSpace_nil)
  | .list (d :: rest), h => by
    obtain ⟨hd, hrest⟩ := Bool.and_eq_true_iff.mp h
    have hparts := isParts_jsonItems (level + 1) hrest (isSpace_newLine (level + 1))
      (isValue_jsonAt (level + 1) hd) (isSpace_newLine level)
    simpa [Data.jsonAt] using IsValue.list (.parts hparts)
  | .mapping [], _ => .mapping (.space isSpace_nil)
  | .mapping ((k, d) :: rest), h => by
    obtain ⟨hd, hrest⟩ := Bool.and_eq_true_iff.mp h
    have hparts := isParts_jsonEntries (level + 1) hrest (isSpace_newLine (level + 1)) k
      (isValue_jsonAt (level + 1) hd) (isSpace_newLine level)
    simpa [Data.jsonAt, String.toText] using IsValue.mapping (.parts hparts)

/-- A value, the items that follow it, and the white space before the closing bracket. -/
theorem isParts_jsonItems (level : Nat) : ∀ {items : List Data}, Data.allFiniteItems items →
    ∀ {before value after : Text}, IsSpace before → IsValue value → IsSpace after →
      IsParts false (before ++ value ++ (Data.jsonItems level items ++ after))
  | [], _, _, _, _, hbefore, hvalue, hafter => .last .item hbefore hvalue hafter
  | d :: rest, h, _, _, _, hbefore, hvalue, hafter => by
    obtain ⟨hd, hrest⟩ := Bool.and_eq_true_iff.mp h
    have hparts := isParts_jsonItems level hrest (isSpace_newLine level)
      (isValue_jsonAt level hd) hafter
    simpa [Data.jsonItems] using IsParts.more .item hbefore hvalue isSpace_nil hparts

/-- The same for a named value and the entries that follow it. -/
theorem isParts_jsonEntries (level : Nat) : ∀ {entries : List (Data.Key × Data)},
    Data.allFiniteEntries entries → ∀ {before value after : Text}, IsSpace before →
      ∀ (k : Data.Key), IsValue value → IsSpace after →
        IsParts true (before ++ k.json ++ ": ".toText ++ value ++
          (Data.jsonEntries level entries ++ after))
  | [], _, _, _, _, hbefore, k, hvalue, hafter => by
    simpa [Data.jsonEntries, String.toText] using
      IsParts.last (isLead_json hbefore k) isSpace_blank hvalue hafter
  | (l, d) :: rest, h, _, _, _, hbefore, k, hvalue, hafter => by
    obtain ⟨hd, hrest⟩ := Bool.and_eq_true_iff.mp h
    have hparts := isParts_jsonEntries level hrest (isSpace_newLine level) l
      (isValue_jsonAt level hd) hafter
    simpa [Data.jsonEntries, String.toText] using
      IsParts.more (isLead_json hbefore k) isSpace_blank hvalue isSpace_nil hparts

end

/-! ## Numbers that are not finite

Their words have the letters N and I, which no text of the grammar has outside its strings.
-/

/-- Where in a text a code point stands. -/
inductive Place
  | outside
  | quoted
  | escaped
  deriving DecidableEq

/-- The place after a code point. -/
def Place.next : Place → CodePoint → Place
  | outside, c => if c = .char '"' then quoted else outside
  | quoted, c => if c = .char '"' then outside else if c = .char '\\' then escaped else quoted
  | escaped, _ => quoted

/-- The place after a text. -/
def Place.after (place : Place) (t : Text) : Place := t.foldl next place

/-- How many letters N and I stand outside the strings of a text. -/
def strays : Place → Text → Nat
  | _, [] => 0
  | place, c :: rest =>
    (if place = .outside ∧ (c = .char 'N' ∨ c = .char 'I') then 1 else 0) +
      strays (place.next c) rest

theorem after_append (place : Place) (t u : Text) :
    place.after (t ++ u) = (place.after t).after u := List.foldl_append

theorem strays_append (place : Place) (t u : Text) :
    strays place (t ++ u) = strays place t + strays (place.after t) u := by
  induction t generalizing place with
  | nil => simp [strays, Place.after]
  | cons c rest ih =>
    simp only [List.cons_append, strays, ih, Place.after, List.foldl_cons]
    omega

/-- A text leads from a place to another and has no such letter outside its strings. -/
structure Leads (first last : Place) (t : Text) : Prop where
  after : first.after t = last
  strays : strays first t = 0

theorem Leads.nil (place : Place) : Leads place place [] := ⟨rfl, rfl⟩

theorem Leads.append {first middle last : Place} {t u : Text} (ht : Leads first middle t)
    (hu : Leads middle last u) : Leads first last (t ++ u) :=
  ⟨by rw [after_append, ht.after, hu.after],
    by rw [strays_append, ht.after, ht.strays, hu.strays]⟩

theorem Leads.cons {first last : Place} {c : CodePoint} {t : Text}
    (hc : first = .outside → c ≠ .char 'N' ∧ c ≠ .char 'I') (ht : Leads (first.next c) last t) :
    Leads first last (c :: t) := by
  refine ⟨ht.after, ?_⟩
  rw [JsonText.strays, ht.strays, if_neg]
  rintro ⟨hfirst, hn | hi⟩
  · exact (hc hfirst).1 hn
  · exact (hc hfirst).2 hi

/-- A text that begins and ends outside of strings, with no such letter there. -/
abbrev Clean (t : Text) : Prop := Leads .outside .outside t

/-- A code point that begins no string and is none of the letters. -/
def IsNeutral (c : CodePoint) : Prop := c ≠ .char '"' ∧ c ≠ .char 'N' ∧ c ≠ .char 'I'

instance : DecidablePred IsNeutral := fun _ => inferInstanceAs (Decidable (_ ∧ _))

theorem clean_of_neutral {t : Text} (h : ∀ c ∈ t, IsNeutral c) : Clean t := by
  induction t with
  | nil => exact .nil _
  | cons c rest ih =>
    obtain ⟨⟨hquote, hletters⟩, hrest⟩ := List.forall_mem_cons.mp h
    refine .cons (fun _ => hletters) ?_
    rw [Place.next, if_neg hquote]
    exact ih hrest

theorem leads_of_plain {t : Text} (h : ∀ c ∈ t, c ≠ .char '"' ∧ c ≠ .char '\\') :
    Leads .quoted .quoted t := by
  induction t with
  | nil => exact .nil _
  | cons c rest ih =>
    obtain ⟨⟨hquote, hescape⟩, hrest⟩ := List.forall_mem_cons.mp h
    refine .cons (fun h => nomatch h) ?_
    rw [Place.next, if_neg hquote, if_neg hescape]
    exact ih hrest

theorem IsSpace.clean {t : Text} (h : IsSpace t) : Clean t :=
  clean_of_neutral fun c hc => by
    have hall : ∀ c ∈ " \t\n\r".toText, IsNeutral c := by decide
    exact hall c (h c hc)

theorem IsDigits.clean {t : Text} (h : IsDigits t) : Clean t :=
  clean_of_neutral fun c hc => by
    have hdigit := h.2 c hc
    refine ⟨?_, ?_, ?_⟩ <;> rintro rfl <;> exact absurd hdigit (by decide)

theorem IsWhole.clean {t : Text} (h : IsWhole t) : Clean t := by
  rcases h with rfl | h
  · exact clean_of_neutral (by decide)
  · exact h.1.clean

theorem IsFraction.clean {t : Text} (h : IsFraction t) : Clean t := by
  rcases h with rfl | ⟨digits, hdigits, rfl⟩
  · exact .nil _
  · exact .append (clean_of_neutral (t := [.char '.']) (by decide)) hdigits.clean

theorem IsExponent.clean {t : Text} (h : IsExponent t) : Clean t := by
  rcases h with rfl | ⟨mark, sign, digits, hmark, hsign, hdigits, rfl⟩
  · exact .nil _
  have hall : ∀ c ∈ "eE".toText, IsNeutral c := by decide
  have hmark : Clean [mark] := clean_of_neutral (by simpa using hall mark hmark)
  have hsign : Clean sign := by
    rcases hsign with rfl | rfl | rfl <;> exact clean_of_neutral (by decide)
  exact .append (.append hmark hsign) hdigits.clean

theorem IsNumber.clean {t : Text} (h : IsNumber t) : Clean t := by
  obtain ⟨sign, _, hsign, ⟨whole, fraction, exponent, hwhole, hfraction, hexponent, rfl⟩, rfl⟩ := h
  have hsign : Clean sign := by
    rcases hsign with rfl | rfl <;> exact clean_of_neutral (by decide)
  exact .append hsign (.append (.append hwhole.clean hfraction.clean) hexponent.clean)

/-- What stands between the quotes of a string does not end it. -/
theorem IsInner.leads {t : Text} (h : IsInner t) : Leads .quoted .quoted t := by
  induction h with
  | nil => exact .nil _
  | plain _ _ hquote hescape _ ih =>
    exact .append (leads_of_plain (t := [_]) (by simpa using ⟨hquote, hescape⟩)) ih
  | escape _ _ ih => exact .cons (fun h => nomatch h) (.cons (fun h => nomatch h) ih)
  | unit _ hdigits _ ih =>
    refine .cons (fun h => nomatch h) (.cons (fun h => nomatch h) (.append ?_ ih))
    refine leads_of_plain fun c hc => ?_
    have hdigit := hdigits c hc
    refine ⟨?_, ?_⟩ <;> rintro rfl <;> exact absurd hdigit (by decide)

theorem IsString.clean {t : Text} (h : IsString t) : Clean t := by
  obtain ⟨inner, hinner, rfl⟩ := h
  have hclose : Leads .quoted .outside [.char '"'] := ⟨rfl, rfl⟩
  exact .cons (fun _ => ⟨by decide, by decide⟩) (.append hinner.leads hclose)

theorem IsLead.clean {named : Bool} {t : Text} (h : IsLead named t) : Clean t := by
  cases h with
  | item => exact .nil _
  | name hbefore hname hafter =>
    exact .append (.append (.append hbefore.clean hname.clean) hafter.clean)
      (clean_of_neutral (by decide))

mutual

theorem IsValue.clean : ∀ {t : Text}, IsValue t → Clean t
  | _, .word h => by rcases h with rfl | rfl | rfl <;> exact clean_of_neutral (by decide)
  | _, .number h => h.clean
  | _, .string h => h.clean
  | _, .list h => .append (.append (t := [.char '[']) (clean_of_neutral (by decide)) h.clean)
      (clean_of_neutral (by decide))
  | _, .mapping h => .append (.append (t := [.char '\x7b']) (clean_of_neutral (by decide)) h.clean)
      (clean_of_neutral (by decide))

theorem IsInside.clean : ∀ {named : Bool} {t : Text}, IsInside named t → Clean t
  | _, _, .space h => h.clean
  | _, _, .parts h => h.clean

theorem IsParts.clean : ∀ {named : Bool} {t : Text}, IsParts named t → Clean t
  | _, _, .last hlead hbefore hvalue hafter =>
    .append (.append (.append hlead.clean hbefore.clean) hvalue.clean) hafter.clean
  | _, _, .more hlead hbefore hvalue hafter hrest =>
    .append (.append (.append (.append hlead.clean hbefore.clean) hvalue.clean) hafter.clean)
      (.cons (fun _ => ⟨by decide, by decide⟩) hrest.clean)

end

theorem clean_of_isJsonText {t : Text} (h : IsJsonText t) : Clean t := by
  obtain ⟨before, value, after, hbefore, hvalue, hafter, rfl⟩ := h
  exact .append (.append hbefore.clean hvalue.clean) hafter.clean

/-- A text that ends outside its strings, and which has such a letter there unless it is `finite`.
-/
structure Tells (finite : Bool) (t : Text) : Prop where
  after : Place.outside.after t = .outside
  strays : finite = false → strays .outside t ≠ 0

theorem Leads.tells {t : Text} (h : Clean t) : Tells true t :=
  ⟨h.after, fun h => nomatch h⟩

theorem Tells.append {finite finite' : Bool} {t u : Text} (ht : Tells finite t)
    (hu : Tells finite' u) : Tells (finite && finite') (t ++ u) := by
  refine ⟨by rw [after_append, ht.after, hu.after], fun hboth => ?_⟩
  rw [strays_append, ht.after]
  rcases Bool.and_eq_false_iff.mp hboth with h | h
  · have := ht.strays h
    omega
  · have := hu.strays h
    omega

theorem tells_render (x : Binary64) : Tells x.isFinite (Data.jsonNumbers.render x) := by
  cases h : x.isFinite with
  | true => exact (isNumber_render h).clean.tells
  | false =>
    cases x with
    | nan => exact ⟨by decide, fun _ => by decide⟩
    | infinite negative => cases negative <;> exact ⟨by decide, fun _ => by decide⟩
    | finite => exact nomatch h

/-- The brackets and the commas with the line breaks beside them. -/
theorem tells_mark {c : CodePoint} (hc : IsNeutral c) (level : Nat) :
    Tells true (c :: Data.newLine level) ∧ Tells true (Data.newLine level ++ [c]) := by
  have hmark : Clean [c] := clean_of_neutral (by simpa using hc)
  exact ⟨(hmark.append (isSpace_newLine level).clean).tells,
    ((isSpace_newLine level).clean.append hmark).tells⟩

theorem tells_key (k : Data.Key) : Tells true (k.json ++ ": ".toText) :=
  ((isString_jsonString k.jsonName).clean.append (clean_of_neutral (by decide))).tells

mutual

theorem tells_jsonAt (level : Nat) : ∀ d : Data, Tells d.allFinite (d.jsonAt level)
  | .null => (isValue_jsonAt level (d := .null) rfl).clean.tells
  | .bool b => (isValue_jsonAt level (d := .bool b) rfl).clean.tells
  | .int n => (isNumber_ofInt n).clean.tells
  | .real x => tells_render x
  | .text t => (isString_jsonString t).clean.tells
  | .list [] => (isValue_jsonAt level (d := .list []) rfl).clean.tells
  | .list (d :: rest) => by
    have hopen := (tells_mark (c := .char '[') (by decide) (level + 1)).1
    have hclose := (tells_mark (c := .char ']') (by decide) level).2
    simpa [Data.jsonAt, Data.allFinite, Data.allFiniteItems] using
      hopen.append ((tells_jsonAt (level + 1) d).append
        ((tells_jsonItems (level + 1) rest).append hclose))
  | .mapping [] => (isValue_jsonAt level (d := .mapping []) rfl).clean.tells
  | .mapping ((k, d) :: rest) => by
    have hopen := (tells_mark (c := .char '\x7b') (by decide) (level + 1)).1
    have hclose := (tells_mark (c := .char '\x7d') (by decide) level).2
    simpa [Data.jsonAt, Data.allFinite, Data.allFiniteEntries] using
      (hopen.append (tells_key k)).append ((tells_jsonAt (level + 1) d).append
        ((tells_jsonEntries (level + 1) rest).append hclose))

theorem tells_jsonItems (level : Nat) : ∀ items : List Data,
    Tells (Data.allFiniteItems items) (Data.jsonItems level items)
  | [] => (Leads.nil _).tells
  | d :: rest => by
    have hcomma := (tells_mark (c := .char ',') (by decide) level).1
    simpa [Data.jsonItems, Data.allFiniteItems] using
      hcomma.append ((tells_jsonAt level d).append (tells_jsonItems level rest))

theorem tells_jsonEntries (level : Nat) : ∀ entries : List (Data.Key × Data),
    Tells (Data.allFiniteEntries entries) (Data.jsonEntries level entries)
  | [] => (Leads.nil _).tells
  | (k, d) :: rest => by
    have hcomma := (tells_mark (c := .char ',') (by decide) level).1
    simpa [Data.jsonEntries, Data.allFiniteEntries] using
      (hcomma.append (tells_key k)).append
        ((tells_jsonAt level d).append (tells_jsonEntries level rest))

end

end JsonText

/-- What is written for a value is a JSON text exactly when all its numbers are finite; white space
may follow. -/
theorem isJsonText_json_iff (d : Data) {after : Text} (hafter : IsSpace after) :
    IsJsonText (d.json ++ after) ↔ d.allFinite := by
  constructor
  · intro h
    by_contra hfinite
    have htells := (tells_jsonAt 0 d).append hafter.clean.tells
    exact htells.strays (by simpa using hfinite) (clean_of_isJsonText h).strays
  · intro h
    exact ⟨[], d.json, after, isSpace_nil, isValue_jsonAt 0 h, hafter, rfl⟩

end StyleVars
