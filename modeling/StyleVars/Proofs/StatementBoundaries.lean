import StyleVars.Proofs.FirstStatements

/-!
# Texts that end between two statements

Where no statement is open and no comment is, the reader remembers nothing of what it has read but
the open blocks (`EndsBetween.advance_eq`). A text that ends in such a place and the text behind it
are therefore read apart: the second one from the blocks that the first one leaves open, and in
places that are moved on by the length of the first one (`statements_append`). Such texts can be
put together (`EndsBetween.append`), and the statements of many of them are those of each one
(`endsBetween_flatten`).
-/

namespace StyleVars

/-- A text that is read inside the outer blocks ends where no statement is open and no comment is,
inside the inner blocks. -/
structure EndsBetween (outer : List Bool) (text : Text) (inner : List Bool) : Prop where
  pending : ((Scanner.between 0 outer).advance none text).pending = none
  mode : ((Scanner.between 0 outer).advance none text).mode.isComment = false
  blocks : ((Scanner.between 0 outer).advance none text).blocks = inner

instance (outer : List Bool) (text : Text) (inner : List Bool) :
    Decidable (EndsBetween outer text inner) :=
  decidable_of_iff (_ ∧ _ ∧ _) ⟨fun h => ⟨h.1, h.2.1, h.2.2⟩, fun h => ⟨h.1, h.2, h.3⟩⟩

namespace EndsBetween

variable {outer middle inner : List Bool} {a b : Text}

theorem nil (blocks : List Bool) : EndsBetween blocks [] blocks := ⟨rfl, rfl, rfl⟩

/-- Whatever comes next, the reader stands between two statements. No parenthesis is open. -/
theorem advance_eq (h : EndsBetween outer a inner) (next : Option CodePoint) :
    (Scanner.between 0 outer).advance next a = .between a.length inner := by
  have hsettled := (Scanner.between_settled 0 outer).advance none a
  have hoffset := (Scanner.between_settled 0 outer).advance_offset none a
  rw [(Scanner.advance_next h.pending (.inl h.mode) next).1, hsettled.eq_between h.pending h.mode,
    h.blocks, hoffset]
  exact congrArg (Scanner.between · inner) (Nat.zero_add a.length)

/-- Whatever comes next, the text closes its own statements, and none is left for its end. -/
theorem closedIn_eq (h : EndsBetween outer a inner) (next : Option CodePoint) :
    (Scanner.between 0 outer).closedIn next a = (Scanner.between 0 outer).scan a := by
  have hnone : ∀ stop, (Scanner.between a.length inner).emit stop = [] := fun _ => rfl
  rw [(Scanner.advance_next h.pending (.inl h.mode) next).2, Scanner.scan_eq, h.advance_eq, hnone,
    List.append_nil]

theorem moved_between (n : Nat) (blocks : List Bool) :
    (Scanner.between 0 blocks).moved n = .between n blocks := by
  simp [Scanner.between, Scanner.moved]

theorem scan_append (h : EndsBetween outer a inner) (b : Text) :
    (Scanner.between 0 outer).scan (a ++ b) =
      (Scanner.between 0 outer).scan a ++
        ((Scanner.between 0 inner).scan b).map (Statement.moved a.length) := by
  rw [Scanner.scan_append, h.closedIn_eq, h.advance_eq, ← moved_between a.length inner,
    Scanner.moved_scan]

/-- What ends between two statements may be followed by what does from there on. -/
theorem append (ha : EndsBetween outer a middle) (hb : EndsBetween middle b inner) :
    EndsBetween outer (a ++ b) inner := by
  have hadvance : (Scanner.between 0 outer).advance none (a ++ b) =
      (Scanner.between b.length inner).moved a.length := by
    rw [Scanner.advance_append, ha.advance_eq, ← moved_between, Scanner.moved_advance,
      hb.advance_eq]
  refine ⟨?_, ?_, ?_⟩ <;> rw [hadvance] <;> rfl

end EndsBetween

/-- Texts that leave nothing open leave nothing open together, and have one behind the other the
statements that they have alone. -/
theorem endsBetween_flatten {texts : List Text} (h : ∀ t ∈ texts, EndsBetween [] t []) :
    EndsBetween [] texts.flatten [] ∧
      (statements texts.flatten).map Statement.reading =
        texts.flatMap fun t => (statements t).map Statement.reading := by
  induction texts with
  | nil => exact ⟨.nil [], rfl⟩
  | cons t rest ih =>
    obtain ⟨hends, hreadings⟩ := ih fun u hu => h u (List.mem_cons_of_mem t hu)
    have hfirst := h t List.mem_cons_self
    have hsplit : statements (t ++ rest.flatten) =
        statements t ++ (statements rest.flatten).map (Statement.moved t.length) :=
      hfirst.scan_append rest.flatten
    refine ⟨hfirst.append hends, ?_⟩
    rw [List.flatten_cons, hsplit, List.map_append, List.map_map, List.flatMap_cons, ← hreadings]
    rfl

/-- Behind a text that ends between two statements, another one is read from the blocks that are
open there, and apart from that as if it stood alone. No parenthesis is open there. -/
theorem statements_append {a : Text} {blocks : List Bool} (h : EndsBetween [] a blocks) :
    (Scanner.start.advance none a).parens = 0 ∧
    ∀ b, statements (a ++ b) =
        statements a ++ ((Scanner.between 0 blocks).scan b).map (Statement.moved a.length) ∧
      (blocks = [] →
        statements (a ++ b) = statements a ++ (statements b).map (Statement.moved a.length)) := by
  have hstart : Scanner.start.advance none a = .between a.length blocks := h.advance_eq none
  refine ⟨by rw [hstart]; rfl, fun b => ⟨h.scan_append b, ?_⟩⟩
  rintro rfl
  exact h.scan_append b

/-- The text ends behind a comment, in a block that is run with its rule, and there in one that a
condition guards. -/
def textInBlocks : Text := "$a: (1; 2);\n.b \x7b @if $c \x7b /* d: \x7b */\n".toText

theorem statements_append_textInBlocks :
    EndsBetween [] textInBlocks [false, true] ∧
    (statements (textInBlocks ++ "$e: 2;\x7d $f: '//' !global \x7d $g: 3".toText)).map
        (fun s => (s.text, s.start, s.stop, s.depth, s.unconditional)) =
      [("$a: (1; 2)".toText, 0, 11, 0, true), ("$e: 2".toText, 37, 43, 2, false),
        ("$f: '//' !global".toText, 45, 62, 1, true), ("$g: 3".toText, 64, 69, 0, true)] := by
  have hends : EndsBetween [] textInBlocks [false, true] := by decide +kernel
  refine ⟨hends, ?_⟩
  rw [((statements_append hends).2 _).1]
  decide +kernel

end StyleVars
