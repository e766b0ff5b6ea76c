import SheetLint.Proofs.Brace.Order
import SheetLint.Proofs.Indented.Order

namespace SheetLint.Dialect

structure InOrder (d : Dialect) (sheet : Sheet) : Prop where
  ordered : sheet.Ordered
  findings : d ≠ .sugarss →
    ∀ rule ∈ [Rule.blockNoEmpty, Rule.commentNoEmpty, Rule.colorNoInvalidHex, Rule.lengthZeroNoUnit],
      ∀ context, (rule.check context sheet).findings.Pairwise Finding.Before

theorem parse_in_order {d : Dialect} {text : String} {sheet : Sheet}
    (parsed : d.parse text = .ok sheet) : d.InOrder sheet := by
  cases flavor : d.flavor? with
  | none =>
    cases d with
    | sugarss => exact ⟨Indented.ordered_of_parse parsed, fun other => absurd rfl other⟩
    | css | scss | less => cases flavor
  | some flavor =>
    obtain ⟨precedes, opener, value⟩ := Brace.walk_precedes ‹_› parsed
    refine ⟨?_, fun _ => ?_⟩
    · exact Sheet.ordered_of_leads (precedes.imp Node.Precedes.leads) opener
        fun d mem => (value d mem).1
    · exact Rule.findings_pairwise precedes fun d mem => (value d mem).2

theorem parse_in_order_findings :
    Dialect.less.parse "\x7b\x7db: 0px #ff" = .ok ⟨[.block (.selector "") ⟨1, 1⟩ ⟨1, 1⟩ [],
      .declaration ⟨"b", "0px #ff", false, ⟨1, 3⟩, ⟨1, 6⟩⟩]⟩ ∧
    Dialect.less.InOrder ⟨[.block (.selector "") ⟨1, 1⟩ ⟨1, 1⟩ [],
      .declaration ⟨"b", "0px #ff", false, ⟨1, 3⟩, ⟨1, 6⟩⟩]⟩ := by
  have read : Brace.readStatement .less 0 [] (Cell.ofChars ⟨1, 3⟩ "b: 0px #ff".toList) =
      .ok ((Cell.ofChars ⟨1, 3⟩ "b: 0px #ff".toList).reverse, []) := by
    simp [Brace.readStatement, Brace.Flavor.less, Brace.startsWith, Position.after]
  have opening : Brace.Piece.next .less (Cell.ofChars .start "\x7b\x7db: 0px #ff".toList) =
      .ok (some (.opening [] ⟨1, 1⟩, Cell.ofChars ⟨1, 2⟩ "\x7db: 0px #ff".toList)) := rfl
  have closing : Brace.Piece.next .less (Cell.ofChars ⟨1, 2⟩ "\x7db: 0px #ff".toList) =
      .ok (some (.closing ⟨1, 2⟩, Cell.ofChars ⟨1, 3⟩ "b: 0px #ff".toList)) := rfl
  have statement : Brace.Piece.next .less (Cell.ofChars ⟨1, 3⟩ "b: 0px #ff".toList) =
      .ok (some (.statement (Cell.ofChars ⟨1, 3⟩ "b: 0px #ff".toList), [])) := by
    rw [Brace.next_of_head rfl rfl (by decide), read]
    rfl
  have ended : Brace.pieces .less [] = .ok [] := Brace.pieces_of_none rfl
  have whole : Brace.pieces .less (Cell.ofChars .start "\x7b\x7db: 0px #ff".toList) =
      .ok [.opening [] ⟨1, 1⟩, .closing ⟨1, 2⟩,
        .statement (Cell.ofChars ⟨1, 3⟩ "b: 0px #ff".toList)] := by
    rw [Brace.pieces_of_some opening, Brace.pieces_of_some closing, Brace.pieces_of_some statement,
      ended]
    rfl
  have parsed : Dialect.less.parse "\x7b\x7db: 0px #ff" =
      .ok ⟨[.block (.selector "") ⟨1, 1⟩ ⟨1, 1⟩ [],
        .declaration ⟨"b", "0px #ff", false, ⟨1, 3⟩, ⟨1, 6⟩⟩]⟩ :=
    map_eq_ok_iff.2 ⟨_, (Brace.Outline.readAll_eq_ok_iff _ _ _).2 ⟨_, _, whole, rfl, rfl⟩, rfl⟩
  exact ⟨parsed, parse_in_order parsed⟩

end SheetLint.Dialect
