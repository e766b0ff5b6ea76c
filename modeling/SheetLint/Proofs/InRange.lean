import SheetLint.Proofs.Brace.Slices
import SheetLint.Proofs.Indented.Slices
import SheetLint.Proofs.Value.Slices

namespace SheetLint

theorem slices_in_range :
    (∀ text, Brace.preludeOf? text = some (Brace.preludeOf text)) ∧
    (∀ flavor text, Brace.nodeOf? flavor text = some (Brace.nodeOf flavor text)) ∧
    (∀ raw, splitImportant? raw = some (splitImportant raw)) ∧
    (∀ s : Indented.Scanner,
      s.turn?.map (Turn.map Indented.Scanner.state) = some (Indented.scanTurn s.state)) ∧
    (∀ text, ∃ n, Turn.Ends (Turn.orFail Indented.Scanner.turn?) n (.ofText text)
      (some (Indented.entries text))) ∧
    (∀ indent nodes entries, (Indented.levelTurn? indent nodes entries).map (Visit.map Cursor.left) =
      some (Indented.visit indent nodes entries.left)) ∧
    (∀ value skip, Value.words? value skip = some (Value.words value skip)) ∧
    (∀ d, Rule.zeroLengths? d = some (Rule.zeroLengths d)) ∧
    ∀ d, Rule.malformedColors? d = some (Rule.malformedColors d) :=
  ⟨Brace.preludeOf?_eq, Brace.nodeOf?_eq, splitImportant?_eq, Indented.Scanner.turn?_eq,
    Indented.Scanner.ends, Indented.levelTurn?_eq, Value.words?_eq, Rule.zeroLengths?_eq,
    Rule.malformedColors?_eq⟩

end SheetLint
