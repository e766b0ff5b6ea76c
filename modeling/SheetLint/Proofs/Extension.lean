import SheetLint.Dialect
import SheetLint.Path
import SheetLint.Proofs.Text.Trim

namespace SheetLint

namespace Path

/-- Whether a path ends with a name that ends with a dot and `ext`, up to the case of the letters A to Z,
and has something before the dot. -/
def HasExtension (path ext : String) : Prop :=
  ∃ stem written, stem ≠ "" ∧ '.' ∉ written.toList ∧
    (components path).getLast? = some (.name (stem ++ "." ++ written)) ∧
    written.toList.map Char.toLower = ext.toList

theorem fileName?_eq_some_iff {path name : String} :
    fileName? path = some name ↔ (components path).getLast? = some (.name name) := by
  unfold fileName?
  split <;> simp_all

theorem extension?_of_stem {path stem ext : String} (stem_ne : stem ≠ "") (plain : '.' ∉ ext.toList)
    (named : fileName? path = some (stem ++ "." ++ ext)) : extension? path = some ext := by
  have run : (ext.toList.reverse ++ '.' :: stem.toList.reverse).takeWhile (· != '.') =
        ext.toList.reverse ∧
      (ext.toList.reverse ++ '.' :: stem.toList.reverse).dropWhile (· != '.') =
        '.' :: stem.toList.reverse := by
    apply Text.span_eq
    · intro c mem
      rw [bne_iff_ne]
      rintro rfl
      exact plain (List.mem_reverse.1 mem)
    · rintro c ⟨⟩
      rfl
  have reversed : (stem ++ "." ++ ext).toList.reverse =
      ext.toList.reverse ++ '.' :: stem.toList.reverse := by
    simp [String.toList_append]
  obtain ⟨c, cs, split⟩ := List.exists_cons_of_ne_nil (l := stem.toList.reverse) (by simpa using stem_ne)
  rw [extension?, named]
  simp only [reversed, run.1, run.2]
  rw [split]
  simp

theorem exists_stem {path ext : String} (found : extension? path = some ext) :
    ∃ stem, stem ≠ "" ∧ '.' ∉ ext.toList ∧ fileName? path = some (stem ++ "." ++ ext) := by
  unfold extension? at found
  split at found
  · cases found
  next name named =>
    have parts := List.takeWhile_append_dropWhile (p := (· != '.')) (l := name.toList.reverse)
    simp only at found
    split at found
    · cases found
    · cases found
    next dot c cs cut =>
      cases found
      have isDot : dot = '.' := by
        have stops := List.head?_dropWhile_not (· != '.') name.toList.reverse
        simpa [cut] using stops
      refine ⟨String.ofList (c :: cs).reverse, by simp, ?_, ?_⟩
      · rw [String.toList_ofList, List.mem_reverse]
        intro mem
        simpa using List.mem_takeWhile_imp mem
      · rw [named, Option.some_inj, ← String.toList_inj]
        rw [cut, isDot] at parts
        simpa using (congrArg List.reverse parts).symm

theorem hasExtension_iff {path ext : String} : HasExtension path ext ↔
    ∃ written, extension? path = some written ∧ written.toList.map Char.toLower = ext.toList := by
  constructor
  · rintro ⟨stem, written, stem_ne, plain, last, same⟩
    exact ⟨written, extension?_of_stem stem_ne plain (fileName?_eq_some_iff.2 last), same⟩
  · rintro ⟨written, found, same⟩
    obtain ⟨stem, stem_ne, plain, named⟩ := exists_stem found
    exact ⟨stem, written, stem_ne, plain, fileName?_eq_some_iff.1 named, same⟩

end Path

namespace Dialect

def Reads (text name : String) : Prop :=
  (Text.trim text.toList).map Char.toLower = name.toList

/-- Whether a text is the name of a dialect, up to the case of the letters A to Z and blanks around it. -/
inductive Named (text : String) : Dialect → Prop
  | css (reads : Reads text "css") : Named text .css
  | scss (reads : Reads text "scss") : Named text .scss
  | less (reads : Reads text "less") : Named text .less
  | sugarss (reads : Reads text "sugarss") : Named text .sugarss

inductive OfPath (path : String) : Dialect → Prop
  | scss (named : Path.HasExtension path "scss") : OfPath path .scss
  | less (named : Path.HasExtension path "less") : OfPath path .less
  | sugarss (named : Path.HasExtension path "sss") : OfPath path .sugarss
  | css (other : ∀ ext ∈ ["scss", "less", "sss"], ¬Path.HasExtension path ext) : OfPath path .css

theorem ofName?_name (d : Dialect) : ofName? d.name = some d := by
  cases d <;> decide

theorem name_inj {c d : Dialect} (same : c.name = d.name) : c = d := by
  have found := congrArg ofName? same
  rwa [ofName?_name, ofName?_name, Option.some_inj] at found

theorem named_iff {text : String} {d : Dialect} : Named text d ↔ Reads text d.name := by
  constructor
  · rintro (reads | reads | reads | reads) <;> exact reads
  · intro reads
    cases d with
    | css => exact .css reads
    | scss => exact .scss reads
    | less => exact .less reads
    | sugarss => exact .sugarss reads

theorem eqIgnoringCase_name_iff {text : String} {d : Dialect} :
    Text.eqIgnoringCase d.name (String.ofList (Text.trim text.toList)) = true ↔ Named text d := by
  have lower : Text.lowerAscii d.name.toList = d.name.toList := by cases d <;> decide
  rw [named_iff, Reads, Text.eqIgnoringCase, lower, String.toList_ofList, Text.lowerAscii, beq_iff_eq,
    eq_comm]

theorem named_of_ofName? {text : String} {d : Dialect} (found : ofName? text = some d) :
    Named text d := by
  have written := List.find?_some found
  exact eqIgnoringCase_name_iff.1 written

theorem ofName?_eq_some_iff {text : String} {d : Dialect} : ofName? text = some d ↔ Named text d := by
  refine ⟨named_of_ofName?, fun named => ?_⟩
  cases found : ofName? text with
  | none =>
    have listed : d ∈ all := by cases d <;> decide
    exact absurd (eqIgnoringCase_name_iff.2 named) (List.find?_eq_none.1 found d listed)
  | some c =>
    have other := named_iff.1 (named_of_ofName? found)
    have same : c.name = d.name := String.toList_inj.1 (other.symm.trans (named_iff.1 named))
    rw [name_inj same]

theorem ofName?_eq_none_iff {text : String} : ofName? text = none ↔ ∀ d, ¬Named text d := by
  simp only [← ofName?_eq_some_iff, Option.eq_none_iff_forall_ne_some, ne_eq]

theorem ofExtension?_eq (ext : String) : ofExtension? ext =
    if ext.toList.map Char.toLower = "scss".toList then some .scss
    else if ext.toList.map Char.toLower = "less".toList then some .less
    else if ext.toList.map Char.toLower = "sss".toList then some .sugarss
    else none := by
  have same (name : String) (lower : name.toList.map Char.toLower = name.toList) :
      Text.eqIgnoringCase name ext = decide (ext.toList.map Char.toLower = name.toList) := by
    rw [Text.eqIgnoringCase, Text.lowerAscii, lower, Text.lowerAscii, Bool.eq_iff_iff, beq_iff_eq,
      decide_eq_true_iff, eq_comm]
  rw [ofExtension?, extensions, List.find?_cons, List.find?_cons, List.find?_cons,
    same "scss" (by decide), same "less" (by decide), same "sss" (by decide)]
  split_ifs <;> simp_all

theorem ofPath_ofExtension? (path : String) :
    OfPath path (((Path.extension? path).bind ofExtension?).getD .css) := by
  cases found : Path.extension? path with
  | none =>
    refine .css ?_
    intro ext _ has
    obtain ⟨written, found', -⟩ := Path.hasExtension_iff.1 has
    cases found.symm.trans found'
  | some written =>
    have has (ext : String) : Path.HasExtension path ext ↔
        written.toList.map Char.toLower = ext.toList := by
      rw [Path.hasExtension_iff, found]
      simp
    rw [Option.bind_some, ofExtension?_eq]
    split_ifs with scss less sss
    · exact .scss ((has "scss").2 scss)
    · exact .less ((has "less").2 less)
    · exact .sugarss ((has "sss").2 sss)
    · refine .css ?_
      simp only [List.forall_mem_cons, has]
      exact ⟨scss, less, sss, List.forall_mem_nil _⟩

end Dialect

end SheetLint
