import SheetLint.Text.Blank

namespace SheetLint

inductive Dialect where
  | css
  | scss
  | less
  | sugarss
deriving DecidableEq, Repr

namespace Dialect

def all : List Dialect := [css, scss, less, sugarss]

def name : Dialect → String
  | css => "css"
  | scss => "scss"
  | less => "less"
  | sugarss => "sugarss"

/-- The dialect of that name, in any case and with blanks around it. -/
def ofName? (text : String) : Option Dialect :=
  all.find? fun d => Text.eqIgnoringCase d.name (String.ofList (Text.trim text.toList))

/-- The file extensions that imply a dialect other than plain style sheets. -/
def extensions : List (String × Dialect) :=
  [("scss", scss), ("less", less), ("sss", sugarss)]

/-- The dialect that a file extension implies, in any case. -/
def ofExtension? (extension : String) : Option Dialect :=
  (extensions.find? fun e => Text.eqIgnoringCase e.1 extension).map (·.2)

end Dialect

end SheetLint
