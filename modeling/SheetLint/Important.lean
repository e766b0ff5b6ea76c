import SheetLint.Text.Blank

namespace SheetLint

def importantFlag : List Char :=
  "!important".toList

/-- A raw value without its closing flag and the blanks before that, and whether it had the flag. -/
def splitImportant (raw : List Char) : List Char × Bool :=
  let cut := raw.length - importantFlag.length
  if Text.lowerAscii (raw.drop cut) = importantFlag then (Text.trimEnd (raw.take cut), true)
  else (raw, false)

end SheetLint
