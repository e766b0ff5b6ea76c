namespace SheetLint.Terminal

inductive Color where
  | red
  | yellow
  | blue
  | cyan
deriving DecidableEq, Repr

def Color.code : Color → String
  | red => "31"
  | yellow => "33"
  | blue => "34"
  | cyan => "36"

def sequence (code : String) : String :=
  "\x1b[" ++ code ++ "m"

def bold (text : String) : String :=
  sequence "1" ++ text ++ sequence "0"

def colored (color : Color) (text : String) : String :=
  sequence color.code ++ text ++ sequence "39"

/-- Text that is bold, and colored if a color is given, on a terminal that shows colors. -/
def paint (colors : Bool) (color : Option Color) (text : String) : String :=
  if colors then
    match color with
    | some c => bold (colored c text)
    | none => bold text
  else text

def errorLabel (colors : Bool) : String :=
  paint colors (some .red) "error:"

def noteLabel (colors : Bool) : String :=
  paint colors (some .cyan) "note:"

def infoLabel (colors : Bool) : String :=
  paint colors (some .blue) "info:"

end SheetLint.Terminal
