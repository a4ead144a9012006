import FormulaEdit.Markup.Basic

/-!
# Coloured output

Text for a terminal is wrapped in control sequences. With colour switched off it is left alone.
-/

namespace FormulaEdit

/-- The codes of a style: those of the weight before that of the colour. -/
structure Style where
  codes : List Nat
  deriving DecidableEq, Repr

namespace Style

/-- Text as it is. -/
def normal : Style := ⟨[]⟩

def bold : Style := ⟨[1]⟩
def dimmed : Style := ⟨[2]⟩
def red : Style := ⟨[31]⟩
def boldRed : Style := ⟨[1, 31]⟩
def underlinedRed : Style := ⟨[4, 31]⟩
def green : Style := ⟨[32]⟩
def boldGreen : Style := ⟨[1, 32]⟩
def yellow : Style := ⟨[33]⟩
def boldBlue : Style := ⟨[1, 34]⟩
def cyan : Style := ⟨[36]⟩
def boldBrightBlue : Style := ⟨[1, 94]⟩
def brightWhite : Style := ⟨[97]⟩
def boldBrightWhite : Style := ⟨[1, 97]⟩

/-- The control sequence that ends a style. -/
def reset : String := "\x1b[0m"

/-- The control sequence that starts a style. -/
def opening (style : Style) : String :=
  "\x1b[" ++ ";".intercalate (style.codes.map toString) ++ "m"

/-- Text in a style. Where the text itself ends a style, the style is started again. -/
def paint (style : Style) (colour : Bool) (text : String) : String :=
  if !colour || style.codes.isEmpty then text
  else style.opening ++ (reset ++ style.opening).intercalate (text.splitOn reset) ++ reset

/-- The style of a token class. -/
def ofTokenClass (tokenClass : Option String) : Style :=
  match tokenClass with
  | none => normal
  | some name =>
    match name.toList with
    | 'k' :: _ => boldBlue
    | 's' :: _ => green
    | 'm' :: _ => cyan
    | 'n' :: _ => brightWhite
    | _ => if name = "err" then underlinedRed else normal

end Style

/-- Highlighted text in colours. -/
def Markup.painted (colour : Bool) (markup : Markup) : String :=
  String.join (markup.spans.map fun span ↦
    (Style.ofTokenClass span.tokenClass).paint colour span.text)

end FormulaEdit
