/-!
# Text styles

A candidate is shown in a style: a foreground, a background and attributes.

* `Color` — a named colour, one of a palette of 256, or a mixture of red, green and blue.
* **`Style`** — a style; `Style.plain` styles nothing.
* `Style.ifStyled` — forgets a style that styles nothing.
-/

namespace LineShell

inductive ColorName where
  | black
  | red
  | green
  | yellow
  | blue
  | magenta
  | cyan
  | white
  deriving DecidableEq, Repr

/-- A colour.  A named colour and the palette entry of the same hue are different colours. -/
inductive Color where
  | named (name : ColorName)
  | fixed (n : UInt8)
  | rgb (r g b : UInt8)
  deriving DecidableEq, Repr

inductive Attribute where
  | bold
  | dimmed
  | italic
  | underline
  | blink
  | reverse
  | hidden
  | strikethrough
  deriving DecidableEq, Repr

def Attribute.all : List Attribute :=
  [bold, dimmed, italic, underline, blink, reverse, hidden, strikethrough]

structure Style where
  foreground : Option Color := none
  background : Option Color := none
  bold : Bool := false
  dimmed : Bool := false
  italic : Bool := false
  underline : Bool := false
  blink : Bool := false
  reverse : Bool := false
  hidden : Bool := false
  strikethrough : Bool := false
  deriving DecidableEq, Repr

namespace Style

def plain : Style := {}

def has (s : Style) : Attribute → Bool
  | .bold => s.bold
  | .dimmed => s.dimmed
  | .italic => s.italic
  | .underline => s.underline
  | .blink => s.blink
  | .reverse => s.reverse
  | .hidden => s.hidden
  | .strikethrough => s.strikethrough

def withAttribute (s : Style) : Attribute → Style
  | .bold => { s with bold := true }
  | .dimmed => { s with dimmed := true }
  | .italic => { s with italic := true }
  | .underline => { s with underline := true }
  | .blink => { s with blink := true }
  | .reverse => { s with reverse := true }
  | .hidden => { s with hidden := true }
  | .strikethrough => { s with strikethrough := true }

/-- The attributes of a style, in the order of `Attribute.all`. -/
def attributes (s : Style) : List Attribute :=
  Attribute.all.filter s.has

/-- A style, unless it styles nothing. -/
def ifStyled (s : Style) : Option Style :=
  if s = plain then none else some s

end Style

end LineShell
