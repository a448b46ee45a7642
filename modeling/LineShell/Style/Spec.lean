import LineShell.Style.Basic
import LineShell.Text.Words

/-!
# Styles as words

In the settings a style is written in words, such as `bold green`.

* `StyleWord` — what one word says; `StyleWord.ofText` reads it without regard to case.
* **`Style.ofSpec`** — the style that a text names, if it names one: every word has to be known,
  and of several colours the last one counts.
-/

namespace LineShell

/-- A word of a style: an attribute, or the colour of the text. -/
inductive StyleWord where
  | attr (a : Attribute)
  | color (c : ColorName)
  deriving DecidableEq, Repr

namespace StyleWord

/-- The words in lower case and what they say. -/
def table : List (String × StyleWord) :=
  [("bold", .attr .bold), ("dim", .attr .dimmed), ("dimmed", .attr .dimmed),
    ("italic", .attr .italic), ("underline", .attr .underline),
    ("reverse", .attr .reverse), ("black", .color .black), ("red", .color .red),
    ("green", .color .green), ("yellow", .color .yellow), ("blue", .color .blue),
    ("magenta", .color .magenta), ("purple", .color .magenta), ("cyan", .color .cyan),
    ("white", .color .white)]

/-- What a word says, if it is known. -/
def ofText (word : List Char) : Option StyleWord :=
  table.lookup (String.ofList (word.map Text.lowerToAscii))

/-- The effect of one word. -/
def apply : StyleWord → Style → Style
  | attr a, s => s.withAttribute a
  | color c, s => { s with foreground := some (.named c) }

/-- The effect of a row of words, the first word first. -/
def applyAll (ws : List StyleWord) (s : Style) : Style :=
  ws.foldl (fun s w => w.apply s) s

end StyleWord

/-- **The style that a text names**; none where it has no words or an unknown one. -/
def Style.ofSpec (spec : String) : Option Style :=
  ((Text.words spec.toList).mapM StyleWord.ofText).bind fun ws =>
    (StyleWord.applyAll ws plain).ifStyled

end LineShell
