import Peg.Text.Quoted

/-!
The input as a trace shows it: a window of fixed width between bars.
-/
namespace Peg.Trace

def windowWidth : Nat := 33

def columnWidth : Nat := 35

/-- What stands between the bars: the start of the input with its control
characters escaped. Quotes stand for themselves, and the window is cut once more
because an escape is longer than the character it names. -/
def window (input : Text) : Text :=
  let written := Text.escaped (input.take windowWidth)
  let written := Text.replace "\\\"".toList ['"'] written
  let written := Text.replace "\\'".toList ['\''] written
  written.take windowWidth

def column (input : Text) : Text := Text.padRight columnWidth ('|' :: window input ++ ['|'])

end Peg.Trace
