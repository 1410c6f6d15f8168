import Monitor68.Settings.Basic

/-!
# Writing settings

Settings are written as one JSON object without white space, with all
fields in their order.
-/

namespace Monitor68

open Text

namespace Json

/-- A member of an object: a name and the text of a value. -/
def memberText (name value : String) : String := "\"" ++ name ++ "\":" ++ value

/-- The object with the given members. -/
def objectText (members : List String) : String :=
  "\x7b" ++ String.intercalate "," members ++ "\x7d"

def boolText (b : Bool) : String := if b then "true" else "false"

end Json

open Json

def Screen.Layout.toJson (l : Screen.Layout) : String :=
  objectText
    [memberText "base_address" (Numeral.decimal l.base.toNat),
     memberText "width" (Numeral.decimal l.width.toNat),
     memberText "height" (Numeral.decimal l.height.toNat),
     memberText "frame_swap" (boolText l.frameSwap),
     memberText "refresh_rate_hz" (Numeral.decimal l.refreshRate.toNat),
     memberText "irq_line" (Numeral.decimal l.interruptLine.toNat)]

def Settings.toJson (s : Settings) : String :=
  objectText
    [memberText "base_address" (Numeral.decimal s.base.toNat),
     memberText "stack_address" (Numeral.decimal s.stack.toNat),
     memberText "poll_interval_ms" (Numeral.decimal s.pollInterval.toNat),
     memberText "screen" s.screen.toJson]

end Monitor68
