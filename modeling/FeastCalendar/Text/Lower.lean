/-!
Lower case, as far as phrases and identifiers can tell: they are read by their ASCII letters, so
only characters whose lower-case form holds an ASCII letter change. Outside ASCII these are the
dotted capital I, which keeps its dot as a mark of its own, and the Kelvin sign.
-/

namespace FeastCalendar.Text

def lowerChar (c : Char) : List Char :=
  let n := c.toNat
  if 65 ≤ n && n ≤ 90 then [Char.ofNat (n + 32)]
  else if n == 0x130 then ['i', Char.ofNat 0x307]
  else if n == 0x212A then ['k']
  else [c]

def lowerChars (text : List Char) : List Char := text.flatMap lowerChar

def lower (text : String) : String := String.ofList (lowerChars text.toList)

end FeastCalendar.Text
