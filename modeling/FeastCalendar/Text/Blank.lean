/-!
White space: the separators and control characters that part words, in any script.
-/

namespace FeastCalendar.Text

def isBlank (c : Char) : Bool :=
  let n := c.toNat
  (9 ≤ n && n ≤ 13) || (28 ≤ n && n ≤ 32) || n == 0x85 || n == 0xA0 || n == 0x1680 ||
    (0x2000 ≤ n && n ≤ 0x200A) || n == 0x2028 || n == 0x2029 || n == 0x202F || n == 0x205F ||
    n == 0x3000

def dropTail (drops : Char → Bool) (text : List Char) : List Char :=
  (text.reverse.dropWhile drops).reverse

def trimBlanks (text : List Char) : List Char :=
  dropTail isBlank (text.dropWhile isBlank)

def strip (text : String) : String := String.ofList (trimBlanks text.toList)

/-- Writes each run of blanks as one space; `after` holds inside a run. -/
def squeezeFrom : Bool → List Char → List Char
  | _, [] => []
  | after, c :: rest =>
    if isBlank c then
      if after then squeezeFrom true rest else ' ' :: squeezeFrom true rest
    else c :: squeezeFrom false rest

def squeeze (text : List Char) : List Char := squeezeFrom false text

/-- The pieces between the marks, one more than there are marks. -/
def splitAt (mark : Char) : List Char → List (List Char)
  | [] => [[]]
  | c :: rest =>
    if c = mark then [] :: splitAt mark rest
    else match splitAt mark rest with
      | [] => [[c]]
      | piece :: pieces => (c :: piece) :: pieces

def pieces (mark : Char) (text : String) : List String :=
  (splitAt mark text.toList).map String.ofList

def padRight (width : Nat) (text : String) : String :=
  text ++ String.ofList (List.replicate (width - text.length) ' ')

def padLeft (width : Nat) (text : String) : String :=
  String.ofList (List.replicate (width - text.length) ' ') ++ text

def joinWith (separator : String) : List String → String
  | [] => ""
  | [part] => part
  | part :: parts => part ++ separator ++ joinWith separator parts

end FeastCalendar.Text
