/-!
# Characters, gaps and strings of documents

Readers take a value off the front of a text and answer what is left; there is no answer where
the text does not start with such a value. A line ends with a line feed, which a carriage return
may precede; a carriage return stands nowhere else.

Strings are written in quotes, where a backslash introduces an escape, or in apostrophes, where
every character stands for itself; three quotes or apostrophes around a string let it run over
several lines.
-/

namespace GpuQuota.Toml

/-- Takes a value off the front of a text. -/
abbrev Reader (α : Type) := List Char → Option (α × List Char)

/-- A space or a tab. -/
def isGap (c : Char) : Bool := c = ' ' || c = '\t'

/-- Whether a character may stand in a comment: no control character but the tab. -/
def isPlain (c : Char) : Bool := c = '\t' || (' ' ≤ c && c ≠ '\x7f')

/-- Drops spaces and tabs. -/
def dropGap (s : List Char) : List Char := s.dropWhile isGap

/-- What follows a line end, if the text starts with one. -/
def newline? : List Char → Option (List Char)
  | '\n' :: rest => some rest
  | '\r' :: '\n' :: rest => some rest
  | _ => none

/-- Drops a comment, if the text starts with one. -/
def dropComment : List Char → List Char
  | '#' :: rest => rest.dropWhile isPlain
  | s => s

/-- What follows the rest of a line, which may hold blanks and a comment only. The last line need
not have an end. -/
def lineEnd? (s : List Char) : Option (List Char) :=
  match dropComment (dropGap s) with
  | [] => some []
  | rest => newline? rest

/-- Drops blanks, line ends and comments. -/
def dropSpace (inComment : Bool) : List Char → List Char
  | [] => []
  | '\n' :: rest => dropSpace false rest
  | '\r' :: '\n' :: rest => dropSpace false rest
  | c :: rest =>
    if inComment then if isPlain c then dropSpace true rest else c :: rest
    else if isGap c then dropSpace false rest
    else if c = '#' then dropSpace true rest
    else c :: rest

/-! ## Escapes

An escape stands for one character. A code that is no character is no escape. -/

/-- The value of a hexadecimal digit. -/
def hexDigit? (c : Char) : Option Nat :=
  if '0' ≤ c ∧ c ≤ '9' then some (c.toNat - '0'.toNat)
  else if 'a' ≤ c ∧ c ≤ 'f' then some (c.toNat - 'a'.toNat + 10)
  else if 'A' ≤ c ∧ c ≤ 'F' then some (c.toNat - 'A'.toNat + 10)
  else none

/-- The character of a code given in hexadecimal digits. -/
def charOfHex? (digits : List Char) : Option Char := do
  let code ← digits.foldlM (fun code c => (hexDigit? c).map (code * 16 + ·)) 0
  if h : code.isValidChar then some (Char.ofNatAux code h) else none

/-- The character that a letter after a backslash stands for. -/
def escapeOf? : Char → Option Char
  | 'b' => some '\x08'
  | 't' => some '\t'
  | 'n' => some '\n'
  | 'f' => some '\x0c'
  | 'r' => some '\r'
  | '"' => some '"'
  | '\\' => some '\\'
  | _ => none

/-- Whether nothing but blanks stands before the next line end. -/
def endsLine (s : List Char) : Bool := (newline? (dropGap s)).isSome

/-! ## Strings

A string ends at the first mark that is its own and not escaped. The line feed right after three
opening marks does not belong to it. -/

/-- Puts a character in front of what a reader has found. -/
def withChar (c : Char) : Option (List Char × List Char) → Option (List Char × List Char) :=
  Option.map fun (text, rest) => (c :: text, rest)

/-- Reads on to the closing quote of a string on one line. -/
def quoted : Reader (List Char)
  | '"' :: rest => some ([], rest)
  | '\\' :: 'u' :: a :: b :: c :: d :: rest => do
    withChar (← charOfHex? [a, b, c, d]) (quoted rest)
  | '\\' :: 'U' :: a :: b :: c :: d :: e :: f :: g :: h :: rest => do
    withChar (← charOfHex? [a, b, c, d, e, f, g, h]) (quoted rest)
  | '\\' :: c :: rest => do withChar (← escapeOf? c) (quoted rest)
  | c :: rest => if isPlain c then withChar c (quoted rest) else none
  | [] => none

/-- Reads on to the closing apostrophe of a string on one line. -/
def literal : Reader (List Char)
  | '\'' :: rest => some ([], rest)
  | c :: rest => if isPlain c then withChar c (literal rest) else none
  | [] => none

/-- Reads on to the three quotes that close a string of several lines; up to two more quotes right
before them belong to the string. A backslash at the end of a line takes away all blanks and line
ends up to the next character; while that happens, `skipping` holds. -/
def quotedLines (skipping : Bool) : Reader (List Char)
  | '"' :: '"' :: '"' :: '"' :: '"' :: rest => some (['"', '"'], rest)
  | '"' :: '"' :: '"' :: '"' :: rest => some (['"'], rest)
  | '"' :: '"' :: '"' :: rest => some ([], rest)
  | '\r' :: '\n' :: rest =>
    if skipping then quotedLines true rest else withChar '\n' (quotedLines false rest)
  | '\n' :: rest =>
    if skipping then quotedLines true rest else withChar '\n' (quotedLines false rest)
  | '\\' :: 'u' :: a :: b :: c :: d :: rest => do
    withChar (← charOfHex? [a, b, c, d]) (quotedLines false rest)
  | '\\' :: 'U' :: a :: b :: c :: d :: e :: f :: g :: h :: rest => do
    withChar (← charOfHex? [a, b, c, d, e, f, g, h]) (quotedLines false rest)
  | '\\' :: c :: rest =>
    if endsLine (c :: rest) then quotedLines true (c :: rest)
    else do withChar (← escapeOf? c) (quotedLines false rest)
  | c :: rest =>
    if skipping && isGap c then quotedLines true rest
    else if isPlain c then withChar c (quotedLines false rest)
    else none
  | [] => none

/-- Reads on to the three apostrophes that close a string of several lines; up to two more right
before them belong to the string. -/
def literalLines : Reader (List Char)
  | '\'' :: '\'' :: '\'' :: '\'' :: '\'' :: rest => some (['\'', '\''], rest)
  | '\'' :: '\'' :: '\'' :: '\'' :: rest => some (['\''], rest)
  | '\'' :: '\'' :: '\'' :: rest => some ([], rest)
  | '\r' :: '\n' :: rest => withChar '\n' (literalLines rest)
  | '\n' :: rest => withChar '\n' (literalLines rest)
  | c :: rest => if isPlain c then withChar c (literalLines rest) else none
  | [] => none

/-- Drops the line end right after three opening quotes. -/
def dropNewline (s : List Char) : List Char := (newline? s).getD s

/-- A string of any form. -/
def string : Reader (List Char)
  | '"' :: '"' :: '"' :: rest => quotedLines false (dropNewline rest)
  | '"' :: rest => quoted rest
  | '\'' :: '\'' :: '\'' :: rest => literalLines (dropNewline rest)
  | '\'' :: rest => literal rest
  | _ => none

/-! ## Keys

The part of a key is bare or a string on one line. -/

/-- Whether a character may stand in a key without quotes. -/
def isBare (c : Char) : Bool :=
  ('a' ≤ c && c ≤ 'z') || ('A' ≤ c && c ≤ 'Z') || ('0' ≤ c && c ≤ '9') || c = '_' || c = '-'

/-- One part of a key. -/
def simpleKey : Reader (List Char)
  | '"' :: rest => quoted rest
  | '\'' :: rest => literal rest
  | s =>
    match s.takeWhile isBare with
    | [] => none
    | name => some (name, s.dropWhile isBare)

/-- How many parts a key or how many levels a value may have: less than this. -/
def depthLimit : Nat := 80

/-- The parts of a key that follow the first; `budget` bounds their number. -/
def moreKeys : Nat → Reader (List (List Char))
  | 0, _ => none
  | budget + 1, s =>
    match dropGap s with
    | '.' :: rest => do
      let (name, rest) ← simpleKey (dropGap rest)
      let (names, rest) ← moreKeys budget rest
      some (name :: names, rest)
    | rest => some ([], rest)

/-- A key: parts with dots between them, and blanks around. -/
def key (s : List Char) : Option (List (List Char) × List Char) := do
  let (name, rest) ← simpleKey (dropGap s)
  let (names, rest) ← moreKeys (depthLimit - 1) rest
  some (name :: names, rest)

end GpuQuota.Toml
