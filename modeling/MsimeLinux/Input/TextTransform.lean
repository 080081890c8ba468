import Mathlib.Data.List.Basic

/-!
# Punctuation and character width (`TextTransform.cpp`)

The text side of the input controller: the Chinese punctuation formatter with
its quote and book-title state, the closing mark that pairs with an opening
one, and the full-width form of an ASCII character.

Committed text is a list of code points. A `std::string` holding UTF-8 and such
a list carry the same information, and the byte tests the source makes
(`size() == 1`, `back() <= 0x7f`) read the same on either: a one-byte UTF-8
string is one ASCII code point.
-/

namespace MsimeLinux

/-- A UTF-8 `std::string`, as its code points. -/
abbrev Text := List Char

/-- `PunctuationMode` (TextTransform.h:9). -/
inductive PunctuationMode where
  | chinese
  | english
  deriving DecidableEq, Repr

/-- `PunctuationLock` (TextTransform.h:18). -/
inductive PunctuationLock where
  | follow
  | chinese
  | english
  deriving DecidableEq, Repr

/-- `CharacterWidth` (TextTransform.h:25). -/
inductive CharacterWidth where
  | half
  | full
  deriving DecidableEq, Repr

/-- The state of `PunctuationFormatter` (TextTransform.h:31). -/
structure PunctuationFormatter where
  doubleQuoteOpen : Bool := true
  singleQuoteOpen : Bool := true
  bookTitleNesting : Nat := 0
  deriving DecidableEq, Repr

namespace PunctuationFormatter

/-- The marks whose Chinese form does not depend on the formatter's state
(the `switch` of TextTransform.cpp:53). The empty text is the `default` case. -/
def stateless : Char → Text
  | '`' => ['·']
  | '~' => ['~']
  | '!' => ['！']
  | '@' => ['@']
  | '#' => ['#']
  | '$' => ['￥']
  | '%' => ['%']
  | '^' => ['…', '…']
  | '&' => ['&']
  | '*' => ['*']
  | '(' => ['（']
  | ')' => ['）']
  | '_' => ['—', '—']
  | '[' => ['【']
  | ']' => ['】']
  | '{' => ['{']
  | '}' => ['}']
  | '\\' => ['、']
  | ';' => ['；']
  | ':' => ['：']
  | ',' => ['，']
  | '.' => ['。']
  | '?' => ['？']
  | _ => []

/-- `PunctuationFormatter::chinese` (TextTransform.cpp:38). -/
def chinese (f : PunctuationFormatter) (ascii : Char) : Text × PunctuationFormatter :=
  if ascii = '"' then
    (if f.doubleQuoteOpen then ['“'] else ['”'],
      { f with doubleQuoteOpen := !f.doubleQuoteOpen })
  else if ascii = '\'' then
    (if f.singleQuoteOpen then ['‘'] else ['’'],
      { f with singleQuoteOpen := !f.singleQuoteOpen })
  else if ascii = '<' then
    (if f.bookTitleNesting = 0 then ['《'] else ['〈'],
      { f with bookTitleNesting := f.bookTitleNesting + 1 })
  else if ascii = '>' then
    if f.bookTitleNesting > 0 then
      (if f.bookTitleNesting - 1 = 0 then ['》'] else ['〉'],
        { f with bookTitleNesting := f.bookTitleNesting - 1 })
    else (['》'], f)
  else (stateless ascii, f)

/-- `PunctuationFormatter::reset` (TextTransform.cpp:119). -/
def reset (_ : PunctuationFormatter) : PunctuationFormatter := {}

end PunctuationFormatter

/-- `is_punctuation` (TextTransform.cpp:126). -/
def isPunctuation (ascii : Char) : Bool :=
  ascii ∈ ['"', '\'', '`', '~', '!', '@', '#', '$', '%', '^', '&', '*', '(', ')', '_',
    '[', ']', '{', '}', '\\', ';', ':', ',', '<', '.', '>', '?']

/-- `should_keep_ascii_punctuation` (TextTransform.cpp:163). -/
def shouldKeepAsciiPunctuation (ascii : Char) (precedingCharacter : Option Char) : Bool :=
  if ascii ≠ ',' ∧ ascii ≠ '.' ∧ ascii ≠ ':' then false
  else match precedingCharacter with
    | none => false
    | some preceding =>
      ('0' ≤ preceding && preceding ≤ '9') || ('A' ≤ preceding && preceding ≤ 'Z') ||
        ('a' ≤ preceding && preceding ≤ 'z')

/-- `paired_punctuation_closing` (TextTransform.cpp:174). -/
def pairedPunctuationClosing (opening : Text) : Text :=
  if opening = ['“'] then ['”']
  else if opening = ['‘'] then ['’']
  else if opening = ['【'] then ['】']
  else if opening = ['{'] then ['}']
  else if opening = ['《'] then ['》']
  else if opening = ['〈'] then ['〉']
  else if opening = ['（'] then ['）']
  else []

/-- `to_full_width` (TextTransform.cpp:207). -/
def toFullWidth (ascii : Char) : Text :=
  if ascii.toNat = 0x20 then [Char.ofNat 0x3000]
  else if ascii.toNat < 0x21 ∨ ascii.toNat > 0x7e then []
  else [Char.ofNat (0xff01 + ascii.toNat - 0x21)]

end MsimeLinux
