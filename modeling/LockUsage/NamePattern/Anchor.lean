import LockUsage.NamePattern.CharClass

/-! Conditions on a position between two characters of a text. -/

namespace LockUsage.NamePattern

open Text (CodeSet)

inductive Anchor where
  | textStart
  | textEnd
  /-- A line starts. With `crlf` a carriage return ends lines too, and no line starts between it and
  a line feed. -/
  | lineStart (crlf : Bool)
  | lineEnd (crlf : Bool)
  /-- A word begins. -/
  | wordStart (ascii : Bool)
  /-- A word ends. -/
  | wordEnd (ascii : Bool)
  /-- No word character precedes. -/
  | beforeWord (ascii : Bool)
  /-- No word character follows. -/
  | afterWord (ascii : Bool)
  /-- A word begins or ends. -/
  | wordBoundary (ascii : Bool)
  | noWordBoundary (ascii : Bool)
deriving DecidableEq

def wordSet (ascii : Bool) : CodeSet := if ascii then asciiWordChars else Text.wordChars

def isWordChar (ascii : Bool) (c : Char) : Bool := (wordSet ascii).contains c.toNat

/-- The character before a position. -/
def charBefore (text : Array Char) (i : Nat) : Option Char := if i = 0 then none else text[i - 1]?

/-- Whether a word character precedes a position. -/
def wordBefore (ascii : Bool) (text : Array Char) (i : Nat) : Bool :=
  (charBefore text i).any (isWordChar ascii)

/-- Whether a word character follows a position. -/
def wordAfter (ascii : Bool) (text : Array Char) (i : Nat) : Bool :=
  (text[i]?).any (isWordChar ascii)

def Anchor.holds (text : Array Char) (i : Nat) : Anchor → Bool
  | textStart => i == 0
  | textEnd => i == text.size
  | lineStart crlf =>
    i == 0 || charBefore text i == some '\n' ||
      (crlf && charBefore text i == some '\r' && text[i]? != some '\n')
  | lineEnd crlf =>
    i == text.size ||
      if crlf then
        text[i]? == some '\r' || (text[i]? == some '\n' && charBefore text i != some '\r')
      else text[i]? == some '\n'
  | wordStart ascii => !wordBefore ascii text i && wordAfter ascii text i
  | wordEnd ascii => wordBefore ascii text i && !wordAfter ascii text i
  | beforeWord ascii => !wordBefore ascii text i
  | afterWord ascii => !wordAfter ascii text i
  | wordBoundary ascii => wordBefore ascii text i != wordAfter ascii text i
  | noWordBoundary ascii => wordBefore ascii text i == wordAfter ascii text i

end LockUsage.NamePattern
