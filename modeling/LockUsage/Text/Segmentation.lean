import LockUsage.Text.Property

/-! What characters do to the borders of characters as seen by users, of words and of sentences. -/

namespace LockUsage.Text

/-- Hangul syllables of two parts. -/
def openSyllables : CodeSet := .ofRanges ((List.range 399).map fun k =>
  (0xac00 + 28 * k, 0xac00 + 28 * k))

namespace Property

/-- The set for one part in the structure of user-perceived characters. -/
def graphemePart? : String → Option CodeSet
  | "cr" => some (.single 0xd)
  | "lf" => some (.single 0xa)
  | "cn" | "control" =>
    some (((Definition.categories ["Zl", "Zp", "Cc", "Cf"]).set.union
      ((Definition.categories ["Cn"]).set.inter defaultIgnorableCodePoint.set)).minus
      (Definition.or (.or (.or (.listed "A D 200D") graphemeExtend) emojiModifier)
        prependedConcatenationMark).set)
  | "ex" | "extend" => some (Definition.or graphemeExtend emojiModifier).set
  | "zwj" => some (.single 0x200d)
  | "ri" | "regionalindicator" => some regionalIndicator.set
  | "pp" | "prepend" =>
    some (Definition.or prependedConcatenationMark
      (.listed "D4E 111C2-111C3 113D1 1193F 11941 11A3A 11A84-11A89 11D46 11F02")).set
  | "sm" | "spacingmark" =>
    some (Definition.without (.or (.categories ["Mc"]) (.listed "E33 EB3"))
      (.or (.or graphemeExtend emojiModifier) (.listed
        "102B 102C 1038 1062-1064 1067-106D 1083 1087-108C 108F 109A-109C 1A61 1A63 1A64 AA7B AA7D
        11720 11721"))).set
  | "l" => some (.ofText "1100-115F A960-A97C")
  | "v" => some (.ofText "1160-11A7 D7B0-D7C6 16D63 16D67-16D6A")
  | "t" => some (.ofText "11A8-11FF D7CB-D7FB")
  | "lv" => some openSyllables
  | "lvt" => some ((CodeSet.range 0xac00 0xd7a3).minus openSyllables)
  | _ => none

def hebrewLetters : CodeSet := (Definition.script "Hebr").set.inter (withCategory ["Lo"])

def katakana : Definition := .or (.script "Kana") (.listed "3031-3035 309B 309C 30A0 30FC FF70")

/-- Scripts that are written without blanks between words. -/
def unspaced : Definition :=
  .or (.or (.or (.or (.script "Thai") (.script "Laoo")) (.or (.script "Khmr") (.script "Mymr")))
    (.or (.or (.script "Talu") (.script "Tale")) (.or (.script "Lana") (.script "Tavt"))))
    (.or (.script "Ahom") (.script "Hira"))

def wordExtend : Definition :=
  .without (.or (.or graphemeExtend (.categories ["Mc"])) emojiModifier) (.listed "200D")

/-- The set for one part in the structure of words. -/
def wordPart? : String → Option CodeSet
  | "cr" => some (.single 0xd)
  | "lf" => some (.single 0xa)
  | "nl" | "newline" => some (.ofText "B C 85 2028 2029")
  | "extend" => some wordExtend.set
  | "zwj" => some (.single 0x200d)
  | "fo" | "format" =>
    some (Definition.without (.categories ["Cf"])
      (.or (.or (.listed "200B-200D") wordExtend) prependedConcatenationMark)).set
  | "ri" | "regionalindicator" => some regionalIndicator.set
  | "ka" | "katakana" => some katakana.set
  | "hl" | "hebrewletter" => some hebrewLetters
  | "le" | "aletter" =>
    some (((alphabetic.set.minus
      (Definition.or (.or ideographic katakana) (.or unspaced wordExtend)).set).minus
      hebrewLetters).union (.ofText
        "2C2-2C5 2D2-2D7 2DE-2DF 2E5-2EB 2ED 2EF-2FF 55A-55C 55E 58A 5F3 70F A708-A716 A720-A721
        A789-A78A AB5B"))
  | "ex" | "extendnumlet" => some (Definition.or (.categories ["Pc"]) (.listed "202F")).set
  | "ml" | "midletter" => some (.ofText "3A B7 387 55F 5F4 2027 FE13 FE55 FF1A")
  | "mb" | "midnumlet" => some (.ofText "2E 2018 2019 2024 FE52 FF07 FF0E")
  | "mn" | "midnum" =>
    some (.ofText "2C 3B 37E 589 60C-60D 66C 7F8 2044 FE10 FE14 FE50 FE54 FF0C FF1B")
  | "nu" | "numeric" =>
    some (Definition.or (.categories ["Nd"])
      (.listed "600-605 66B 6DD 890-891 8E2 110BD 110CD")).set
  | "sq" | "singlequote" => some (.single 0x27)
  | "dq" | "doublequote" => some (.single 0x22)
  | "wsegspace" =>
    some (Definition.without (.categories ["Zs"]) (.listed "A0 2007 202F")).set
  | _ => none

def sentenceExtend : Definition :=
  .or (.or graphemeExtend (.categories ["Mc"])) (.listed "200D")

def sentenceLower : Definition :=
  .without lowercase (.or graphemeExtend (.listed "10D0-10FA 10FD-10FF"))

def sentenceUpper : Definition :=
  .without (.or uppercase (.categories ["Lt"])) (.listed "1C90-1CBA 1CBD-1CBF")

/-- The set for one part in the structure of sentences. -/
def sentencePart? : String → Option CodeSet
  | "cr" => some (.single 0xd)
  | "lf" => some (.single 0xa)
  | "se" | "sep" => some (.ofText "85 2028 2029")
  | "ex" | "extend" => some sentenceExtend.set
  | "fo" | "format" =>
    some (Definition.without (.categories ["Cf"])
      (.or sentenceExtend (.listed "600-605 6DD 890-891 8E2 110BD 110CD"))).set
  | "sp" => some (Definition.without whiteSpace (.listed "A D 85 2028 2029")).set
  | "lo" | "lower" => some sentenceLower.set
  | "up" | "upper" => some sentenceUpper.set
  | "le" | "oletter" =>
    some (Definition.without (.or alphabetic (.listed "5F3"))
      (.or (.or sentenceLower sentenceUpper) sentenceExtend)).set
  | "nu" | "numeric" =>
    some (Definition.or (.categories ["Nd"])
      (.listed "600-605 66B-66C 6DD 890-891 8E2 110BD 110CD")).set
  | "at" | "aterm" => some (.ofText "2E 2024 FE52 FF0E")
  | "st" | "sterm" =>
    some (Definition.without sentenceTerminal (.listed "2E 2024 FE52 FF0E")).set
  | "cl" | "close" =>
    some (Definition.or (.categories ["Ps", "Pe", "Pf", "Pi"])
      (.listed "22 27 275B-2760 2E00-2E01 2E06-2E08 2E0B 1F676-1F678")).set
  | "sc" | "scontinue" =>
    some (.ofText
      "2C-2D 3A-3B 37E 55D 60C-60D 7F8 1802 1808 2013-2014 3001 FE10-FE11 FE13-FE14 FE31-FE32
      FE50-FE51 FE54-FE55 FE58 FE63 FF0C-FF0D FF1A-FF1B FF64")
  | _ => none

end Property

end LockUsage.Text
