/-
  Highlighting/Regex/Property.lean
  ================================
  **Sets of characters with a name**: general categories, scripts and other
  properties.

  Names are taken loosely: capitals, blanks, hyphens and underscores make no
  difference, nor does `is` in front.  A set is named alone, or as the value
  of a property; a category or a script does not need its property.
-/
import Highlighting.Regex.Syntax
import Highlighting.Text.CategoryTable
import Highlighting.Text.PropertyTable
import Highlighting.Text.ScriptTable

namespace Highlighting.Regex.Property

open CharTable

def inAny (tables : List CharTable) : CharSet := .unionAll (tables.map .table)

/-! ## General categories -/

def casedLetters : List CharTable := [uppercaseLetters, lowercaseLetters, titlecaseLetters]

def letters : List CharTable := casedLetters ++ [modifierLetters, otherLetters]

def marks : List CharTable := [nonspacingMarks, spacingMarks, enclosingMarks]

def numbers : List CharTable := [decimalNumbers, letterNumbers, otherNumbers]

def punctuation : List CharTable :=
  [connectorPunctuation, dashPunctuation, openPunctuation, closePunctuation, initialPunctuation,
    finalPunctuation, otherPunctuation]

def symbols : List CharTable := [mathSymbols, currencySymbols, modifierSymbols, otherSymbols]

def separators : List CharTable := [spaceSeparators, lineSeparators, paragraphSeparators]

/-- Assigned characters that are none of the above. -/
def others : List CharTable := [controls, formats, privateUse]

def assigned : CharSet :=
  inAny (letters ++ marks ++ numbers ++ punctuation ++ symbols ++ separators ++ others)

/-- The general categories and their groups, by name. -/
def categories : List (List String × CharSet) := [
  (["any"], .all),
  (["ascii"], .ascii),
  (["assigned"], assigned),
  (["l", "letter"], inAny letters),
  (["lc", "casedletter"], inAny casedLetters),
  (["lu", "uppercaseletter"], .table uppercaseLetters),
  (["ll", "lowercaseletter"], .table lowercaseLetters),
  (["lt", "titlecaseletter"], .table titlecaseLetters),
  (["lm", "modifierletter"], .table modifierLetters),
  (["lo", "otherletter"], .table otherLetters),
  (["m", "mark", "combiningmark"], inAny marks),
  (["mn", "nonspacingmark"], .table nonspacingMarks),
  (["mc", "spacingmark"], .table spacingMarks),
  (["me", "enclosingmark"], .table enclosingMarks),
  (["n", "number"], inAny numbers),
  (["nd", "decimalnumber", "digit"], .digit),
  (["nl", "letternumber"], .table letterNumbers),
  (["no", "othernumber"], .table otherNumbers),
  (["p", "punctuation", "punct"], inAny punctuation),
  (["pc", "connectorpunctuation"], .table connectorPunctuation),
  (["pd", "dashpunctuation"], .table dashPunctuation),
  (["ps", "openpunctuation"], .table openPunctuation),
  (["pe", "closepunctuation"], .table closePunctuation),
  (["pi", "initialpunctuation"], .table initialPunctuation),
  (["pf", "finalpunctuation"], .table finalPunctuation),
  (["po", "otherpunctuation"], .table otherPunctuation),
  (["s", "symbol"], inAny symbols),
  (["sm", "mathsymbol"], .table mathSymbols),
  (["sc", "currencysymbol"], .table currencySymbols),
  (["sk", "modifiersymbol"], .table modifierSymbols),
  (["so", "othersymbol"], .table otherSymbols),
  (["z", "separator"], inAny separators),
  (["zs", "spaceseparator"], .table spaceSeparators),
  (["zl", "lineseparator"], .table lineSeparators),
  (["zp", "paragraphseparator"], .table paragraphSeparators),
  (["c", "other"], .union (inAny others) (.compl assigned)),
  (["cc", "control", "cntrl"], .table controls),
  (["cf", "format"], .table formats),
  (["cn", "unassigned"], .compl assigned),
  (["co", "privateuse"], .table privateUse)]

/-! ## Scripts -/

def scriptNumber? (name : String) : Option Nat := Script.names.findIdx? (·.contains name)

def script (number : Nat) : CharSet :=
  .table ((Script.runs.filter (·.2.2 == number)).map fun (first, last, _) => (first, last))

/-- The characters that the script with a number is used with. -/
def scriptUse (number : Nat) : CharSet :=
  let usual := Script.names[number]?.bind (·.head?)
  let shared (scripts : List String → Bool) : CharSet :=
    .table
      ((Script.shared.filter (scripts ·.2.2)).map fun (first, last, _) => (first, last)).toArray
  .union (.inter (script number) (.compl (shared fun _ => true)))
    (shared fun scripts => usual.any scripts.contains)

/-! ## Properties that hold or do not -/

def idStart : CharSet :=
  .inter (inAny (letters ++ [letterNumbers, otherIdStart])) (.compl (.single '\u2e2f'))

def idContinue : CharSet :=
  .union idStart (inAny [nonspacingMarks, spacingMarks, decimalNumbers, connectorPunctuation,
    otherIdContinue])

/-- Characters that go with the one before. -/
def graphemeExtend : CharSet := inAny [nonspacingMarks, enclosingMarks, otherGraphemeExtend]

/-- Characters that others can go with. -/
def graphemeBase : CharSet :=
  .inter assigned (.compl (.union graphemeExtend (inAny (others ++ [lineSeparators,
    paragraphSeparators]))))

/-- Letters and what counts as one. -/
def alphabetic : CharSet := inAny (letters ++ [letterNumbers, otherAlphabetic])

/-- Properties that hold or do not, by name. -/
def properties : List (List String × CharSet) := [
  (["alphabetic", "alpha"], alphabetic),
  (["lowercase", "lower"], inAny [lowercaseLetters, otherLowercase]),
  (["uppercase", "upper"], inAny [uppercaseLetters, otherUppercase]),
  (["cased"], inAny (casedLetters ++ [otherLowercase, otherUppercase])),
  (["caseignorable", "ci"],
    inAny [nonspacingMarks, enclosingMarks, formats, modifierLetters, modifierSymbols, wordInner]),
  (["whitespace", "wspace", "space"], .space),
  (["asciihexdigit", "ahex"], .hexDigits),
  (["hexdigit", "hex"],
    .unionAll [.hexDigits, .range '\uff10' '\uff19', .range '\uff21' '\uff26',
      .range '\uff41' '\uff46']),
  (["joincontrol", "joinc"], .range '\u200c' '\u200d'),
  (["regionalindicator", "ri"], .range (Char.ofNat 0x1F1E6) (Char.ofNat 0x1F1FF)),
  (["idstart", "ids"], idStart),
  (["idcontinue", "idc"], idContinue),
  (["xidstart", "xids"], .inter idStart (.compl (.table unstableStart))),
  (["xidcontinue", "xidc"], .inter idContinue (.compl (.table unstableContinue))),
  (["graphemeextend", "grext"], graphemeExtend),
  (["graphemebase", "grbase"], graphemeBase),
  (["bidicontrol", "bidic"], .table bidiControls),
  (["bidimirrored", "bidim"], .table bidiMirrored),
  (["dash"], .table dashes),
  (["hyphen"], .table hyphens),
  (["defaultignorablecodepoint", "di"], .table ignorables),
  (["deprecated", "dep"], .table deprecated),
  (["diacritic", "dia"], .table diacritics),
  (["extender", "ext"], .table extenders),
  (["emoji"], .table emoji),
  (["emojicomponent", "ecomp"], .table emojiComponents),
  (["emojimodifier", "emod"], .table emojiModifiers),
  (["emojimodifierbase", "ebase"], .table emojiBases),
  (["emojipresentation", "epres"], .table emojiShown),
  (["extendedpictographic", "extpict"], .table pictographs),
  (["ideographic", "ideo"], .table ideographs),
  (["unifiedideograph", "uideo"], .table unifiedIdeographs),
  (["idsbinaryoperator", "idsb"], .table binaryDescriptions),
  (["idstrinaryoperator", "idst"], .table ternaryDescriptions),
  (["radical"], .table radicals),
  (["logicalorderexception", "loe"], .table logicalExceptions),
  (["math"], .table mathematical),
  (["noncharactercodepoint", "nchar"], .table noncharacters),
  (["patternsyntax", "patsyn"], .table patternSyntax),
  (["patternwhitespace", "patws"], .table patternSpace),
  (["prependedconcatenationmark", "pcm"], .table prependedMarks),
  (["quotationmark", "qmark"], .table quotationMarks),
  (["sentenceterminal", "sterm"], .table sentenceEnds),
  (["terminalpunctuation", "term"], .table terminals),
  (["softdotted", "sd"], .table softDotted),
  (["variationselector", "vs"], .table variationSelectors)]

/-! ## Names -/

/-- The set that a list has under a name. -/
def lookUp (sets : List (List String × CharSet)) (name : String) : Option CharSet :=
  (sets.find? (·.1.contains name)).map (·.2)

/-- What a written name stands for: small letters without separators, and no `is` in front. -/
def normalName (written : List Char) : String :=
  let isPrefixed := (written.take 2).map Char.toLower == ['i', 's']
  let kept := (if isPrefixed then written.drop 2 else written).filter fun c =>
    !([' ', '_', '-'].contains c) && c.toNat < 128
  let name := String.ofList (kept.map Char.toLower)
  if isPrefixed && name == "c" then "isc" else name

/-- The set with a name of its own. -/
def named? (written : List Char) : Option CharSet :=
  let name := normalName written
  lookUp properties name <|> lookUp categories name <|> (scriptNumber? name).map script

/-- The set of the characters for which a property has a value. -/
def valued? (property value : List Char) : Option CharSet :=
  let value := normalName value
  match normalName property with
  | "generalcategory" | "gc" => lookUp categories value
  | "script" | "sc" => (scriptNumber? value).map script
  | "scriptextensions" | "scx" => (scriptNumber? value).map scriptUse
  | _ => none

/-- The parts of a text before and after the first occurrence of a mark. -/
def splitAt? (mark : List Char) : List Char → Option (List Char × List Char)
  | [] => none
  | c :: cs =>
    if mark.isPrefixOf (c :: cs) then some ([], (c :: cs).drop mark.length)
    else (splitAt? mark cs).map fun (front, back) => (c :: front, back)

/-- The set that the text between braces stands for: a name, or a property and its value.  With
`!=` between these it is the set of all other characters; the second component says so. -/
def query? (written : List Char) : Option (CharSet × Bool) :=
  match splitAt? ['!', '='] written, splitAt? [':'] written, splitAt? ['='] written with
  | some (property, value), _, _ => (valued? property value).map (·, true)
  | none, some (property, value), _ => (valued? property value).map (·, false)
  | none, none, some (property, value) => (valued? property value).map (·, false)
  | none, none, none => (named? written).map (·, false)

/-- The set behind an escaped `p`, one letter or a text between braces, with the number of
characters read. -/
def read (written : List Char) : Option ((CharSet × Bool) × Nat) :=
  match written with
  | '\x7b' :: rest =>
    let name := rest.takeWhile (· != '\x7d')
    if name.length < rest.length then (query? name).map (·, name.length + 2) else none
  | c :: _ => (named? [c]).map fun s => ((s, false), 1)
  | [] => none

end Highlighting.Regex.Property
