import SoundLaw.Regex.Syntax

/-!
The names of character properties. Case, blanks, hyphens and underscores in a name do not count.
-/
namespace SoundLaw.Regex

def standardName (name : Text) : Text :=
  (name.filter fun c => c ≠ '_' && c ≠ '-' && c ≠ ' ').map Char.toUpper

def categoryNames : List (String × Property) := [
  ("L", .major .letter), ("LETTER", .major .letter), ("LC", .cased), ("L&", .cased),
  ("CASEDLETTER", .cased), ("LU", .category .lu), ("UPPERCASELETTER", .category .lu),
  ("LL", .category .ll), ("LOWERCASELETTER", .category .ll), ("LT", .category .lt),
  ("TITLECASELETTER", .category .lt), ("LM", .category .lm), ("MODIFIERLETTER", .category .lm),
  ("LO", .category .lo), ("OTHERLETTER", .category .lo),
  ("M", .major .mark), ("MARK", .major .mark), ("COMBININGMARK", .major .mark),
  ("MN", .category .mn), ("NONSPACINGMARK", .category .mn), ("MC", .category .mc),
  ("SPACINGMARK", .category .mc), ("ME", .category .me), ("ENCLOSINGMARK", .category .me),
  ("N", .major .number), ("NUMBER", .major .number), ("ND", .category .nd),
  ("DECIMALNUMBER", .category .nd), ("DIGIT", .category .nd), ("NL", .category .nl),
  ("LETTERNUMBER", .category .nl), ("NO", .category .no), ("OTHERNUMBER", .category .no),
  ("P", .major .punctuation), ("PUNCTUATION", .major .punctuation),
  ("PUNCT", .major .punctuation), ("PC", .category .pc), ("CONNECTORPUNCTUATION", .category .pc),
  ("PD", .category .pd), ("DASHPUNCTUATION", .category .pd), ("PS", .category .ps),
  ("OPENPUNCTUATION", .category .ps), ("PE", .category .pe), ("CLOSEPUNCTUATION", .category .pe),
  ("PI", .category .pi), ("INITIALPUNCTUATION", .category .pi), ("PF", .category .pf),
  ("FINALPUNCTUATION", .category .pf), ("PO", .category .po), ("OTHERPUNCTUATION", .category .po),
  ("S", .major .symbol), ("SYMBOL", .major .symbol), ("SM", .category .sm),
  ("MATHSYMBOL", .category .sm), ("SC", .category .sc), ("CURRENCYSYMBOL", .category .sc),
  ("SK", .category .sk), ("MODIFIERSYMBOL", .category .sk), ("SO", .category .so),
  ("OTHERSYMBOL", .category .so), ("Z", .major .separator), ("SEPARATOR", .major .separator),
  ("ZS", .category .zs), ("SPACESEPARATOR", .category .zs), ("ZL", .category .zl),
  ("LINESEPARATOR", .category .zl), ("ZP", .category .zp), ("PARAGRAPHSEPARATOR", .category .zp),
  ("C", .major .other), ("OTHER", .major .other), ("CC", .category .cc), ("CONTROL", .category .cc),
  ("CNTRL", .category .cc), ("CF", .category .cf), ("FORMAT", .category .cf),
  ("CN", .category .cn), ("UNASSIGNED", .category .cn), ("CO", .category .co),
  ("PRIVATEUSE", .category .co), ("CS", .category .cs), ("SURROGATE", .category .cs),
  ("ASSIGNED", .assigned)]

def otherNames : List (String × Property) := [
  ("ALPHABETIC", .alphabetic), ("ALPHA", .alphabetic), ("UPPERCASE", .uppercase),
  ("UPPER", .uppercase), ("LOWERCASE", .lowercase), ("LOWER", .lowercase),
  ("WHITESPACE", .space), ("WSPACE", .space), ("SPACE", .space), ("ALNUM", .alphanumeric),
  ("BLANK", .blank), ("GRAPH", .graphic), ("PRINT", .printable), ("WORD", .word),
  ("XDIGIT", .hexDigit), ("ANY", .any), ("ASCII", .ascii), ("BASICLATIN", .ascii),
  ("POSIXALNUM", .alphanumeric), ("POSIXDIGIT", .asciiDigit), ("POSIXPUNCT", .punctuation),
  ("POSIXXDIGIT", .hexDigit)]

/-- The names that mean less inside a bracketed class name than elsewhere. -/
def narrowNames : List String := ["ALNUM", "DIGIT", "PUNCT", "XDIGIT"]

def findName (table : List (String × Property)) (name : Text) : Option Property :=
  (table.find? fun entry => entry.1.toList = name).map Prod.snd

def namedProperty? (name : Text) (narrow : Bool) : Option Property :=
  let standard := standardName name
  let standard : Text :=
    if narrow && narrowNames.any (fun n => n.toList = standard) then "POSIX" ++ standard
    else standard
  (findName categoryNames standard).or
    ((findName otherNames standard).or
      (if "IS".toList.isPrefixOf standard then findName otherNames (standard.drop 2) else none))

def isCategoryQualifier (name : Text) : Bool :=
  ["GC", "GENERALCATEGORY", "CATEGORY"].any fun n => n.toList = standardName name

end SoundLaw.Regex
