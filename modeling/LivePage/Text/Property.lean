import LivePage.Text.Blank
import LivePage.Text.Category
import LivePage.Text.Table.Break
import LivePage.Text.Table.Property

/-!
# Properties

The properties of the characters of Unicode 16 that patterns may ask for. Some have tables, and
the others follow from these and from the general categories.
-/

namespace LivePage.Text

def whiteSpace : CharSet :=
  ⟨[(0x9, 0xd), (0x20, 0x20), (0x85, 0x85), (0xa0, 0xa0), (0x1680, 0x1680), (0x2000, 0x200a),
    (0x2028, 0x2029), (0x202f, 0x202f), (0x205f, 0x205f), (0x3000, 0x3000)]⟩

def lowercase : CharSet := ofTables [Table.lowercaseLetter, Table.otherLowercase]

def uppercase : CharSet := ofTables [Table.uppercaseLetter, Table.otherUppercase]

def cased : CharSet := .unions [lowercase, uppercase, .ofTable Table.titlecaseLetter]

def alphabetic : CharSet :=
  .unions [letters, ofTables [Table.letterNumber, Table.otherAlphabetic]]

/-- The characters of a table of breaks under a name. -/
def breakNamed (table : List (List String × String)) (name : String) : Option CharSet :=
  (table.find? fun (names, _) => names.contains name).map fun (_, t) => .ofTable t

/-- Characters that stand inside words without being letters of them. -/
def caseIgnorable : CharSet :=
  .union (ofTables [Table.nonspacingMark, Table.enclosingMark, Table.format,
      Table.modifierLetter, Table.modifierSymbol])
    (.unions (["midletter", "midnumlet", "singlequote"].filterMap
      (breakNamed Table.wordBreaks)))

/-- Characters that are part of the syntax of patterns start and continue no name. -/
def nameChars (s : CharSet) : CharSet :=
  s.difference (ofTables [Table.patternSyntax, Table.patternWhiteSpace])

def idStart : CharSet :=
  nameChars (.unions [letters, ofTables [Table.letterNumber, Table.otherIDStart]])

def idContinue : CharSet :=
  nameChars (.unions [idStart, ofTables [Table.nonspacingMark, Table.spacingMark,
    Table.decimalNumber, Table.connectorPunctuation, Table.otherIDContinue]])

def graphemeExtend : CharSet :=
  ofTables [Table.enclosingMark, Table.nonspacingMark, Table.otherGraphemeExtend]

def graphemeBase : CharSet :=
  CharSet.all.difference (.unions [unassigned, graphemeExtend, ofTables [Table.control,
    Table.format, Table.privateUse, Table.lineSeparator, Table.paragraphSeparator]])

def defaultIgnorable : CharSet :=
  (ofTables [Table.otherDefaultIgnorableCodePoint, Table.format,
    Table.variationSelector]).difference
    (.unions [whiteSpace, .ofTable Table.prependedConcatenationMark,
      ⟨[(0xfff9, 0xfffb), (0x13430, 0x13440)]⟩])

/-- Properties with a table, under their names. -/
def tabledProperties : List (List String × String) :=
  [(["asciihexdigit", "ahex"], Table.asciiHexDigit),
    (["bidicontrol", "bidic"], Table.bidiControl),
    (["bidimirrored", "bidim"], Table.bidiMirrored),
    (["changeswhencasefolded", "cwcf"], Table.changesWhenCasefolded),
    (["changeswhenlowercased", "cwl"], Table.changesWhenLowercased),
    (["changeswhentitlecased", "cwt"], Table.changesWhenTitlecased),
    (["changeswhenuppercased", "cwu"], Table.changesWhenUppercased),
    (["dash"], Table.dash),
    (["deprecated", "dep"], Table.deprecated),
    (["diacritic", "dia"], Table.diacritic),
    (["emoji"], Table.emoji),
    (["emojicomponent", "ecomp"], Table.emojiComponent),
    (["emojimodifier", "emod"], Table.emojiModifier),
    (["emojimodifierbase", "ebase"], Table.emojiModifierBase),
    (["emojipresentation", "epres"], Table.emojiPresentation),
    (["extendedpictographic", "extpict"], Table.extendedPictographic),
    (["extender", "ext"], Table.extender),
    (["graphemelink", "grlink"], Table.graphemeLink),
    (["hexdigit", "hex"], Table.hexDigit),
    (["hyphen"], Table.hyphen),
    (["idsbinaryoperator", "idsb"], Table.idsBinaryOperator),
    (["idstrinaryoperator", "idst"], Table.idsTrinaryOperator),
    (["idsunaryoperator", "idsu"], Table.idsUnaryOperator),
    (["idcompatmathcontinue"], Table.idCompatMathContinue),
    (["idcompatmathstart"], Table.idCompatMathStart),
    (["ideographic", "ideo"], Table.ideographic),
    (["joincontrol", "joinc"], Table.joinControl),
    (["logicalorderexception", "loe"], Table.logicalOrderException),
    (["modifiercombiningmark", "mcm"], Table.modifierCombiningMark),
    (["noncharactercodepoint", "nchar"], Table.noncharacterCodePoint),
    (["otheralphabetic", "oalpha"], Table.otherAlphabetic),
    (["otherdefaultignorablecodepoint", "odi"], Table.otherDefaultIgnorableCodePoint),
    (["othergraphemeextend", "ogrext"], Table.otherGraphemeExtend),
    (["otheridcontinue", "oidc"], Table.otherIDContinue),
    (["otheridstart", "oids"], Table.otherIDStart),
    (["otherlowercase", "olower"], Table.otherLowercase),
    (["othermath", "omath"], Table.otherMath),
    (["otheruppercase", "oupper"], Table.otherUppercase),
    (["patternsyntax", "patsyn"], Table.patternSyntax),
    (["patternwhitespace", "patws"], Table.patternWhiteSpace),
    (["prependedconcatenationmark", "pcm"], Table.prependedConcatenationMark),
    (["quotationmark", "qmark"], Table.quotationMark),
    (["radical"], Table.radical),
    (["regionalindicator", "ri"], Table.regionalIndicator),
    (["sentenceterminal", "sterm"], Table.sentenceTerminal),
    (["softdotted", "sd"], Table.softDotted),
    (["terminalpunctuation", "term"], Table.terminalPunctuation),
    (["unifiedideograph", "uideo"], Table.unifiedIdeograph),
    (["variationselector", "vs"], Table.variationSelector)]

/-- The characters with a property; letters of a name have been lowered, and its separators left
out. -/
def property? (name : String) : Option CharSet :=
  match tabledProperties.find? fun (names, _) => names.contains name with
  | some (_, table) => some (.ofTable table)
  | none =>
    match name with
    | "alphabetic" | "alpha" => some alphabetic
    | "caseignorable" | "ci" => some caseIgnorable
    | "cased" => some cased
    | "changeswhencasemapped" | "cwcm" =>
      some (ofTables [Table.changesWhenLowercased, Table.changesWhenTitlecased,
        Table.changesWhenUppercased])
    | "defaultignorablecodepoint" | "di" => some defaultIgnorable
    | "graphemebase" | "grbase" => some graphemeBase
    | "graphemeextend" | "grext" => some graphemeExtend
    | "idcontinue" | "idc" => some idContinue
    | "idstart" | "ids" => some idStart
    | "lowercase" | "lower" => some lowercase
    | "math" => some (ofTables [Table.mathSymbol, Table.otherMath])
    | "uppercase" | "upper" => some uppercase
    | "whitespace" | "wspace" | "space" => some whiteSpace
    | "xidcontinue" | "xidc" => some (idContinue.difference (.ofTable Table.notXidContinue))
    | "xidstart" | "xids" => some (idStart.difference (.ofTable Table.notXidStart))
    | _ => none

/-- Letters, marks, digits and connectors. -/
def wordChars : CharSet :=
  .unions [alphabetic, marks, decimals,
    ofTables [Table.connectorPunctuation, Table.joinControl]]

end LivePage.Text
