import LivePage.Text.CharSet
import LivePage.Text.Table.Category

/-!
# General categories

The general categories of the characters of Unicode 16, and the groups that they form.
-/

namespace LivePage.Text

/-- The categories that are no groups, under their short and long names. Characters without one
of them are unassigned. -/
def categories : List (List String × String) :=
  [(["lu", "uppercaseletter"], Table.uppercaseLetter),
    (["ll", "lowercaseletter"], Table.lowercaseLetter),
    (["lt", "titlecaseletter"], Table.titlecaseLetter),
    (["lm", "modifierletter"], Table.modifierLetter),
    (["lo", "otherletter"], Table.otherLetter),
    (["mn", "nonspacingmark"], Table.nonspacingMark),
    (["mc", "spacingmark"], Table.spacingMark),
    (["me", "enclosingmark"], Table.enclosingMark),
    (["nd", "decimalnumber", "digit"], Table.decimalNumber),
    (["nl", "letternumber"], Table.letterNumber),
    (["no", "othernumber"], Table.otherNumber),
    (["pc", "connectorpunctuation"], Table.connectorPunctuation),
    (["pd", "dashpunctuation"], Table.dashPunctuation),
    (["ps", "openpunctuation"], Table.openPunctuation),
    (["pe", "closepunctuation"], Table.closePunctuation),
    (["pi", "initialpunctuation"], Table.initialPunctuation),
    (["pf", "finalpunctuation"], Table.finalPunctuation),
    (["po", "otherpunctuation"], Table.otherPunctuation),
    (["sm", "mathsymbol"], Table.mathSymbol),
    (["sc", "currencysymbol"], Table.currencySymbol),
    (["sk", "modifiersymbol"], Table.modifierSymbol),
    (["so", "othersymbol"], Table.otherSymbol),
    (["zs", "spaceseparator"], Table.spaceSeparator),
    (["zl", "lineseparator"], Table.lineSeparator),
    (["zp", "paragraphseparator"], Table.paragraphSeparator),
    (["cc", "control", "cntrl"], Table.control),
    (["cf", "format"], Table.format),
    (["co", "privateuse"], Table.privateUse)]

def ofTables (tables : List String) : CharSet := .unions (tables.map .ofTable)

/-- The characters of the categories whose short names start with one of some letters. -/
def categoryGroup (initials : List Char) : CharSet :=
  ofTables ((categories.filter fun (names, _) =>
    names.any fun n => n.length = 2 && initials.any fun c => n.startsWith c).map (·.2))

def letters : CharSet := categoryGroup ['l']
def marks : CharSet := categoryGroup ['m']
def decimals : CharSet := .ofTable Table.decimalNumber
def numbers : CharSet := categoryGroup ['n']
def assigned : CharSet := ofTables (categories.map (·.2))
def unassigned : CharSet := assigned.negate

/-- The characters of a category or of a group of them; letters of a name have been lowered, and
its separators left out. -/
def category? (name : String) : Option CharSet :=
  match categories.find? fun (names, _) => names.contains name with
  | some (_, table) => some (.ofTable table)
  | none =>
    match name with
    | "l" | "letter" => some letters
    | "lc" | "casedletter" =>
      some (ofTables [Table.uppercaseLetter, Table.lowercaseLetter, Table.titlecaseLetter])
    | "m" | "mark" | "combiningmark" => some marks
    | "n" | "number" => some numbers
    | "p" | "punctuation" | "punct" => some (categoryGroup ['p'])
    | "s" | "symbol" => some (categoryGroup ['s'])
    | "z" | "separator" => some (categoryGroup ['z'])
    | "c" | "other" => some (categoryGroup ['l', 'm', 'n', 'p', 's', 'z']).negate
    | "cn" | "unassigned" => some unassigned
    | "any" => some .all
    | "assigned" => some assigned
    | "ascii" => some (.span '\x00' '\x7f')
    | _ => none

end LivePage.Text
