import LivePage.Text.Property
import LivePage.Text.Table.Age
import LivePage.Text.Table.Extension
import LivePage.Text.Table.Script

/-!
# Classes of characters by name

A class has the name of a property, a general category or a script, or names a property and one
of its values. Names are compared without regard to case and separators.
-/

namespace LivePage.Text

/-- A name as names are compared: small letters of ASCII, without separators and without an `is`
in front. The name `isc` is that of a property without characters, and not that of a category. -/
def plainName (cs : List Char) : String :=
  let small := cs.map Char.toLower
  let bare := if ['i', 's'].isPrefixOf small then small.drop 2 else small
  let kept := bare.filter fun c => c.toNat < 0x80 && c != ' ' && c != '_' && c != '-'
  if bare.length < small.length && kept == ['c'] then "isc" else String.ofList kept

/-- The row of a table of names that has a name. -/
def rowNamed (table : List (List String × String)) (name : String) :
    Option (List String × String) :=
  table.find? fun (names, _) => names.contains name

def script? (name : String) : Option CharSet :=
  (rowNamed Table.scripts name).map fun (_, table) => .ofTable table

/-- The characters that all scripts with characters of their own share with others. -/
def sharedChars : CharSet := ofTables (Table.shared.map (·.2))

/-- The characters that a script uses; those that it shares with others are no more common. -/
def scriptExtension? (name : String) : Option CharSet :=
  (rowNamed Table.scripts name).map fun (names, table) =>
    if names.contains "common" || names.contains "inherited" then
      (CharSet.ofTable table).difference sharedChars
    else
      ofTables (table :: (Table.shared.filter fun (long, _) => long.any names.contains).map (·.2))

/-- The characters that a version of Unicode has, those of earlier ones included. -/
def age? (name : String) : Option CharSet :=
  let before := Table.ages.takeWhile fun (names, _) => !names.contains name
  match Table.ages.drop before.length with
  | (_, table) :: _ => some (ofTables (table :: before.map (·.2)))
  | [] => none

def graphemeBreak? (name : String) : Option CharSet :=
  match name with
  | "extend" | "ex" => some (.union graphemeExtend (.ofTable Table.emojiModifier))
  | "lvt" => some ((CharSet.span '가' '힣').difference ((breakNamed Table.graphemeBreaks "lv").getD
      .empty))
  | name => breakNamed Table.graphemeBreaks name

def wordBreak? (name : String) : Option CharSet :=
  match name with
  | "extend" => some (.union graphemeExtend (ofTables [Table.spacingMark, Table.emojiModifier]))
  | name => breakNamed Table.wordBreaks name

/-- Georgian letters have cases, but sentences do not start by them. -/
def georgian : CharSet := ⟨[(0x10d0, 0x10fa), (0x10fd, 0x10ff), (0x1c90, 0x1cba), (0x1cbd, 0x1cbf)]⟩

def sentenceLower : CharSet := (lowercase.difference graphemeExtend).difference georgian

def sentenceUpper : CharSet :=
  (CharSet.union uppercase (.ofTable Table.titlecaseLetter)).difference georgian

def sentenceExtend : CharSet :=
  .unions [graphemeExtend, .ofTable Table.spacingMark, .singleton '\u200d']

def sentenceBreak? (name : String) : Option CharSet :=
  match name with
  | "lower" | "lo" => some sentenceLower
  | "upper" | "up" => some sentenceUpper
  | "extend" | "ex" => some sentenceExtend
  | "numeric" | "nu" =>
    some (.union ((breakNamed Table.wordBreaks "numeric").getD .empty) (.singleton '\u066c'))
  | "oletter" | "le" =>
    some ((CharSet.union alphabetic (.singleton '\u05f3')).difference
      (.unions [sentenceLower, sentenceUpper, sentenceExtend]))
  | "sp" => some (whiteSpace.difference ⟨[(0xa, 0xa), (0xd, 0xd), (0x85, 0x85), (0x2028, 0x2029)]⟩)
  | name => breakNamed Table.sentenceBreaks name

/-- The class of a plain name of a property, a general category or a script. -/
def classNamed? (name : String) : Option CharSet :=
  (property? name <|> category? name) <|> script? name

/-- The class of a value of a property, both by their plain names. -/
def classOfValue? (property value : String) : Option CharSet :=
  match property with
  | "gc" | "generalcategory" => category? value
  | "sc" | "script" => script? value
  | "scx" | "scriptextensions" => scriptExtension? value
  | "age" => age? value
  | "gcb" | "graphemeclusterbreak" => graphemeBreak? value
  | "wb" | "wordbreak" => wordBreak? value
  | "sb" | "sentencebreak" => sentenceBreak? value
  | _ => none

end LivePage.Text
