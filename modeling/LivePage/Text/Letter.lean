import LivePage.Text.Property

/-!
# Letters and digits

The property `Alphabetic` and, for numbers of every kind, the category `N`, for the characters of
Unicode 17. Both are the familiar classes on ASCII.
-/

namespace LivePage.Text

def isAscii (c : Char) : Bool := c.toNat < 0x80

def letterChars : CharSet := .union alphabetic (.ofTable Table.recentAlphabetic)

def numberChars : CharSet := .union numbers (.ofTable Table.recentNumber)

def isAlphabetic (c : Char) : Bool := if isAscii c then c.isAlpha else letterChars.contains c

def isNumeric (c : Char) : Bool := if isAscii c then c.isDigit else numberChars.contains c

def isAlphanumeric (c : Char) : Bool := isAlphabetic c || isNumeric c

/-- Decimal digits, for the characters of Unicode 16. -/
def isDecimal (c : Char) : Bool := if isAscii c then c.isDigit else decimals.contains c

end LivePage.Text
