import ScatterDex.Recipients.Csv

/-!
# Recipient rows of the wizard

The lines Pay builds from an address book, a file or a resumed run, and the rows its wizard reads off the text.
-/

namespace ScatterDex

open Recipients

namespace Pay.Format

structure RecipientRow where
  name : List Char
  address : List Char
  amount : List Char
  deriving DecidableEq

/-- `name,address,amount` -/
def formatRecipientCsvRow (name address amount : List Char) : List Char := csvSafeLabel name ++ ',' :: (address ++ ',' :: amount)

def recipientsToCsv (rows : List RecipientRow) : List Char :=
  List.intercalate ['\n'] (rows.map fun r => formatRecipientCsvRow r.name r.address r.amount)

def rowOfLine (line : List Char) : RecipientRow :=
  let parts := splitCsvLine line
  ⟨parts.getD 0 [], parts.getD 1 [], parts.getD 2 []⟩

/-- The rows of the wizard's text -/
def recipientRows (csv : List Char) : List RecipientRow :=
  ((((csv.splitOn '\n').map trimText).filter (· ≠ [])).map rowOfLine).filter fun r => r.address ≠ []

end Pay.Format

end ScatterDex
