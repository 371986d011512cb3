import FormulaEntry.Number
import FormulaEntry.Text.Quoted

/-! Data that may be assigned to a control or sent through a channel, of the
right kind or not, with the two ways to write them: `text?` as they are, and
`shown?` with quotes around texts. Neither exists where an integer of too many
digits occurs. -/

namespace FormulaEntry

inductive Datum where
  | none
  | undetermined
  | number (n : Number)
  | text (s : String)
  | flag (b : Bool)
  | list (items : List Datum)
  | bytes (bs : List UInt8)
  | object
deriving Inhabited

namespace Text

def escapeByte (quote : Char) (b : UInt8) : List Char :=
  if b < 0x7f then escapeChar quote (Char.ofNat b.toNat) else escapeCode b.toNat

def quotedBytes (bs : List UInt8) : List Char :=
  let quote := quoteFor (bs.map fun b => Char.ofNat b.toNat)
  'b' :: quote :: bs.flatMap (escapeByte quote) ++ [quote]

end Text

namespace Datum

mutual

def shown? : Datum → Option String
  | none => some "None"
  | undetermined => some "UNDETERMINED"
  | number n => n.text?
  | text s => some (Text.quoted s)
  | flag b => some (if b then "True" else "False")
  | list items => (shownItems? items).map fun parts => "[" ++ ", ".intercalate parts ++ "]"
  | bytes bs => some (String.ofList (Text.quotedBytes bs))
  | object => some "<object>"

def shownItems? : List Datum → Option (List String)
  | [] => some []
  | d :: ds => do return (← shown? d) :: (← shownItems? ds)

end

def text? : Datum → Option String
  | text s => some s
  | d => d.shown?

/-- Whether a condition takes the datum for true. -/
def isTruthy : Datum → Bool
  | none | undetermined => false
  | number n => !n.isZero
  | text s => !s.isEmpty
  | flag b => b
  | list items => !items.isEmpty
  | bytes bs => !bs.isEmpty
  | object => true

end Datum

end FormulaEntry
