import FormulaEntry.Datum
import FormulaEntry.Formula.Error

/-! Everything that can go wrong outside of a well-formed edit, with its message. -/

namespace FormulaEntry

inductive Fault where
  | formula (e : FormulaError)
  | notNumber (text : String)
  | notFinite (text : String)
  | resultNotFinite (text : String)
  | intTooLong
  /-- A derivation's own complaint about the text. -/
  | content (message : String)
  | textExpected
  | numberExpected
  | notAnEdit (shown : String)
  | notCallable
  | hostMissing (path : Option String)
  | controlDestroyed (name : String)
  | channelDestroyed (name : String)
  /-- Raised by a subscriber or a derivation for reasons of its own. -/
  | raised (message : String)
deriving DecidableEq, Repr

namespace Fault

def message : Fault → String
  | formula e => e.message
  | notNumber text => "Not a number: " ++ Text.quoted text
  | notFinite text => "Not a finite number: " ++ Text.quoted text
  | resultNotFinite text => "Formula result is not finite: " ++ Text.quoted text
  | intTooLong =>
    "Exceeds the limit (4300 digits) for integer string conversion; " ++
      "use sys.set_int_max_str_digits() to increase the limit"
  | content message => message
  | textExpected => "Property 'text' should be a string"
  | numberExpected => "Property 'value' should be a number"
  | notAnEdit shown => "Unsupported edit: " ++ shown
  | notCallable => "callback must be callable"
  | hostMissing none => "Host element not found"
  | hostMissing (some path) => "Host element not found: " ++ Text.quoted path
  | controlDestroyed name => name ++ " has been destroyed"
  | channelDestroyed name => name ++ ": observer has been destroyed"
  | raised message => message

/-- Whether the fault says that a text is no good as content, rather than that
something was used in the wrong way. -/
def isContent : Fault → Bool
  | formula _ | notNumber _ | notFinite _ | resultNotFinite _ | intTooLong | content _ => true
  | _ => false

end Fault

/-- A text that exists unless an integer has too many digits. -/
def orTooLong (text? : Option String) : Except Fault String :=
  text?.elim (.error .intTooLong) .ok

end FormulaEntry
