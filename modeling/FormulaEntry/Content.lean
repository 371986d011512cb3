import FormulaEntry.Derivation

/-! What a control holds: a value, the text it is written as, and whether the text
is valid. Every edit determines all three at once; `changes` says which of them an
edit's notifications are about. -/

namespace FormulaEntry

inductive Value where
  | empty
  /-- The text does not give a value. -/
  | undetermined
  | number (n : Number)
deriving DecidableEq

namespace Value

def differs : Value → Value → Bool
  | number m, number n => m.differs n
  | v, w => v != w

def toDatum : Value → Datum
  | empty => .none
  | undetermined => .undetermined
  | number n => .number n

end Value

inductive Field where
  | value
  | text
  | isValid
deriving DecidableEq, Repr

/-- The order in which fields are notified. -/
def Field.all : List Field := [.value, .text, .isValid]

structure Content where
  value : Value
  text : String
  isValid : Bool
deriving DecidableEq

/-- An assignment of a text, of a value, or of something that is no edit at all. -/
inductive Edit where
  | text (d : Datum)
  | value (d : Datum)
  | other (d : Datum)

/-- Why an edit left the content invalid. -/
inductive Remark where
  | notDerived (text : String) (reason : Fault)
  | nonFinite (x : Double)

def Remark.message : Remark → String
  | notDerived text reason =>
    Text.quoted text ++ " did not derive a value: " ++ reason.message
  | nonFinite x => "non-finite value " ++ x.text ++ " kept as invalid text"

namespace Content

def initial : Content := ⟨.empty, "", true⟩

def invalid (text : String) : Content := ⟨.undetermined, text, false⟩

def ofDerived (value : Option Number) (text : String) : Content :=
  ⟨value.elim .empty .number, text, true⟩

def ofText (d : Derivation) (text : String) : Except Fault (Content × Option Remark) :=
  if text = "" then .ok (⟨.empty, "", true⟩, none)
  else match d.derive text with
    | .ok value => .ok (ofDerived value text, none)
    | .error e =>
      if e.isContent then .ok (invalid text, some (.notDerived text e)) else .error e

def ofNumber (n : Number) : Except Fault (Content × Option Remark) := do
  let text ← orTooLong n.text?
  match n with
  | .int _ => return (⟨.number n, text, true⟩, none)
  | .double x =>
    if x.isFinite then return (⟨.number n, text, true⟩, none)
    else return (invalid text, some (.nonFinite x))

/-- The content an edit makes, whatever was there before. -/
def ofEdit (d : Derivation) : Edit → Except Fault (Content × Option Remark)
  | .text (.text s) => ofText d s
  | .text _ => .error .textExpected
  | .value .none => .ok (⟨.empty, "", true⟩, none)
  | .value (.number n) => ofNumber n
  | .value _ => .error .numberExpected
  | .other thing => do .error (.notAnEdit (← orTooLong thing.shown?))

def get (c : Content) : Field → Datum
  | .value => c.value.toDatum
  | .text => .text c.text
  | .isValid => .flag c.isValid

def differsAt (old new : Content) : Field → Bool
  | .value => old.value.differs new.value
  | .text => old.text != new.text
  | .isValid => old.isValid != new.isValid

def changes (old new : Content) : List Field := Field.all.filter (old.differsAt new)

/-- The value as a result: a question mark stands for an invalid text. -/
def resultText? (c : Content) : Option String :=
  if c.isValid then
    match c.value with
    | .empty => some ""
    | v => v.toDatum.text?
  else some "?"

end Content

end FormulaEntry
